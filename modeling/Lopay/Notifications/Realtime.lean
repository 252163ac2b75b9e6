import Lopay.Events.Delivery
import Lopay.Notifications.Devices

/-!
# From an operation to a socket

The notification service and the gateways of all instances as one system: what an operation asks
to be pushed is what an instance writes. A notification that has arrived on a socket was meant for
the user of that socket by the operation it comes from.
-/

namespace Lopay

open Transactions

namespace Notifications

variable {webAppUrl : Option String} {start : Inbox → Prop} {t : Center}

/-! ### One system -/

def Call.socketPush? : Call → Option (Id × SocketPayload)
  | .pushNotification userId payload => some (userId, payload)
  | _ => none

/-- What a step of the service hands to the gateway. -/
def pushed? (t : Center) (e : Event Operation Answer) : Option (Id × SocketPayload) :=
  (t.mover? e).bind fun p => p.prog.request?.bind Call.socketPush?

/-- An instance writes what it is handed. -/
def emitted (t : Center) (e : Event Operation Answer) (node : Nat) :
    List (Events.Event SocketPayload) :=
  ((pushed? t e).map fun r => .emit node (.pushNotification (some r.1) r.2)).toList

/-- The gateway pushes no notification by itself. -/
def Quiet (e : Events.Event SocketPayload) : Prop :=
  ∀ node userId payload, e ≠ .emit node (.pushNotification userId payload)

/-- What the service has come to, and what the gateways have been through. -/
inductive Joint (webAppUrl : Option String) (start : Inbox → Prop) :
    Center → List (Events.Event SocketPayload) → Prop where
  | init {s : Inbox} : start s → Joint webAppUrl start (.init s) []
  | operation {t u : Center} {es : List (Events.Event SocketPayload)}
    (e : Event Operation Answer) (node : Nat) : Joint webAppUrl start t es →
    t.step store (Operation.program webAppUrl) e = some u →
    Joint webAppUrl start u (es ++ emitted t e node)
  | gateway {t : Center} {es : List (Events.Event SocketPayload)}
    (e : Events.Event SocketPayload) : Joint webAppUrl start t es → Quiet e →
    Joint webAppUrl start t (es ++ [e])

theorem Joint.reach {es : List (Events.Event SocketPayload)} (h : Joint webAppUrl start t es) :
    Sys.Reach store (Operation.program webAppUrl) (fun _ _ _ => True) start t := by
  induction h with
  | init hs => exact .init hs
  | operation e node _ hstep ih => exact .step e ih hstep trivial
  | gateway e _ _ ih => exact ih

/-- Some operation that has been on its way to `t` has asked for this push, and has seen that it
    is for this user. -/
def Asked (webAppUrl : Option String) (start : Inbox → Prop) (t : Center) (userId : Id)
    (payload : SocketPayload) : Prop :=
  ∃ v, Sys.Reach store (Operation.program webAppUrl) (fun _ _ _ => True) start v ∧
    Sys.Leads store (Operation.program webAppUrl) (fun _ _ _ => True) v t ∧
    ∃ p ∈ v.procs, p.prog.request? = some (.pushNotification userId payload) ∧
      ∃ s ∈ p.ctx.seen, p.job.Addresses userId s

theorem Asked.step {userId : Id} {payload : SocketPayload} {u : Center}
    {e : Event Operation Answer} (h : Asked webAppUrl start t userId payload)
    (hstep : t.step store (Operation.program webAppUrl) e = some u) :
    Asked webAppUrl start u userId payload := by
  obtain ⟨v, hv, hlead, hasked⟩ := h
  exact ⟨v, hv, .step e hlead hstep trivial, hasked⟩

theorem asked_of_emitted {userId : Option Id} {payload : SocketPayload}
    {e : Event Operation Answer} {node node' : Nat}
    (ht : Sys.Reach store (Operation.program webAppUrl) (fun _ _ _ => True) start t)
    (h : .emit node (.pushNotification userId payload) ∈ emitted t e node') :
    ∃ id, userId = some id ∧ Asked webAppUrl start t id payload := by
  obtain ⟨⟨id, payload'⟩, hpushed, heq⟩ := Option.map_eq_some_iff.mp (Option.mem_toList.mp h)
  cases heq
  obtain ⟨p, hmover, hrequest⟩ := Option.bind_eq_some_iff.mp hpushed
  obtain ⟨c, hc, hpush⟩ := Option.bind_eq_some_iff.mp hrequest
  have hcall : c = .pushNotification id payload' := by
    unfold Call.socketPush? at hpush
    split at hpush
    · cases hpush
      rfl
    · cases hpush
  rw [hcall] at hc
  cases e with
  | spawn o => cases hmover
  | move pid ch =>
    have haddressed := socket_reaches_recipient ht hmover hc
    exact ⟨id, rfl, t, ht, .refl, p, List.mem_of_getElem? hmover, hc, haddressed⟩

/-- Every notification that a gateway has been asked to push has been asked for by an operation. -/
theorem Joint.asked {es : List (Events.Event SocketPayload)} (h : Joint webAppUrl start t es)
    {node : Nat} {userId : Option Id} {payload : SocketPayload}
    (he : .emit node (.pushNotification userId payload) ∈ es) :
    ∃ id, userId = some id ∧ Asked webAppUrl start t id payload := by
  induction h with
  | init hs => cases he
  | operation e node' hjoint hstep ih =>
    rcases List.mem_append.mp he with hold | hnew
    · obtain ⟨id, hid, hasked⟩ := ih hold
      exact ⟨id, hid, hasked.step hstep⟩
    · obtain ⟨id, hid, hasked⟩ := asked_of_emitted hjoint.reach hnew
      exact ⟨id, hid, hasked.step hstep⟩
  | gateway e hjoint hquiet ih =>
    rcases List.mem_append.mp he with hold | hnew
    · exact ih hold
    · exact absurd (List.mem_singleton.mp hnew).symm (hquiet node userId payload)

/-! ### What arrives -/

/-- An envelope with a notification in it has been written by a push for the user. -/
theorem push_of_emittedFor {es : List (Events.Event SocketPayload)} {user : Events.SessionUser}
    {payload : SocketPayload} (h : ⟨.notification, some payload⟩ ∈ Events.emittedFor user es) :
    ∃ node userId, .emit node (.pushNotification userId payload) ∈ es ∧
      given userId = some user.id := by
  obtain ⟨e, he, henvelope⟩ := List.mem_flatMap.mp h
  cases e with
  | emit node e =>
    cases e with
    | pushNotification userId payload' =>
      simp only [Events.Event.envelopesFor, Events.Emission.envelopesFor] at henvelope
      split at henvelope
      · next hgiven =>
        cases List.mem_singleton.mp henvelope
        exact ⟨node, userId, he, hgiven⟩
      · cases henvelope
    | emitPaymentsChanged targets => cases (List.mem_replicate.mp henvelope).2
    | emitEnrollmentsChanged targets => cases (List.mem_replicate.mp henvelope).2
  | start | connect | session | join | close | relay | lose => cases henvelope

def quiet : Events.Event SocketPayload → Bool
  | .emit _ (.pushNotification _ _) => false
  | _ => true

theorem quiet_sound {e : Events.Event SocketPayload} (h : quiet e = true) : Quiet e := by
  rintro node userId payload rfl
  cases h

theorem Joint.gateways {es more : List (Events.Event SocketPayload)}
    (h : Joint webAppUrl start t es) (hmore : more.all quiet = true) :
    Joint webAppUrl start t (es ++ more) := by
  induction more using List.reverseRecOn with
  | nil =>
    rw [List.append_nil]
    exact h
  | append_singleton more e ih =>
    rw [List.all_append, Bool.and_eq_true] at hmore
    rw [← List.append_assoc]
    refine .gateway e (ih hmore.1) (quiet_sound ?_)
    simpa using hmore.2

/-- What a schedule of the service hands to the gateway of one instance. -/
def emittedAll (webAppUrl : Option String) (node : Nat) :
    List (Event Operation Answer) → Center → List (Events.Event SocketPayload)
  | [], _ => []
  | e :: ops, t => emitted t e node ++
      ((t.step store (Operation.program webAppUrl) e).map (emittedAll webAppUrl node ops)).getD []

theorem Joint.operations {ops : List (Event Operation Answer)} {u : Center} (node : Nat)
    {es : List (Events.Event SocketPayload)} (h : Joint webAppUrl start t es)
    (hrun : Sys.exec store (Operation.program webAppUrl) (fun _ _ _ => true) ops t = some u) :
    Joint webAppUrl start u (es ++ emittedAll webAppUrl node ops t) := by
  induction ops generalizing t es with
  | nil =>
    cases hrun
    rw [emittedAll, List.append_nil]
    exact h
  | cons e ops ih =>
    obtain ⟨v, hstep, -, hrest⟩ := Sys.exec_cons hrun
    rw [emittedAll, hstep, Option.map_some, Option.getD_some, ← List.append_assoc]
    exact ih (.operation e node h hstep) hrest

/-- The app of the parent has connected. -/
def connected : List (Events.Event SocketPayload) :=
  [.start 0, .connect 0 ⟨some "Bearer token", none, none, none⟩,
    .session 0 (.ok (some ⟨"parent", none, none⟩)), .join 0 true]

end Notifications

end Lopay
