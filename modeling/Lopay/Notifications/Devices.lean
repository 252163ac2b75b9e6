import Lopay.Notifications.Keeping
import Lopay.Transactions.Follow

/-!
# Whose devices a message reaches

A token goes on sending to a device after somebody else has signed in there. In any interleaving a
message goes only to devices that were its user's when they were looked up, a device that has been
given up is not sent the user's messages by any call that comes later, and nobody but the user and
Firebase takes a device away.
-/

namespace Lopay

open Transactions

namespace Notifications

variable {webAppUrl : Option String} {start : Inbox → Prop} {t u : Center}
  {p : Proc Operation Inbox Write Answer (Except Err Reply)} {pid : Nat}

/-- What a statement does to the row of a token. -/
theorem Effect.deviceToken {y : Context} {o : Operation} {ws : List Write} (h : Effect y o ws)
    (token : String) :
    (store.applyAll ws y.now).deviceTokens.lookup token = y.now.deviceTokens.lookup token ∨
    (∃ userId platform, o = .register userId token platform ∧
      (store.applyAll ws y.now).deviceTokens.lookup token = some { userId, platform }) ∨
    (store.applyAll ws y.now).deviceTokens.lookup token = none ∧
      ((∃ userId, o = .unregister userId token ∧ Owned userId token y.now) ∨
        Rejected y.log token) := by
  cases h with
  | told => exact .inl (congrArg (AList.lookup token) (deviceTokens_put id))
  | markedAll =>
    exact .inl (congrArg (AList.lookup token) (deviceTokens_put Notification.read))
  | marked | account => exact .inl rfl
  | @pruned _ tokens hdead =>
    rw [deviceTokens_pruned]
    split
    · next hmem => exact .inr (.inr ⟨rfl, .inr (hdead token hmem)⟩)
    · exact .inl rfl
  | registered userId token' platform =>
    simp only [Store.applyAll_cons, Store.applyAll_nil, store_apply, Write.apply,
      Table.lookup_insert_ite]
    split
    · next heq => exact .inr (.inl ⟨userId, platform, by rw [heq], rfl⟩)
    · exact .inl rfl
  | @unregistered userId token' howned =>
    simp only [Store.applyAll_cons, Store.applyAll_nil, store_apply, Write.apply,
      Table.lookup_erase_ite]
    split
    · next heq => exact .inr (.inr ⟨rfl, .inl ⟨userId, by rw [heq], heq ▸ howned⟩⟩)
    · exact .inl rfl

/-! ### Runs -/

/-- Two parents and one who has left. -/
def household : Inbox where
  users := [⟨"parent", ⟨.PARENT, none⟩⟩, ⟨"other", ⟨.PARENT, none⟩⟩,
    ⟨"gone", ⟨.PARENT, some 0⟩⟩].toAList
  notifications := ∅
  deviceTokens := ∅

/-- Nothing fails, unless Firebase does. -/
def answering (firebase : Bool) (n : Nat) : Choice Answer where
  fault := false
  answer := fun
    | .now => n
    | .uuid => Nat.repr n
    | .rowOrder _ => []
    | .countFirst => true
    | .pushNotification _ _ => ()
    | .sendEachForMulticast tokens _ =>
      if firebase then .ok (tokens.map fun _ => ⟨true, none⟩) else .error "unavailable"

/-- Process `pid` runs `o` for `n` steps with nobody in between. -/
def attending (pid : Nat) (o : Operation) (n : Nat) : List (Event Operation Answer) :=
  .spawn o :: (List.range n).map fun i => .move pid (answering true i)

def told (userId : Id) : Operation :=
  .create
    { userId
      title := "Payment confirmed"
      message := "Thank you."
      type := none
      link := some "/notifications" }

theorem reach_of_events {es : List (Event Operation Answer)}
    (h : Sys.exec store (Operation.program webAppUrl) (fun _ _ _ => true) es (.init household) =
      some t) :
    Sys.Reach store (Operation.program webAppUrl) (fun _ _ _ => True) (fun _ => True) t :=
  Sys.reach_of_exec (fun _ _ _ _ => trivial) (.init trivial) h

/-- The tokens that a request sends to. -/
def sent? : Call → Option (List String × PushMessage)
  | .sendEachForMulticast tokens message => some (tokens, message)
  | _ => none

theorem sent?_eq_some {c : Call} {tokens : List String} {message : PushMessage}
    (h : sent? c = some (tokens, message)) : c = .sendEachForMulticast tokens message := by
  unfold sent? at h
  split at h
  · cases h
    rfl
  · cases h

/-! ### Devices -/

/-- Every message that is sent goes to tokens that the call has read as those of one user, who it
    has seen to be one the message is for. -/
theorem push_reaches_recipient
    (ht : Sys.Reach store (Operation.program webAppUrl) (fun _ _ _ => True) start t)
    (hp : t.procs[pid]? = some p) {tokens : List String} {message : PushMessage}
    (hsend : p.prog.request? = some (.sendEachForMulticast tokens message)) :
    ∃ userId, (∃ s ∈ p.ctx.seen, p.job.Addresses userId s) ∧
      ∃ s ∈ p.ctx.seen, ∀ token ∈ tokens, Owned userId token s :=
  (ht.good (discipline webAppUrl _) fun _ _ => trivial).asks hp hsend

/-- The parent is told on the device that has been registered. -/
theorem push_reaches_recipient_registered : ∃ (t : Center) (p : _) (tokens : _) (message : _),
    Sys.exec store (Operation.program none) (fun _ _ _ => true)
      (attending 0 (.register "parent" "device" "web") 1 ++ attending 1 (told "parent") 6)
      (.init household) = some t ∧ t.procs[1]? = some p ∧ "device" ∈ tokens ∧
    p.prog.request? = some (.sendEachForMulticast tokens message) ∧
    ∃ userId, (∃ s ∈ p.ctx.seen, p.job.Addresses userId s) ∧
      ∃ s ∈ p.ctx.seen, ∀ token ∈ tokens, Owned userId token s := by
  have hruns : ((Sys.exec store (Operation.program none) (fun _ _ _ => true)
      (attending 0 (.register "parent" "device" "web") 1 ++ attending 1 (told "parent") 6)
      (.init household)).any fun t => t.procs[1]?.any fun p => (p.prog.request?.bind sent?).any
        fun r => decide ("device" ∈ r.1)) = true := by
    decide +kernel
  rcases (Option.any_eq_true _ _).mp hruns with ⟨t, ht, hany⟩
  rcases (Option.any_eq_true _ _).mp hany with ⟨p, hp, hany⟩
  rcases (Option.any_eq_true _ _).mp hany with ⟨⟨tokens, message⟩, hrequest, hdevice⟩
  rcases Option.bind_eq_some_iff.mp hrequest with ⟨c, hc, hsent⟩
  rw [sent?_eq_some hsent] at hc
  exact ⟨t, p, tokens, message, ht, hp, of_decide_eq_true hdevice, hc,
    push_reaches_recipient (reach_of_events ht) hp hc⟩

/-- What is written to the sockets of a user is meant for that user. -/
theorem socket_reaches_recipient
    (ht : Sys.Reach store (Operation.program webAppUrl) (fun _ _ _ => True) start t)
    (hp : t.procs[pid]? = some p) {userId : Id} {payload : SocketPayload}
    (hsend : p.prog.request? = some (.pushNotification userId payload)) :
    ∃ s ∈ p.ctx.seen, p.job.Addresses userId s :=
  (ht.good (discipline webAppUrl _) fun _ _ => trivial).asks hp hsend

/-- Nothing registers the device for the user. -/
def NotRegistered (userId : Id) (token : String) (s : Center) (e : Event Operation Answer)
    (_ : Center) : Prop :=
  ∀ q ∈ s.mover? e, ∀ platform, q.job ≠ .register userId token platform

/-- The operation registers the device for the user. -/
def Operation.registers (userId : Id) (token : String) : Operation → Bool
  | register userId' token' _ => userId' = userId && token' = token
  | _ => false

/-- The same, as a test. -/
def notRegistered (userId : Id) (token : String) (s : Center) (e : Event Operation Answer)
    (_ : Center) : Bool :=
  (s.mover? e).all fun q => !q.job.registers userId token

theorem notRegistered_sound {userId : Id} {token : String} {s s' : Center}
    {e : Event Operation Answer} (h : notRegistered userId token s e s' = true) :
    NotRegistered userId token s e s' := by
  rintro q hq platform hjob
  rw [Option.mem_def] at hq
  rw [notRegistered, hq, Option.all_some, hjob] at h
  simp [Operation.registers] at h

/-- Once a device is not the user's and as long as it is not registered for the user again, every
    later message to it is one for somebody else, whose device it has been since. -/
theorem released_device
    (ht : Sys.Reach store (Operation.program webAppUrl) (fun _ _ _ => True) start t)
    {userId : Id} {token : String} (hgone : ¬ Owned userId token t.store)
    (hu : Sys.Leads store (Operation.program webAppUrl) (NotRegistered userId token) t u)
    (hpid : t.procs.length ≤ pid) (hp : u.procs[pid]? = some p) {tokens : List String}
    {message : PushMessage}
    (hsend : p.prog.request? = some (.sendEachForMulticast tokens message))
    (htoken : token ∈ tokens) :
    ∃ other, other ≠ userId ∧ (∃ s ∈ p.ctx.seen, p.job.Addresses other s) ∧
      ∃ s ∈ p.ctx.seen, Owned other token s := by
  have hgood := ht.good (discipline webAppUrl _) fun _ _ => trivial
  have hstays : ∀ v, Sys.Leads store (Operation.program webAppUrl) (NotRegistered userId token)
      t v → ¬ Owned userId token v.store := by
    intro v hv
    induction hv with
    | refl => exact hgone
    | @step v w e hlead hstep hguard ih =>
      have hv := hlead.good (discipline webAppUrl _) hgood
      rcases hv.committed (discipline webAppUrl _) hstep hguard with hsame | hmoved
      · rw [hsame]
        exact ih
      · rcases hmoved with ⟨mover, ch, m, ws, rfl, hm, -, hnow, heffect, hstore⟩
        have hdevice := Effect.deviceToken heffect token
        rw [hnow] at hdevice
        rintro ⟨row, hrow, howner⟩
        rw [hstore] at hrow
        rcases hdevice with hkept | ⟨owner, platform, hjob, hput⟩ | ⟨hnone, -⟩
        · exact ih ⟨row, hkept ▸ hrow, howner⟩
        · rw [hput] at hrow
          rw [← Option.some.inj hrow] at howner
          exact hguard m hm platform (howner ▸ hjob)
        · rw [hnone] at hrow
          cases hrow
  rcases (hu.good (discipline webAppUrl _) hgood).asks hp hsend with
    ⟨other, haddressed, s, hs, howned⟩
  refine ⟨other, ?_, haddressed, s, hs, howned token htoken⟩
  rintro rfl
  have hsince := hu.since (P := fun v => ¬ Owned other token v) hstays hpid hp
  exact hsince.seen s hs (howned token htoken)

/-- The device goes to the other parent, who is then told something. -/
theorem released_device_handed_on : ∃ (t u : Center) (p : _) (tokens : _) (message : _),
    Sys.exec store (Operation.program none) (fun _ _ _ => true)
      (attending 0 (.register "parent" "device" "web") 1 ++
        attending 1 (.register "other" "device" "web") 1) (.init household) = some t ∧
    Sys.exec store (Operation.program none) (notRegistered "parent" "device")
      (attending 2 (told "other") 6) t = some u ∧ u.procs[2]? = some p ∧
    p.prog.request? = some (.sendEachForMulticast tokens message) ∧ "device" ∈ tokens ∧
    ∃ other, other ≠ "parent" ∧ (∃ s ∈ p.ctx.seen, p.job.Addresses other s) ∧
      ∃ s ∈ p.ctx.seen, Owned other "device" s := by
  have hruns : ((Sys.exec store (Operation.program none) (fun _ _ _ => true)
      (attending 0 (.register "parent" "device" "web") 1 ++
        attending 1 (.register "other" "device" "web") 1) (.init household)).any fun t =>
      decide (¬ Owned "parent" "device" t.store) && (decide (t.procs.length ≤ 2) &&
      (Sys.exec store (Operation.program none) (notRegistered "parent" "device")
        (attending 2 (told "other") 6) t).any fun u => u.procs[2]?.any fun p =>
          (p.prog.request?.bind sent?).any fun r => decide ("device" ∈ r.1))) = true := by
    decide +kernel
  rcases (Option.any_eq_true _ _).mp hruns with ⟨t, ht, hboth⟩
  rw [Bool.and_eq_true, Bool.and_eq_true] at hboth
  rcases hboth with ⟨hgone, hlength, hany⟩
  rcases (Option.any_eq_true _ _).mp hany with ⟨u, hu, hany⟩
  rcases (Option.any_eq_true _ _).mp hany with ⟨p, hp, hany⟩
  rcases (Option.any_eq_true _ _).mp hany with ⟨⟨tokens, message⟩, hrequest, hdevice⟩
  rcases Option.bind_eq_some_iff.mp hrequest with ⟨c, hc, hsent⟩
  rw [sent?_eq_some hsent] at hc
  have hleads : Sys.Leads store (Operation.program none) (NotRegistered "parent" "device") t u :=
    Sys.Leads.of_exec (fun _ _ _ => notRegistered_sound) .refl hu
  exact ⟨t, u, p, tokens, message, ht, hu, hp, hc, of_decide_eq_true hdevice,
    released_device (reach_of_events ht) (of_decide_eq_true hgone) hleads
      (of_decide_eq_true hlength) hp hc (of_decide_eq_true hdevice)⟩

/-- A device changes hands only by being registered; it is taken away only by its user, or by a
    call that Firebase has told that it does not know the token. -/
theorem device_taken_away
    (ht : Sys.Reach store (Operation.program webAppUrl) (fun _ _ _ => True) start t)
    {e : Event Operation Answer} (hstep : t.step store (Operation.program webAppUrl) e = some u)
    {token : String} {row : DeviceToken} (hrow : t.store.deviceTokens.lookup token = some row)
    (hchanged : u.store.deviceTokens.lookup token ≠ some row) :
    ∃ m, t.mover? e = some m ∧
      ((∃ userId platform, m.job = .register userId token platform ∧
        u.store.deviceTokens.lookup token = some { userId, platform }) ∨
      u.store.deviceTokens.lookup token = none ∧
        (m.job = .unregister row.userId token ∨ Rejected m.ctx.log token)) := by
  have hgood := ht.good (discipline webAppUrl _) fun _ _ => trivial
  rcases hgood.committed (discipline webAppUrl fun _ _ _ => True) hstep trivial with hsame | hmoved
  · rw [hsame] at hchanged
    exact absurd hrow hchanged
  · rcases hmoved with ⟨mover, ch, m, ws, rfl, hm, -, hnow, heffect, hstore⟩
    have hdevice := Effect.deviceToken heffect token
    rw [hnow] at hdevice
    rw [hstore] at hchanged ⊢
    refine ⟨m, hm, ?_⟩
    rcases hdevice with hkept | hput | ⟨hnone, htaken⟩
    · rw [hkept] at hchanged
      exact absurd hrow hchanged
    · exact .inl hput
    · refine .inr ⟨hnone, ?_⟩
      rcases htaken with ⟨userId, hjob, old, hold, howner⟩ | hrejected
      · rw [Option.some.inj (hrow.symm.trans hold), howner]
        exact .inl hjob
      · exact .inr hrejected

/-- The parent signs out. -/
theorem device_taken_away_signed_out : ∃ (t u : Center) (row : DeviceToken),
    Sys.exec store (Operation.program none) (fun _ _ _ => true)
      (attending 0 (.register "parent" "device" "web") 1 ++
        [.spawn (.unregister "parent" "device")]) (.init household) = some t ∧
    t.step store (Operation.program none) (.move 1 (answering true 0)) = some u ∧
    t.store.deviceTokens.lookup "device" = some row ∧
    u.store.deviceTokens.lookup "device" ≠ some row ∧
    ∃ m, t.mover? (.move 1 (answering true 0)) = some m ∧
      ((∃ userId platform, m.job = .register userId "device" platform ∧
        u.store.deviceTokens.lookup "device" = some { userId, platform }) ∨
      u.store.deviceTokens.lookup "device" = none ∧
        (m.job = .unregister row.userId "device" ∨ Rejected m.ctx.log "device")) := by
  have hruns : ((Sys.exec store (Operation.program none) (fun _ _ _ => true)
      (attending 0 (.register "parent" "device" "web") 1 ++
        [.spawn (.unregister "parent" "device")]) (.init household)).any fun t =>
      (t.step store (Operation.program none) (.move 1 (answering true 0))).any fun u =>
        (t.store.deviceTokens.lookup "device").any fun row =>
          decide (u.store.deviceTokens.lookup "device" ≠ some row)) = true := by
    decide +kernel
  rcases (Option.any_eq_true _ _).mp hruns with ⟨t, ht, hany⟩
  rcases (Option.any_eq_true _ _).mp hany with ⟨u, hu, hany⟩
  rcases (Option.any_eq_true _ _).mp hany with ⟨row, hrow, hchanged⟩
  exact ⟨t, u, row, ht, hu, hrow, of_decide_eq_true hchanged,
    device_taken_away (reach_of_events ht) hu hrow (of_decide_eq_true hchanged)⟩

/-! ### Rows -/

/-- What a statement does to a row that is there. -/
theorem Effect.notification {y : Context} {o : Operation} {ws : List Write} (h : Effect y o ws)
    {k : Id} {row : Notification} (hrow : y.now.notifications.lookup k = some row) :
    (store.applyAll ws y.now).notifications.lookup k = some row ∨
    (store.applyAll ws y.now).notifications.lookup k = some row.read ∧
      (o = .markAsRead k row.userId ∨ o = .markAllAsRead row.userId) := by
  cases h with
  | told _ _ hnew =>
    refine .inl ((notifications_told fun hk => ?_).trans hrow)
    rcases List.mem_map.mp hk with ⟨r, hr, rfl⟩
    rw [hnew r hr] at hrow
    cases hrow
  | pruned =>
    rw [notifications_pruned]
    exact .inl hrow
  | registered | unregistered | account => exact .inl hrow
  | @marked notificationId userId old hold howner =>
    by_cases hk : k = notificationId
    · rw [hk, hold] at hrow
      rw [← Option.some.inj hrow, hk]
      refine .inr ⟨AList.lookup_insert _, .inl ?_⟩
      rw [howner]
    · exact .inl ((AList.lookup_insert_ne hk).trans hrow)
  | @markedAll userId rows hmine =>
    rw [notifications_marked (fun r hr => (mem_notificationsOf.mp (hmine r hr)).1) hrow]
    split
    · next hk =>
      rcases List.mem_map.mp hk with ⟨r, hr, rfl⟩
      rcases mem_notificationsOf.mp (hmine r hr) with ⟨hsame, howner⟩
      rw [Option.some.inj (hrow.symm.trans hsame), howner]
      exact .inr ⟨rfl, .inr rfl⟩
    · exact .inl rfl

/-- The user has asked for the row to be marked as read. -/
def Marked (s : Center) (k userId : Id) : Prop :=
  ∃ q ∈ s.procs, q.job = .markAsRead k userId ∨ q.job = .markAllAsRead userId

theorem Marked.step {e : Event Operation Answer} {k userId : Id} (h : Marked t k userId)
    (hstep : t.step store (Operation.program webAppUrl) e = some u) : Marked u k userId := by
  rcases h with ⟨q, hq, hjob⟩
  rcases Sys.step_jobs hstep hq with ⟨q', hq', hsame⟩
  exact ⟨q', hq', hsame ▸ hjob⟩

/-- A notification stays for ever, as it was written but for being marked as read, and it is marked
    only because its own user has asked for that. -/
theorem notifications_kept
    (ht : Sys.Reach store (Operation.program webAppUrl) (fun _ _ _ => True) start t)
    (hu : Sys.Leads store (Operation.program webAppUrl) (fun _ _ _ => True) t u) {k : Id}
    {row : Notification} (hrow : t.store.notifications.lookup k = some row) :
    ∃ row', u.store.notifications.lookup k = some row' ∧
      (row' = row ∨ row' = row.read ∧ Marked u k row.userId) := by
  have hgood := ht.good (discipline webAppUrl _) fun _ _ => trivial
  induction hu with
  | refl => exact ⟨row, hrow, .inl rfl⟩
  | @step v w e hlead hstep hguard ih =>
    rcases ih with ⟨row', hrow', hsofar⟩
    have hv := hlead.good (discipline webAppUrl _) hgood
    have hstay : w.store.notifications.lookup k = some row' →
        ∃ row', w.store.notifications.lookup k = some row' ∧
          (row' = row ∨ row' = row.read ∧ Marked w k row.userId) := by
      intro hsame
      exact ⟨row', hsame, hsofar.imp_right fun h => ⟨h.1, h.2.step hstep⟩⟩
    rcases hv.committed (discipline webAppUrl fun _ _ _ => True) hstep hguard with hsame | hmoved
    · exact hstay (by rw [hsame]; exact hrow')
    · rcases hmoved with ⟨mover, ch, m, ws, rfl, hm, -, hnow, heffect, hstore⟩
      have hchange := Effect.notification heffect (hnow.symm ▸ hrow')
      rw [hnow] at hchange
      rw [hstore] at hstay ⊢
      rcases hchange with hsame | ⟨hread, hjob⟩
      · exact hstay hsame
      · have hmark : Marked w k row'.userId :=
          Marked.step ⟨m, List.mem_of_getElem? hm, hjob⟩ hstep
        refine ⟨row'.read, hread, .inr ?_⟩
        rcases hsofar with rfl | ⟨rfl, -⟩
        · exact ⟨rfl, hmark⟩
        · exact ⟨rfl, hmark⟩

/-- The parent reads what has been told. -/
theorem notifications_kept_read : ∃ (t u : Center) (row : Notification),
    Sys.exec store (Operation.program none) (fun _ _ _ => true) (attending 0 (told "parent") 6)
      (.init household) = some t ∧
    Sys.exec store (Operation.program none) (fun _ _ _ => true)
      (attending 1 (.markAsRead "0" "parent") 2) t = some u ∧
    t.store.notifications.lookup "0" = some row ∧
    u.store.notifications.lookup "0" ≠ some row ∧
    ∃ row', u.store.notifications.lookup "0" = some row' ∧
      (row' = row ∨ row' = row.read ∧ Marked u "0" row.userId) := by
  have hruns : ((Sys.exec store (Operation.program none) (fun _ _ _ => true)
      (attending 0 (told "parent") 6) (.init household)).any fun t =>
      (Sys.exec store (Operation.program none) (fun _ _ _ => true)
        (attending 1 (.markAsRead "0" "parent") 2) t).any fun u =>
          (t.store.notifications.lookup "0").any fun row =>
            decide (u.store.notifications.lookup "0" ≠ some row)) = true := by
    decide +kernel
  rcases (Option.any_eq_true _ _).mp hruns with ⟨t, ht, hany⟩
  rcases (Option.any_eq_true _ _).mp hany with ⟨u, hu, hany⟩
  rcases (Option.any_eq_true _ _).mp hany with ⟨row, hrow, hchanged⟩
  have hleads : Sys.Leads store (Operation.program none) (fun _ _ _ => True) t u :=
    Sys.Leads.of_exec (fun _ _ _ _ => trivial) .refl hu
  exact ⟨t, u, row, ht, hu, hrow, of_decide_eq_true hchanged,
    notifications_kept (reach_of_events ht) hleads hrow⟩

end Notifications

end Lopay
