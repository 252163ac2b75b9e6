import Lopay.Events.Sockets
import Mathlib.Data.List.Perm.Subperm

/-!
# What a socket receives

Whatever order handshakes, answers of Better Auth, joins, closings, writes and what Redis brings
come in: a socket receives only what was written for the user of its own session, and no copy
more than was written; and a socket that has been let in and stays receives all of what its own
instance writes for that user.
-/

namespace Lopay.Events

variable {π : Type} {es : List (Event π)} {s t u : Cluster π} {c c' : Socket π} {k : Nat}

/-! ### No copy too many -/

def Event.envelopesFor (user : SessionUser) : Event π → List (RealtimeEnvelope π)
  | .emit _ e => e.envelopesFor user
  | _ => []

/-- What has been written for a user so far. -/
def emittedFor (user : SessionUser) (es : List (Event π)) : List (RealtimeEnvelope π) :=
  es.flatMap (·.envelopesFor user)

/-- What Redis has still to bring to an instance. -/
def pendingFor (node : Nat) (pending : List (Nat × Packet π)) : List (Packet π) :=
  (pending.filter fun q => q.1 = node).map (·.2)

theorem pendingFor_append (node : Nat) (pending more : List (Nat × Packet π)) :
    pendingFor node (pending ++ more) = pendingFor node pending ++ pendingFor node more := by
  simp [pendingFor]

theorem pendingFor_map (node : Nat) (p : Packet π) (nodes : List Nat) :
    pendingFor node (nodes.map fun other => (other, p)) =
      List.replicate (nodes.count node) p := by
  induction nodes with
  | nil => rfl
  | cons other nodes ih =>
    rw [List.map_cons, ← List.singleton_append, pendingFor_append, ih, List.count_cons]
    by_cases hother : other = node
    · simp [pendingFor, hother, List.replicate_succ]
    · simp [pendingFor, hother]

/-- Another instance gets one copy, the one that writes gets none from Redis. -/
theorem pendingFor_publishes (hnodup : s.started.Nodup) (node other : Nat)
    (ps : List (Packet π)) :
    (pendingFor other (s.publishes node ps)).Sublist (if other = node then [] else ps) := by
  have hone : ∀ p : Packet π, (pendingFor other (s.published node p)).Sublist
      (if other = node then [] else [p]) := by
    intro p
    unfold Cluster.published
    split
    · rw [pendingFor_map]
      split
      · next hother =>
        have hcount : (s.started.filter (· ≠ node)).count other = 0 :=
          List.count_eq_zero.mpr (by simp [hother])
        rw [hcount]
        exact List.Sublist.refl _
      · exact List.replicate_sublist_replicate p |>.mpr
          (List.nodup_iff_count_le_one.mp (hnodup.filter _) other)
    · exact List.nil_sublist _
  unfold Cluster.publishes
  split
  · induction ps with
    | nil => exact List.nil_sublist _
    | cons p ps ih =>
      rw [List.flatMap_cons, pendingFor_append]
      refine ((hone p).append ih).trans ?_
      split <;> exact List.Sublist.refl _
  · exact List.nil_sublist _

theorem pendingFor_eraseIdx {j : Nat} {q : Nat × Packet π} {pending : List (Nat × Packet π)}
    (hq : pending[j]? = some q) (node : Nat) :
    (pendingFor node [q] ++ pendingFor node (pending.eraseIdx j)).Perm
      (pendingFor node pending) := by
  obtain ⟨hj, rfl⟩ := List.getElem?_eq_some_iff.mp hq
  rw [← pendingFor_append]
  exact ((List.getElem_cons_eraseIdx_perm hj).filter _).map _

theorem packetsFor_perm (user : SessionUser) {ps qs : List (Packet π)} (h : ps.Perm qs) :
    (packetsFor user ps).Perm (packetsFor user qs) :=
  (h.filter _).map _

theorem packetsFor_sublist (user : SessionUser) {ps qs : List (Packet π)} (h : ps.Sublist qs) :
    (packetsFor user ps).Sublist (packetsFor user qs) :=
  (h.filter _).map _

/-- What a user has received on a socket, and what Redis may still bring there, has been written
    for the user. -/
structure Tally (es : List (Event π)) (s : Cluster π) : Prop where
  nodup : s.started.Nodup
  pending : ∀ user node,
    (packetsFor user (pendingFor node s.pending)).Subperm (emittedFor user es)
  received : ∀ (user : SessionUser) (k : Nat) (c : Socket π), s.sockets[k]? = some c →
    (c.data = none ∨ c.data = some (identity user)) →
    (c.received ++ packetsFor user (pendingFor c.node s.pending)).Subperm (emittedFor user es)

theorem Step.pending_le {e : Event π} (hnodup : s.started.Nodup) (h : Step s e t)
    (user : SessionUser) (node : Nat) :
    (packetsFor user (pendingFor node t.pending)).Subperm
      (packetsFor user (pendingFor node s.pending) ++ e.envelopesFor user) := by
  cases h with
  | start | connect | session | join | close =>
    exact (List.sublist_append_left _ _).subperm
  | emit writer e =>
    rw [pendingFor_append, packetsFor_append]
    refine (List.Sublist.append_left ?_ _).subperm
    have hfew := packetsFor_sublist user (pendingFor_publishes hnodup writer node e.packets)
    rw [Event.envelopesFor, ← e.packetsFor_packets user]
    refine hfew.trans ?_
    split
    · exact List.nil_sublist _
    · exact List.Sublist.refl _
  | relay j q hq =>
    exact ((packetsFor_sublist user (((List.eraseIdx_sublist _ _).filter _).map _)).trans
      (List.sublist_append_left _ _)).subperm
  | lose j =>
    exact ((packetsFor_sublist user (((List.eraseIdx_sublist _ _).filter _).map _)).trans
      (List.sublist_append_left _ _)).subperm

/-- What a step brings to a socket comes from the event or from Redis, and is gone there. -/
theorem Step.brings_le {e : Event π} {user : SessionUser} (hnodup : s.started.Nodup)
    (h : Step s e t) (hc : c.Sound es s k)
    (hdata : c.data = none ∨ c.data = some (identity user)) :
    (c.brings s e ++ packetsFor user (pendingFor c.node t.pending)).Subperm
      (packetsFor user (pendingFor c.node s.pending) ++ e.envelopesFor user) := by
  have hpending := h.pending_le hnodup user c.node
  cases h with
  | start | connect | session | join | close | lose => exact hpending
  | emit writer e =>
    -- The own instance hands it over itself, the others wait for Redis.
    have hheard : (c.brings s (.emit writer e)).Sublist
        (if c.node = writer then packetsFor user e.packets else []) := by
      rw [Socket.brings]
      split
      · exact hc.heard hdata writer e.packets
      · exact List.nil_sublist _
    have hfew := packetsFor_sublist user (pendingFor_publishes hnodup writer c.node e.packets)
    rw [pendingFor_append, packetsFor_append, Event.envelopesFor, ← e.packetsFor_packets user]
    refine (List.perm_append_comm_assoc _ _ _).subperm.trans (List.Sublist.append_left ?_ _).subperm
    by_cases hown : c.node = writer
    · rw [if_pos hown] at hheard hfew
      rw [List.sublist_nil.mp hfew, List.append_nil]
      exact hheard
    · rw [if_neg hown] at hheard hfew
      rw [List.sublist_nil.mp hheard]
      exact hfew
  | relay j q hq =>
    have hperm := packetsFor_perm user (pendingFor_eraseIdx hq c.node)
    have hnothing : (Event.relay j : Event π).envelopesFor user = [] := rfl
    rw [packetsFor_append] at hperm
    rw [hnothing, List.append_nil, Socket.brings, hq, Option.map_some, Option.getD_some]
    refine (List.Sublist.append_right ?_ _).subperm.trans hperm.subperm
    refine (hc.heard hdata q.1 [q.2]).trans ?_
    split
    · next hnode => simp [pendingFor, hnode]
    · exact List.nil_sublist _

theorem Tally.step {e : Event π} (h : Tally es s) (hsound : AllSound es s) (hstep : Step s e t) :
    Tally (es ++ [e]) t where
  nodup := by
    cases hstep with
    | start node hdown =>
      exact List.nodup_append_comm.mp (List.nodup_cons.mpr ⟨hdown, h.nodup⟩)
    | connect | session | join | close | emit | relay | lose => exact h.nodup
  pending user node := by
    rw [emittedFor, List.flatMap_append, List.flatMap_singleton]
    exact (hstep.pending_le h.nodup user node).trans
      ((List.subperm_append_right _).mpr (h.pending user node))
  received user k c hk hdata := by
    rw [emittedFor, List.flatMap_append, List.flatMap_singleton]
    cases hbefore : s.sockets[k]? with
    | some c₀ =>
      have hc := hsound k c₀ hbefore
      rw [hstep.socket hbefore] at hk
      cases hk
      have hdata₀ : c₀.data = none ∨ c₀.data = some (identity user) := by
        rcases (hc.after_kept e).data with hnone | hsame
        · exact .inl hnone
        · rw [hsame] at hdata
          exact hdata
      rw [hc.after_received, (hc.after_kept e).node, List.append_assoc]
      refine ((List.subperm_append_left _).mpr (hstep.brings_le h.nodup hc hdata₀)).trans ?_
      rw [← List.append_assoc]
      exact (List.subperm_append_right _).mpr (h.received user k c₀ hbefore hdata₀)
    | none =>
      obtain ⟨node, hand, hup, rfl⟩ := hstep.opened hbefore hk
      have hempty : (Socket.opened node hand : Socket π).received = [] := by
        unfold Socket.opened
        split
        · exact Socket.disconnect_received _
        · rfl
      rw [hempty, List.nil_append]
      exact (hstep.pending_le h.nodup user _).trans
        ((List.subperm_append_right _).mpr (h.pending user _))

theorem tally_of_exec {redis : Bool} (h : (Cluster.init redis).exec es = some s) : Tally es s := by
  refine exec_induction (P := Tally) ⟨List.nodup_nil, ?_, ?_⟩ ?_ h
  · exact fun user node => List.nil_subperm
  · intro user k c hk
    simp [Cluster.init] at hk
  · exact fun es t e u ht ih hstep => ih.step (sound_of_exec ht) hstep

theorem owner_of_received {redis : Bool} (h : (Cluster.init redis).exec es = some s)
    (hk : s.sockets[k]? = some c) {envelope : RealtimeEnvelope π}
    (hreceived : envelope ∈ c.received) :
    ∃ user, .session k (.ok (some user)) ∈ es ∧ c.data = some (identity user) := by
  have hc := sound_of_exec h k c hk
  cases hdata : c.data with
  | none =>
    rw [hc.silent hdata] at hreceived
    cases hreceived
  | some d =>
    obtain ⟨user, hanswer, rfl⟩ := hc.data d hdata
    exact ⟨user, hanswer, rfl⟩

theorem received_le {redis : Bool} (h : (Cluster.init redis).exec es = some s)
    (hk : s.sockets[k]? = some c) {user : SessionUser} (hdata : c.data = some (identity user)) :
    c.received.Subperm (emittedFor user es) :=
  (List.sublist_append_left _ _).subperm.trans
    ((tally_of_exec h).received user k c hk (.inr hdata))

/-- Whatever a socket has received, Better Auth has said whose it is, and no copy of
    it is more than what has been written for that user. -/
theorem realtime_audience {redis : Bool} (h : (Cluster.init redis).exec es = some s)
    (hk : s.sockets[k]? = some c) {envelope : RealtimeEnvelope π}
    (hreceived : envelope ∈ c.received) :
    ∃ user, .session k (.ok (some user)) ∈ es ∧ c.data = some (identity user) ∧
      c.received.Subperm (emittedFor user es) := by
  obtain ⟨user, hanswer, hdata⟩ := owner_of_received h hk hreceived
  exact ⟨user, hanswer, hdata, received_le h hk hdata⟩

/-- A parent opens the app and is let in. -/
def arrival : List (Event String) :=
  [.start 0, .connect 0 ⟨some "Bearer token", none, none, none⟩,
    .session 0 (.ok (some ⟨"parent", none, none⟩)), .join 0 true]

/-- One notification for the parent, one for somebody else. -/
def news : List (Event String) :=
  [.emit 0 (.pushNotification (some "parent") "paid"),
    .emit 0 (.pushNotification (some "other") "reminder")]

theorem realtime_audience_parent : ∃ (s : Cluster String) (c : Socket String)
    (envelope : RealtimeEnvelope String),
    (Cluster.init false).exec (arrival ++ news) = some s ∧ s.sockets[0]? = some c ∧
    envelope ∈ c.received ∧
    ∃ user, .session 0 (.ok (some user)) ∈ arrival ++ news ∧ c.data = some (identity user) ∧
      c.received.Subperm (emittedFor user (arrival ++ news)) := by
  have hrun : ∃ s : Cluster String, (Cluster.init false).exec (arrival ++ news) = some s ∧
      ∃ c, s.sockets[0]? = some c ∧ c.received = [⟨.notification, some "paid"⟩] :=
    ⟨_, rfl, _, rfl, by decide⟩
  obtain ⟨s, hs, c, hc, hreceived⟩ := hrun
  have hpaid : (⟨.notification, some "paid"⟩ : RealtimeEnvelope String) ∈ c.received := by
    rw [hreceived]
    exact List.mem_cons_self
  exact ⟨s, c, _, hs, hc, hpaid, realtime_audience hs hc hpaid⟩

/-! ### No copy too few -/

/-- The socket of a user that has been let in and is still there. -/
structure Socket.Settled (user : SessionUser) (c : Socket π) : Prop where
  connected : c.connected = true
  stage : c.stage = .over
  data : c.data = some (identity user)
  rooms : c.rooms = (identity user).rooms

/-- What an instance itself has written for a user. -/
def Event.ownFor (node : Nat) (user : SessionUser) : Event π → List (RealtimeEnvelope π)
  | .emit writer e => if writer = node then e.envelopesFor user else []
  | _ => []

def writtenAt (node : Nat) (user : SessionUser) (es : List (Event π)) :
    List (RealtimeEnvelope π) :=
  es.flatMap (·.ownFor node user)

namespace Socket

variable {user : SessionUser}

theorem Sound.settled (h : c.Sound es s k) (hconnected : c.connected = true)
    (hstage : c.stage = .over) (hdata : c.data = some (identity user)) : c.Settled user where
  connected := hconnected
  stage := hstage
  data := hdata
  rooms := by
    have hfull := h.full hconnected
    rw [hstage, hdata] at hfull
    simpa [Stage.left] using hfull

theorem Settled.heard (h : c.Settled user) (node : Nat) (ps : List (Packet π)) :
    c.heard node ps = if c.node = node then packetsFor user ps else [] := by
  unfold Socket.heard hears packetsFor
  rw [h.connected, h.rooms]
  split
  · next hnode => simp [hnode]
  · next hnode => simp [hnode]

theorem Settled.hear (h : c.Settled user) (more : List (RealtimeEnvelope π)) :
    (c.hear more).Settled user :=
  ⟨h.connected, h.stage, h.data, h.rooms⟩

theorem Settled.after {e : Event π} (h : c.Settled user)
    (hconnected : (c.after s k e).connected = true) : (c.after s k e).Settled user := by
  rcases c.after_cases s k e with heq | ⟨answer, -, heq⟩ | ⟨ok, -, heq⟩ | ⟨-, heq⟩
  · rw [heq]
    exact h.hear _
  · have hanswered : c.answered answer = c := by
      unfold Socket.answered
      rw [h.stage]
    rw [heq, hanswered]
    exact h
  · have hjoined : c.joined ok = c := by
      unfold Socket.joined
      rw [h.stage]
    rw [heq, hjoined]
    exact h
  · rw [heq, disconnect_connected] at hconnected
    cases hconnected

/-- All that its own instance writes for the user is handed to the socket, and without
    Redis nothing else. -/
theorem Settled.brings (h : c.Settled user) (hup : c.node ∈ s.started) (e : Event π) :
    (e.ownFor c.node user).Sublist (c.brings s e) ∧
      (s.pending = [] → c.brings s e = e.ownFor c.node user) := by
  have hsame : c.brings s e = e.ownFor c.node user →
      (e.ownFor c.node user).Sublist (c.brings s e) ∧
        (s.pending = [] → c.brings s e = e.ownFor c.node user) :=
    fun heq => ⟨heq ▸ List.Sublist.refl _, fun _ => heq⟩
  cases e with
  | start | connect | session | join | close | lose => exact hsame rfl
  | emit writer e =>
    refine hsame ?_
    rw [Socket.brings, h.heard, Event.ownFor, e.packetsFor_packets]
    by_cases hnode : c.node = writer
    · rw [if_pos hnode, if_pos hnode.symm, if_pos (hnode ▸ hup)]
    · rw [if_neg hnode, if_neg (Ne.symm hnode), ite_self]
  | relay j =>
    refine ⟨List.nil_sublist _, fun hpending => ?_⟩
    rw [Socket.brings, hpending]
    rfl

end Socket

theorem Step.lone {e : Event π} (h : Step s e t) (hlone : s.redis = false ∧ s.pending = []) :
    t.redis = false ∧ t.pending = [] := by
  obtain ⟨hredis, hpending⟩ := hlone
  cases h with
  | start | connect | session | join | close => exact ⟨hredis, hpending⟩
  | emit node e =>
    refine ⟨hredis, ?_⟩
    simp [Cluster.publishes, Cluster.published, hredis, hpending]
  | relay | lose => exact ⟨hredis, by simp [hpending]⟩

theorem lone_of_exec (h : (Cluster.init false).exec es = some s) :
    s.redis = false ∧ s.pending = [] :=
  exec_induction (P := fun _ s => s.redis = false ∧ s.pending = []) ⟨rfl, rfl⟩
    (fun _ _ _ _ _ ih hstep => hstep.lone ih) h

theorem exec_append {later : List (Event π)} (h : s.exec es = some t)
    (hlater : t.exec later = some u) : s.exec (es ++ later) = some u := by
  unfold Cluster.exec at *
  rw [List.foldlM_append, h]
  exact hlater

/-- How a settled socket stands after some more events. -/
structure Socket.Follows (redis : Bool) (user : SessionUser) (c : Socket π)
    (later : List (Event π)) (c' : Socket π) : Prop where
  settled : c'.Settled user
  node : c'.node = c.node
  fresh : ∃ fresh, c'.received = c.received ++ fresh ∧
    (writtenAt c.node user later).Sublist fresh ∧
    (redis = false → fresh = writtenAt c.node user later)

theorem Socket.Follows.after {redis : Bool} {user : SessionUser} {later : List (Event π)}
    {c₁ : Socket π} {e : Event π} (h : c.Follows redis user later c₁) (hc₁ : c₁.Sound es s k)
    (hlone : redis = false → s.pending = []) (hthere : (c₁.after s k e).connected = true) :
    c.Follows redis user (later ++ [e]) (c₁.after s k e) := by
  have hkept := hc₁.after_kept e
  obtain ⟨fresh, hfresh, hall, hexact⟩ := h.fresh
  obtain ⟨hbrings, hsame⟩ := h.settled.brings hc₁.up e
  rw [h.node] at hbrings hsame
  refine ⟨h.settled.after hthere, hkept.node.trans h.node, fresh ++ c₁.brings s e, ?_, ?_, ?_⟩
  · rw [hc₁.after_received, hfresh, List.append_assoc]
  · rw [writtenAt, List.flatMap_append, List.flatMap_singleton]
    exact hall.append hbrings
  · intro hredis
    rw [writtenAt, List.flatMap_append, List.flatMap_singleton, hsame (hlone hredis),
      hexact hredis]
    rfl

/-- A socket that has been let in and stays connected receives all that its own instance
    writes for its user, in that order and once; without Redis it receives nothing else. -/
theorem realtime_exact {redis : Bool} (h : (Cluster.init redis).exec es = some s)
    (hk : s.sockets[k]? = some c) {user : SessionUser} (hdata : c.data = some (identity user))
    (hstage : c.stage = .over) {later : List (Event π)} (hlater : s.exec later = some t)
    (hk' : t.sockets[k]? = some c') (hconnected : c'.connected = true) :
    ∃ fresh, c'.received = c.received ++ fresh ∧
      (writtenAt c.node user later).Sublist fresh ∧
      (redis = false → fresh = writtenAt c.node user later) := by
  have hrun : ∃ c', t.sockets[k]? = some c' ∧
      (c'.connected = true → c.Follows redis user later c') := by
    refine exec_induction (P := fun later t => ∃ c', t.sockets[k]? = some c' ∧
      (c'.connected = true → c.Follows redis user later c')) ?_ ?_ hlater
    · refine ⟨c, hk, fun hthere => ?_⟩
      have hsettled := (sound_of_exec h k c hk).settled hthere hstage hdata
      exact ⟨hsettled, rfl, [], (List.append_nil _).symm, List.Sublist.refl _, fun _ => rfl⟩
    · rintro later t e u ht ⟨c₁, hk₁, hfollows⟩ hstep
      have hsofar := exec_append h ht
      have hc₁ := sound_of_exec hsofar k c₁ hk₁
      refine ⟨_, hstep.socket hk₁, fun hthere => ?_⟩
      refine (hfollows ((hc₁.after_kept e).connected hthere)).after hc₁ ?_ hthere
      rintro rfl
      exact (lone_of_exec hsofar).2
  obtain ⟨c₁, hk₁, hfollows⟩ := hrun
  rw [hk'] at hk₁
  cases hk₁
  exact (hfollows hconnected).fresh

theorem realtime_exact_parent : ∃ (s t : Cluster String) (c c' : Socket String),
    (Cluster.init false).exec arrival = some s ∧ s.exec news = some t ∧
    s.sockets[0]? = some c ∧ t.sockets[0]? = some c' ∧
    writtenAt c.node ⟨"parent", none, none⟩ news = [⟨.notification, some "paid"⟩] ∧
    ∃ fresh, c'.received = c.received ++ fresh ∧
      (writtenAt c.node ⟨"parent", none, none⟩ news).Sublist fresh ∧
      (false = false → fresh = writtenAt c.node ⟨"parent", none, none⟩ news) := by
  have hrun : ∃ s t : Cluster String, (Cluster.init false).exec arrival = some s ∧
      s.exec news = some t ∧ ∃ c c' : Socket String, s.sockets[0]? = some c ∧
        t.sockets[0]? = some c' ∧ c.node = 0 ∧
        c.data = some (identity ⟨"parent", none, none⟩) ∧ c.stage = .over ∧
        c'.connected = true :=
    ⟨_, _, rfl, rfl, _, _, rfl, rfl, rfl, rfl, rfl, rfl⟩
  obtain ⟨s, t, hs, ht, c, c', hc, hc', hnode, hdata, hstage, hconnected⟩ := hrun
  refine ⟨s, t, c, c', hs, ht, hc, hc', ?_,
    realtime_exact hs hc hdata hstage ht hc' hconnected⟩
  rw [hnode]
  decide

end Lopay.Events
