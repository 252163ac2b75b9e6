import Lopay.Events.Gateway
import Mathlib.Tactic.Common

/-!
# Sockets and their rooms

Which of the packets of a call go to a room of a user, what an event makes of a socket, and how a
socket stands at any moment: what Better Auth has said of it, and the rooms it is in.
-/

namespace Lopay.Events

variable {π : Type} {es : List (Event π)} {s t : Cluster π} {c : Socket π} {k : Nat}

/-! ### Who is addressed -/

/-- One copy for each way in which the user is addressed. -/
def copies (targets : ChangeTargets) (user : SessionUser) : Nat :=
  (if given targets.parentUserId = some user.id then 1 else 0) +
    (if given targets.schoolId ≠ none ∧ given targets.schoolId = given user.schoolId then 1
      else 0) +
    if targets.notifyAdmins ∧ user.role = some "SUPER_ADMIN" then 1 else 0

def Emission.envelopesFor (user : SessionUser) : Emission π → List (RealtimeEnvelope π)
  | .pushNotification userId notification =>
    if given userId = some user.id then [⟨.notification, some notification⟩] else []
  | .emitPaymentsChanged targets => List.replicate (copies targets user) ⟨.paymentsChanged, none⟩
  | .emitEnrollmentsChanged targets =>
    List.replicate (copies targets user) ⟨.enrollmentsChanged, none⟩

theorem mem_rooms {user : SessionUser} {room : String} :
    room ∈ (identity user).rooms ↔ room = userRoom user.id ∨
      (∃ id, given user.schoolId = some id ∧ room = schoolRoom id) ∨
      user.role = some "SUPER_ADMIN" ∧ room = "admins" := by
  have hadmin : (identity user).role = "SUPER_ADMIN" ↔ user.role = some "SUPER_ADMIN" := by
    unfold identity
    cases user.role with
    | none => simp
    | some role => simp
  rw [AuthedSocketData.rooms, List.cons_append, List.mem_cons, List.mem_append, Option.mem_toList,
    Option.map_eq_some_iff]
  refine or_congr Iff.rfl (or_congr ?_ ?_)
  · exact exists_congr fun id => and_congr_right fun _ => eq_comm
  · split
    · next hrole => simp [hadmin.mp hrole]
    · next hrole => simp [mt hadmin.mpr hrole]

theorem mem_rooms_user {user : SessionUser} {id : Id} :
    userRoom id ∈ (identity user).rooms ↔ id = user.id := by
  rw [mem_rooms]
  constructor
  · rintro (hroom | ⟨school, -, hroom⟩ | ⟨-, hroom⟩)
    · exact userRoom_inj hroom
    · exact absurd hroom (userRoom_ne_schoolRoom _ _)
    · exact absurd hroom (userRoom_ne_admins _)
  · rintro rfl
    exact .inl rfl

theorem mem_rooms_school {user : SessionUser} {id : Id} :
    schoolRoom id ∈ (identity user).rooms ↔ given user.schoolId = some id := by
  rw [mem_rooms]
  constructor
  · rintro (hroom | ⟨school, hgiven, hroom⟩ | ⟨-, hroom⟩)
    · exact absurd hroom.symm (userRoom_ne_schoolRoom _ _)
    · rw [schoolRoom_inj hroom]
      exact hgiven
    · exact absurd hroom (schoolRoom_ne_admins _)
  · exact fun hgiven => .inr (.inl ⟨id, hgiven, rfl⟩)

theorem mem_rooms_admins {user : SessionUser} :
    "admins" ∈ (identity user).rooms ↔ user.role = some "SUPER_ADMIN" := by
  rw [mem_rooms]
  constructor
  · rintro (hroom | ⟨school, -, hroom⟩ | ⟨hrole, -⟩)
    · exact absurd hroom.symm (userRoom_ne_admins _)
    · exact absurd hroom.symm (schoolRoom_ne_admins _)
    · exact hrole
  · exact fun hrole => .inr (.inr ⟨hrole, rfl⟩)

/-- The packets of a call that go to a room of the user. -/
def packetsFor (user : SessionUser) (ps : List (Packet π)) : List (RealtimeEnvelope π) :=
  (ps.filter fun p => (identity user).rooms.contains p.room).map (·.envelope)

theorem packetsFor_append (user : SessionUser) (ps qs : List (Packet π)) :
    packetsFor user (ps ++ qs) = packetsFor user ps ++ packetsFor user qs := by
  simp [packetsFor]

theorem packetsFor_broadcastChange (user : SessionUser) (type : RealtimeEventType)
    (targets : ChangeTargets) :
    packetsFor user (broadcastChange type targets : List (Packet π)) =
      List.replicate (copies targets user) ⟨type, none⟩ := by
  unfold broadcastChange changedRooms copies
  rw [List.map_append, List.map_append, packetsFor_append, packetsFor_append,
    List.replicate_add, List.replicate_add]
  refine congrArg₂ _ (congrArg₂ _ ?_ ?_) ?_
  · cases hgiven : given targets.parentUserId with
    | none => simp [packetsFor]
    | some id =>
      by_cases hid : id = user.id
      · simp [packetsFor, mem_rooms_user, hid]
      · simp [packetsFor, mem_rooms_user, hid]
  · cases hgiven : given targets.schoolId with
    | none => simp [packetsFor]
    | some id =>
      by_cases hid : given user.schoolId = some id
      · simp [packetsFor, mem_rooms_school, hid]
      · simp [packetsFor, mem_rooms_school, hid, eq_comm (a := some id)]
  · by_cases hrole : user.role = some "SUPER_ADMIN"
    · cases targets.notifyAdmins <;> simp [packetsFor, mem_rooms_admins, hrole]
    · cases targets.notifyAdmins <;> simp [packetsFor, mem_rooms_admins, hrole]

/-- The rooms lead to the users that are addressed, and to nobody else. -/
theorem Emission.packetsFor_packets (user : SessionUser) (e : Emission π) :
    packetsFor user e.packets = e.envelopesFor user := by
  cases e with
  | pushNotification userId notification =>
    unfold packets Events.pushNotification envelopesFor
    cases hgiven : given userId with
    | none => simp [packetsFor, hgiven]
    | some id =>
      by_cases hid : id = user.id
      · simp [packetsFor, mem_rooms_user, hgiven, hid]
      · simp [packetsFor, mem_rooms_user, hgiven, hid]
  | emitPaymentsChanged targets => exact packetsFor_broadcastChange user _ targets
  | emitEnrollmentsChanged targets => exact packetsFor_broadcastChange user _ targets

/-! ### One step -/

/-- What a call leaves to Redis. -/
def Cluster.publishes (s : Cluster π) (node : Nat) (ps : List (Packet π)) :
    List (Nat × Packet π) :=
  if node ∈ s.started then ps.flatMap (s.published node) else []

/-- What a socket hears of a call. -/
def Socket.told (s : Cluster π) (node : Nat) (ps : List (Packet π)) (c : Socket π) : Socket π :=
  if node ∈ s.started then ps.foldl (fun c p => c.deliver node p) c else c

theorem foldl_emitTo (node : Nat) (ps : List (Packet π)) (s : Cluster π) :
    ps.foldl (Cluster.emitTo node) s =
      { s with
        sockets := s.sockets.map (Socket.told s node ps)
        pending := s.pending ++ s.publishes node ps } := by
  induction ps generalizing s with
  | nil =>
    have htold : Socket.told s node ([] : List (Packet π)) = id := by
      funext c
      unfold Socket.told
      split <;> rfl
    simp [Cluster.publishes, htold]
  | cons p ps ih =>
    rw [List.foldl_cons, ih]
    by_cases hup : node ∈ s.started
    · simp [Cluster.emitTo, Cluster.deliver, Cluster.publishes, Cluster.published, Socket.told, hup,
        Function.comp_def]
      rfl
    · simp [Cluster.emitTo, Cluster.publishes, Socket.told, hup]

/-- What each event does, and when it can come. -/
inductive Step (s : Cluster π) : Event π → Cluster π → Prop where
  | start (node : Nat) (hdown : node ∉ s.started) :
    Step s (.start node) { s with started := s.started ++ [node] }
  | connect (node : Nat) (hand : Handshake) (hup : node ∈ s.started) :
    Step s (.connect node hand) { s with sockets := s.sockets ++ [.opened node hand] }
  | session (k : Nat) (answer : Except String (Option SessionUser)) :
    Step s (.session k answer) (s.update k (·.answered answer))
  | join (k : Nat) (ok : Bool) : Step s (.join k ok) (s.update k (·.joined ok))
  | close (k : Nat) : Step s (.close k) (s.update k Socket.disconnect)
  | emit (node : Nat) (e : Emission π) :
    Step s (.emit node e)
      { s with
        sockets := s.sockets.map (Socket.told s node e.packets)
        pending := s.pending ++ s.publishes node e.packets }
  | relay (j : Nat) (q : Nat × Packet π) (hq : s.pending[j]? = some q) :
    Step s (.relay j)
      { s with
        sockets := s.sockets.map (Socket.deliver q.1 q.2)
        pending := s.pending.eraseIdx j }
  | lose (j : Nat) : Step s (.lose j) { s with pending := s.pending.eraseIdx j }

theorem step_cases {e : Event π} (h : s.step e = some t) : Step s e t := by
  cases e with
  | start node =>
    simp only [Cluster.step] at h
    split at h
    · cases h
    · next hdown =>
      cases h
      exact .start node hdown
  | connect node hand =>
    simp only [Cluster.step] at h
    split at h
    · next hup =>
      cases h
      exact .connect node hand hup
    · cases h
  | session k answer =>
    obtain ⟨c, -, h⟩ := Option.bind_eq_some_iff.mp h
    split at h
    · cases h
      exact .session k answer
    · cases h
  | join k ok =>
    obtain ⟨c, -, h⟩ := Option.bind_eq_some_iff.mp h
    split at h
    · cases h
      exact .join k ok
    · cases h
  | close k =>
    simp only [Cluster.step] at h
    split at h
    · cases h
      exact .close k
    · cases h
  | emit node e =>
    simp only [Cluster.step, foldl_emitTo] at h
    cases h
    exact .emit node e
  | relay j =>
    obtain ⟨q, hq, h⟩ := Option.bind_eq_some_iff.mp h
    cases h
    exact .relay j q hq
  | lose j =>
    simp only [Cluster.step] at h
    split at h
    · cases h
      exact .lose j
    · cases h

/-- What becomes of the socket `k`. -/
def Socket.after (s : Cluster π) (k : Nat) (c : Socket π) : Event π → Socket π
  | .session j answer => if j = k then c.answered answer else c
  | .join j ok => if j = k then c.joined ok else c
  | .close j => if j = k then c.disconnect else c
  | .emit node e => c.told s node e.packets
  | .relay j => ((s.pending[j]?).map fun q => c.deliver q.1 q.2).getD c
  | _ => c

theorem getElem?_update (s : Cluster π) (j k : Nat) (f : Socket π → Socket π)
    (hk : s.sockets[k]? = some c) :
    (s.update j f).sockets[k]? = some (if j = k then f c else c) := by
  rw [Cluster.update, List.getElem?_modify, hk]
  split <;> rfl

theorem Step.socket {e : Event π} (h : Step s e t) (hk : s.sockets[k]? = some c) :
    t.sockets[k]? = some (c.after s k e) := by
  cases h with
  | start node hdown => exact hk
  | connect node hand hup =>
    exact (List.getElem?_append_left (List.getElem?_eq_some_iff.mp hk).1).trans hk
  | session j answer => exact getElem?_update s j k _ hk
  | join j ok => exact getElem?_update s j k _ hk
  | close j => exact getElem?_update s j k _ hk
  | emit node e => simp [hk, Socket.after]
  | relay j q hq => simp [hk, hq, Socket.after]
  | lose j => exact hk

/-- A socket that was not there has just been opened. -/
theorem Step.opened {e : Event π} (h : Step s e t) (hk : s.sockets[k]? = none)
    (hk' : t.sockets[k]? = some c) : ∃ node hand, node ∈ s.started ∧ c = .opened node hand := by
  have hgone := List.getElem?_eq_none_iff.mp hk
  have hthere := (List.getElem?_eq_some_iff.mp hk').1
  cases h with
  | connect node hand hup =>
    refine ⟨node, hand, hup, ?_⟩
    have hlast : (s.sockets ++ [Socket.opened node hand])[k]? = some c := hk'
    rw [List.getElem?_append_right hgone, List.getElem?_singleton] at hlast
    split at hlast
    · exact (Option.some.inj hlast).symm
    · cases hlast
  | start | lose => exact absurd hthere (Nat.not_lt.mpr hgone)
  | session | join | close =>
    rw [Cluster.update, List.length_modify] at hthere
    omega
  | emit | relay =>
    rw [List.length_map] at hthere
    omega

/-! ### Runs -/

theorem exec_induction {P : List (Event π) → Cluster π → Prop} (hinit : P [] s)
    (hstep : ∀ es t e u, s.exec es = some t → P es t → Step t e u → P (es ++ [e]) u) :
    ∀ {es t}, s.exec es = some t → P es t := by
  intro es
  induction es using List.reverseRecOn with
  | nil =>
    intro t h
    cases h
    exact hinit
  | append_singleton es e ih =>
    intro u h
    unfold Cluster.exec at h
    rw [List.foldlM_append] at h
    obtain ⟨t, ht, hlast⟩ := Option.bind_eq_some_iff.mp h
    rw [List.foldlM_cons] at hlast
    obtain ⟨u', hu, hend⟩ := Option.bind_eq_some_iff.mp hlast
    cases hend
    exact hstep es t e u ht (ih ht) (step_cases hu)

theorem Step.started {e : Event π} (h : Step s e t) : s.started ⊆ t.started := by
  cases h with
  | start node hdown => exact List.subset_append_left _ _
  | connect | session | join | close | emit | relay | lose => exact List.Subset.refl _

/-! ### Sockets -/

namespace Socket

/-- The packets of a list that an instance hands to the socket. -/
def heard (c : Socket π) (node : Nat) (ps : List (Packet π)) : List (RealtimeEnvelope π) :=
  (ps.filter fun p => c.hears node p.room).map (·.envelope)

def hear (c : Socket π) (more : List (RealtimeEnvelope π)) : Socket π :=
  { c with received := c.received ++ more }

theorem deliver_eq (node : Nat) (p : Packet π) (c : Socket π) :
    c.deliver node p = c.hear (c.heard node [p]) := by
  unfold deliver hear heard
  cases hhears : c.hears node p.room with
  | false => simp [hhears]
  | true => simp [hhears]

theorem foldl_deliver (node : Nat) (ps : List (Packet π)) (c : Socket π) :
    ps.foldl (fun c p => c.deliver node p) c = c.hear (c.heard node ps) := by
  induction ps generalizing c with
  | nil => simp [hear, heard]
  | cons p ps ih =>
    have hsame : (c.hear (c.heard node [p])).heard node ps = c.heard node ps := rfl
    rw [List.foldl_cons, deliver_eq, ih, hsame]
    unfold hear heard
    cases hhears : c.hears node p.room with
    | false => simp [hhears]
    | true => simp [hhears]

theorem told_eq (s : Cluster π) (node : Nat) (ps : List (Packet π)) (c : Socket π) :
    c.told s node ps = c.hear (if node ∈ s.started then c.heard node ps else []) := by
  unfold told
  split
  · exact foldl_deliver node ps c
  · simp [hear]

/-- What a step hands to a socket. -/
def brings (s : Cluster π) (c : Socket π) : Event π → List (RealtimeEnvelope π)
  | .emit node e => if node ∈ s.started then c.heard node e.packets else []
  | .relay j => ((s.pending[j]?).map fun q => c.heard q.1 [q.2]).getD []
  | _ => []

/-- A socket hears something, or its own handshake or its end has come one step further. -/
theorem after_cases (s : Cluster π) (k : Nat) (c : Socket π) (e : Event π) :
    c.after s k e = c.hear (c.brings s e) ∨
      (∃ answer, e = .session k answer ∧ c.after s k e = c.answered answer) ∨
      (∃ ok, e = .join k ok ∧ c.after s k e = c.joined ok) ∨
      e = .close k ∧ c.after s k e = c.disconnect := by
  have hnothing : c = c.hear [] := by
    rw [hear, List.append_nil]
  cases e with
  | start | connect | lose => exact .inl hnothing
  | session j answer =>
    by_cases hj : j = k
    · exact .inr (.inl ⟨answer, by rw [hj], if_pos hj⟩)
    · exact .inl ((if_neg hj).trans hnothing)
  | join j ok =>
    by_cases hj : j = k
    · exact .inr (.inr (.inl ⟨ok, by rw [hj], if_pos hj⟩))
    · exact .inl ((if_neg hj).trans hnothing)
  | close j =>
    by_cases hj : j = k
    · exact .inr (.inr (.inr ⟨by rw [hj], if_pos hj⟩))
    · exact .inl ((if_neg hj).trans hnothing)
  | emit node e => exact .inl (told_eq s node e.packets c)
  | relay j =>
    rw [after, brings]
    cases s.pending[j]? with
    | none => exact .inl hnothing
    | some q => exact .inl (deliver_eq q.1 q.2 c)

@[simp] theorem disconnect_connected (c : Socket π) : c.disconnect.connected = false := by
  unfold disconnect
  cases hconnected : c.connected with
  | false => exact hconnected
  | true => rfl

@[simp] theorem disconnect_data (c : Socket π) : c.disconnect.data = c.data := by
  unfold disconnect
  split <;> rfl

@[simp] theorem disconnect_stage (c : Socket π) : c.disconnect.stage = c.stage := by
  unfold disconnect
  split <;> rfl

@[simp] theorem disconnect_node (c : Socket π) : c.disconnect.node = c.node := by
  unfold disconnect
  split <;> rfl

@[simp] theorem disconnect_received (c : Socket π) : c.disconnect.received = c.received := by
  unfold disconnect
  split <;> rfl

/-- How the socket `k` stands after the events `es`. -/
structure Sound (es : List (Event π)) (s : Cluster π) (k : Nat) (c : Socket π) : Prop where
  up : c.node ∈ s.started
  data : ∀ d, c.data = some d → ∃ user, .session k (.ok (some user)) ∈ es ∧ d = identity user
  asking : ∀ headers, c.stage = .session headers → c.data = none
  full : c.connected = true → c.rooms ++ c.stage.left = (c.data.map (·.rooms)).getD []
  silent : c.data = none → c.received = []

namespace Sound

theorem mono {es' : List (Event π)} (h : c.Sound es s k) (hes : es ⊆ es')
    (hup : s.started ⊆ t.started) : c.Sound es' t k where
  up := hup h.up
  data d hd := by
    obtain ⟨user, hanswer, huser⟩ := h.data d hd
    exact ⟨user, hes hanswer, huser⟩
  asking := h.asking
  full := h.full
  silent := h.silent

/-- A socket hears only of the rooms of its user. -/
theorem hears_room {node : Nat} {room : String} (h : c.Sound es s k)
    (hhears : c.hears node room = true) : ∃ d, c.data = some d ∧ room ∈ d.rooms := by
  simp only [hears, Bool.and_eq_true, decide_eq_true_eq, List.contains_iff_mem] at hhears
  obtain ⟨⟨-, hconnected⟩, hroom⟩ := hhears
  have hmem : room ∈ c.rooms ++ c.stage.left := List.mem_append_left _ hroom
  rw [h.full hconnected] at hmem
  cases hdata : c.data with
  | none =>
    rw [hdata] at hmem
    cases hmem
  | some d =>
    rw [hdata] at hmem
    exact ⟨d, rfl, hmem⟩

theorem heard {user : SessionUser} (h : c.Sound es s k)
    (hdata : c.data = none ∨ c.data = some (identity user)) (node : Nat) (ps : List (Packet π)) :
    (c.heard node ps).Sublist (if c.node = node then packetsFor user ps else []) := by
  split
  · refine List.Sublist.map _ (List.monotone_filter_right ps fun p hp => ?_)
    obtain ⟨d, hd, hroom⟩ := h.hears_room hp
    rcases hdata with hnone | hsome
    · cases hd.symm.trans hnone
    · cases hd.symm.trans hsome
      exact List.contains_iff_mem.mpr hroom
  · next hnode => simp [Socket.heard, hears, hnode]

theorem heard_nothing (h : c.Sound es s k) (hdata : c.data = none) (node : Nat)
    (ps : List (Packet π)) : c.heard node ps = [] := by
  refine List.map_eq_nil_iff.mpr (List.filter_eq_nil_iff.mpr fun p _ hp => ?_)
  obtain ⟨d, hd, -⟩ := h.hears_room hp
  cases hd.symm.trans hdata

theorem hear {more : List (RealtimeEnvelope π)} (h : c.Sound es s k)
    (hmore : c.data = none → more = []) : (c.hear more).Sound es s k where
  up := h.up
  data := h.data
  asking := h.asking
  full := h.full
  silent hdata := by
    rw [Socket.hear, h.silent hdata, hmore hdata]
    rfl

theorem disconnect (h : c.Sound es s k) : c.disconnect.Sound es s k where
  up := by simpa using h.up
  data := by simpa using h.data
  asking := by simpa using h.asking
  full := by simp
  silent := by simpa using h.silent

theorem rejected (h : c.Sound es s k) : c.rejected.Sound es s k where
  up := h.disconnect.up
  data := h.disconnect.data
  asking _ hstage := by cases hstage
  full hconnected := by
    have hclosed := c.disconnect_connected
    exact absurd (hclosed.symm.trans hconnected) Bool.false_ne_true
  silent := h.disconnect.silent

theorem opened {node : Nat} (hand : Handshake) (hup : node ∈ s.started) :
    (Socket.opened node hand : Socket π).Sound es s k := by
  have hnew : (⟨node, .over, none, true, [], []⟩ : Socket π).Sound es s k :=
    ⟨hup, by simp, by simp, by simp [Stage.left], fun _ => rfl⟩
  unfold Socket.opened
  split
  · exact hnew.rejected
  · exact ⟨hup, by simp, by simp, by simp [Stage.left], fun _ => rfl⟩

theorem answered {answer : Except String (Option SessionUser)} (h : c.Sound es s k)
    (hanswer : .session k answer ∈ es) : (c.answered answer).Sound es s k := by
  unfold Socket.answered
  split
  · next headers user hstage =>
    have hnone := h.asking headers hstage
    refine ⟨h.up, fun d hd => ⟨user, hanswer, (Option.some.inj hd).symm⟩, by simp,
      fun hconnected => ?_, by simp⟩
    have hfull := h.full hconnected
    rw [hnone] at hfull
    rw [(List.append_eq_nil_iff.mp hfull).1]
    rfl
  · exact h.rejected
  · exact h

theorem joined {ok : Bool} (h : c.Sound es s k) : (c.joined ok).Sound es s k := by
  unfold Socket.joined
  split
  · next room left hstage =>
    split
    · have hnotAsking : ∀ headers,
          (if left = [] then Stage.over else .joining left) ≠ .session headers := by
        intro headers
        split <;> simp
      refine ⟨h.up, h.data, fun headers hnext => absurd hnext (hnotAsking headers),
        fun hconnected => ?_, h.silent⟩
      have hfull := h.full hconnected
      rw [hstage] at hfull
      rw [← hfull]
      split
      · next hleft => simp [Stage.left, hleft]
      · simp [Stage.left]
    · exact h.rejected
  · exact h

theorem brings_nothing (h : c.Sound es s k) (hdata : c.data = none) (e : Event π) :
    c.brings s e = [] := by
  cases e with
  | start | connect | session | join | close | lose => rfl
  | emit node e =>
    rw [brings, h.heard_nothing hdata, ite_self]
  | relay j =>
    rw [brings]
    cases s.pending[j]? with
    | none => rfl
    | some q => exact h.heard_nothing hdata q.1 [q.2]

/-- What any step makes of a socket. -/
theorem after {e : Event π} (h : c.Sound es s k) (hstep : Step s e t) :
    (c.after s k e).Sound (es ++ [e]) t k := by
  have hlater : c.Sound (es ++ [e]) t k :=
    h.mono (List.subset_append_left _ _) hstep.started
  rcases c.after_cases s k e with heq | ⟨answer, he, heq⟩ | ⟨ok, -, heq⟩ | ⟨-, heq⟩
  · rw [heq]
    exact hlater.hear fun hdata => h.brings_nothing hdata e
  · rw [heq]
    exact hlater.answered (he ▸ List.mem_append_right _ List.mem_cons_self)
  · rw [heq]
    exact hlater.joined
  · rw [heq]
    exact hlater.disconnect

end Sound

end Socket

namespace Socket

/-- What a socket keeps when nothing is handed to it. -/
structure Kept (c c' : Socket π) : Prop where
  node : c'.node = c.node
  received : c'.received = c.received
  data : c.data = none ∨ c'.data = c.data
  connected : c'.connected = true → c.connected = true

theorem Kept.refl (c : Socket π) : c.Kept c := ⟨rfl, rfl, .inr rfl, id⟩

theorem disconnect_kept (c : Socket π) : c.Kept c.disconnect :=
  ⟨c.disconnect_node, c.disconnect_received, .inr c.disconnect_data, by simp⟩

theorem rejected_kept (c : Socket π) : c.Kept c.rejected :=
  ⟨c.disconnect_kept.node, c.disconnect_kept.received, c.disconnect_kept.data,
    c.disconnect_kept.connected⟩

theorem joined_kept (c : Socket π) (ok : Bool) : c.Kept (c.joined ok) := by
  unfold joined
  split
  · split
    · exact ⟨rfl, rfl, .inr rfl, id⟩
    · exact c.rejected_kept
  · exact .refl c

theorem Sound.answered_kept (h : c.Sound es s k) (answer : Except String (Option SessionUser)) :
    c.Kept (c.answered answer) := by
  unfold Socket.answered
  split
  · next headers user hstage => exact ⟨rfl, rfl, .inl (h.asking headers hstage), id⟩
  · exact c.rejected_kept
  · exact .refl c

theorem Sound.after_kept (h : c.Sound es s k) (e : Event π) :
    (c.hear (c.brings s e)).Kept (c.after s k e) := by
  have hquiet : ∀ c', c.Kept c' → (c.hear []).Kept c' := by
    intro c' hkept
    rw [Socket.hear, List.append_nil]
    exact hkept
  rcases c.after_cases s k e with heq | ⟨answer, rfl, heq⟩ | ⟨ok, rfl, heq⟩ | ⟨rfl, heq⟩
  · rw [heq]
    exact .refl _
  · rw [heq]
    exact hquiet _ (h.answered_kept answer)
  · rw [heq]
    exact hquiet _ (c.joined_kept ok)
  · rw [heq]
    exact hquiet _ c.disconnect_kept

theorem Sound.after_received (h : c.Sound es s k) (e : Event π) :
    (c.after s k e).received = c.received ++ c.brings s e :=
  (h.after_kept e).received

end Socket

/-- Every socket is sound. -/
def AllSound (es : List (Event π)) (s : Cluster π) : Prop :=
  ∀ (k : Nat) (c : Socket π), s.sockets[k]? = some c → c.Sound es s k

theorem sound_of_exec {redis : Bool} (h : (Cluster.init redis).exec es = some s) :
    AllSound es s := by
  refine exec_induction (P := AllSound) (by simp [AllSound, Cluster.init]) ?_ h
  intro es t e u _ ih hstep k c hk
  cases hbefore : t.sockets[k]? with
  | some c₀ =>
    rw [hstep.socket hbefore] at hk
    cases hk
    exact (ih k c₀ hbefore).after hstep
  | none =>
    obtain ⟨node, hand, hup, rfl⟩ := hstep.opened hbefore hk
    exact .opened hand (hstep.started hup)

end Lopay.Events
