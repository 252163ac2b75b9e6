import Lopay.Enrollment.Target
import Lopay.Text

/-!
# The realtime gateway

`events.gateway.ts`: how a socket is let in and put into its rooms, and what the feature services
write to these rooms. Every instance of the server has a gateway of its own. With Redis an
instance also publishes what it writes, and the others pass it on to their own sockets if it
reaches them.
-/

namespace Lopay.Events

/-! ### Rooms -/

/-- What a session says of its user; role and school may be missing. -/
structure SessionUser where
  id : Id
  role : Option String
  schoolId : Option Id
deriving DecidableEq

structure AuthedSocketData where
  userId : Id
  role : String
  schoolId : Option Id
deriving DecidableEq

def identity (user : SessionUser) : AuthedSocketData where
  userId := user.id
  role := user.role.getD "PARENT"
  schoolId := user.schoolId

def userRoom (userId : Id) : String := "user:" ++ userId

def schoolRoom (schoolId : Id) : String := "school:" ++ schoolId

/-- The rooms a socket is put into, in this order. -/
def AuthedSocketData.rooms (d : AuthedSocketData) : List String :=
  userRoom d.userId :: ((given d.schoolId).map schoolRoom).toList ++
    if d.role = "SUPER_ADMIN" then ["admins"] else []

theorem userRoom_inj {a b : Id} (h : userRoom a = userRoom b) : a = b :=
  String.append_right_inj _ |>.mp h

theorem schoolRoom_inj {a b : Id} (h : schoolRoom a = schoolRoom b) : a = b :=
  String.append_right_inj _ |>.mp h

/-- The first letter of a room tells what it is for. -/
theorem userRoom_head (userId : Id) : (userRoom userId).toList.head? = some 'u' := by
  simp [userRoom]

theorem schoolRoom_head (schoolId : Id) : (schoolRoom schoolId).toList.head? = some 's' := by
  simp [schoolRoom]

theorem userRoom_ne_schoolRoom (userId schoolId : Id) : userRoom userId ≠ schoolRoom schoolId := by
  intro h
  have hhead := userRoom_head userId
  rw [h, schoolRoom_head] at hhead
  exact absurd hhead (by decide)

theorem userRoom_ne_admins (userId : Id) : userRoom userId ≠ "admins" := by
  intro h
  have hhead := userRoom_head userId
  rw [h] at hhead
  exact absurd hhead (by decide)

theorem schoolRoom_ne_admins (schoolId : Id) : schoolRoom schoolId ≠ "admins" := by
  intro h
  have hhead := schoolRoom_head schoolId
  rw [h] at hhead
  exact absurd hhead (by decide)

/-! ### What is written to the rooms -/

inductive RealtimeEventType where
  | notification | paymentsChanged | enrollmentsChanged
deriving DecidableEq

structure RealtimeEnvelope (π : Type) where
  type : RealtimeEventType
  payload : Option π
deriving DecidableEq

structure Packet (π : Type) where
  room : String
  envelope : RealtimeEnvelope π
deriving DecidableEq

variable {π : Type}

def pushNotification (userId : Option Id) (notification : π) : List (Packet π) :=
  ((given userId).map fun id =>
    (⟨userRoom id, ⟨.notification, some notification⟩⟩ : Packet π)).toList

/-- The rooms are gathered in a `Set`; no two of them have one name (`changedRooms_nodup`). -/
def changedRooms (targets : ChangeTargets) : List String :=
  ((given targets.parentUserId).map userRoom).toList ++
    ((given targets.schoolId).map schoolRoom).toList ++
    if targets.notifyAdmins then ["admins"] else []

def broadcastChange (type : RealtimeEventType) (targets : ChangeTargets) : List (Packet π) :=
  (changedRooms targets).map fun room => ⟨room, ⟨type, none⟩⟩

def emitPaymentsChanged (targets : ChangeTargets) : List (Packet π) :=
  broadcastChange .paymentsChanged targets

def emitEnrollmentsChanged (targets : ChangeTargets) : List (Packet π) :=
  broadcastChange .enrollmentsChanged targets

theorem changedRooms_nodup (targets : ChangeTargets) : (changedRooms targets).Nodup := by
  have huser := userRoom_ne_schoolRoom
  have hadmins := userRoom_ne_admins
  have hschool := schoolRoom_ne_admins
  unfold changedRooms
  cases given targets.parentUserId <;> cases given targets.schoolId <;>
    split <;> simp_all

/-- A call of the public interface by a feature service. -/
inductive Emission (π : Type) where
  | pushNotification (userId : Option Id) (notification : π)
  | emitPaymentsChanged (targets : ChangeTargets)
  | emitEnrollmentsChanged (targets : ChangeTargets)

def Emission.packets : Emission π → List (Packet π)
  | .pushNotification userId notification => Events.pushNotification userId notification
  | .emitPaymentsChanged targets => Events.emitPaymentsChanged targets
  | .emitEnrollmentsChanged targets => Events.emitEnrollmentsChanged targets

/-! ### Credentials -/

/-- What a client presents; what is not a string counts as missing. -/
structure Handshake where
  authToken : Option String
  authorization : Option String
  queryToken : Option String
  cookie : Option String

/-- `/^Bearer\s+/i`, then `trim`. -/
def strip (raw : String) : String :=
  let text := raw.toList
  let rest := text.drop 6
  if (text.take 6).map Char.toLower = "bearer".toList ∧ rest.head?.any Text.isSpace then
    String.ofList (Text.trim (rest.dropWhile Text.isSpace))
  else
    String.ofList (Text.trim text)

def extractToken (h : Handshake) : Option String :=
  (given h.authToken <|> given h.authorization <|>
    given h.queryToken).map strip

inductive SessionHeaders where
  | authorization (value : String)
  | cookie (value : String)
deriving DecidableEq

/-- White space around a value is dropped; what then is no header value throws. -/
def headerValue (value : String) : Option String :=
  let isBlank (c : Char) : Bool := c = '\t' || c = '\n' || c = '\r' || c = ' '
  let text := ((value.toList.dropWhile isBlank).reverse.dropWhile isBlank).reverse
  if text.all fun c => c.toNat ≤ 0xff && c.toNat ≠ 0 && c ≠ '\n' && c ≠ '\r' then
    some (String.ofList text)
  else none

/-- `none` also where the headers cannot be built: the socket is rejected all the same. -/
def sessionHeaders (h : Handshake) : Option SessionHeaders :=
  match given (extractToken h) with
  | some token => (headerValue ("Bearer " ++ token)).map .authorization
  | none => ((given h.cookie).bind headerValue).map .cookie

/-! ### Sockets -/

/-- Where `handleConnection` is waiting. -/
inductive Stage where
  | session (headers : SessionHeaders)
  | joining (left : List String)
  | over
deriving DecidableEq

def Stage.left : Stage → List String
  | .joining rooms => rooms
  | _ => []

structure Socket (π : Type) where
  node : Nat
  stage : Stage
  data : Option AuthedSocketData
  connected : Bool
  rooms : List String
  received : List (RealtimeEnvelope π)
deriving DecidableEq

namespace Socket

/-- A socket that is closed leaves its rooms; one that is closed already is left alone. -/
def disconnect (c : Socket π) : Socket π :=
  if c.connected then { c with connected := false, rooms := [] } else c

def rejected (c : Socket π) : Socket π := { c.disconnect with stage := .over }

/-- `handleConnection`, up to the session. -/
def opened (node : Nat) (h : Handshake) : Socket π :=
  let c : Socket π := ⟨node, .over, none, true, [], []⟩
  match sessionHeaders h with
  | none => c.rejected
  | some headers => { c with stage := .session headers }

/-- The answer of `getSession`, which may throw. -/
def answered (c : Socket π) (answer : Except String (Option SessionUser)) : Socket π :=
  match c.stage, answer with
  | .session _, .ok (some user) =>
    { c with data := some (identity user), stage := .joining (identity user).rooms }
  | .session _, _ => c.rejected
  | _, _ => c

/-- The next `join`; it may throw. -/
def joined (c : Socket π) (ok : Bool) : Socket π :=
  match c.stage with
  | .joining (room :: left) =>
    if ok then
      { c with rooms := c.rooms ++ [room], stage := if left = [] then .over else .joining left }
    else c.rejected
  | _ => c

def hears (c : Socket π) (node : Nat) (room : String) : Bool :=
  c.node = node && c.connected && c.rooms.contains room

def deliver (node : Nat) (p : Packet π) (c : Socket π) : Socket π :=
  if c.hears node p.room then { c with received := c.received ++ [p.envelope] } else c

end Socket

/-! ### All instances -/

/-- `started` are the instances whose server is up, `pending` what Redis has still to
    bring to one of them. -/
structure Cluster (π : Type) where
  redis : Bool
  started : List Nat
  sockets : List (Socket π)
  pending : List (Nat × Packet π)

def Cluster.init (redis : Bool) : Cluster π := ⟨redis, [], [], []⟩

inductive Event (π : Type) where
  | start (node : Nat)
  | connect (node : Nat) (h : Handshake)
  | session (k : Nat) (answer : Except String (Option SessionUser))
  | join (k : Nat) (ok : Bool)
  | close (k : Nat)
  | emit (node : Nat) (e : Emission π)
  | relay (j : Nat)
  | lose (j : Nat)

namespace Cluster

def update (s : Cluster π) (k : Nat) (f : Socket π → Socket π) : Cluster π :=
  { s with sockets := s.sockets.modify k f }

def deliver (s : Cluster π) (node : Nat) (p : Packet π) : Cluster π :=
  { s with sockets := s.sockets.map (Socket.deliver node p) }

def published (s : Cluster π) (node : Nat) (p : Packet π) : List (Nat × Packet π) :=
  if s.redis then (s.started.filter (· ≠ node)).map fun other => (other, p) else []

/-- Nothing is written before the server is up. -/
def emitTo (node : Nat) (s : Cluster π) (p : Packet π) : Cluster π :=
  if node ∈ s.started then
    { s.deliver node p with pending := s.pending ++ s.published node p }
  else s

def step (s : Cluster π) : Event π → Option (Cluster π)
  | .start node =>
    if node ∈ s.started then none else some { s with started := s.started ++ [node] }
  | .connect node h =>
    if node ∈ s.started then some { s with sockets := s.sockets ++ [.opened node h] } else none
  | .session k answer => do
    let c ← s.sockets[k]?
    match c.stage with
    | .session _ => some (s.update k (·.answered answer))
    | _ => none
  | .join k ok => do
    let c ← s.sockets[k]?
    match c.stage with
    | .joining _ => some (s.update k (·.joined ok))
    | _ => none
  | .close k => if k < s.sockets.length then some (s.update k Socket.disconnect) else none
  | .emit node e => some (e.packets.foldl (emitTo node) s)
  | .relay j => do
    let q ← s.pending[j]?
    some { s.deliver q.1 q.2 with pending := s.pending.eraseIdx j }
  | .lose j =>
    if j < s.pending.length then some { s with pending := s.pending.eraseIdx j } else none

def exec (s : Cluster π) (es : List (Event π)) : Option (Cluster π) := es.foldlM step s

end Cluster

end Lopay.Events
