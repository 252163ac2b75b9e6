import Lopay.Enrollment.Target
import Lopay.Transactions.Soundness
import Mathlib.Data.List.Sort

/-!
# Notifications and the devices they reach

`notifications.service.ts` and `device-tokens.service.ts`: the notification rows of a user, the
tokens under which the user's devices are known to Firebase, and the messages that go there. What
is written to a socket is only asked for here.
-/

namespace Lopay

open Transactions

namespace Notifications

inductive NotificationType where
  | PAYMENT | ALERT | ANNOUNCEMENT
deriving DecidableEq

def NotificationType.name : NotificationType → String
  | PAYMENT => "PAYMENT"
  | ALERT => "ALERT"
  | ANNOUNCEMENT => "ANNOUNCEMENT"

structure User where
  role : UserRole
  deletedAt : Option Int

structure Notification where
  userId : Id
  title : String
  message : String
  type : NotificationType
  isRead : Bool
  link : Option String
  createdAt : Int
deriving DecidableEq

/-- A device token but for the token itself, which is unique and the key of its row. -/
structure DeviceToken where
  userId : Id
  platform : String
deriving DecidableEq

structure Inbox where
  users : Table Id User
  notifications : Table Id Notification
  deviceTokens : Table String DeviceToken

inductive Write where
  | putUser (id : Id) (row : User)
  | putNotification (id : Id) (row : Notification)
  | putDeviceToken (token : String) (row : DeviceToken)
  | deleteDeviceToken (token : String)

def Write.apply : Write → Inbox → Inbox
  | .putUser id row, s => { s with users := s.users.insert id row }
  | .putNotification id row, s => { s with notifications := s.notifications.insert id row }
  | .putDeviceToken token row, s => { s with deviceTokens := s.deviceTokens.insert token row }
  | .deleteDeviceToken token, s => { s with deviceTokens := s.deviceTokens.erase token }

/-- No transaction is ever open, so nothing is held beyond a statement. -/
def store : Store Inbox Write Unit where
  apply := Write.apply
  locks := fun _ => [()]

@[simp] theorem store_apply (w : Write) (s : Inbox) : store.apply w s = w.apply s := rfl

/-! ### Messages to Firebase -/

def ANDROID_CHANNEL_ID : String := "lopay-payments"

def ANDROID_SOUND : String := "lopay_alert"

structure PushPayload where
  title : String
  body : String
  link : Option String
  notificationId : Option Id
  type : Option NotificationType

structure AndroidConfig where
  priority : String
  channelId : String
  sound : String
  icon : String
  color : String
  tag : String

structure WebpushConfig where
  ttl : String
  icon : String
  badge : String
  tag : String
  link : Option String

structure ApnsConfig where
  sound : String
  badge : Nat

/-- The same for each of the devices. -/
structure PushMessage where
  title : String
  body : String
  data : List (String × String)
  android : AndroidConfig
  webpush : WebpushConfig
  apns : ApnsConfig

/-- The route of the link is a fragment of the web app, which routes by the hash. -/
def webLink (webAppUrl link : Option String) : Option String :=
  match given webAppUrl, given link with
  | some url, some route => some (url ++ "/#" ++ route)
  | url, _ => url

def buildPushMessage (webAppUrl : Option String) (payload : PushPayload) : PushMessage :=
  let tag := payload.notificationId.getD "lopay-notification"
  { title := payload.title
    body := payload.body
    data := [("title", payload.title), ("body", payload.body)] ++
      ((given payload.link).map fun link => ("link", link)).toList ++
      ((given payload.notificationId).map fun id => ("notificationId", id)).toList ++
      (payload.type.map fun type => ("type", type.name)).toList
    android :=
      { priority := "high"
        channelId := ANDROID_CHANNEL_ID
        sound := ANDROID_SOUND
        icon := "ic_stat_lopay"
        color := "#4A90E2"
        tag }
    webpush :=
      { ttl := "2419200"
        icon := "/icons/notification-icon.png"
        badge := "/icons/notification-badge.png"
        tag
        link := webLink webAppUrl payload.link }
    apns := { sound := "default", badge := 1 } }

/-- How the sending to one of the tokens went. -/
structure SendResponse where
  success : Bool
  code : Option String

def PERMANENT_TOKEN_ERRORS : List String :=
  ["messaging/registration-token-not-registered", "messaging/invalid-registration-token",
    "messaging/invalid-argument"]

def SendResponse.permanent (r : SendResponse) : Bool :=
  !r.success && r.code.any fun code => code ∈ PERMANENT_TOKEN_ERRORS

/-- The tokens that Firebase will never know again; there is one response for each token. -/
def invalidTokens (tokens : List String) (responses : List SendResponse) : List String :=
  ((tokens.zip responses).filter fun r => r.2.permanent).map (·.1)

/-! ### Calls -/

/-- What is written to the socket of a user: the row, or an announcement without one. -/
inductive SocketPayload where
  | notification (id : Id) (row : Notification)
  | announcement (title message : String) (link : Option String)

/-- `countFirst` asks which of two queries that were sent together the database ran first. -/
inductive Call where
  | now
  | uuid
  | rowOrder (count : Nat)
  | countFirst
  | pushNotification (userId : Id) (payload : SocketPayload)
  | sendEachForMulticast (tokens : List String) (message : PushMessage)

@[reducible] def Answer : Call → Type
  | .now => Int
  | .uuid => Id
  | .rowOrder _ => List Nat
  | .countFirst => Bool
  | .pushNotification _ _ => Unit
  | .sendEachForMulticast _ _ => Except String (List SendResponse)

abbrev Action (α : Type) := Routine Inbox Write Answer Err α

def ask (c : Call) : Action (Answer c) := Routine.ask c

def read {α : Type} (q : Inbox → α) : Action α := Routine.query .database q

/-! ### Device tokens -/

namespace DeviceTokens

/-- `upsert`: the token belongs to the caller from here on. -/
def register (userId : Id) (token platform : String) : Action Unit :=
  Routine.exec .database fun s =>
    if (s.users.lookup userId).isSome then
      .ok ((), [.putDeviceToken token { userId, platform }])
    else .error .foreignKey

def unregister (userId : Id) (token : String) : Action Unit :=
  Routine.exec .database fun s => match s.deviceTokens.lookup token with
    | some row => .ok ((), if row.userId = userId then [.deleteDeviceToken token] else [])
    | none => .ok ((), [])

def tokensOf (userId : Id) (s : Inbox) : List String :=
  (s.deviceTokens.rows.filter fun r => r.2.userId = userId).map (·.1)

def getTokensForUser (userId : Id) : Action (List String) := do
  let tokens ← read (tokensOf userId)
  let order ← ask (.rowOrder tokens.length)
  pure (arrange tokens order)

end DeviceTokens

/-- `deviceToken.deleteMany({ where: { token: { in: tokens } } })`. -/
def deleteDeviceTokens (tokens : List String) : Action Unit :=
  Routine.exec .database fun s =>
    .ok ((), (tokens.filter fun token => (s.deviceTokens.lookup token).isSome).map
      .deleteDeviceToken)

/-! ### The service -/

structure CreateNotificationDto where
  userId : Id
  title : String
  message : String
  type : Option NotificationType
  link : Option String

/-- `prisma.notification.create` and `createMany`: all of the rows or none. -/
def inserted (rows : List (Id × Notification)) (s : Inbox) : Except Err (Unit × List Write) :=
  if (rows.map (·.1)).Nodup ∧ ∀ r ∈ rows, s.notifications.lookup r.1 = none then
    if ∀ r ∈ rows, (s.users.lookup r.2.userId).isSome then
      .ok ((), rows.map fun r => .putNotification r.1 r.2)
    else .error .foreignKey
  else .error (.unique "id")

def insertNotifications (rows : List (Id × Notification)) : Action Unit :=
  Routine.exec .database (inserted rows)

/-- Best-effort: whatever goes wrong is logged and forgotten. -/
def sendPushNotification (webAppUrl : Option String) (userId : Id) (payload : PushPayload) :
    Action Unit :=
  tryCatch
    (do
      let tokens ← DeviceTokens.getTokensForUser userId
      if tokens = [] then pure ()
      else do
        let response ← ask (.sendEachForMulticast tokens (buildPushMessage webAppUrl payload))
        match response with
        | .error _ => throw .notification
        | .ok responses =>
          Routine.onlyIf (invalidTokens tokens responses ≠ [])
            (deleteDeviceTokens (invalidTokens tokens responses)))
    (fun _ => pure ())

def create (webAppUrl : Option String) (dto : CreateNotificationDto) :
    Action (Id × Notification) := do
  let id ← ask .uuid
  let createdAt ← ask .now
  let notification : Notification :=
    { userId := dto.userId
      title := dto.title
      message := dto.message
      type := dto.type.getD .PAYMENT
      isRead := false
      link := dto.link
      createdAt }
  insertNotifications [(id, notification)]
  Routine.onlyIf (dto.userId ≠ "")
    (ask (.pushNotification dto.userId (.notification id notification)))
  sendPushNotification webAppUrl dto.userId
    { title := notification.title
      body := notification.message
      link := notification.link
      notificationId := some id
      type := some notification.type }
  pure (id, notification)

/-- The accounts that an announcement goes to. -/
def liveParents (s : Inbox) : List Id :=
  (s.users.rows.filter fun r => r.2.role = .PARENT ∧ r.2.deletedAt = none).map (·.1)

/-- The row of an announcement for one of them. -/
def announcement (title message : String) (link : Option String) (createdAt : Int) (userId : Id) :
    Notification :=
  { userId, title, message, type := .ANNOUNCEMENT, isRead := false, link, createdAt }

/-- Fan a platform announcement out to every parent. -/
def broadcastToParents (webAppUrl : Option String) (title message : String)
    (link : Option String) : Action Nat := do
  let parents ← read liveParents
  if parents = [] then pure 0
  else do
    let rows ← parents.mapM fun userId => (fun id => (id, userId)) <$> ask .uuid
    let createdAt ← ask .now
    insertNotifications (rows.map fun r => (r.1, announcement title message link createdAt r.2))
    let _ ← parents.mapM fun userId => do
      Routine.onlyIf (userId ≠ "")
        (ask (.pushNotification userId (.announcement title message link)))
      sendPushNotification webAppUrl userId
        { title, body := message, link, notificationId := none, type := some .ANNOUNCEMENT }
    pure parents.length

def LIST_LIMIT : Nat := 100

def MAX_LIST_LIMIT : Nat := 200

/-- How many rows are asked for; a limit that is left out or no finite number is none here. -/
def requested (limit : Option ℚ) : Nat :=
  match limit with
  | some number =>
    if 0 < number.num.tdiv number.den then (number.num.tdiv number.den).toNat else LIST_LIMIT
  | none => LIST_LIMIT

def takeLimit (limit : Option ℚ) : Nat := min (requested limit) MAX_LIST_LIMIT

def notificationsOf (userId : Id) (s : Inbox) : List (Id × Notification) :=
  s.notifications.rows.filter fun r => r.2.userId = userId

/-- `orderBy: { createdAt: 'desc' }`. -/
def Newer (a b : Id × Notification) : Prop := b.2.createdAt ≤ a.2.createdAt

instance : DecidableRel Newer := fun a b =>
  inferInstanceAs (Decidable (b.2.createdAt ≤ a.2.createdAt))

/-- The newest rows; the database picks an order among rows of one moment. -/
def findNotifications (userId : Id) (count : Nat) : Action (List (Id × Notification)) := do
  let found ← read (notificationsOf userId)
  let order ← ask (.rowOrder found.length)
  pure (((arrange found order).insertionSort Newer).take count)

def unreadCount (userId : Id) (s : Inbox) : Nat :=
  (notificationsOf userId s).countP fun r => !r.2.isRead

structure NotificationList where
  items : List (Id × Notification)
  unreadCount : Nat
  limit : Nat

def getUserNotifications (userId : Id) (limit : Option ℚ) : Action NotificationList := do
  let countFirst ← ask .countFirst
  if countFirst = true then do
    let unread ← read (unreadCount userId)
    let items ← findNotifications userId (takeLimit limit)
    pure { items, unreadCount := unread, limit := takeLimit limit }
  else do
    let items ← findNotifications userId (takeLimit limit)
    let unread ← read (unreadCount userId)
    pure { items, unreadCount := unread, limit := takeLimit limit }

def Notification.read (row : Notification) : Notification := { row with isRead := true }

def markAsRead (notificationId userId : Id) : Action Notification := do
  let found ← Notifications.read fun s =>
    (s.notifications.lookup notificationId).filter fun row => row.userId = userId
  let _ ← Routine.orThrow found (.notFound "Notification not found or access denied")
  Routine.exec .database fun s => match s.notifications.lookup notificationId with
    | some row => .ok (row.read, [.putNotification notificationId row.read])
    | none => .error .recordNotFound

/-- Mark every unread notification for a user as read in one query. -/
def markAllAsRead (userId : Id) : Action Nat :=
  Routine.exec .database fun s =>
    let unread := (notificationsOf userId s).filter fun r => !r.2.isRead
    .ok (unread.length, unread.map fun r => .putNotification r.1 r.2.read)

/-! ### Operations -/

/-- What the service is asked to do. Beside it accounts come and change, and the ledger writes
    rows in transactions of its own. -/
inductive Operation where
  | create (dto : CreateNotificationDto)
  | broadcastToParents (title message : String) (link : Option String)
  | getUserNotifications (userId : Id) (limit : Option ℚ)
  | markAsRead (notificationId userId : Id)
  | markAllAsRead (userId : Id)
  | register (userId : Id) (token platform : String)
  | unregister (userId : Id) (token : String)
  | account (userId : Id) (row : User)
  | ledger (rows : List (Id × Notification))

inductive Reply where
  | notification (id : Id) (row : Notification)
  | recipients (count : Nat)
  | list (notifications : NotificationList)
  | marked (row : Notification)
  | updated (count : Nat)
  | done

def Operation.action (webAppUrl : Option String) : Operation → Action Reply
  | create dto => (fun r => .notification r.1 r.2) <$> Notifications.create webAppUrl dto
  | broadcastToParents title message link =>
    .recipients <$> Notifications.broadcastToParents webAppUrl title message link
  | getUserNotifications userId limit =>
    .list <$> Notifications.getUserNotifications userId limit
  | markAsRead notificationId userId =>
    .marked <$> Notifications.markAsRead notificationId userId
  | markAllAsRead userId => .updated <$> Notifications.markAllAsRead userId
  | register userId token platform =>
    (fun _ => .done) <$> DeviceTokens.register userId token platform
  | unregister userId token => (fun _ => .done) <$> DeviceTokens.unregister userId token
  | account userId row => Routine.exec .database fun _ => .ok (.done, [.putUser userId row])
  | ledger rows => (fun _ => .done) <$> insertNotifications
      (rows.map fun r => (r.1, { r.2 with isRead := false }))

def Operation.program (webAppUrl : Option String) (o : Operation) :
    Prog Inbox Write Answer (Except Err Reply) :=
  (o.action webAppUrl).run

/-- What is stored, and everything that has been started. -/
abbrev Center := Sys Operation Inbox Write Answer (Except Err Reply)

end Notifications

end Lopay
