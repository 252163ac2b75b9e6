import Lopay.Notifications.Service
import Lopay.Transactions.Local
import Lopay.Transactions.Runs

/-!
# What an operation on notifications writes and asks for

One statement of an operation writes rows that were not there, marks rows of its own user as read,
or gives a device token to its user or takes one away. Firebase is only asked to send to tokens
that have been seen to belong to somebody the message is for.
-/

namespace Lopay

open Transactions

namespace Notifications

abbrev Context := Ctx Inbox Write Answer

/-! ### Effects -/

/-- The device is the user's. -/
def Owned (userId : Id) (token : String) (s : Inbox) : Prop :=
  ∃ row, s.deviceTokens.lookup token = some row ∧ row.userId = userId

instance (userId : Id) (token : String) (s : Inbox) : Decidable (Owned userId token s) :=
  decidable_of_iff ((s.deviceTokens.lookup token).any fun row => row.userId = userId) <| by
    simp only [Owned, Option.any_eq_true, decide_eq_true_eq]

theorem mem_tokensOf {userId : Id} {token : String} {s : Inbox} :
    token ∈ DeviceTokens.tokensOf userId s ↔ Owned userId token s := by
  simp only [DeviceTokens.tokensOf, List.mem_map, List.mem_filter, decide_eq_true_eq, Prod.exists,
    exists_and_right, exists_eq_right, Table.mem_rows, Owned]

theorem mem_notificationsOf {userId : Id} {s : Inbox} {r : Id × Notification} :
    r ∈ notificationsOf userId s ↔
      s.notifications.lookup r.1 = some r.2 ∧ r.2.userId = userId := by
  simp only [notificationsOf, List.mem_filter, decide_eq_true_eq]
  exact and_congr_left fun _ => Table.mem_rows

/-- Firebase has answered that it will never know this token again. -/
def Rejected (log : List (Sigma Answer)) (token : String) : Prop :=
  ∃ tokens message responses, ⟨.sendEachForMulticast tokens message, .ok responses⟩ ∈ log ∧
    token ∈ invalidTokens tokens responses

namespace Operation

/-- The message of the operation is for this user. -/
def Addresses : Operation → Id → Inbox → Prop
  | create dto, userId, _ => userId = dto.userId
  | broadcastToParents _ _ _, userId, s => userId ∈ liveParents s
  | _, _, _ => False

/-- What the operation tells, in a row of its own for each user that it tells it. -/
def Tells : Operation → Context → List Notification → Prop
  | create dto, _, rows => ∃ createdAt, rows =
      [{ userId := dto.userId
         title := dto.title
         message := dto.message
         type := dto.type.getD .PAYMENT
         isRead := false
         link := dto.link
         createdAt }]
  | broadcastToParents title message link, y, rows => ∃ s ∈ y.seen, ∃ createdAt,
      rows = (liveParents s).map (announcement title message link createdAt)
  | ledger told, _, rows => rows = told.map fun r => { r.2 with isRead := false }
  | _, _, _ => False

end Operation

/-- The writes of a statement that runs where `y` has come to. -/
inductive Effect (y : Context) : Operation → List Write → Prop
  | told {o : Operation} {rows : List (Id × Notification)} : o.Tells y (rows.map (·.2)) →
      (rows.map (·.1)).Nodup → (∀ r ∈ rows, y.now.notifications.lookup r.1 = none) →
      Effect y o (rows.map fun r => .putNotification r.1 r.2)
  | pruned {o : Operation} {tokens : List String} : (∀ token ∈ tokens, Rejected y.log token) →
      Effect y o (tokens.map .deleteDeviceToken)
  | registered (userId : Id) (token platform : String) :
      Effect y (.register userId token platform) [.putDeviceToken token { userId, platform }]
  | unregistered {userId : Id} {token : String} : Owned userId token y.now →
      Effect y (.unregister userId token) [.deleteDeviceToken token]
  | marked {notificationId userId : Id} {row : Notification} :
      y.now.notifications.lookup notificationId = some row → row.userId = userId →
      Effect y (.markAsRead notificationId userId) [.putNotification notificationId row.read]
  | markedAll {userId : Id} {rows : List (Id × Notification)} :
      (∀ r ∈ rows, r ∈ notificationsOf userId y.now) →
      Effect y (.markAllAsRead userId) (rows.map fun r => .putNotification r.1 r.2.read)
  | account (userId : Id) (row : User) : Effect y (.account userId row) [.putUser userId row]

/-! ### What the writes leave -/

theorem notifications_told {rows : List (Id × Notification)} {v : Inbox} {k : Id}
    (hk : k ∉ rows.map (·.1)) :
    (store.applyAll (rows.map fun r => .putNotification r.1 r.2) v).notifications.lookup k =
      v.notifications.lookup k := by
  induction rows generalizing v with
  | nil => rfl
  | cons r rows ih =>
    rw [List.map_cons, List.mem_cons, not_or] at hk
    rw [List.map_cons, Store.applyAll_cons, ih hk.2]
    exact AList.lookup_insert_ne hk.1

theorem notifications_pruned {tokens : List String} {v : Inbox} :
    (store.applyAll (tokens.map Write.deleteDeviceToken) v).notifications = v.notifications := by
  induction tokens generalizing v with
  | nil => rfl
  | cons token tokens ih =>
    rw [List.map_cons, Store.applyAll_cons, ih]
    rfl

theorem deviceTokens_put {rows : List (Id × Notification)} {v : Inbox}
    (data : Notification → Notification) :
    (store.applyAll (rows.map fun r => .putNotification r.1 (data r.2)) v).deviceTokens =
      v.deviceTokens := by
  induction rows generalizing v with
  | nil => rfl
  | cons r rows ih =>
    rw [List.map_cons, Store.applyAll_cons, ih]
    rfl

theorem deviceTokens_pruned {tokens : List String} {v : Inbox} {token : String} :
    (store.applyAll (tokens.map Write.deleteDeviceToken) v).deviceTokens.lookup token =
      if token ∈ tokens then none else v.deviceTokens.lookup token := by
  induction tokens generalizing v with
  | nil => simp
  | cons t tokens ih =>
    rw [List.map_cons, Store.applyAll_cons, ih]
    simp only [store_apply, Write.apply, Table.lookup_erase_ite, List.mem_cons]
    by_cases hmem : token ∈ tokens
    · simp [hmem]
    · by_cases heq : token = t <;> simp [hmem, heq]

/-- Rows that are marked stay where they are, marked. -/
theorem notifications_marked {rows : List (Id × Notification)} {v : Inbox}
    (h : ∀ r ∈ rows, v.notifications.lookup r.1 = some r.2) {k : Id} {row : Notification}
    (hk : v.notifications.lookup k = some row) :
    (store.applyAll (rows.map fun r => .putNotification r.1 r.2.read) v).notifications.lookup k =
      some (if k ∈ rows.map (·.1) then row.read else row) := by
  suffices hgeneral : ∀ w : Inbox, (∀ j, (w.notifications.lookup j) = v.notifications.lookup j ∨
      w.notifications.lookup j = (v.notifications.lookup j).map Notification.read) →
      (store.applyAll (rows.map fun r => .putNotification r.1 r.2.read) w).notifications.lookup k =
        if k ∈ rows.map (·.1) then some row.read else w.notifications.lookup k by
    rw [hgeneral v (fun _ => .inl rfl), hk]
    split <;> rfl
  induction rows with
  | nil =>
    intro w _
    simp
  | cons r rows ih =>
    intro w hw
    have hrow := h r List.mem_cons_self
    rw [List.map_cons, Store.applyAll_cons, ih (fun r' hr' => h r' (List.mem_cons_of_mem _ hr'))]
    · simp only [store_apply, Write.apply, Table.lookup_insert_ite, List.map_cons, List.mem_cons]
      by_cases hmem : k ∈ rows.map (·.1)
      · simp [hmem]
      · by_cases heq : k = r.1
        · rw [heq] at hk ⊢
          rw [Option.some.inj (hrow.symm.trans hk)]
          simp
        · simp [hmem, heq]
    · intro j
      simp only [store_apply, Write.apply, Table.lookup_insert_ite]
      split
      · next hj =>
        rw [hj, hrow]
        exact .inr rfl
      · exact hw j

/-- Rows are only ever marked as read. -/
def Kept (s t : Inbox) : Prop :=
  ∀ k row, s.notifications.lookup k = some row →
    t.notifications.lookup k = some row ∨ t.notifications.lookup k = some row.read

theorem Kept.refl (s : Inbox) : Kept s s := fun _ _ h => .inl h

theorem Kept.trans {s t u : Inbox} (h : Kept s t) (h' : Kept t u) : Kept s u := by
  intro k row hrow
  rcases h k row hrow with hsame | hread
  · exact h' k row hsame
  · rcases h' k row.read hread with hsame | hread
    · exact .inr hsame
    · exact .inr hread

theorem Effect.kept {y : Context} {o : Operation} {ws : List Write} (h : Effect y o ws) :
    Kept y.now (store.applyAll ws y.now) := by
  intro k row hrow
  cases h with
  | @told _ rows _ _ hnew =>
    refine .inl ((notifications_told ?_).trans hrow)
    intro hk
    rcases List.mem_map.mp hk with ⟨r, hr, rfl⟩
    rw [hnew r hr] at hrow
    cases hrow
  | pruned hdead =>
    rw [notifications_pruned]
    exact .inl hrow
  | registered | unregistered | account => exact .inl hrow
  | @marked notificationId userId old hold howner =>
    simp only [Store.applyAll_cons, Store.applyAll_nil, store_apply, Write.apply,
      Table.lookup_insert_ite]
    split
    · next hk =>
      rw [hk, hold] at hrow
      rw [Option.some.inj hrow]
      exact .inr rfl
    · exact .inl hrow
  | @markedAll userId rows hmine =>
    rw [notifications_marked (fun r hr => (mem_notificationsOf.mp (hmine r hr)).1) hrow]
    split
    · exact .inr rfl
    · exact .inl rfl

/-! ### The contract of an operation -/

/-- A message goes to somebody it has been seen to be for, on a socket or on devices that have
    been seen to be theirs. -/
def Operation.Asks (o : Operation) (y : Context) : Call → Prop
  | .pushNotification userId _ => ∃ s ∈ y.seen, o.Addresses userId s
  | .sendEachForMulticast tokens _ => ∃ userId, (∃ s ∈ y.seen, o.Addresses userId s) ∧
      ∃ s ∈ y.seen, ∀ token ∈ tokens, Owned userId token s
  | _ => True

def contract (o : Operation) : Contract Inbox Write Answer where
  rely := fun y ws => Kept y.now (store.applyAll ws y.now)
  answers := fun _ _ _ => True
  faults := fun _ => True
  admits := fun _ _ => True
  guarantee := fun y ws => Effect y o ws
  asks := o.Asks

/-- No transaction is open, and a state that satisfies `V` has been seen. -/
structure Going (V : Inbox → Prop) (y : Context) : Prop where
  tx : y.tx = none
  seen : ∃ s ∈ y.seen, V s

section Rules

variable {o : Operation} {V : Inbox → Prop} {x y : Context} {α : Type}

theorem Kept.drift (hd : Drift store (contract o).rely x y) : Kept x.now y.now := by
  induction hd with
  | refl => exact .refl _
  | step ws _ _ hkept _ ih =>
    rw [Ctx.see_now]
    exact ih.trans hkept

namespace Going

theorem drift {R : Context → List Write → Prop} (h : Going V x) (hd : Drift store R x y) :
    Going V y := by
  rcases h.seen with ⟨s, hs, hv⟩
  exact ⟨hd.tx_eq.trans h.tx, s, hd.seen_subset s hs, hv⟩

theorem view (h : Going V y) : y.view store = y.now := by
  rw [Ctx.view, Ctx.pending, h.tx]
  rfl

theorem wrote (h : Going V y) (ws : List Write) : Going V (y.wrote store ws) := by
  rcases h.seen with ⟨s, hs, hv⟩
  refine ⟨by rw [Ctx.wrote_tx, h.tx]; rfl, s, ?_, hv⟩
  unfold Ctx.wrote
  rw [h.tx]
  exact Tracks.mem_seen_see (x := { y with tx := none, ran := y.ran + 1 }) hs ws

theorem answered (h : Going V y) (c : Call) (a : Answer c) : Going V (y.answered c a) :=
  ⟨h.tx, h.seen⟩

theorem failed (h : Going V y) : Going V y.failed := ⟨h.tx, h.seen⟩

/-- What is read outside a transaction has been committed and is remembered. -/
theorem reads (h : Going V y) {W : Inbox → Prop} (hw : W y.now) : Going W (y.wrote store []) := by
  refine wrote ⟨h.tx, y.now, List.mem_cons_self, hw⟩ []

/-- A statement that keeps to the effects of the operation. -/
theorem exec {f : Inbox → Except Err (α × List Write)} {ok : α → Context → Prop}
    {err : Err → Context → Prop} (hx : Going V x)
    (heffect : ∀ y a ws, Going V y → Kept x.now y.now → y.log = x.log → f y.now = .ok (a, ws) →
      Effect y o ws)
    (hok : ∀ (y : Context) a ws, Going V y → f y.now = .ok (a, ws) → ok a (y.wrote store ws))
    (herr : ∀ e y, Going V y → err e y) :
    (Routine.exec .database f).wp store (contract o) ok err x := by
  refine Routine.wp_exec fun y hd => ?_
  have hy := hx.drift hd
  rw [hy.view]
  refine ⟨fun _ => herr _ _ hy.failed, fun e _ => herr e _ (hy.wrote []), fun a ws hf => ?_⟩
  refine ⟨fun _ _ => ?_, fun _ => hok y a ws hy hf⟩
  rw [Ctx.released_outside hy.tx]
  exact heffect y a ws hy (Kept.drift hd) hd.log_eq hf

/-- A statement that ends its call. -/
theorem closes {f : Inbox → Except Err (α × List Write)} (hx : Going V x)
    (heffect : ∀ y a ws, f y.now = .ok (a, ws) → Effect y o ws) :
    (Routine.exec .database f).wp store (contract o) (fun _ _ => True) (fun _ _ => True) x :=
  hx.exec (fun y a ws _ _ _ hf => heffect y a ws hf) (fun _ _ _ _ _ => trivial)
    fun _ _ _ => trivial

theorem read {q : Inbox → α} {ok : α → Context → Prop} {err : Err → Context → Prop}
    (hx : Going V x) (hok : ∀ y, Going V y → Kept x.now y.now → ok (q y.now) (y.wrote store []))
    (herr : ∀ e y, Going V y → err e y) :
    (Notifications.read q).wp store (contract o) ok err x := by
  refine Routine.wp_query fun y hd => ?_
  have hy := hx.drift hd
  rw [hy.view]
  exact ⟨fun _ => herr _ _ hy.failed, hok y hy (Kept.drift hd)⟩

theorem ask {c : Call} {ok : Answer c → Context → Prop} {err : Err → Context → Prop}
    (hx : Going V x) (hc : ∀ y, Going V y → o.Asks y c) (hok : ∀ a y, Going V y → ok a y) :
    (Notifications.ask c).wp store (contract o) ok err x :=
  Routine.wp_ask fun y hd =>
    ⟨hc y (hx.drift hd), fun a _ => hok a _ ((hx.drift hd).answered c a)⟩

/-- Somebody that the message is for has been seen. -/
theorem addresses {userId : Id} (h : Going V y) (hV : ∀ s, V s → o.Addresses userId s) :
    ∃ s ∈ y.seen, o.Addresses userId s := by
  rcases h.seen with ⟨s, hs, hv⟩
  exact ⟨s, hs, hV s hv⟩

end Going

end Rules

/-! ### The operations -/

section Operations

variable {o : Operation} {V : Inbox → Prop} {x : Context} {webAppUrl : Option String}

theorem inserted_eq_ok {rows : List (Id × Notification)} {v : Inbox} {a : Unit} {ws : List Write}
    (h : inserted rows v = .ok (a, ws)) : (rows.map (·.1)).Nodup ∧
      (∀ r ∈ rows, v.notifications.lookup r.1 = none) ∧
      ws = rows.map fun r => .putNotification r.1 r.2 := by
  unfold inserted at h
  split at h
  · next hfresh =>
    split at h
    · cases h
      exact ⟨hfresh.1, hfresh.2, rfl⟩
    · cases h
  · cases h

theorem insertNotifications_wp {rows : List (Id × Notification)}
    (ho : ∀ y, Going V y → o.Tells y (rows.map (·.2))) (hx : Going V x) :
    (insertNotifications rows).wp store (contract o) (fun _ => Going V) (fun _ => Going V) x := by
  refine hx.exec (fun y a ws hy _ _ hf => ?_) (fun y _ ws hy _ => hy.wrote ws) fun _ _ h => h
  rcases inserted_eq_ok hf with ⟨hnodup, hnew, rfl⟩
  exact .told (ho y hy) hnodup hnew

theorem pushToSocket_wp {c : Prop} [Decidable c] {userId : Id} {payload : SocketPayload}
    (hV : ∀ s, V s → o.Addresses userId s) (hx : Going V x) :
    (Routine.onlyIf c (ask (.pushNotification userId payload))).wp store (contract o)
      (fun _ => Going V) (fun _ _ => False) x :=
  Routine.wp_onlyIf (fun _ => hx.ask (fun _ hy => hy.addresses hV) fun _ _ h => h) fun _ => hx

/-- Nothing that goes wrong on the way to the devices is thrown. -/
theorem sendPushNotification_wp {userId : Id} {payload : PushPayload}
    (hV : ∀ s, V s → o.Addresses userId s) (hx : Going V x) :
    (sendPushNotification webAppUrl userId payload).wp store (contract o) (fun _ => Going V)
      (fun _ _ => False) x := by
  unfold sendPushNotification DeviceTokens.getTokensForUser
  refine Routine.wp_tryCatch (Routine.wp_mono (fun _ _ h => h)
    (fun _ y (hy : Going V y) => Routine.wp_pure hy) ?_)
  refine Routine.wp_bind (Routine.wp_bind (hx.read (fun y hy _ => ?_) fun _ _ h => h))
  refine Routine.wp_bind (Routine.wp_ask fun z hz => ⟨trivial, fun order _ => Routine.wp_pure ?_⟩)
  have hz' : Going V z := (hy.wrote []).drift hz
  have hread : y.now ∈ z.seen := by
    have hnow : (y.wrote store []).now = y.now := by
      rw [Ctx.wrote_now, Ctx.released_nil, Store.applyAll_nil]
    apply hz.seen_subset
    rw [← hnow]
    exact List.mem_cons_self
  refine Routine.wp_ite (fun _ => Routine.wp_pure (hz'.answered _ _)) fun _ => ?_
  refine Routine.wp_bind (Routine.wp_ask fun u hu => ⟨?_, fun response _ => ?_⟩)
  · have hrecipient := ((hz'.answered _ _).drift hu).addresses hV
    refine ⟨userId, hrecipient, y.now, hu.seen_subset _ hread, ?_⟩
    exact fun token htoken => mem_tokensOf.mp (mem_of_mem_arrange htoken)
  have hu' : Going V u := (hz'.answered _ _).drift hu
  cases response with
  | error e => exact Routine.wp_throw (hu'.answered _ _)
  | ok responses =>
    refine Routine.wp_onlyIf (fun _ => ?_) fun _ => hu'.answered _ _
    refine (hu'.answered _ _).exec (fun w a ws _ _ hlog hf => ?_) (fun w _ ws hw _ => hw.wrote ws)
      fun _ _ h => h
    cases hf
    refine .pruned fun token htoken => ?_
    refine ⟨_, buildPushMessage webAppUrl payload, responses, ?_, (List.mem_filter.mp htoken).1⟩
    rw [hlog]
    exact List.mem_cons_self

theorem findNotifications_wp {userId : Id} {count : Nat} (hx : Going V x) :
    (findNotifications userId count).wp store (contract o) (fun _ => Going V) (fun _ => Going V)
      x := by
  unfold findNotifications
  refine Routine.wp_bind (hx.read (fun y hy _ => ?_) fun _ _ h => h)
  exact Routine.wp_bind
    ((hy.wrote []).ask (fun _ _ => trivial) fun order z hz => Routine.wp_pure hz)

theorem getUserNotifications_wp {userId : Id} {limit : Option ℚ}
    (hx : Going (fun _ => True) x) : (getUserNotifications userId limit).wp store (contract o)
      (fun _ _ => True) (fun _ _ => True) x := by
  unfold getUserNotifications
  refine Routine.wp_bind (hx.ask (fun _ _ => trivial) fun countFirst y hy => ?_)
  refine Routine.wp_ite (fun _ => ?_) fun _ => ?_
  · refine Routine.wp_bind (hy.read (fun z hz _ => ?_) fun _ _ _ => trivial)
    exact Routine.wp_bind (Routine.wp_mono (fun _ _ _ => Routine.wp_pure trivial)
      (fun _ _ _ => trivial) (findNotifications_wp (hz.wrote [])))
  · refine Routine.wp_bind (Routine.wp_mono (fun _ z hz => ?_) (fun _ _ _ => trivial)
      (findNotifications_wp hy))
    exact Routine.wp_bind (hz.read (fun _ _ _ => Routine.wp_pure trivial) fun _ _ _ => trivial)

theorem create_wp {dto : CreateNotificationDto} (hx : Going (fun _ => True) x) :
    (create webAppUrl dto).wp store (contract (.create dto)) (fun _ _ => True) (fun _ _ => True)
      x := by
  unfold create
  refine Routine.wp_bind (hx.ask (fun _ _ => trivial) fun id y hy => ?_)
  refine Routine.wp_bind (hy.ask (fun _ _ => trivial) fun createdAt z hz => ?_)
  refine Routine.wp_bind (Routine.wp_mono (fun _ u hu => ?_) (fun _ _ _ => trivial)
    (insertNotifications_wp (fun _ _ => ⟨createdAt, rfl⟩) hz))
  refine Routine.wp_bind (Routine.wp_mono (fun _ w hw => ?_) (fun _ _ h => h.elim)
    (pushToSocket_wp (fun _ _ => rfl) hu))
  refine Routine.wp_bind (Routine.wp_mono (fun _ _ _ => Routine.wp_pure trivial)
    (fun _ _ h => h.elim) (sendPushNotification_wp (fun _ _ => rfl) hw))

/-- A new id for each of the users. -/
theorem freshIds_wp {users : List Id} (hx : Going V x) :
    (users.mapM fun userId => (fun id => (id, userId)) <$> ask .uuid).wp store (contract o)
      (fun rows y => Going V y ∧ rows.map (·.2) = users) (fun _ _ => False) x := by
  induction users generalizing x with
  | nil => exact Routine.wp_pure ⟨hx, rfl⟩
  | cons userId users ih =>
    rw [List.mapM_cons]
    simp only [map_eq_pure_bind, bind_assoc, pure_bind] at ih ⊢
    refine Routine.wp_bind (hx.ask (fun _ _ => trivial) fun id y hy => ?_)
    refine Routine.wp_bind (Routine.wp_mono (fun rows z hz => ?_) (fun _ _ h => h) (ih hy))
    exact Routine.wp_pure ⟨hz.1, by rw [List.map_cons, hz.2]⟩

theorem broadcastToParents_wp {title message : String} {link : Option String}
    (hx : Going (fun _ => True) x) :
    (broadcastToParents webAppUrl title message link).wp store
      (contract (.broadcastToParents title message link)) (fun _ _ => True) (fun _ _ => True)
      x := by
  unfold broadcastToParents
  refine Routine.wp_bind (hx.read (fun y hy _ => ?_) fun _ _ _ => trivial)
  refine Routine.wp_ite (fun _ => Routine.wp_pure trivial) fun _ => ?_
  have hparents := hy.reads (W := fun s => liveParents s = liveParents y.now) rfl
  refine Routine.wp_bind (Routine.wp_mono (fun rows z hrows => ?_) (fun _ _ _ => trivial)
    (freshIds_wp hparents))
  rcases hrows with ⟨hz, hrecipients⟩
  refine Routine.wp_bind (hz.ask (fun _ _ => trivial) fun createdAt u hu => ?_)
  have htells (w : Context) (hw : Going (fun s => liveParents s = liveParents y.now) w) :
      (Operation.broadcastToParents title message link).Tells w
        ((rows.map fun r => (r.1, announcement title message link createdAt r.2)).map (·.2)) := by
    rcases hw.seen with ⟨s, hs, hsame⟩
    refine ⟨s, hs, createdAt, ?_⟩
    rw [hsame, ← hrecipients, List.map_map, List.map_map]
    rfl
  refine Routine.wp_bind (Routine.wp_mono (fun _ w hw => ?_) (fun _ _ _ => trivial)
    (insertNotifications_wp htells hu))
  refine Routine.wp_bind (Routine.wp_mapM (P := Going _) hw (fun userId huser z hz => ?_)
    fun _ _ _ => Routine.wp_pure trivial)
  have haddressed (s : Inbox) (hs : liveParents s = liveParents y.now) :
      (Operation.broadcastToParents title message link).Addresses userId s := by
    rw [Operation.Addresses, hs]
    exact huser
  refine Routine.wp_bind (Routine.wp_mono (fun _ u hu => ?_) (fun _ _ h => h.elim)
    (pushToSocket_wp haddressed hz))
  exact Routine.wp_mono (fun _ _ h => h) (fun _ _ h => h.elim)
    (sendPushNotification_wp haddressed hu)

theorem markAsRead_wp {notificationId userId : Id} (hx : Going (fun _ => True) x) :
    (markAsRead notificationId userId).wp store (contract (.markAsRead notificationId userId))
      (fun _ _ => True) (fun _ _ => True) x := by
  unfold markAsRead
  refine Routine.wp_bind (hx.read (fun y hy _ => ?_) fun _ _ _ => trivial)
  refine Routine.wp_bind (Routine.wp_orThrow (fun _ => trivial) fun row hrow => ?_)
  rcases Option.filter_eq_some_iff.mp hrow with ⟨hlookup, howner⟩
  refine (hy.wrote []).exec (fun z a ws _ hkept _ hf => ?_) (fun _ _ _ _ _ => trivial)
    fun _ _ _ => trivial
  -- By now the row may have been marked by another call.
  rw [Ctx.wrote_now, Ctx.released_nil, Store.applyAll_nil] at hkept
  split at hf
  · next now hnow =>
    cases hf
    refine .marked hnow ?_
    rcases hkept _ _ hlookup with hsame | hread
    · rw [Option.some.inj (hnow.symm.trans hsame)]
      exact of_decide_eq_true howner
    · rw [Option.some.inj (hnow.symm.trans hread)]
      exact of_decide_eq_true howner
  · cases hf

/-- Every operation keeps to its contract. -/
theorem Operation.wp (webAppUrl : Option String) (o : Operation) (s : Inbox) :
    (o.program webAppUrl).wp store (contract o) (fun _ _ => True) (.init s) := by
  have hx : Going (fun _ => True) (.init s : Context) := ⟨rfl, s, List.mem_cons_self, trivial⟩
  have hmap {α : Type} {m : Action α} {f : α → Reply}
      (h : m.wp store (contract o) (fun _ _ => True) (fun _ _ => True) (.init s)) :
      Prog.wp store (contract o) (fun _ _ => True) (f <$> m).run (.init s) := by
    have hmapped : (f <$> m).wp store (contract o) (fun _ _ => True) (fun _ _ => True)
        (.init s) := by
      rw [map_eq_pure_bind]
      exact Routine.wp_bind (Routine.wp_mono (fun _ _ _ => Routine.wp_pure trivial)
        (fun _ _ h => h) h)
    exact Prog.wp_mono (fun _ _ _ => trivial) hmapped
  cases o with
  | create dto => exact hmap (create_wp hx)
  | broadcastToParents title message link => exact hmap (broadcastToParents_wp hx)
  | getUserNotifications userId limit => exact hmap (getUserNotifications_wp hx)
  | markAsRead notificationId userId => exact hmap (markAsRead_wp hx)
  | markAllAsRead userId =>
    refine hmap (hx.closes fun y a ws hf => ?_)
    cases hf
    exact .markedAll fun r hr => (List.mem_filter.mp hr).1
  | register userId token platform =>
    refine hmap (hx.closes fun y a ws hf => ?_)
    split at hf
    · cases hf
      exact .registered userId token platform
    · cases hf
  | unregister userId token =>
    refine hmap (hx.closes fun y a ws hf => ?_)
    split at hf
    · next row hrow =>
      cases hf
      split
      · next howner => exact .unregistered ⟨row, hrow, howner⟩
      · exact .pruned (List.forall_mem_nil _)
    · cases hf
      exact .pruned (List.forall_mem_nil _)
  | account userId row =>
    have haccount : (Routine.exec .database fun _ => .ok (.done, [.putUser userId row]) :
        Action Reply).wp store (contract (.account userId row)) (fun _ _ => True)
        (fun _ _ => True) (.init s) := by
      refine hx.closes fun y a ws hf => ?_
      cases hf
      exact .account userId row
    exact Prog.wp_mono (fun _ _ _ => trivial) haccount
  | ledger rows =>
    refine hmap (Routine.wp_mono (fun _ _ _ => trivial) (fun _ _ _ => trivial)
      (insertNotifications_wp (fun _ _ => ?_) hx))
    rw [Operation.Tells, List.map_map]
    rfl

theorem discipline (webAppUrl : Option String)
    (guard : Center → Event Operation Answer → Center → Prop) :
    Discipline store (Operation.program webAppUrl) guard contract (fun _ _ _ => True)
      fun _ => True where
  spawn := fun s _ o _ _ => o.wp webAppUrl s.store
  answers := fun _ _ _ _ _ _ _ _ _ => trivial
  faults := fun _ _ _ _ _ _ _ _ => trivial
  admits := fun _ _ _ _ _ _ _ _ _ _ _ => trivial
  inv := fun _ _ _ _ _ _ _ _ _ _ _ _ _ => trivial
  rely := by
    intro s s' pid ch p i q ws _ _ _ _ _ _ hp hq _ heffect _
    have hkept := heffect.kept
    rw [hp, ← hq] at hkept
    exact hkept

end Operations

end Notifications

end Lopay
