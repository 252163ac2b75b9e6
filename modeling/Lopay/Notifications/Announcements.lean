import Lopay.Notifications.Devices
import Lopay.Transactions.Certain

/-!
# What has been told is told

A notification is written before it is pushed, and nothing that happens on the way to a socket or
to Firebase is thrown. An operation that has written something therefore never answers with an
error, and an announcement is written for every parent at once.
-/

namespace Lopay

open Transactions

namespace Notifications

variable {webAppUrl : Option String} {start : Inbox → Prop} {t u v : Center}
  {p : Proc Operation Inbox Write Answer (Except Err Reply)} {pid : Nat} {ch : Choice Answer}

section Binding

open Routine

theorem pushed_certain {c : Prop} [Decidable c] {userId recipient : Id} {payload : SocketPayload}
    {message : PushPayload} : (do
      onlyIf c (ask (.pushNotification userId payload))
      sendPushNotification webAppUrl recipient message : Action Unit).Certain fun _ => True :=
  certain_bind (certain_onlyIf (certain_ask _)) fun _ _ =>
    certain_tryCatch fun _ => certain_pure trivial

theorem create_binding {dto : CreateNotificationDto} :
    (create webAppUrl dto).Binding fun _ => True := by
  unfold create
  refine binding_after (silent_ask _) fun id => binding_after (silent_ask _) fun createdAt => ?_
  have hpushed {row : Notification} {message : PushPayload} : (do
      onlyIf (dto.userId ≠ "") (ask (.pushNotification dto.userId (.notification id row)))
      sendPushNotification webAppUrl dto.userId message
      pure (id, row) : Action (Id × Notification)).Certain fun _ => True := by
    refine certain_bind (certain_onlyIf (certain_ask _)) fun _ _ => ?_
    exact certain_bind (certain_tryCatch fun _ => certain_pure trivial) fun _ _ =>
      certain_pure trivial
  exact binding_bind binding_exec (fun _ _ => hpushed) fun _ => hpushed.binding

theorem broadcastToParents_binding {title message : String} {link : Option String} :
    (broadcastToParents webAppUrl title message link).Binding fun _ => True := by
  unfold broadcastToParents
  refine binding_after silent_query fun parents => ?_
  split
  · exact binding_pure
  · have hpushed : (do
        let _ ← parents.mapM fun userId => do
          onlyIf (userId ≠ "")
            (ask (.pushNotification userId (.announcement title message link)))
          sendPushNotification webAppUrl userId
            { title, body := message, link, notificationId := none, type := some .ANNOUNCEMENT }
        pure parents.length : Action Nat).Certain fun _ => True :=
      certain_bind (certain_mapM fun _ => pushed_certain) fun _ _ => certain_pure trivial
    refine binding_after (silent_mapM fun userId => ?_) fun rows =>
      binding_after (silent_ask _) fun createdAt =>
        binding_bind binding_exec (fun _ _ => hpushed) fun _ => hpushed.binding
    rw [map_eq_pure_bind]
    exact binding_after (silent_ask _) fun _ => binding_pure

theorem markAsRead_binding {notificationId userId : Id} :
    (markAsRead notificationId userId).Binding fun _ => True := by
  unfold markAsRead
  refine binding_after silent_query fun found => ?_
  cases found with
  | none => exact binding_throw
  | some row => exact binding_exec

theorem findNotifications_silent {userId : Id} {count : Nat} :
    (findNotifications userId count).Binding fun _ => False :=
  binding_after silent_query fun _ => binding_after (silent_ask _) fun _ => binding_pure

theorem getUserNotifications_binding {userId : Id} {limit : Option ℚ} :
    (getUserNotifications userId limit).Binding fun _ => True := by
  unfold getUserNotifications
  refine binding_after (silent_ask _) fun countFirst => ?_
  split
  · exact binding_after silent_query fun _ =>
      binding_after findNotifications_silent fun _ => binding_pure
  · exact binding_after findNotifications_silent fun _ =>
      binding_after silent_query fun _ => binding_pure

theorem Operation.binding (webAppUrl : Option String) (o : Operation) :
    (o.action webAppUrl).Binding fun _ => True := by
  cases o with
  | create dto => exact binding_map create_binding
  | broadcastToParents title message link => exact binding_map broadcastToParents_binding
  | getUserNotifications userId limit => exact binding_map getUserNotifications_binding
  | markAsRead notificationId userId => exact binding_map markAsRead_binding
  | markAllAsRead userId => exact binding_map binding_exec
  | register userId token platform => exact binding_map binding_exec
  | unregister userId token => exact binding_map binding_exec
  | account userId row =>
    unfold Operation.action
    exact binding_exec
  | ledger rows => exact binding_map binding_exec

end Binding

/-- Once a step of an operation has changed what is stored, the operation does not end in an error,
    whatever becomes of its messages; so one that does end in an error has changed nothing. -/
theorem written_answers
    (ht : Sys.Reach store (Operation.program webAppUrl) (fun _ _ _ => True) start t)
    (hstep : t.step store (Operation.program webAppUrl) (.move pid ch) = some u)
    (hchanged : u.store ≠ t.store)
    (hv : Sys.Leads store (Operation.program webAppUrl) (fun _ _ _ => True) u v)
    (hp : v.procs[pid]? = some p) (e : Err) : p.prog.result? ≠ some (.error e) := by
  have hcertain := hv.bound (G := fun _ r => ∃ a, r = .ok a ∧ True)
    (fun o => o.binding webAppUrl) ht hstep hchanged hp
  intro herror
  rw [Prog.eq_ret_of_result herror] at hcertain
  rcases hcertain with ⟨a, ha, -⟩
  cases ha

/-- The parent is told something while Firebase cannot be reached. -/
theorem written_answers_unreached : ∃ (t u v : Center) (p : _),
    Sys.exec store (Operation.program none) (fun _ _ _ => true)
      (attending 0 (.register "parent" "device" "web") 1 ++ attending 1 (told "parent") 2)
      (.init household) = some t ∧
    t.step store (Operation.program none) (.move 1 (answering true 2)) = some u ∧
    Sys.exec store (Operation.program none) (fun _ _ _ => true)
      ((List.range' 3 4).map fun i => .move 1 (answering false i)) u = some v ∧
    v.procs[1]? = some p ∧ p.prog.finished = true ∧
    ∀ e, p.prog.result? ≠ some (.error e) := by
  have hruns : ((Sys.exec store (Operation.program none) (fun _ _ _ => true)
      (attending 0 (.register "parent" "device" "web") 1 ++ attending 1 (told "parent") 2)
      (.init household)).any fun t =>
      (t.step store (Operation.program none) (.move 1 (answering true 2))).any fun u =>
        decide (t.store.notifications.lookup "0" = none) &&
        ((u.store.notifications.lookup "0").isSome &&
        (Sys.exec store (Operation.program none) (fun _ _ _ => true)
          ((List.range' 3 4).map fun i => .move 1 (answering false i)) u).any fun v =>
            v.procs[1]?.any fun p => p.prog.finished)) = true := by
    decide +kernel
  rcases (Option.any_eq_true _ _).mp hruns with ⟨t, ht, hany⟩
  rcases (Option.any_eq_true _ _).mp hany with ⟨u, hu, hboth⟩
  rw [Bool.and_eq_true, Bool.and_eq_true] at hboth
  rcases hboth with ⟨hbefore, hafter, hany⟩
  rcases (Option.any_eq_true _ _).mp hany with ⟨v, hv, hany⟩
  rcases (Option.any_eq_true _ _).mp hany with ⟨p, hp, hfinished⟩
  have hchanged : u.store ≠ t.store := by
    intro hsame
    rw [hsame, of_decide_eq_true hbefore] at hafter
    cases hafter
  have hleads : Sys.Leads store (Operation.program none) (fun _ _ _ => True) u v :=
    Sys.Leads.of_exec (fun _ _ _ _ => trivial) .refl hv
  exact ⟨t, u, v, p, ht, hu, hv, hp, hfinished,
    written_answers (reach_of_events ht) hu hchanged hleads hp⟩

/-! ### Announcements -/

theorem liveParents_nodup (s : Inbox) : (liveParents s).Nodup := by
  have hkeys : (s.users.rows.map (·.1)).Nodup := by
    have heq : s.users.rows.map (·.1) = s.users.keys := by
      simp [Table.rows, AList.keys, List.keys]
    rw [heq]
    exact s.users.keys_nodup
  exact hkeys.sublist (List.filter_sublist.map _)

theorem notifications_inserted {rows : List (Id × Notification)} {w : Inbox}
    (hnodup : (rows.map (·.1)).Nodup) {r : Id × Notification} (hr : r ∈ rows) :
    (store.applyAll (rows.map fun r => .putNotification r.1 r.2) w).notifications.lookup r.1 =
      some r.2 := by
  induction rows generalizing w with
  | nil => cases hr
  | cons head rows ih =>
    rw [List.map_cons, List.nodup_cons] at hnodup
    rw [List.map_cons, Store.applyAll_cons]
    rcases List.mem_cons.mp hr with rfl | hr
    · rw [notifications_told hnodup.1]
      exact AList.lookup_insert _
    · exact ih hnodup.2 hr

/-- The announcement that an operation is to make. -/
def Operation.announced? : Operation → Option (String × String × Option String)
  | broadcastToParents title message link => some (title, message, link)
  | _ => none

theorem Operation.announced?_eq_some {o : Operation} {title message : String}
    {link : Option String} (h : o.announced? = some (title, message, link)) :
    o = .broadcastToParents title message link := by
  cases o with
  | broadcastToParents title' message' link' =>
    cases h
    rfl
  | _ => cases h

/-- All rows of an announcement are written in one step: one for each parent who had an account
    when the parents were read, and nothing else. -/
theorem announcement_for_each
    (ht : Sys.Reach store (Operation.program webAppUrl) (fun _ _ _ => True) start t)
    (hstep : t.step store (Operation.program webAppUrl) (.move pid ch) = some u)
    (hp : t.procs[pid]? = some p) {title message : String} {link : Option String}
    (hjob : p.job = .broadcastToParents title message link)
    (hchanged : u.store.notifications ≠ t.store.notifications) :
    ∃ s ∈ p.ctx.seen, ∃ createdAt, ∃ rows : List (Id × Notification), (liveParents s).Nodup ∧
      rows.map (·.2) = (liveParents s).map (announcement title message link createdAt) ∧
      (rows.map (·.1)).Nodup ∧
      (∀ r ∈ rows, t.store.notifications.lookup r.1 = none ∧
        u.store.notifications.lookup r.1 = some r.2) ∧
      ∀ k, k ∉ rows.map (·.1) →
        u.store.notifications.lookup k = t.store.notifications.lookup k := by
  have hgood := ht.good (discipline webAppUrl _) fun _ _ => trivial
  rcases hgood.committed (discipline webAppUrl fun _ _ _ => True) hstep trivial with
    hsame | hmoved
  · rw [hsame] at hchanged
    exact absurd rfl hchanged
  · rcases hmoved with ⟨mover, ch', m, ws, hevent, hm, -, hnow, heffect, hstore⟩
    cases hevent
    rw [Option.some.inj (hm.symm.trans hp)] at heffect hnow
    replace heffect : Effect p.ctx p.job ws := heffect
    rw [hjob] at heffect
    rw [hstore] at hchanged ⊢
    cases heffect with
    | @told _ rows htells hnodup hnew =>
      rcases htells with ⟨s, hs, createdAt, hrows⟩
      rw [hnow] at hnew
      exact ⟨s, hs, createdAt, rows, liveParents_nodup s, hrows, hnodup,
        fun r hr => ⟨hnew r hr, notifications_inserted hnodup hr⟩,
        fun k hk => notifications_told hk⟩
    | pruned =>
      rw [notifications_pruned] at hchanged
      exact absurd rfl hchanged

/-- An announcement to both parents. -/
theorem announcement_for_each_household : ∃ (t u : Center) (p : _) (title message : String)
    (link : Option String),
    Sys.exec store (Operation.program none) (fun _ _ _ => true)
      (attending 0 (.broadcastToParents "Holidays" "Schools are closed." none) 4)
      (.init household) = some t ∧
    t.step store (Operation.program none) (.move 0 (answering true 4)) = some u ∧
    t.procs[0]? = some p ∧ p.job = .broadcastToParents title message link ∧
    u.store.notifications ≠ t.store.notifications ∧
    ∃ s ∈ p.ctx.seen, ∃ createdAt, ∃ rows : List (Id × Notification), (liveParents s).Nodup ∧
      rows.map (·.2) = (liveParents s).map (announcement title message link createdAt) ∧
      (rows.map (·.1)).Nodup ∧
      (∀ r ∈ rows, t.store.notifications.lookup r.1 = none ∧
        u.store.notifications.lookup r.1 = some r.2) ∧
      ∀ k, k ∉ rows.map (·.1) →
        u.store.notifications.lookup k = t.store.notifications.lookup k := by
  have hruns : ((Sys.exec store (Operation.program none) (fun _ _ _ => true)
      (attending 0 (.broadcastToParents "Holidays" "Schools are closed." none) 4)
      (.init household)).any fun t =>
      (t.step store (Operation.program none) (.move 0 (answering true 4))).any fun u =>
        t.procs[0]?.any fun p => p.job.announced?.isSome &&
          (decide (t.store.notifications.lookup "1" = none) &&
            (u.store.notifications.lookup "1").isSome)) = true := by
    decide +kernel
  rcases (Option.any_eq_true _ _).mp hruns with ⟨t, ht, hany⟩
  rcases (Option.any_eq_true _ _).mp hany with ⟨u, hu, hany⟩
  rcases (Option.any_eq_true _ _).mp hany with ⟨p, hp, hchecks⟩
  rw [Bool.and_eq_true, Bool.and_eq_true] at hchecks
  rcases hchecks with ⟨hannounced, hbefore, hafter⟩
  rcases Option.isSome_iff_exists.mp hannounced with ⟨⟨title, message, link⟩, hsome⟩
  have hjob := Operation.announced?_eq_some hsome
  have hchanged : u.store.notifications ≠ t.store.notifications := by
    intro hsame
    rw [hsame, of_decide_eq_true hbefore] at hafter
    cases hafter
  exact ⟨t, u, p, title, message, link, ht, hu, hp, hjob, hchanged,
    announcement_for_each (reach_of_events ht) hu hp hjob hchanged⟩

end Notifications

end Lopay
