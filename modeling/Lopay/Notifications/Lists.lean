import Lopay.Notifications.Devices

/-!
# The list of a user's notifications

The page and the figure of the badge come from two queries that run at once. Each of them is true
of what is stored at some moment of the call, though not always of the same one.
-/

namespace Lopay

open Transactions

namespace Notifications

/-! ### Pages -/

/-- The newest rows of the user in `s`, at most `count` of them, newest first. -/
structure Page (userId : Id) (count : Nat) (items : List (Id × Notification)) (s : Inbox) :
    Prop where
  newest : ∃ older, (items ++ older).Perm (notificationsOf userId s) ∧
    (items ++ older).Pairwise Newer
  length : items.length = min count (notificationsOf userId s).length

instance : Std.Total Newer := ⟨fun a b => le_total b.2.createdAt a.2.createdAt⟩

instance : IsTrans (Id × Notification) Newer := ⟨fun _ _ _ hab hbc => le_trans hbc hab⟩

theorem page_of_order (userId : Id) (count : Nat) (s : Inbox) (order : List Nat) :
    Page userId count
      (((arrange (notificationsOf userId s) order).insertionSort Newer).take count) s := by
  have hperm : ((arrange (notificationsOf userId s) order).insertionSort Newer).Perm
      (notificationsOf userId s) :=
    (List.perm_insertionSort _ _).trans (arrange_perm _ order)
  refine ⟨⟨((arrange (notificationsOf userId s) order).insertionSort Newer).drop count, ?_, ?_⟩, ?_⟩
  · rw [List.take_append_drop]
    exact hperm
  · rw [List.take_append_drop]
    exact List.pairwise_insertionSort _ _
  · rw [List.length_take, hperm.length_eq]

theorem requested_pos (limit : Option ℚ) : 0 < requested limit := by
  unfold requested
  split
  · split
    · omega
    · decide
  · decide

theorem takeLimit_pos (limit : Option ℚ) : 0 < takeLimit limit :=
  Nat.lt_min.mpr ⟨requested_pos limit, by decide⟩

theorem takeLimit_le (limit : Option ℚ) : takeLimit limit ≤ MAX_LIST_LIMIT := Nat.min_le_right _ _

/-! ### The call -/

/-- What a list says has been so at some moment that the call has seen. -/
structure Shows (userId : Id) (asked : Option ℚ) (list : NotificationList) (y : Context) :
    Prop where
  limit : list.limit = takeLimit asked
  items : ∃ s ∈ y.seen, Page userId (takeLimit asked) list.items s
  unread : ∃ s ∈ y.seen, list.unreadCount = unreadCount userId s

section Rules

variable {o : Operation} {V W : Inbox → Prop} {x y : Context}

theorem Going.mono (h : Going V y) (hvw : ∀ s, V s → W s) : Going W y := by
  rcases h.seen with ⟨s, hs, hv⟩
  exact ⟨h.tx, s, hs, hvw s hv⟩

/-- What is read is remembered beside what has been seen before. -/
theorem Going.remembers {α : Type} (hx : Going V x) (q : Inbox → α) :
    (Notifications.read q).wp store (contract o)
      (fun a y => Going V y ∧ Going (fun s => a = q s) y) (fun _ _ => True) x :=
  hx.read (fun _ hy _ => ⟨hy.wrote [], hy.reads rfl⟩) fun _ _ _ => trivial

theorem rowOrder_wp {count : Nat} (hv : Going V x) (hw : Going W x) :
    (ask (.rowOrder count)).wp store (contract o) (fun _ y => Going V y ∧ Going W y)
      (fun _ _ => True) x := by
  refine Routine.wp_ask fun y hd => ⟨trivial, fun a _ => ?_⟩
  exact ⟨(hv.drift hd).answered _ a, (hw.drift hd).answered _ a⟩

theorem findNotifications_page {userId : Id} {count : Nat} (hx : Going V x) :
    (findNotifications userId count).wp store (contract o)
      (fun items y => Going V y ∧ Going (Page userId count items) y) (fun _ _ => True) x := by
  unfold findNotifications
  refine Routine.wp_bind (Routine.wp_mono (fun found y hy => ?_) (fun _ _ _ => trivial)
    (hx.remembers (notificationsOf userId)))
  refine Routine.wp_bind (Routine.wp_mono (fun order z hz => ?_) (fun _ _ _ => trivial)
    (rowOrder_wp hy.1 hy.2))
  refine Routine.wp_pure ⟨hz.1, hz.2.mono fun s hfound => ?_⟩
  rw [hfound]
  exact page_of_order userId count s order

/-- Whichever of the two queries comes first. -/
theorem getUserNotifications_shows {userId : Id} {limit : Option ℚ}
    (hx : Going (fun _ => True) x) : (getUserNotifications userId limit).wp store (contract o)
      (Shows userId limit) (fun _ _ => True) x := by
  unfold getUserNotifications
  refine Routine.wp_bind (hx.ask (fun _ _ => trivial) fun countFirst y hy => ?_)
  refine Routine.wp_ite (fun _ => ?_) fun _ => ?_
  · refine Routine.wp_bind (Routine.wp_mono (fun unread z hz => ?_) (fun _ _ _ => trivial)
      (hy.remembers (unreadCount userId)))
    refine Routine.wp_bind (Routine.wp_mono (fun items u hu => ?_) (fun _ _ _ => trivial)
      (findNotifications_page hz.2))
    exact Routine.wp_pure ⟨rfl, hu.2.seen, hu.1.seen⟩
  · refine Routine.wp_bind (Routine.wp_mono (fun items z hz => ?_) (fun _ _ _ => trivial)
      (findNotifications_page hy))
    refine Routine.wp_bind (Routine.wp_mono (fun unread u hu => ?_) (fun _ _ _ => trivial)
      (hz.2.remembers (unreadCount userId)))
    exact Routine.wp_pure ⟨rfl, hu.1.seen, hu.2.seen⟩

end Rules

/-! ### Runs -/

/-- A list shows what has been so. -/
def Listing (o : Operation) (r : Except Err Reply) (y : Context) : Prop :=
  ∀ userId limit list, o = .getUserNotifications userId limit → r = .ok (.list list) →
    Shows userId limit list y

theorem Operation.wp_listing (webAppUrl : Option String) (o : Operation) (s : Inbox) :
    (o.program webAppUrl).wp store (contract o) (Listing o) (.init s) := by
  cases o with
  | getUserNotifications userId limit =>
    have hx : Going (fun _ => True) (.init s : Context) := ⟨rfl, s, List.mem_cons_self, trivial⟩
    have hmapped : (Reply.list <$> Notifications.getUserNotifications userId limit).wp store
        (contract (.getUserNotifications userId limit))
        (fun r y => Listing (.getUserNotifications userId limit) (.ok r) y) (fun _ _ => True)
        (.init s) := by
      rw [map_eq_pure_bind]
      refine Routine.wp_bind (Routine.wp_mono (fun list y hshows => ?_) (fun _ _ _ => trivial)
        (getUserNotifications_shows hx))
      refine Routine.wp_pure ?_
      rintro userId' limit' list' hjob hreply
      cases hjob
      cases hreply
      exact hshows
    refine Prog.wp_mono (fun r y hr => ?_) hmapped
    cases r with
    | ok r => exact hr
    | error e => exact nofun
  | create | broadcastToParents | markAsRead | markAllAsRead | register | unregister | account
  | ledger => exact Prog.wp_mono (fun _ _ _ => nofun) (Operation.wp webAppUrl _ s)

theorem listing_discipline (webAppUrl : Option String)
    (guard : Center → Event Operation Answer → Center → Prop) :
    Discipline store (Operation.program webAppUrl) guard contract Listing fun _ => True where
  spawn := fun s _ o _ _ => o.wp_listing webAppUrl s.store
  answers := (discipline webAppUrl guard).answers
  faults := (discipline webAppUrl guard).faults
  admits := (discipline webAppUrl guard).admits
  inv := (discipline webAppUrl guard).inv
  rely := (discipline webAppUrl guard).rely

variable {start : Inbox → Prop} {t : Center} {webAppUrl : Option String}

/-- A list is the newest page of what the user had at some moment of the call, and the
    figure beside it the number of unread rows at some moment of it, however long the page. -/
theorem list_of_a_moment
    (ht : Sys.Reach store (Operation.program webAppUrl) (fun _ _ _ => True) start t)
    {p : Proc Operation Inbox Write Answer (Except Err Reply)} (hp : p ∈ t.procs) {userId : Id}
    {limit : Option ℚ} (hjob : p.job = .getUserNotifications userId limit)
    {list : NotificationList} (hreply : p.prog.result? = some (.ok (.list list))) :
    (0 < list.limit ∧ list.limit ≤ MAX_LIST_LIMIT) ∧
      (∃ s ∈ p.ctx.seen, Page userId list.limit list.items s) ∧
      ∃ s ∈ p.ctx.seen, list.unreadCount = unreadCount userId s := by
  have hwp := ((ht.good (listing_discipline webAppUrl _) fun _ _ => trivial).procs p hp).wp
  rw [Prog.eq_ret_of_result hreply] at hwp
  have hshows : Shows userId limit list p.ctx := hwp userId limit list hjob rfl
  refine ⟨?_, ?_, hshows.unread⟩
  · rw [hshows.limit]
    exact ⟨takeLimit_pos limit, takeLimit_le limit⟩
  · rw [hshows.limit]
    exact hshows.items

/-- The user whose list is asked for, without a limit. -/
def Operation.listing? : Operation → Option Id
  | getUserNotifications userId none => some userId
  | _ => none

theorem Operation.listing?_eq_some {o : Operation} {userId : Id}
    (h : o.listing? = some userId) : o = .getUserNotifications userId none := by
  unfold listing? at h
  split at h
  · cases h
    rfl
  · cases h

/-- The list that a call has answered. -/
def listed? : Except Err Reply → Option NotificationList
  | .ok (.list list) => some list
  | _ => none

theorem listed?_eq_some {r : Except Err Reply} {list : NotificationList}
    (h : listed? r = some list) : r = .ok (.list list) := by
  unfold listed? at h
  split at h
  · cases h
    rfl
  · cases h

/-- The parent is told something and looks at the list. -/
theorem list_of_a_moment_told : ∃ (t : Center) (p : _) (list : NotificationList),
    Sys.exec store (Operation.program none) (fun _ _ _ => true)
      (attending 0 (told "parent") 6 ++ attending 1 (.getUserNotifications "parent" none) 4)
      (.init household) = some t ∧ p ∈ t.procs ∧ p.job = .getUserNotifications "parent" none ∧
    p.prog.result? = some (.ok (.list list)) ∧ list.unreadCount = 1 ∧ list.items.length = 1 ∧
    (0 < list.limit ∧ list.limit ≤ MAX_LIST_LIMIT) ∧
    (∃ s ∈ p.ctx.seen, Page "parent" list.limit list.items s) ∧
    ∃ s ∈ p.ctx.seen, list.unreadCount = unreadCount "parent" s := by
  have hruns : ((Sys.exec store (Operation.program none) (fun _ _ _ => true)
      (attending 0 (told "parent") 6 ++ attending 1 (.getUserNotifications "parent" none) 4)
      (.init household)).any fun t => t.procs[1]?.any fun p =>
        decide (p.job.listing? = some "parent") && (p.prog.result?.bind listed?).any
          fun list => decide (list.unreadCount = 1 ∧ list.items.length = 1)) = true := by
    decide +kernel
  rcases (Option.any_eq_true _ _).mp hruns with ⟨t, ht, hany⟩
  rcases (Option.any_eq_true _ _).mp hany with ⟨p, hp, hboth⟩
  rw [Bool.and_eq_true, decide_eq_true_eq] at hboth
  rcases (Option.any_eq_true _ _).mp hboth.2 with ⟨list, hlist, hone⟩
  rcases Option.bind_eq_some_iff.mp hlist with ⟨r, hr, hlisted⟩
  rw [listed?_eq_some hlisted] at hr
  have hjob := Operation.listing?_eq_some hboth.1
  have hcounts := of_decide_eq_true hone
  exact ⟨t, p, list, ht, List.mem_of_getElem? hp, hjob, hr, hcounts.1, hcounts.2,
    list_of_a_moment (reach_of_events ht) (List.mem_of_getElem? hp) hjob hr⟩

end Notifications

end Lopay
