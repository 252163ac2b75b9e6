import Lopay.Books.Smooth
import Lopay.Invites.Parent
import Lopay.Work

/-!
# Reminders of links about to lapse

A daily run selects the invites that expire in one 24-hour bucket three days ahead, and keeps no
memory of having done so. An invite that lives for four days or longer passes through the bucket
of exactly one run; the bucket in which a shorter one lies was there before the invite was.
-/

namespace Lopay

open Transactions

namespace Invites

def DAY_IN_MS : Int := 24 * 60 * 60 * 1000

/-- How far ahead of expiry a school is warned. -/
def EXPIRY_REMINDER_LEAD_MS : Int := 3 * DAY_IN_MS

/-- The invites that lapse in the bucket of a run. -/
def expiringInvites (now : Int) (db : Db) : List InviteSummary :=
  let start := now + EXPIRY_REMINDER_LEAD_MS
  let stop := start + DAY_IN_MS
  (db.invites.rows.filter fun r =>
    r.2.status = .PENDING ∧ start ≤ r.2.expiresAt ∧ r.2.expiresAt < stop).map fun r =>
      ⟨r.1, r.2.schoolId, r.2.studentName, r.2.className⟩

/-- Warn the schools about the links that are about to lapse. -/
def remindExpiring (now : Int) : Action Nat := do
  let found ← read (expiringInvites now)
  let order ← ask (.rowOrder found.length)
  let soon := arrange found order
  if soon.length = 0 then pure 0
  else do
    notifySchools soon fun students ownerId =>
      { userId := ownerId
        title := "Migration invites expire in 3 days"
        message := describeStudents students ++ " have not confirmed yet. Send a reminder, " ++
          "or the link will expire and you will need to issue a new one."
        type := .ALERT
        link := some "/school/invites" }
    pure soon.length

/-! ### What a run selects -/

section Selection

variable {now : Int} {s : Db} {x : Context}

theorem notifySchools_smooth (hx : x.On store s none) {invites : List InviteSummary}
    {notification : List InviteSummary → Id → Notification} {ok : Unit → Context → Prop}
    {err : Err → Context → Prop} (hok : ∀ y, y.On store s none → ok () y) :
    (notifySchools invites notification).smooth store ok err x := by
  refine Routine.wp_bind (Routine.smooth_query hx fun y hy => ?_)
  refine Routine.wp_bind (Routine.smooth_ask hy fun order y hy => ?_)
  refine Routine.wp_bind (Routine.wp_mapM (P := fun y => y.On store s none) hy
    (fun school _ y hy => ?_) fun _ y hy => Routine.wp_pure (hok y hy))
  exact Routine.wp_tryCatch (createNotification_smooth hy (fun z hz => hz)
    fun _ z hz => Routine.wp_pure hz)

/-- A run that nothing disturbs answers how many invites it has selected. -/
theorem remindExpiring_smooth (hx : x.On store s none) :
    (remindExpiring now).smooth store
      (fun count y => count = (expiringInvites now s).length ∧ y.On store s none)
      (fun _ _ => False) x := by
  unfold remindExpiring
  refine Routine.wp_bind (Routine.smooth_query hx fun y hy => ?_)
  refine Routine.wp_bind (Routine.smooth_ask hy fun order y hy => ?_)
  have hcount : (arrange (expiringInvites now s) order).length = (expiringInvites now s).length :=
    (arrange_perm _ _).length_eq
  refine Routine.wp_ite (fun hnone => ?_) fun _ => ?_
  · exact Routine.wp_pure ⟨hnone.symm.trans hcount, hy⟩
  · exact Routine.wp_bind (notifySchools_smooth hy fun z hz => Routine.wp_pure ⟨hcount, hz⟩)

/-- The run of this time selects the invite. -/
def Selects (now : Int) (id : Id) (db : Db) : Prop := id ∈ (expiringInvites now db).map (·.id)

instance (now : Int) (id : Id) (db : Db) : Decidable (Selects now id db) :=
  inferInstanceAs (Decidable (id ∈ _))

theorem selects_iff {id : Id} : Selects now id s ↔ ∃ invite, s.invites.lookup id = some invite ∧
    invite.status = .PENDING ∧ now + 3 * DAY_IN_MS ≤ invite.expiresAt ∧
      invite.expiresAt < now + 4 * DAY_IN_MS := by
  have hstop : now + 3 * DAY_IN_MS + DAY_IN_MS = now + 4 * DAY_IN_MS := by ring
  simp only [Selects, expiringInvites, EXPIRY_REMINDER_LEAD_MS, hstop, List.map_map, List.mem_map,
    List.mem_filter, decide_eq_true_eq, Function.comp_apply, Prod.exists]
  constructor
  · rintro ⟨k, invite, ⟨hmem, hdue⟩, rfl⟩
    exact ⟨invite, Table.mem_rows.mp hmem, hdue⟩
  · rintro ⟨invite, hlookup, hdue⟩
    exact ⟨id, invite, ⟨Table.mem_rows.mpr hlookup, hdue⟩, rfl⟩

end Selection

/-! ### The life of an invite -/

/-- `n` runs at intervals of 24 hours. -/
def dailyRuns (first : Int) (n : Nat) : List Int :=
  (List.range n).map fun i : Nat => first + i * DAY_IN_MS

/-- The database at each time, in which an invite is created and left alone until it expires. -/
structure Untouched (books : Int → Db) (id : Id) (createdAt : Int) (requestedDays : Option Int) :
    Prop where
  absent : ∀ now < createdAt, (books now).invites.lookup id = none
  pending : ∀ now, createdAt ≤ now → now < expiryFrom createdAt requestedDays →
    ∃ invite, (books now).invites.lookup id = some invite ∧ invite.status = .PENDING ∧
      invite.expiresAt = expiryFrom createdAt requestedDays

/-- The runs that select the invite before it expires. -/
def reminders (books : Int → Db) (id : Id) (expiresAt : Int) (runs : List Int) : List Int :=
  runs.filter fun now => now < expiresAt ∧ Selects now id (books now)

section Life

variable {books : Int → Db} {id : Id} {createdAt first now : Int} {requestedDays : Option Int}
  {n : Nat}

theorem Untouched.selects_iff (h : Untouched books id createdAt requestedDays)
    (hnow : now < expiryFrom createdAt requestedDays) :
    Selects now id (books now) ↔ createdAt ≤ now ∧
      now + 3 * DAY_IN_MS ≤ expiryFrom createdAt requestedDays ∧
        expiryFrom createdAt requestedDays < now + 4 * DAY_IN_MS := by
  rw [Invites.selects_iff]
  constructor
  · rintro ⟨invite, hlookup, -, hbucket⟩
    have hborn : createdAt ≤ now := by
      by_contra hbefore
      rw [h.absent now (by omega)] at hlookup
      cases hlookup
    obtain ⟨invite', hlookup', -, hexpires⟩ := h.pending now hborn hnow
    obtain rfl := Option.some.inj (hlookup.symm.trans hlookup')
    rw [hexpires] at hbucket
    exact ⟨hborn, hbucket⟩
  · rintro ⟨hborn, hbucket⟩
    obtain ⟨invite, hlookup, hpending, hexpires⟩ := h.pending now hborn hnow
    exact ⟨invite, hlookup, hpending, hexpires ▸ hbucket⟩

theorem mem_dailyRuns : now ∈ dailyRuns first n ↔ ∃ i : Nat, i < n ∧ first + i * DAY_IN_MS = now := by
  simp only [dailyRuns, List.mem_map, List.mem_range]

theorem nodup_dailyRuns : (dailyRuns first n).Nodup := by
  refine List.nodup_range.map fun i j h => ?_
  simp only [DAY_IN_MS] at h
  omega

/-- Of runs a day apart, at most one comes within a day. -/
theorem reminders_le_one (h : Untouched books id createdAt requestedDays) :
    (reminders books id (expiryFrom createdAt requestedDays) (dailyRuns first n)).length ≤ 1 := by
  have hdistinct : (dailyRuns first n).Nodup := nodup_dailyRuns
  have hnodup := hdistinct.filter fun now =>
    decide (now < expiryFrom createdAt requestedDays ∧ Selects now id (books now))
  rcases hruns : reminders books id (expiryFrom createdAt requestedDays) (dailyRuns first n) with
    - | ⟨now, - | ⟨later, rest⟩⟩
  · exact Nat.zero_le 1
  · exact le_refl 1
  · have hboth : ∀ t ∈ [now, later], ∃ i : Nat, first + i * DAY_IN_MS = t ∧
        t + 3 * DAY_IN_MS ≤ expiryFrom createdAt requestedDays ∧
          expiryFrom createdAt requestedDays < t + 4 * DAY_IN_MS := by
      intro t ht
      have hmem : t ∈ reminders books id (expiryFrom createdAt requestedDays)
          (dailyRuns first n) := by
        rw [hruns]
        exact List.mem_append_left rest ht
      obtain ⟨hrun, hselects⟩ := List.mem_filter.mp hmem
      rw [decide_eq_true_eq] at hselects
      obtain ⟨i, -, hi⟩ := mem_dailyRuns.mp hrun
      exact ⟨i, hi, ((h.selects_iff hselects.1).mp hselects.2).2⟩
    obtain ⟨i, hi, hlo, hhi⟩ := hboth now (by simp)
    obtain ⟨j, hj, hlo', hhi'⟩ := hboth later (by simp)
    have hsame : now = later := by
      simp only [DAY_IN_MS] at hi hlo hhi hj hlo' hhi'
      omega
    rw [← reminders, hruns, hsame] at hnodup
    simp at hnodup

/-- An invite that nobody acts on is reminded exactly once if it lives for at least four days,
    or for three from the very instant of a run, and never otherwise. -/
theorem reminded_once_iff (h : Untouched books id createdAt requestedDays)
    (hfirst : first ≤ createdAt)
    (hlast : expiryFrom createdAt requestedDays ≤ first + n * DAY_IN_MS) :
    (reminders books id (expiryFrom createdAt requestedDays) (dailyRuns first n)).length = 1 ↔
      4 ≤ resolveExpiryDays requestedDays ∨
        resolveExpiryDays requestedDays = 3 ∧ DAY_IN_MS ∣ createdAt - first := by
  have hle : (reminders books id (expiryFrom createdAt requestedDays)
      (dailyRuns first n)).length ≤ 1 := reminders_le_one h
  have hone : (reminders books id (expiryFrom createdAt requestedDays)
      (dailyRuns first n)).length = 1 ↔
      ∃ now ∈ dailyRuns first n, now < expiryFrom createdAt requestedDays ∧
        Selects now id (books now) := by
    have hpos : (reminders books id (expiryFrom createdAt requestedDays)
        (dailyRuns first n)).length = 1 ↔ 0 < (reminders books id
          (expiryFrom createdAt requestedDays) (dailyRuns first n)).length := by
      omega
    rw [hpos, List.length_pos_iff_exists_mem]
    simp only [reminders, List.mem_filter, decide_eq_true_eq]
  rw [hone]
  have hexpiry : expiryFrom createdAt requestedDays =
      createdAt + resolveExpiryDays requestedDays * DAY_IN_MS := rfl
  constructor
  · rintro ⟨now, hrun, hnow, hselects⟩
    obtain ⟨i, -, hi⟩ := mem_dailyRuns.mp hrun
    obtain ⟨hborn, hlo, hhi⟩ := (h.selects_iff hnow).mp hselects
    rw [hexpiry] at hlo
    by_cases hlong : 4 ≤ resolveExpiryDays requestedDays
    · exact .inl hlong
    · have hthree : resolveExpiryDays requestedDays = 3 ∧ createdAt = now := by
        simp only [DAY_IN_MS] at hlo
        omega
      refine .inr ⟨hthree.1, i, ?_⟩
      rw [hthree.2, ← hi]
      ring
  · intro hlives
    obtain ⟨i, hborn, hlo, hhi⟩ : ∃ i : Nat, createdAt ≤ first + i * DAY_IN_MS ∧
        first + i * DAY_IN_MS + 3 * DAY_IN_MS ≤ expiryFrom createdAt requestedDays ∧
          expiryFrom createdAt requestedDays < first + i * DAY_IN_MS + 4 * DAY_IN_MS := by
      rw [hexpiry]
      rcases hlives with hlong | ⟨hthree, d, hd⟩
      · refine ⟨((createdAt + (resolveExpiryDays requestedDays - 3) * DAY_IN_MS - first) /
          DAY_IN_MS).toNat, ?_⟩
        simp only [DAY_IN_MS]
        omega
      · refine ⟨d.toNat, ?_⟩
        rw [hthree]
        simp only [DAY_IN_MS] at hd ⊢
        omega
    have hnow : first + i * DAY_IN_MS < expiryFrom createdAt requestedDays := by
      simp only [DAY_IN_MS] at hlo ⊢
      omega
    refine ⟨_, mem_dailyRuns.mpr ⟨i, ?_, rfl⟩, hnow, (h.selects_iff hnow).mpr ⟨hborn, hlo, hhi⟩⟩
    simp only [DAY_IN_MS] at hnow hlast
    omega

end Life

/-- The books of a school that invites a family at 0. -/
def invitingAt (requestedDays : Option Int) (now : Int) : Db :=
  if now < 0 then oneFamily
  else
    { oneFamily with
      invites := [⟨"invite",
        { invitation with expiresAt := expiryFrom 0 requestedDays }⟩].toAList }

theorem invitingAt_untouched (requestedDays : Option Int) :
    Untouched (invitingAt requestedDays) "invite" 0 requestedDays where
  absent := by
    intro now hnow
    rw [invitingAt, if_pos hnow]
    rfl
  pending := by
    intro now hnow _
    rw [invitingAt, if_neg (by omega)]
    exact ⟨_, rfl, rfl, rfl⟩

/-- An invite of the default lifetime is reminded once by sixteen runs. -/
theorem reminded_once_default :
    (reminders (invitingAt none) "invite" (expiryFrom 0 none) (dailyRuns (-1) 16)).length = 1 :=
  (reminded_once_iff (invitingAt_untouched none) (by decide) (by decide)).mpr (.inl (by decide))

/-- An invite of a single day is not reminded at all. -/
theorem reminded_once_needs_days : ∃ books id requestedDays first n,
    Untouched books id 0 requestedDays ∧ first ≤ 0 ∧
      expiryFrom 0 requestedDays ≤ first + (n : Nat) * DAY_IN_MS ∧
        (reminders books id (expiryFrom 0 requestedDays) (dailyRuns first n)).length = 0 :=
  ⟨invitingAt (some 1), "invite", some 1, -1, 3, invitingAt_untouched _, by decide, by decide,
    by decide +kernel⟩

end Invites

end Lopay
