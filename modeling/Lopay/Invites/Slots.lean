import Lopay.Invites.Claims
import Lopay.Invites.Opening

/-!
# The slot of a student

An invite that is pending, disputed or claimed holds the slot of its student in its class,
whatever the case of the letters. A new invite takes a slot that it has found free, and the
other operations keep a slot or give it up, except that re-issuing an expired invite takes
its slot back unseen: the index that would refuse it compares the names letter by letter.
-/

namespace Lopay

open Transactions

structure Slot where
  schoolId : Id
  studentName : String
  className : String
deriving DecidableEq

def EnrollmentInvite.slot (invite : EnrollmentInvite) : Slot where
  schoolId := invite.schoolId
  studentName := lower invite.studentName
  className := lower invite.className

def EnrollmentInvite.holdsSlot (invite : EnrollmentInvite) : Bool :=
  invite.status ∈ SLOT_HOLDING_STATUSES

theorem EnrollmentInvite.slot_of_terms {i i' : EnrollmentInvite} (h : i'.terms = i.terms) :
    i'.slot = i.slot := by
  have hschool : i'.schoolId = i.schoolId := congrArg Terms.schoolId h
  have hstudent : i'.studentName = i.studentName := congrArg Terms.studentName h
  have hclass : i'.className = i.className := congrArg Terms.className h
  simp only [slot, hschool, hstudent, hclass]

namespace Db

variable (db : Db)

/-- The slot that an invite holds. -/
def held (id : Id) : Option Slot := ((db.invites.lookup id).filter (·.holdsSlot)).map (·.slot)

/-- At most one invite holds a slot. -/
def SlotsHeldOnce : Prop := ∀ id id' slot, db.held id = some slot → db.held id' = some slot → id = id'

/-- If the invite has expired, no invite holds its slot. -/
def SlotFree (id : Id) : Prop :=
  ∀ i ∈ db.invites.lookup id, i.status = .EXPIRED →
    ∀ r ∈ db.invites.rows, r.2.holdsSlot = true → r.2.slot ≠ i.slot

instance (id : Id) : Decidable (db.SlotFree id) := by
  unfold SlotFree
  infer_instance

variable {db}

theorem held_eq_some {id : Id} {slot : Slot} : db.held id = some slot ↔
    ∃ i, db.invites.lookup id = some i ∧ i.holdsSlot = true ∧ i.slot = slot := by
  simp [held, and_assoc]

theorem held_putInvite (v : Db) (id : Id) (i : EnrollmentInvite) :
    (Write.apply (.putInvite id i) v).held =
      Function.update v.held id (if i.holdsSlot then some i.slot else none) := by
  funext id'
  simp only [held, Write.apply, Table.lookup_insert_ite]
  by_cases h : id' = id
  · subst h
    cases hi : i.holdsSlot <;> simp [hi, Option.filter]
  · simp [h, held]

/-- An invite takes a slot. -/
theorem slotsHeldOnce_take {v : Db} {id : Id} {i : EnrollmentInvite} (hv : v.SlotsHeldOnce)
    (hfree : ∀ id', v.held id' = some i.slot → id' = id) :
    (Write.apply (.putInvite id i) v).SlotsHeldOnce := by
  have hnew (slot : Slot) (h : (if i.holdsSlot then some i.slot else none) = some slot) :
      i.slot = slot := by
    split at h
    · exact Option.some.inj h
    · cases h
  intro id₁ id₂ slot h₁ h₂
  rw [held_putInvite] at h₁ h₂
  by_cases heq₁ : id₁ = id <;> by_cases heq₂ : id₂ = id
  · rw [heq₁, heq₂]
  · subst heq₁
    rw [Function.update_self] at h₁
    rw [Function.update_of_ne heq₂, ← hnew slot h₁] at h₂
    exact absurd (hfree id₂ h₂) heq₂
  · subst heq₂
    rw [Function.update_self] at h₂
    rw [Function.update_of_ne heq₁, ← hnew slot h₂] at h₁
    exact absurd (hfree id₁ h₁) heq₁
  · rw [Function.update_of_ne heq₁] at h₁
    rw [Function.update_of_ne heq₂] at h₂
    exact hv id₁ id₂ slot h₁ h₂

/-- A pending invite, re-issued, is the only holder of its slot exactly if it was, and an
    expired one exactly if its slot was free. -/
theorem slotsHeldOnce_reissued {v : Db} {id : Id} {i i' : EnrollmentInvite}
    (hv : v.SlotsHeldOnce) (hi : v.invites.lookup id = some i)
    (hstatus : i.status = .PENDING ∨ i.status = .EXPIRED) (hpending : i'.status = .PENDING)
    (hterms : i'.terms = i.terms) :
    (Write.apply (.putInvite id i') v).SlotsHeldOnce ↔ v.SlotFree id := by
  have hslot := EnrollmentInvite.slot_of_terms hterms
  constructor
  · intro hnext j hj hexpired r hr hholds hsame
    obtain rfl := Option.some.inj (hi.symm.trans (Option.mem_def.mp hj))
    have hother : v.held r.1 = some i.slot := held_eq_some.mpr ⟨r.2, Table.mem_rows.mp hr, hholds, hsame⟩
    have hne : r.1 ≠ id := by
      intro heq
      obtain ⟨j, hj', hj'', -⟩ := held_eq_some.mp (heq ▸ hother)
      obtain rfl := Option.some.inj (hi.symm.trans hj')
      simp [EnrollmentInvite.holdsSlot, hexpired, SLOT_HOLDING_STATUSES] at hj''
    have hholds' : i'.holdsSlot = true := by
      simp [EnrollmentInvite.holdsSlot, hpending, SLOT_HOLDING_STATUSES]
    apply hne
    apply hnext r.1 id i.slot
    · rw [held_putInvite, Function.update_of_ne hne, hother]
    · rw [held_putInvite, Function.update_self, if_pos hholds', hslot]
  · intro hfree
    apply slotsHeldOnce_take hv
    intro id' hid'
    rw [hslot] at hid'
    rcases hstatus with hpending | hexpired
    · refine hv id' id i.slot hid' (held_eq_some.mpr ⟨i, hi, ?_, rfl⟩)
      simp [EnrollmentInvite.holdsSlot, hpending, SLOT_HOLDING_STATUSES]
    · obtain ⟨j, hj, hholds, hsame⟩ := held_eq_some.mp hid'
      exact absurd hsame (hfree i hi hexpired (id', j) (Table.mem_rows.mpr hj) hholds)

end Db

/-! ### Statements that take no slot -/

def KeepsSlots (v : Db) (ws : List Write) : Prop :=
  ∀ id slot, (store.applyAll ws v).held id = some slot → v.held id = some slot

theorem Db.SlotsHeldOnce.keepsSlots {v : Db} {ws : List Write} (h : KeepsSlots v ws)
    (hv : v.SlotsHeldOnce) : (store.applyAll ws v).SlotsHeldOnce :=
  fun id id' slot hid hid' => hv id id' slot (h id slot hid) (h id' slot hid')

instance : AdmitsTame KeepsSlots where
  tame := by
    intro v ws h id slot hid
    rw [Db.held, h.invites] at hid
    exact hid

theorem keepsSlots_putInvite {v : Db} {id : Id} {i i' : EnrollmentInvite}
    (hi : v.invites.lookup id = some i) (hterms : i'.terms = i.terms)
    (hholds : i'.holdsSlot = true → i.holdsSlot = true) : KeepsSlots v [.putInvite id i'] := by
  intro id' slot h
  simp only [Store.applyAll_cons, Store.applyAll_nil, store_apply, Db.held_putInvite] at h
  by_cases hid : id' = id
  · subst hid
    rw [Function.update_self] at h
    split at h
    · next hholds' =>
      rw [EnrollmentInvite.slot_of_terms hterms] at h
      exact Db.held_eq_some.mpr ⟨i, hi, hholds hholds', Option.some.inj h⟩
    · cases h
  · rw [Function.update_of_ne hid] at h
    exact h

instance : AdmitsAmounts KeepsSlots where
  restate := by
    intro inviteId amountAlreadyPaid
    apply keeps_restateInvite admits_nil
    intro v id i hi
    exact keepsSlots_putInvite hi rfl fun h => h

instance : AdmitsMoves KeepsSlots where
  update := by
    intro id filter data hterms hholds
    constructor
    intro τ
    apply Invites.obeys_updateInvites (fun _ => admits_nil) trivial
    · exact fun _ _ => trivial
    · exact fun _ => trivial
    · intro v i hi hfilter
      refine ⟨keepsSlots_putInvite hi (hterms i) ?_, trivial⟩
      simpa [EnrollmentInvite.holdsSlot] using hholds i hfilter
  expire := by
    intro ids
    constructor
    intro τ
    apply Invites.obeys_expireInvites (fun _ => admits_nil) trivial
    intro v ws hws
    refine ⟨fun id slot h => ?_, fun _ => trivial⟩
    rcases hws id with hkept | ⟨-, hretired⟩
    · rw [Db.held, hkept] at h
      exact h
    · obtain ⟨i, hi, hholds, -⟩ := Db.held_eq_some.mp h
      rw [hretired, Option.map_eq_some_iff] at hi
      obtain ⟨j, hj, rfl⟩ := hi
      simp [EnrollmentInvite.holdsSlot, SLOT_HOLDING_STATUSES] at hholds

/-! ### Operations that take one -/

namespace Invites

section Alone

variable {I : Db → Prop} {s : Db} {x : Context} {α : Type}

theorem findFirst_alone {q : Db → List α} {ok : Option α → Context → Prop} (h : x.Outside s)
    (hok : ∀ o y, (o = none → q s = []) → y.Outside s → ok o y) :
    (findFirst q).alone store I ok x := by
  unfold findFirst
  apply Routine.wp_bind
  apply Routine.alone_outside_query h
  intro y hy
  apply Routine.wp_bind
  apply Routine.alone_outside_ask hy
  intro order y hy
  apply Routine.wp_pure
  exact hok _ y arrange_eq_nil hy

theorem assertNoLiveInvite_alone {schoolId : Id} {studentName className : String}
    {ok : Unit → Context → Prop} (h : x.Outside s)
    (hok : ∀ y, (∀ id, s.held id ≠ some ⟨schoolId, lower studentName, lower className⟩) →
      y.Outside s → ok () y) :
    (assertNoLiveInvite schoolId studentName className).alone store I ok x := by
  unfold assertNoLiveInvite
  apply Routine.wp_bind
  apply findFirst_alone h
  intro existing y hnone hy
  cases existing with
  | some existing => exact trivial
  | none =>
    apply hok y _ hy
    intro id hheld
    obtain ⟨i, hi, hholds, hslot⟩ := Db.held_eq_some.mp hheld
    have hnil := List.filter_eq_nil_iff.mp (hnone rfl)
    apply hnil i (List.mem_map_of_mem (Table.mem_rows.mpr hi))
    simp only [EnrollmentInvite.slot, Slot.mk.injEq] at hslot
    simp only [EnrollmentInvite.holdsSlot, decide_eq_true_eq] at hholds
    simp [hslot, hholds]

theorem assertNotAlreadyMigrated_alone {schoolId : Id} {studentName : String}
    {ok : Unit → Context → Prop} (h : x.Outside s) (hok : ∀ y, y.Outside s → ok () y) :
    (assertNotAlreadyMigrated schoolId studentName).alone store I ok x := by
  unfold assertNotAlreadyMigrated
  apply Routine.wp_bind
  apply findFirst_alone h
  intro migrated y _ hy
  cases migrated with
  | none => exact hok y hy
  | some migrated => exact trivial

/-- Issuing an invite keeps the slots held once: it has looked for a holder. -/
theorem create_alone {env : InviteEnvironment} {dto : CreateEnrollmentInviteDto}
    {actor : AuthUser} (hI : ∀ v ws, KeepsSlots v ws → I v → I (store.applyAll ws v))
    (hput : ∀ id i, (∀ id', s.held id' ≠ some i.slot) → I (store.applyAll [.putInvite id i] s))
    (hx : x.Outside s) : (create env dto actor).alone store I (fun _ _ => True) x := by
  unfold create
  apply Routine.wp_bind
  apply assertOwnsSchool_alone hx
  intro school y hy
  apply Routine.wp_bind
  apply Routine.alone_outside_ask hy
  intro now y hy
  apply Routine.wp_bind
  apply Routine.alone_orThrow
  intro origin _
  apply Routine.wp_bind
  apply Routine.alone_throwIf
  intro _
  dsimp only
  apply Routine.wp_bind
  apply Routine.alone_orThrow
  intro phoneNumber _
  apply Routine.wp_bind
  apply Routine.alone_orThrow
  intro parentPhoneHash _
  split
  · exact Routine.wp_bind trivial
  apply Routine.wp_bind
  apply assertNotAlreadyMigrated_alone hy
  intro y hy
  apply Routine.wp_bind
  apply findFirst_alone hy
  intro found y _ hy
  apply Routine.wp_bind
  apply Routine.alone_orThrow
  intro classFee _
  apply Routine.wp_bind
  apply Routine.alone_throwIf
  intro _
  apply Routine.wp_bind
  apply assertNoLiveInvite_alone hy
  intro y hfree hy
  apply Routine.wp_bind
  apply Routine.alone_outside_ask hy
  intro token y hy
  apply Routine.wp_bind
  apply Routine.alone_outside_ask hy
  intro id y hy
  apply Routine.wp_bind
  apply Routine.alone_tryCatch
  · apply Routine.alone_outside_exec hy
    intro _ ws hws
    obtain ⟨-, rfl⟩ := createInvite_writes hws
    refine ⟨hput id _ hfree, fun y hy => ?_⟩
    apply Routine.Keeps.alone_last (P := KeepsSlots) inferInstance hI hy
    exact hput id _ hfree
  · intro error y
    cases error <;> exact trivial

/-- Re-issuing an invite keeps the slots held once if its own was free. -/
theorem reissue_alone {env : InviteEnvironment} {inviteId : Id} {actor : AuthUser}
    (hI : ∀ v ws, KeepsSlots v ws → I v → I (store.applyAll ws v))
    (hput : ∀ i i', s.invites.lookup inviteId = some i → i.status = .PENDING ∨ i.status = .EXPIRED →
      i'.status = .PENDING → i'.terms = i.terms → I (store.applyAll [.putInvite inviteId i'] s))
    (hs : I s) (hx : x.Outside s) :
    (reissue env inviteId actor).alone store I (fun _ _ => True) x := by
  unfold reissue
  apply Routine.wp_bind
  apply assertOwnsSchool_alone hx
  intro school y hy
  apply Routine.wp_bind
  apply Routine.alone_outside_ask hy
  intro now y hy
  apply Routine.wp_bind
  apply Routine.alone_orThrow
  intro origin _
  apply Routine.wp_bind
  apply Routine.alone_throwIf
  intro _
  apply Routine.wp_bind
  apply Routine.alone_outside_query hy
  intro y hy
  apply Routine.wp_bind
  apply Routine.alone_orThrow
  intro invite _
  apply Routine.wp_bind
  apply Routine.alone_outside_ask hy
  intro token y hy
  apply Routine.wp_bind
  apply Routine.alone_outside_exec hy
  intro n ws hws
  rcases updateInvites_writes hws with ⟨rfl, rfl⟩ | ⟨rfl, i, hi, hfilter, rfl⟩
  · exact ⟨hs, fun y _ => Routine.wp_bind (Routine.alone_throwIf fun h => absurd rfl h)⟩
  · obtain ⟨-, hstatus⟩ := of_decide_eq_true hfilter
    refine ⟨hput i _ hi hstatus rfl rfl, fun y hy => ?_⟩
    apply Routine.Keeps.alone_last (P := KeepsSlots) inferInstance hI hy
    exact hput i _ hi hstatus rfl rfl

end Alone

end Invites

/-! ### Runs -/

/-- An invite is re-issued only while no other holds its slot. -/
def ReissuedFree (j : InviteJob) (s : Db) (ws : List Write) : Prop :=
  match j with
  | .reissue inviteId _ => ws ≠ [] → s.SlotFree inviteId
  | _ => True

/-- The staffed school, with a year to migrate its families. -/
def migratingSchool : Db :=
  { staffedSchool with
    schools := staffedSchool.schools.insert "school"
      { name := "Unity School"
        phone := "080"
        ownerId := "owner"
        paystackSubaccountCode := some "ACCT"
        paystackSubaccountActive := true
        deletedAt := none
        migrationDeadline := 365 * Invites.DAY_MS } }

def onDay (day : Int) (seed : String) (n : Nat) : Choice Answer :=
  atTime (day * Invites.DAY_MS) (smoothly seed n)

/-- Nobody claims the invite in time, and the school sends it again. -/
def sentAgain : List (InviteJob × (Nat → Choice Answer)) :=
  [(.create weeklyInvite schoolOwner, onDay 0 "a"),
    (.expireStale, onDay 20 "b"),
    (.reissue "a9" schoolOwner, onDay 21 "d")]

/-- In between the school has issued another, with the name in capitals. -/
def sentTwice : List (InviteJob × (Nat → Choice Answer)) :=
  [(.create weeklyInvite schoolOwner, onDay 0 "a"),
    (.expireStale, onDay 20 "b"),
    (.create
      { weeklyInvite with studentName := "ADA", planStartDate := 20 * Invites.DAY_MS }
      schoolOwner, onDay 20 "c"),
    (.reissue "a9" schoolOwner, onDay 21 "d")]

theorem migratingSchool_slots : migratingSchool.SlotsHeldOnce := by
  intro id id' slot h
  cases h

instance (j : InviteJob) (s : Db) (ws : List Write) : Decidable (ReissuedFree j s ws) := by
  unfold ReissuedFree
  split <;> infer_instance

end Lopay
