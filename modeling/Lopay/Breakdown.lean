import Lopay.Grouping
import Lopay.Reports
import Lopay.Schedule.Arrears

/-!
# The collections breakdown

What an admin sees of the plans that still owe money: per school what is outstanding and
what is overdue, with the students behind it, and beside it the summary of all students. The
breakdown joins three queries through maps; the two screens ask for the outstanding total
through different filters.
-/

namespace Lopay

open Grouping Schedule Transactions

/-- An enrollment with its school and with what its confirmed installments come to. -/
structure PaidEnrollment where
  id : Id
  enrollment : ChildEnrollment
  school : Option School
  installmentsPaidKobo : Int

structure StudentsSummary where
  totalStudents : Nat
  activeStudents : Nat
  pendingFirstPayments : Nat
  defaultedStudents : Nat
  totalOutstandingBalance : ℚ

structure Bucket where
  schoolName : String
  outstandingKobo : Int
  overdueKobo : Int
  studentsWithBalance : Nat
  overdueStudentCount : Nat

structure SchoolBreakdown where
  schoolId : Id
  schoolName : String
  totalStudents : Nat
  studentsWithBalance : Nat
  outstanding : ℚ
  overdue : ℚ
  overdueStudentCount : Nat

structure BreakdownSummary where
  totalOutstanding : ℚ
  totalOverdue : ℚ
  totalStudents : Nat
  studentsWithBalance : Nat
  overdueStudents : Nat
  overdueSchools : Nat
  schools : List SchoolBreakdown

/-- The statuses in which a plan can owe money. -/
def OWING_STATUSES : List PaymentStatus := [.PENDING, .ACTIVE, .DEFAULTED]

namespace Db

variable (db : Db)

def computeStudentsSummary : StudentsSummary where
  totalStudents := db.countEnrollments fun _ => true
  activeStudents := db.countEnrollments fun e => e.paymentStatus = .ACTIVE
  pendingFirstPayments := (db.payments.rows.filter fun r => r.2.paymentType = .FIRST_PAYMENT ∧
    r.2.receiver = .PLATFORM ∧ r.2.isConfirmed = false ∧ r.2.status = .PENDING).length
  defaultedStudents := db.countEnrollments fun e => e.paymentStatus = .DEFAULTED
  totalOutstandingBalance := Money.toNaira
    (Table.total (fun _ e => if e.paymentStatus ∈ OWING_STATUSES then e.remainingBalance else 0)
      db.enrollments)

/-- The enrollments, of one school or of all, with what has been paid on them; those that
    owe nothing are left out if only open ones are asked for. -/
def enrollmentsWithPaidValue (schoolId : Option Id) (openOnly : Bool) (order : List Nat) :
    List PaidEnrollment :=
  let found := db.enrollments.rows.filter fun r =>
    (openOnly → 0 < r.2.remainingBalance ∧ r.2.paymentStatus ∈ OWING_STATUSES) ∧
      ((given schoolId).all fun id => r.2.schoolId = id)
  (arrange found order).map fun (id, enrollment) =>
    { id
      enrollment
      school := db.schools.lookup enrollment.schoolId
      installmentsPaidKobo := db.sumAmountPaid id fun p =>
        p.paymentType = .INSTALLMENT ∧ p.isConfirmed }

/-- The number of enrollments of each school that has any. -/
def enrollmentCounts (order : List Nat) : List (Id × Nat) :=
  let schoolIds := (db.enrollments.rows.map (·.2.schoolId)).dedup
  (arrange schoolIds order).map fun id => (id, db.countEnrollments fun e => e.schoolId = id)

end Db

/-- What is past due on an enrollment. -/
def PaidEnrollment.overdue (row : PaidEnrollment) (now : Int) : Int :=
  (computeArrears
    { remainingBalance := row.enrollment.remainingBalance
      installmentFrequency := row.enrollment.installmentFrequency
      termStartDate := row.enrollment.termStartDate
      termEndDate := row.enrollment.termEndDate
      installmentsPaidKobo := row.installmentsPaidKobo } now).overdueAmount

namespace Bucket

def empty (schoolName : String) : Bucket := ⟨schoolName, 0, 0, 0, 0⟩

def add (now : Int) (row : PaidEnrollment) (bucket : Bucket) : Bucket :=
  { bucket with
    outstandingKobo := bucket.outstandingKobo + row.enrollment.remainingBalance
    overdueKobo := bucket.overdueKobo + row.overdue now
    studentsWithBalance := bucket.studentsWithBalance + 1
    overdueStudentCount :=
      if 0 < row.overdue now then bucket.overdueStudentCount + 1 else bucket.overdueStudentCount }

end Bucket

/-- The buckets of the schools that are owed money, in the order their plans came. -/
def bySchool (now : Int) (rows : List PaidEnrollment) : List (Id × Bucket) :=
  gather (fun row => row.enrollment.schoolId)
    (fun row => .empty ((row.school.map (·.name)).getD "Unknown School")) (Bucket.add now) rows []

/-- The breakdown of a snapshot; `orders` is how the three queries order their rows. -/
def Db.computeBreakdownSummary (db : Db) (now : Int) (orders : List Nat × List Nat × List Nat) :
    BreakdownSummary :=
  let rows := db.enrollmentsWithPaidValue none true orders.1
  let enrollmentCounts := db.enrollmentCounts orders.2.1
  let owed := bySchool now rows
  let missingIds := (enrollmentCounts.map (·.1)).filter fun id => id ∉ keys owed
  let extra := arrange (db.schools.rows.filter fun s => s.1 ∈ missingIds) orders.2.2
  let all := gather (·.1) (fun s => .empty s.2.name) (fun s _ => .empty s.2.name) extra owed
  let schools := all.map fun (schoolId, bucket) =>
    { schoolId
      schoolName := bucket.schoolName
      totalStudents := ((enrollmentCounts.find? fun e => e.1 = schoolId).map (·.2)).getD 0
      studentsWithBalance := bucket.studentsWithBalance
      outstanding := Money.toNaira bucket.outstandingKobo
      overdue := Money.toNaira bucket.overdueKobo
      overdueStudentCount := bucket.overdueStudentCount : SchoolBreakdown }
  { totalOutstanding := Money.toNaira (rows.map fun row => row.enrollment.remainingBalance).sum
    totalOverdue := Money.toNaira (rows.map fun row => row.overdue now).sum
    totalStudents := (enrollmentCounts.map (·.2)).sum
    studentsWithBalance := rows.length
    overdueStudents := (rows.filter fun row => 0 < row.overdue now).length
    overdueSchools := (schools.filter fun s => 0 < s.overdue).length
    schools }

/-! ### Sums over rows -/

theorem sum_filter {α M : Type} [AddCommMonoid M] (l : List α) (p : α → Bool) (f : α → M) :
    ((l.filter p).map f).sum = (l.map fun a => if p a then f a else 0).sum := by
  induction l with
  | nil => rfl
  | cons a l ih => by_cases h : p a <;> simp [h, ih]

theorem length_filter_eq_sum {α : Type} (l : List α) (p : α → Bool) :
    (l.filter p).length = (l.map fun a => if p a then 1 else 0).sum := by
  rw [← sum_filter]
  simp

theorem Money.toNaira_sum (l : List Int) : Money.toNaira l.sum = (l.map Money.toNaira).sum := by
  induction l with
  | nil => simp [Money.toNaira]
  | cons a l ih => rw [List.sum_cons, List.map_cons, List.sum_cons, Money.toNaira_add, ih]

theorem Money.toNaira_mono {a b : Int} (h : a ≤ b) : Money.toNaira a ≤ Money.toNaira b := by
  have hcast : (a : ℚ) ≤ b := by exact_mod_cast h
  unfold Money.toNaira
  linarith

/-- No more can be past due than is owed. -/
theorem overdue_le_owed {input : ArrearsInput} (h : 0 ≤ input.remainingBalance) (now : Int) :
    (computeArrears input now).overdueAmount ≤ input.remainingBalance := by
  unfold computeArrears
  simp only
  split_ifs <;> first | exact h | exact le_refl _ | exact min_le_right _ _

section Breakdown

variable {db : Db} {now : Int} {order : List Nat}

/-- A row that is open. -/
theorem mem_open {row : PaidEnrollment} (h : row ∈ db.enrollmentsWithPaidValue none true order) :
    db.enrollments.lookup row.id = some row.enrollment ∧ 0 < row.enrollment.remainingBalance := by
  obtain ⟨⟨id, e⟩, hr, rfl⟩ := List.mem_map.mp h
  obtain ⟨hmem, hopen⟩ := List.mem_filter.mp (mem_of_mem_arrange hr)
  simp only [decide_eq_true_eq] at hopen
  exact ⟨Table.mem_rows.mp hmem, (hopen.1 trivial).1⟩

/-- What the open plans owe is what all plans in an owing status do. -/
theorem open_outstanding (hnonneg : db.enrollments.Forall fun _ e => 0 ≤ e.remainingBalance) :
    ((db.enrollmentsWithPaidValue none true order).map fun row =>
      row.enrollment.remainingBalance).sum =
    Table.total (fun _ e => if e.paymentStatus ∈ OWING_STATUSES then e.remainingBalance else 0)
      db.enrollments := by
  have hrows : ∀ f : Id → ChildEnrollment → Int, Table.total f db.enrollments =
      (db.enrollments.rows.map fun r => f r.1 r.2).sum := by
    intro f
    rw [Table.total, Table.rows, List.map_map]
    rfl
  unfold Db.enrollmentsWithPaidValue
  simp only [List.map_map]
  rw [((arrange_perm _ order).map _).sum_eq, sum_filter, hrows]
  congr 1
  apply List.map_congr_left
  rintro ⟨k, e⟩ hmem
  have h0 := hnonneg k e (Table.mem_rows.mp hmem)
  by_cases hstatus : e.paymentStatus ∈ OWING_STATUSES
  · by_cases hpos : 0 < e.remainingBalance
    · simp [hstatus, hpos, given]
    · have hzero : e.remainingBalance = 0 := by omega
      simp [hzero]
  · simp [hstatus]

theorem mem_keys_bySchool {rows : List PaidEnrollment} {id : Id} :
    id ∈ keys (bySchool now rows) ↔ ∃ row ∈ rows, row.enrollment.schoolId = id := by
  rw [bySchool, mem_keys_gather]
  simp [keys]

/-! ### The number of students of each school -/

theorem counted_schools (db : Db) (order : List Nat) : ((db.enrollmentCounts order).map (·.1)).Perm
    (db.enrollments.rows.map (·.2.schoolId)).dedup := by
  have hids : (db.enrollmentCounts order).map (·.1) =
      arrange (db.enrollments.rows.map (·.2.schoolId)).dedup order := by
    simp only [Db.enrollmentCounts, List.map_map]
    exact List.map_id _
  rw [hids]
  exact arrange_perm _ order

theorem nodup_counted : ((db.enrollmentCounts order).map (·.1)).Nodup :=
  (counted_schools db order).nodup_iff.mpr (List.nodup_dedup _)

theorem mem_counted {id : Id} : id ∈ (db.enrollmentCounts order).map (·.1) ↔
    ∃ k e, db.enrollments.lookup k = some e ∧ e.schoolId = id := by
  rw [(counted_schools db order).mem_iff, List.mem_dedup, List.mem_map]
  constructor
  · rintro ⟨⟨k, e⟩, hmem, rfl⟩
    exact ⟨k, e, Table.mem_rows.mp hmem, rfl⟩
  · rintro ⟨k, e, he, rfl⟩
    exact ⟨(k, e), Table.mem_rows.mpr he, rfl⟩

/-- Among pairs with different keys, each is the one that its key finds. -/
theorem find_own {m : List (Id × Nat)} (h : (m.map (·.1)).Nodup) {e : Id × Nat} (he : e ∈ m) :
    m.find? (fun e' => e'.1 = e.1) = some e := by
  induction m with
  | nil => cases he
  | cons e' m ih =>
    obtain ⟨hnew, hrest⟩ := List.nodup_cons.mp h
    rcases List.mem_cons.mp he with rfl | he
    · simp
    · have hne : e'.1 ≠ e.1 := by
        intro heq
        exact hnew (List.mem_map.mpr ⟨e, he, heq.symm⟩)
      rw [List.find?_cons_of_neg (by simpa using hne), ih hrest he]

/-- Looking up the counts of the schools they are for, in any order, loses none of them. -/
theorem sum_counts {ids : List Id} (h : ids.Perm ((db.enrollmentCounts order).map (·.1))) :
    (ids.map fun id => (((db.enrollmentCounts order).find? fun e => e.1 = id).map
      (·.2)).getD 0).sum = ((db.enrollmentCounts order).map (·.2)).sum := by
  rw [(h.map _).sum_eq, List.map_map]
  congr 1
  apply List.map_congr_left
  intro e he
  simp only [Function.comp_apply, find_own nodup_counted he, Option.map_some, Option.getD_some]

/-! ### The schools -/

/-- The schools with enrollments none of which is open. -/
def settledSchools (db : Db) (counted : List Id) (owed : List (Id × Bucket)) (order : List Nat) :
    List (Id × School) :=
  arrange (db.schools.rows.filter fun s => s.1 ∈ counted.filter fun id => id ∉ keys owed) order

theorem mem_settledSchools {counted : List Id} {owed : List (Id × Bucket)} {s : Id × School} :
    s ∈ settledSchools db counted owed order ↔
      db.schools.lookup s.1 = some s.2 ∧ s.1 ∈ counted ∧ s.1 ∉ keys owed := by
  rw [settledSchools, (arrange_perm _ order).mem_iff, List.mem_filter, Table.mem_rows]
  simp

theorem nodup_settledSchools {counted : List Id} {owed : List (Id × Bucket)} :
    ((settledSchools db counted owed order).map (·.1)).Nodup := by
  have hkeys : (db.schools.rows.map (·.1)).Nodup := by
    have hsame : db.schools.rows.map (·.1) = db.schools.entries.keys := by
      rw [Table.rows, List.map_map]
      rfl
    rw [hsame]
    exact db.schools.nodupKeys
  unfold settledSchools
  rw [((arrange_perm _ order).map _).nodup_iff]
  exact hkeys.sublist (List.filter_sublist.map _)

/-- The buckets of all schools: those that are owed money, and the settled ones. -/
theorem gather_settled {counted : List Id} {owed : List (Id × Bucket)} :
    gather (·.1) (fun s => .empty s.2.name) (fun s _ => .empty s.2.name)
      (settledSchools db counted owed order) owed =
    owed ++ (settledSchools db counted owed order).map fun s => (s.1, .empty s.2.name) :=
  gather_new nodup_settledSchools fun _ hs => (mem_settledSchools.mp hs).2.2

/-- The schools that are listed are those with an enrollment. -/
theorem listed_schools (now : Int) (order order' : List Nat)
    (hschools : db.enrollments.Forall fun _ e =>
      ∃ school, db.schools.lookup e.schoolId = some school) {rows : List PaidEnrollment}
    (hrows : ∀ row ∈ rows, db.enrollments.lookup row.id = some row.enrollment) :
    let counted := (db.enrollmentCounts order').map (·.1)
    let owed := bySchool now rows
    (keys (owed ++ (settledSchools db counted owed order).map fun s =>
      (s.1, Bucket.empty s.2.name))).Perm counted := by
  intro counted owed
  have hkeys : keys (owed ++ (settledSchools db counted owed order).map fun s =>
      (s.1, Bucket.empty s.2.name)) =
      keys owed ++ (settledSchools db counted owed order).map (·.1) := by
    simp [keys]
  rw [hkeys, List.perm_ext_iff_of_nodup ?_ nodup_counted]
  · intro id
    rw [List.mem_append]
    constructor
    · rintro (howed | hsettled)
      · obtain ⟨row, hrow, rfl⟩ := mem_keys_bySchool.mp howed
        exact mem_counted.mpr ⟨row.id, row.enrollment, hrows row hrow, rfl⟩
      · obtain ⟨s, hs, rfl⟩ := List.mem_map.mp hsettled
        exact (mem_settledSchools.mp hs).2.1
    · intro hcounted
      by_cases howed : id ∈ keys owed
      · exact Or.inl howed
      · obtain ⟨k, e, he, rfl⟩ := mem_counted.mp hcounted
        obtain ⟨school, hschool⟩ := hschools k e he
        refine Or.inr (List.mem_map.mpr ⟨(e.schoolId, school), ?_, rfl⟩)
        exact mem_settledSchools.mpr ⟨hschool, hcounted, howed⟩
  · have howed : (keys owed).Nodup := nodup_gather List.nodup_nil
    refine howed.append nodup_settledSchools ?_
    intro id howed hsettled
    obtain ⟨s, hs, rfl⟩ := List.mem_map.mp hsettled
    exact (mem_settledSchools.mp hs).2.2 howed

/-- A figure that the settled schools do not add to sums to what the open plans add. -/
theorem sum_buckets {M : Type} [AddCommMonoid M] {μ : Bucket → M} {w : PaidEnrollment → M}
    (hempty : ∀ name, μ (.empty name) = 0) (hadd : ∀ row b, μ (b.add now row) = μ b + w row)
    (rows : List PaidEnrollment) (settled : List (Id × School)) :
    ((bySchool now rows ++ settled.map fun s => (s.1, Bucket.empty s.2.name)).map fun e =>
      μ e.2).sum = (rows.map w).sum := by
  have hsettled : ((settled.map fun s => (s.1, Bucket.empty s.2.name)).map fun e =>
      μ e.2).sum = 0 := by
    rw [List.map_map]
    apply List.sum_eq_zero
    intro v hv
    obtain ⟨s, -, rfl⟩ := List.mem_map.mp hv
    exact hempty s.2.name
  rw [List.map_append, List.sum_append, hsettled, add_zero, bySchool,
    sum_gather (fun _ => hempty _) hadd]
  simp

/-- In no bucket is more overdue than outstanding. -/
theorem bucket_overdue_le {rows : List PaidEnrollment} (settled : List (Id × School))
    (hrows : ∀ row ∈ rows, 0 ≤ row.enrollment.remainingBalance) :
    ∀ e ∈ bySchool now rows ++ settled.map fun s => (s.1, Bucket.empty s.2.name),
      e.2.overdueKobo ≤ e.2.outstandingKobo := by
  intro e he
  rcases List.mem_append.mp he with howed | hsettled
  · refine forall_gather (P := fun e => e.2.overdueKobo ≤ e.2.outstandingKobo) ?_ ?_ ?_ e howed
    · exact fun _ h => nomatch h
    · exact fun _ _ => le_refl _
    · exact fun row hrow b hb => add_le_add hb (overdue_le_owed (hrows row hrow) now)
  · obtain ⟨s, -, rfl⟩ := List.mem_map.mp hsettled
    exact le_refl _

/-- The schools of the breakdown. -/
theorem breakdown_schools (db : Db) (now : Int) (order₁ order₂ order₃ : List Nat) :
    (db.computeBreakdownSummary now (order₁, order₂, order₃)).schools =
      (bySchool now (db.enrollmentsWithPaidValue none true order₁) ++
        (settledSchools db ((db.enrollmentCounts order₂).map (·.1))
          (bySchool now (db.enrollmentsWithPaidValue none true order₁)) order₃).map fun s =>
            (s.1, Bucket.empty s.2.name)).map fun e =>
        { schoolId := e.1
          schoolName := e.2.schoolName
          totalStudents := (((db.enrollmentCounts order₂).find? fun c => c.1 = e.1).map
            (·.2)).getD 0
          studentsWithBalance := e.2.studentsWithBalance
          outstanding := Money.toNaira e.2.outstandingKobo
          overdue := Money.toNaira e.2.overdueKobo
          overdueStudentCount := e.2.overdueStudentCount } := by
  rw [← gather_settled]
  rfl

theorem breakdown_ids (db : Db) (now : Int) (order₁ order₂ order₃ : List Nat) :
    (db.computeBreakdownSummary now (order₁, order₂, order₃)).schools.map (·.schoolId) =
      keys (bySchool now (db.enrollmentsWithPaidValue none true order₁) ++
        (settledSchools db ((db.enrollmentCounts order₂).map (·.1))
          (bySchool now (db.enrollmentsWithPaidValue none true order₁)) order₃).map fun s =>
            (s.1, Bucket.empty s.2.name)) := by
  rw [breakdown_schools, List.map_map]
  rfl

end Breakdown

/-- The breakdown lists each school that has an enrollment once, its figures add up, and its
    total is the one of the students' summary. -/
structure BreakdownSummary.Agrees (db : Db) (b : BreakdownSummary) : Prop where
  once : (b.schools.map (·.schoolId)).Nodup
  listed : ∀ id, id ∈ b.schools.map (·.schoolId) ↔
    ∃ k e, db.enrollments.lookup k = some e ∧ e.schoolId = id
  outstanding : (b.schools.map (·.outstanding)).sum = b.totalOutstanding
  overdue : (b.schools.map (·.overdue)).sum = b.totalOverdue
  totalStudents : (b.schools.map (·.totalStudents)).sum = b.totalStudents
  studentsWithBalance : (b.schools.map (·.studentsWithBalance)).sum = b.studentsWithBalance
  overdueStudentCount : (b.schools.map (·.overdueStudentCount)).sum = b.overdueStudents
  overdue_le : ∀ s ∈ b.schools, s.overdue ≤ s.outstanding
  overview : b.totalOutstanding = db.computeStudentsSummary.totalOutstandingBalance

/-- On every snapshot whose plans belong to schools and owe no negative amounts the breakdown
    is a partition that agrees with the overview. -/
theorem breakdown_agrees (db : Db) (now : Int) (orders : List Nat × List Nat × List Nat)
    (hschools : db.enrollments.Forall fun _ e =>
      ∃ school, db.schools.lookup e.schoolId = some school)
    (hnonneg : db.enrollments.Forall fun _ e => 0 ≤ e.remainingBalance) :
    (db.computeBreakdownSummary now orders).Agrees db := by
  obtain ⟨order₁, order₂, order₃⟩ := orders
  have hopen : ∀ row ∈ db.enrollmentsWithPaidValue none true order₁,
      db.enrollments.lookup row.id = some row.enrollment ∧ 0 < row.enrollment.remainingBalance :=
    fun _ => mem_open
  have hperm := listed_schools now order₃ order₂ hschools fun row hrow => (hopen row hrow).1
  have hids := breakdown_ids db now order₁ order₂ order₃
  constructor
  · rw [hids, hperm.nodup_iff]
    exact nodup_counted
  · intro id
    rw [hids, hperm.mem_iff, mem_counted]
  · rw [breakdown_schools, List.map_map]
    refine (sum_buckets (μ := fun b => Money.toNaira b.outstandingKobo)
      (w := fun row => Money.toNaira row.enrollment.remainingBalance) ?_ ?_ _ _).trans ?_
    · intro name
      simp [Bucket.empty, Money.toNaira]
    · intro row b
      exact Money.toNaira_add _ _
    · refine Eq.trans ?_ (Money.toNaira_sum _).symm
      rw [List.map_map]
      rfl
  · rw [breakdown_schools, List.map_map]
    refine (sum_buckets (μ := fun b => Money.toNaira b.overdueKobo)
      (w := fun row => Money.toNaira (row.overdue now)) ?_ ?_ _ _).trans ?_
    · intro name
      simp [Bucket.empty, Money.toNaira]
    · intro row b
      exact Money.toNaira_add _ _
    · refine Eq.trans ?_ (Money.toNaira_sum _).symm
      rw [List.map_map]
      rfl
  · rw [breakdown_schools, List.map_map]
    refine Eq.trans ?_ (sum_counts hperm)
    rw [keys, List.map_map]
    rfl
  · rw [breakdown_schools, List.map_map]
    refine (sum_buckets (μ := fun b => b.studentsWithBalance) (w := fun _ => 1) ?_ ?_ _ _).trans ?_
    · exact fun _ => rfl
    · exact fun _ _ => rfl
    · simp [Db.computeBreakdownSummary]
  · rw [breakdown_schools, List.map_map]
    refine (sum_buckets (μ := fun b => b.overdueStudentCount)
      (w := fun row => if 0 < row.overdue now then 1 else 0) ?_ ?_ _ _).trans ?_
    · exact fun _ => rfl
    · intro row b
      simp only [Bucket.add]
      split <;> rfl
    · simp [Db.computeBreakdownSummary, length_filter_eq_sum]
  · intro s hs
    rw [breakdown_schools] at hs
    obtain ⟨e, he, rfl⟩ := List.mem_map.mp hs
    have hle := bucket_overdue_le _ (fun row hrow => (hopen row hrow).2.le) e he
    exact Money.toNaira_mono hle
  · exact congrArg Money.toNaira (open_outstanding hnonneg)

/-- A weekly plan of ₦1,200 at this school, begun at 0. -/
def weeklyPlan (schoolId : Id) (remainingBalance : Int) (paymentStatus : PaymentStatus) :
    ChildEnrollment where
  childId := "child"
  schoolId := schoolId
  className := "JSS1"
  totalSchoolFee := 120000
  platformFee := 0
  schoolMinimumFee := 0
  firstPaymentPaid := 0
  remainingBalance := remainingBalance
  paymentStatus := paymentStatus
  installmentFrequency := .WEEKLY
  termStartDate := 0
  termEndDate := 12 * Schedule.WEEK_MS
  enrollmentInviteId := none

/-- One school is owed money by one of its two plans; the plan of the other is paid up. -/
def twoSchools : Db :=
  { oneFamily with
    schools := [⟨"school", ⟨"Unity School", "080", "owner", none, false, none, 0⟩⟩,
      ⟨"other", ⟨"Hope School", "081", "owner", none, false, none, 0⟩⟩].toAList
    enrollments := [⟨"a", weeklyPlan "school" 120000 .ACTIVE⟩,
      ⟨"b", weeklyPlan "school" 0 .COMPLETED⟩, ⟨"c", weeklyPlan "other" 0 .ACTIVE⟩].toAList }

theorem twoSchools_plans {k : Id} {e : ChildEnrollment}
    (he : twoSchools.enrollments.lookup k = some e) : e = weeklyPlan "school" 120000 .ACTIVE ∨
      e = weeklyPlan "school" 0 .COMPLETED ∨ e = weeklyPlan "other" 0 .ACTIVE := by
  have hmem := Table.mem_rows.mpr he
  have hrows : twoSchools.enrollments.rows = [("a", weeklyPlan "school" 120000 .ACTIVE),
    ("b", weeklyPlan "school" 0 .COMPLETED), ("c", weeklyPlan "other" 0 .ACTIVE)] := rfl
  simp only [hrows, List.mem_cons, Prod.mk.injEq, List.not_mem_nil, or_false] at hmem
  rcases hmem with ⟨-, he⟩ | ⟨-, he⟩ | ⟨-, he⟩ <;> simp [he]

theorem breakdown_agrees_two_schools :
    let b := twoSchools.computeBreakdownSummary (2 * Schedule.WEEK_MS) ([], [], [])
    b.Agrees twoSchools ∧ b.totalOutstanding = 1200 ∧ b.totalOverdue = 200 ∧
      b.schools.map (·.schoolId) = ["school", "other"] := by
  refine ⟨breakdown_agrees twoSchools _ _ ?_ ?_, by decide +kernel, by decide +kernel,
    by decide +kernel⟩
  · intro k e he
    rcases twoSchools_plans he with rfl | rfl | rfl <;> exact ⟨_, rfl⟩
  · intro k e he
    rcases twoSchools_plans he with rfl | rfl | rfl <;> decide

end Lopay
