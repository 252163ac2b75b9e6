import Mathlib
import Lopay.Breakdown
import Lopay.Schedule.Calendar

/-!
# The revenue chart

`revenueSeries`: the confirmed platform fees of the last six months or the last eight weeks,
in a time zone whose offset does not change. The buckets are found by stepping back from
today, the bucket of a payment by a key that is computed from its own date.
-/

namespace Lopay

namespace Revenue

open Invites Schedule Transactions

inductive SeriesRange where
  | monthly
  | weekly

def SERIES_MONTHS : Nat := 6

def SERIES_WEEKS : Nat := 8

structure SeriesBucket where
  key : String
  label : String
  value : ℚ

/-- The local date at an instant. -/
def localDay (zone t : Int) : Int := (t + zone) / DAY_MS

/-- The instant at which a local date begins. -/
def midnight (zone day : Int) : Int := day * DAY_MS - zone

/-- `getDay`; Sunday is 0. -/
def weekday (day : Int) : Int := (day + 4) % 7

/-- The Monday that starts the week. -/
def mondayOf (day : Int) : Int := day - (weekday day + 6) % 7

/-- `padStart(2, "0")` of a month or a day. -/
def pad2 (n : Int) : String := if n < 10 then "0" ++ n.repr else n.repr

/-- The key of the bucket that a date belongs in. -/
def keyFor (range : SeriesRange) (day : Int) : String :=
  match range with
  | .monthly =>
    let (year, month, _) := civilFromDays day
    year.repr ++ "-" ++ pad2 month
  | .weekly =>
    let (year, month, date) := civilFromDays (mondayOf day)
    year.repr ++ "-" ++ pad2 month ++ "-" ++ pad2 date

def MONTH_NAMES : List String :=
  ["Jan", "Feb", "Mar", "Apr", "May", "Jun", "Jul", "Aug", "Sep", "Oct", "Nov", "Dec"]

def monthName (day : Int) : String := MONTH_NAMES.getD ((civilFromDays day).2.1 - 1).toNat ""

/-- The number of buckets. -/
def size : SeriesRange → Nat
  | .monthly => SERIES_MONTHS
  | .weekly => SERIES_WEEKS

/-- The day on which the bucket begins that is so many buckets back from today. -/
def stepBack (range : SeriesRange) (today : Int) (back : Nat) : Int :=
  match range with
  | .monthly => firstDay (monthOf today - back)
  | .weekly => mondayOf today - 7 * back

def labelOf (range : SeriesRange) (day : Int) : String :=
  match range with
  | .monthly => monthName day
  | .weekly => (dayOf day).repr ++ " " ++ monthName day

/-- The buckets before anything has been added, the oldest first. -/
def emptyBuckets (range : SeriesRange) (today : Int) : List SeriesBucket :=
  (List.range (size range)).reverse.map fun back =>
    let day := stepBack range today back
    { key := keyFor range day, label := labelOf range day, value := 0 }

/-- Where the map by key has the bucket; of two with one key it has the later. -/
def bucketIndex (buckets : List SeriesBucket) (key : String) : Option Nat :=
  (buckets.zipIdx.reverse.find? fun b => b.1.key = key).map (·.2)

/-- Add a payment to its bucket, if it has one. -/
def addPayment (range : SeriesRange) (zone : Int) (buckets : List SeriesBucket) (p : Payment) :
    List SeriesBucket :=
  match bucketIndex buckets (keyFor range (localDay zone p.paymentDate)) with
  | some i => buckets.modify i fun b =>
    { b with value := b.value + Money.toNaira p.platformAmount }
  | none => buckets

/-- The instant the window of the chart starts at. -/
def windowStart (range : SeriesRange) (zone now : Int) : Int :=
  midnight zone (stepBack range (localDay zone now) (size range - 1))

/-- The confirmed platform payments of the window, the oldest first. -/
def windowPayments (range : SeriesRange) (zone now : Int) (db : Db) : List Payment :=
  ((db.payments.rows.map (·.2)).filter fun p =>
    p.receiver = .PLATFORM ∧ p.isConfirmed ∧ windowStart range zone now ≤ p.paymentDate).mergeSort
      fun p q => p.paymentDate ≤ q.paymentDate

/-- The buckets with the payments of the window in them. -/
def filledBuckets (range : SeriesRange) (zone now : Int) (db : Db) : List SeriesBucket :=
  (windowPayments range zone now db).foldl (addPayment range zone)
    (emptyBuckets range (localDay zone now))

def revenueSeries (range : SeriesRange) (zone now : Int) (db : Db) : List (String × ℚ) :=
  (filledBuckets range zone now db).map fun b => (b.label, b.value)

/-! ### Months and weeks -/

/-- The month or the Monday-based week that a date lies in, counted from a fixed one. -/
def period (range : SeriesRange) (day : Int) : Int :=
  match range with
  | .monthly => monthOf day
  | .weekly => (day + 3) / 7

/-- The first day of a period. -/
def periodStart (range : SeriesRange) (n : Int) : Int :=
  match range with
  | .monthly => firstDay n
  | .weekly => 7 * n - 3

theorem mondayOf_eq (day : Int) : mondayOf day = 7 * ((day + 3) / 7) - 3 := by
  unfold mondayOf weekday
  omega

theorem periodStart_le (range : SeriesRange) (day n : Int) :
    periodStart range n ≤ day ↔ n ≤ period range day := by
  cases range with
  | monthly =>
    have hday := firstDay_le day
    have hnext := lt_firstDay_succ day
    constructor
    · intro hle
      have hlt : n < monthOf day + 1 := firstDay_strictMono.lt_iff_lt.mp (by
        simp only [periodStart] at hle
        omega)
      simp only [period]
      omega
    · intro hle
      exact (firstDay_strictMono.monotone hle).trans hday
  | weekly =>
    simp only [periodStart, period]
    omega

theorem period_periodStart (range : SeriesRange) (n : Int) :
    period range (periodStart range n) = n := by
  cases range with
  | monthly =>
    have hnext := firstDay_succ n
    exact monthOf_eq (le_refl _) (by simp only [periodStart]; omega)
  | weekly =>
    simp only [periodStart, period]
    omega

theorem period_mono (range : SeriesRange) {day day' : Int} (h : day ≤ day') :
    period range day ≤ period range day' :=
  (periodStart_le range day' _).mp (((periodStart_le range day _).mpr (le_refl _)).trans h)

theorem stepBack_eq (range : SeriesRange) (today : Int) (back : Nat) :
    stepBack range today back = periodStart range (period range today - back) := by
  cases range with
  | monthly => rfl
  | weekly =>
    simp only [stepBack, periodStart, period, mondayOf_eq]
    omega

/-! ### Keys -/

theorem civil_month (day : Int) : 1 ≤ (civilFromDays day).2.1 ∧ (civilFromDays day).2.1 ≤ 12 := by
  have hera := year_of_era (Int.emod_nonneg (day + 719468) (by decide))
    (Int.emod_lt_of_pos (day + 719468) (by decide)) rfl
  unfold civilFromDays
  simp only
  generalize (day + 719468) % 146097 = d at *
  generalize (d - d / 1460 + d / 36524 - d / 146096) / 365 = y at *
  split_ifs <;> omega

theorem civil_day (day : Int) : 1 ≤ (civilFromDays day).2.2 ∧ (civilFromDays day).2.2 ≤ 31 := by
  have hnext := lt_firstDay_succ day
  have hday := firstDay_monthOf day
  obtain ⟨year, month, h0, h11, -, -, hone, hlen, -⟩ := civil day
  unfold monthStart at hlen
  exact ⟨hone, by unfold dayOf at hlen; omega⟩

theorem pad2_spec : ∀ n n' : Fin 32, (pad2 n).length = 2 ∧ (pad2 n = pad2 n' → n = n') := by
  decide +kernel

theorem pad2_length {n : Int} (h0 : 0 ≤ n) (h31 : n ≤ 31) : (pad2 n).length = 2 := by
  lift n to Nat using h0
  exact (pad2_spec ⟨n, by omega⟩ 0).1

theorem pad2_inj {n n' : Int} (h0 : 0 ≤ n) (h31 : n ≤ 31) (h0' : 0 ≤ n') (h31' : n' ≤ 31)
    (h : pad2 n = pad2 n') : n = n' := by
  lift n to Nat using h0
  lift n' to Nat using h0'
  have hfin := (pad2_spec ⟨n, by omega⟩ ⟨n', by omega⟩).2 h
  simp only [Fin.mk.injEq] at hfin
  rw [hfin]

theorem append_inj_of_length {a b a' b' : String} (h : a ++ b = a' ++ b')
    (hlen : b.length = b'.length) : a = a' ∧ b = b' := by
  have hlist := congrArg String.toList h
  rw [String.toList_append, String.toList_append] at hlist
  obtain ⟨ha, hb⟩ := List.append_inj' hlist (by simpa only [String.length_toList] using hlen)
  exact ⟨String.toList_inj.mp ha, String.toList_inj.mp hb⟩

/-- Year and month can be told from their text. -/
theorem month_text_inj {y y' m m' : Int} (hm : 0 ≤ m ∧ m ≤ 31) (hm' : 0 ≤ m' ∧ m' ≤ 31)
    (h : y.repr ++ "-" ++ pad2 m = y'.repr ++ "-" ++ pad2 m') : y = y' ∧ m = m' := by
  obtain ⟨hyear, hmonth⟩ := append_inj_of_length h
    ((pad2_length hm.1 hm.2).trans (pad2_length hm'.1 hm'.2).symm)
  exact ⟨Int.repr_injective (append_inj_of_length hyear rfl).1,
    pad2_inj hm.1 hm.2 hm'.1 hm'.2 hmonth⟩

theorem monthOf_of_civil {day day' : Int} (hyear : (civilFromDays day).1 = (civilFromDays day').1)
    (hmonth : (civilFromDays day).2.1 = (civilFromDays day').2.1) :
    monthOf day = monthOf day' := by
  rw [monthOf, monthOf, hyear, hmonth]

/-- Two dates have one key if and only if they lie in one period. -/
theorem keyFor_inj (range : SeriesRange) (day day' : Int) :
    keyFor range day = keyFor range day' ↔ period range day = period range day' := by
  cases range with
  | monthly =>
    have hm := civil_month day
    have hm' := civil_month day'
    constructor
    · intro h
      obtain ⟨hyear, hmonth⟩ := month_text_inj ⟨by omega, by omega⟩ ⟨by omega, by omega⟩ h
      exact monthOf_of_civil hyear hmonth
    · intro h
      simp only [period, monthOf] at h
      have hyear : (civilFromDays day).1 = (civilFromDays day').1 := by omega
      have hmonth : (civilFromDays day).2.1 = (civilFromDays day').2.1 := by omega
      simp only [keyFor, hyear, hmonth]
  | weekly =>
    have hm := civil_month (mondayOf day)
    have hm' := civil_month (mondayOf day')
    have hd := civil_day (mondayOf day)
    have hd' := civil_day (mondayOf day')
    constructor
    · intro h
      obtain ⟨hrest, hdate⟩ := append_inj_of_length h
        ((pad2_length (by omega) (by omega)).trans (pad2_length (by omega) (by omega)).symm)
      obtain ⟨hyear, hmonth⟩ := month_text_inj ⟨by omega, by omega⟩ ⟨by omega, by omega⟩
        (append_inj_of_length hrest rfl).1
      have hday : dayOf (mondayOf day) = dayOf (mondayOf day') :=
        pad2_inj (by unfold dayOf; omega) (by unfold dayOf; omega) (by unfold dayOf; omega)
          (by unfold dayOf; omega) hdate
      have hmonday := firstDay_monthOf (mondayOf day)
      have hmonday' := firstDay_monthOf (mondayOf day')
      rw [monthOf_of_civil hyear hmonth, hday] at hmonday
      simp only [mondayOf_eq] at hmonday hmonday' ⊢
      simp only [period]
      omega
    · intro h
      simp only [period] at h
      simp only [keyFor, mondayOf_eq, h]

/-! ### Buckets -/

def bucketKeys (buckets : List SeriesBucket) : List String := buckets.map (·.key)

section Buckets

variable {range : SeriesRange} {zone : Int} {bs : List SeriesBucket}

/-- Where keys are distinct the map finds the bucket of a key. -/
theorem bucketIndex_eq_some (h : (bucketKeys bs).Nodup) {k : String} {i : Nat} :
    bucketIndex bs k = some i ↔ (bucketKeys bs)[i]? = some k := by
  have hmem {b : SeriesBucket × Nat} : b ∈ bs.zipIdx.reverse ↔ bs[b.2]? = some b.1 := by
    rw [List.mem_reverse, List.mem_zipIdx_iff_getElem?]
  constructor
  · intro hfound
    obtain ⟨b, hb, rfl⟩ := Option.map_eq_some_iff.mp hfound
    have hget := hmem.mp (List.mem_of_find?_eq_some hb)
    have hkey := List.find?_some hb
    rw [bucketKeys, List.getElem?_map, hget, Option.map_some, of_decide_eq_true hkey]
  · intro hget
    obtain ⟨b, hb, hkey⟩ := Option.map_eq_some_iff.mp (List.getElem?_map.symm.trans hget)
    have hsome : (bs.zipIdx.reverse.find? fun b => b.1.key = k).isSome = true :=
      List.find?_isSome.mpr ⟨(b, i), hmem.mpr hb, decide_eq_true hkey⟩
    obtain ⟨found, hfound⟩ := Option.isSome_iff_exists.mp hsome
    have hget' := hmem.mp (List.mem_of_find?_eq_some hfound)
    have hkey' := List.find?_some hfound
    simp only [decide_eq_true_eq] at hkey'
    have hsame : (bucketKeys bs)[found.2]? = (bucketKeys bs)[i]? := by
      rw [hget, bucketKeys, List.getElem?_map, hget', Option.map_some, hkey']
    have hlt : found.2 < (bucketKeys bs).length := by
      rw [bucketKeys, List.length_map]
      exact (List.getElem?_eq_some_iff.mp hget').1
    rw [bucketIndex, hfound, Option.map_some, (List.getElem?_inj hlt h).mp hsame]

/-- The bucket with that key has been credited. -/
def credit (k : String) (amount : ℚ) (b : SeriesBucket) : SeriesBucket :=
  if b.key = k then { b with value := b.value + amount } else b

@[simp] theorem credit_key (k : String) (amount : ℚ) (b : SeriesBucket) :
    (credit k amount b).key = b.key := by
  unfold credit
  split <;> rfl

theorem addPayment_eq (h : (bucketKeys bs).Nodup) (p : Payment) : addPayment range zone bs p =
    bs.map (credit (keyFor range (localDay zone p.paymentDate)) (Money.toNaira p.platformAmount)) := by
  have hat (i : Nat) : bucketIndex bs (keyFor range (localDay zone p.paymentDate)) = some i ↔
      ∃ b, bs[i]? = some b ∧ b.key = keyFor range (localDay zone p.paymentDate) := by
    rw [bucketIndex_eq_some h, bucketKeys, List.getElem?_map, Option.map_eq_some_iff]
  unfold addPayment
  cases hi : bucketIndex bs (keyFor range (localDay zone p.paymentDate)) with
  | none =>
    have hother : ∀ b ∈ bs, credit (keyFor range (localDay zone p.paymentDate))
        (Money.toNaira p.platformAmount) b = b := by
      intro b hb
      obtain ⟨i, hget⟩ := List.mem_iff_getElem?.mp hb
      refine if_neg fun hkey => ?_
      rw [(hat i).mpr ⟨b, hget, hkey⟩] at hi
      cases hi
    rw [List.map_congr_left hother, List.map_id']
  | some i =>
    apply List.ext_getElem?
    intro j
    rw [List.getElem?_modify, List.getElem?_map]
    cases hj : bs[j]? with
    | none => simp
    | some b =>
      by_cases hij : i = j
      · subst hij
        obtain ⟨b', hb', hkey⟩ := (hat i).mp hi
        obtain rfl := Option.some.inj (hj.symm.trans hb')
        simp [credit, hkey]
      · have hkey : b.key ≠ keyFor range (localDay zone p.paymentDate) := by
          intro hkey
          have hj' := (hat j).mpr ⟨b, hj, hkey⟩
          exact hij (Option.some.inj (hi.symm.trans hj'))
        simp [credit, hkey, hij]

/-- The sum over all buckets gains a payment that has one. -/
theorem sum_credit (h : (bucketKeys bs).Nodup) {k : String} (hk : k ∈ bucketKeys bs) (amount : ℚ) :
    ((bs.map (credit k amount)).map (·.value)).sum = (bs.map (·.value)).sum + amount := by
  induction bs with
  | nil => cases hk
  | cons b bs ih =>
    obtain ⟨hnew, hrest⟩ := List.nodup_cons.mp h
    simp only [List.map_cons, List.sum_cons]
    by_cases hb : b.key = k
    · have hothers : bs.map (credit k amount) = bs := by
        have hother : ∀ b' ∈ bs, credit k amount b' = b' := by
          intro b' hb'
          refine if_neg fun hkey => hnew ?_
          exact List.mem_map.mpr ⟨b', hb', hkey.trans hb.symm⟩
        rw [List.map_congr_left hother, List.map_id']
      rw [hothers, credit, if_pos hb]
      ring
    · have hin : k ∈ bucketKeys bs := by
        rcases List.mem_cons.mp hk with heq | hin
        · exact absurd heq.symm hb
        · exact hin
      rw [ih hrest hin, credit, if_neg hb]
      ring

theorem bucketKeys_credit (k : String) (amount : ℚ) :
    bucketKeys (bs.map (credit k amount)) = bucketKeys bs := by
  simp [bucketKeys]

/-- What adding payments one by one comes to. -/
theorem foldl_addPayment (h : (bucketKeys bs).Nodup) (ps : List Payment) :
    ps.foldl (addPayment range zone) bs = bs.map fun b =>
      { b with value := b.value + ((ps.filter fun p =>
        keyFor range (localDay zone p.paymentDate) = b.key).map fun p =>
          Money.toNaira p.platformAmount).sum } := by
  induction ps generalizing bs with
  | nil => simp
  | cons p ps ih =>
    rw [List.foldl_cons, addPayment_eq h, ih (by rwa [bucketKeys_credit]), List.map_map]
    apply List.map_congr_left
    intro b _
    by_cases hb : b.key = keyFor range (localDay zone p.paymentDate)
    · simp [credit, hb, add_assoc]
    · have hb' : ¬ keyFor range (localDay zone p.paymentDate) = b.key := fun heq => hb heq.symm
      simp [credit, hb, hb']

theorem sum_foldl_addPayment (h : (bucketKeys bs).Nodup) {ps : List Payment}
    (hps : ∀ p ∈ ps, keyFor range (localDay zone p.paymentDate) ∈ bucketKeys bs) :
    ((ps.foldl (addPayment range zone) bs).map (·.value)).sum =
      (bs.map (·.value)).sum + (ps.map fun p => Money.toNaira p.platformAmount).sum := by
  induction ps generalizing bs with
  | nil => simp
  | cons p ps ih =>
    rw [List.foldl_cons, addPayment_eq h, ih (by rwa [bucketKeys_credit]),
      sum_credit h (hps p List.mem_cons_self), List.map_cons, List.sum_cons, add_assoc]
    intro q hq
    rw [bucketKeys_credit]
    exact hps q (List.mem_cons_of_mem _ hq)

end Buckets

/-! ### The window -/

/-- The period of the first bucket. -/
def firstPeriod (range : SeriesRange) (zone now : Int) : Int :=
  period range (localDay zone now) - (size range - 1)

section Window

variable {range : SeriesRange} {zone now : Int} {db : Db}

theorem bucketKeys_empty (range : SeriesRange) (today : Int) : bucketKeys (emptyBuckets range today) =
    (List.range (size range)).map fun i : Nat =>
      keyFor range (periodStart range (period range today - (size range - 1) + i)) := by
  apply List.ext_getElem
  · simp [bucketKeys, emptyBuckets]
  intro i hi _
  have hlt : i < size range := by simpa [bucketKeys, emptyBuckets] using hi
  simp only [bucketKeys, emptyBuckets, List.getElem_map, List.getElem_reverse, List.length_range,
    List.getElem_range, stepBack_eq]
  congr 2
  omega

theorem nodup_empty (range : SeriesRange) (today : Int) :
    (bucketKeys (emptyBuckets range today)).Nodup := by
  rw [bucketKeys_empty]
  refine List.nodup_range.map fun i j hij => ?_
  have hperiod := (keyFor_inj range _ _).mp hij
  rw [period_periodStart, period_periodStart] at hperiod
  omega

/-- A date of a period has the key of the period. -/
theorem keyFor_period (range : SeriesRange) (day n : Int) :
    keyFor range day = keyFor range (periodStart range n) ↔ period range day = n := by
  rw [keyFor_inj, period_periodStart]

/-- The dates of the window are those of its periods. -/
theorem windowStart_le {t : Int} : windowStart range zone now ≤ t ↔
    firstPeriod range zone now ≤ period range (localDay zone t) := by
  have hcast : ((size range - 1 : Nat) : Int) = size range - 1 := by cases range <;> rfl
  rw [windowStart, stepBack_eq, hcast, firstPeriod, ← periodStart_le, midnight]
  generalize periodStart range (period range (localDay zone now) - (size range - 1)) = day
  unfold localDay DAY_MS
  omega

theorem period_le {t : Int} (h : t ≤ now) : period range (localDay zone t) ≤ period range (localDay zone now) :=
  period_mono range (Int.ediv_le_ediv (by decide) (by omega))

end Window

/-- The chart of a range at an instant: consecutive buckets, each with what was paid in its
    period, and every payment of the window in one of them. -/
structure Charted (range : SeriesRange) (zone now : Int) (db : Db) : Prop where
  distinct : (bucketKeys (filledBuckets range zone now db)).Nodup
  consecutive : bucketKeys (filledBuckets range zone now db) =
    (List.range (size range)).map fun i : Nat =>
      keyFor range (periodStart range (firstPeriod range zone now + i))
  assigned : ∀ p ∈ windowPayments range zone now db,
    ∃! i : Nat, (bucketKeys (filledBuckets range zone now db))[i]? =
      some (keyFor range (localDay zone p.paymentDate))
  containing : ∀ p ∈ windowPayments range zone now db, ∀ i : Nat,
    (bucketKeys (filledBuckets range zone now db))[i]? =
      some (keyFor range (localDay zone p.paymentDate)) →
    period range (localDay zone p.paymentDate) = firstPeriod range zone now + i
  values : ∀ (i : Nat) b, (filledBuckets range zone now db)[i]? = some b → b.value =
    (((windowPayments range zone now db).filter fun p =>
      period range (localDay zone p.paymentDate) = firstPeriod range zone now + i).map fun p =>
        Money.toNaira p.platformAmount).sum
  total : ((revenueSeries range zone now db).map (·.2)).sum = Money.toNaira
    (db.sumPayments (fun p => p.receiver = .PLATFORM ∧ p.isConfirmed ∧
      windowStart range zone now ≤ p.paymentDate) (·.platformAmount))

section Chart

variable {range : SeriesRange} {zone now : Int} {db : Db}

theorem mem_windowPayments {p : Payment} : p ∈ windowPayments range zone now db ↔
    (∃ k, db.payments.lookup k = some p) ∧ p.receiver = .PLATFORM ∧ p.isConfirmed = true ∧
      windowStart range zone now ≤ p.paymentDate := by
  rw [windowPayments, List.mem_mergeSort, List.mem_filter, List.mem_map, decide_eq_true_eq]
  apply and_congr_left
  intro _
  constructor
  · rintro ⟨⟨k, p'⟩, hmem, rfl⟩
    exact ⟨k, Table.mem_rows.mp hmem⟩
  · rintro ⟨k, hp⟩
    exact ⟨(k, p), Table.mem_rows.mpr hp, rfl⟩

/-- A payment of the window lies in the period of one of the buckets. -/
theorem window_position (hpast : ∀ k p, db.payments.lookup k = some p → p.receiver = .PLATFORM →
      p.isConfirmed = true → p.paymentDate ≤ now) {p : Payment}
    (hp : p ∈ windowPayments range zone now db) : ∃ i < size range,
      period range (localDay zone p.paymentDate) = firstPeriod range zone now + i := by
  obtain ⟨⟨k, hk⟩, hreceiver, hconfirmed, hstart⟩ := mem_windowPayments.mp hp
  have hfirst := windowStart_le.mp hstart
  have hlast : period range (localDay zone p.paymentDate) ≤ period range (localDay zone now) :=
    period_le (hpast k p hk hreceiver hconfirmed)
  have hsize : 0 < size range := by cases range <;> decide
  refine ⟨(period range (localDay zone p.paymentDate) - firstPeriod range zone now).toNat, ?_, ?_⟩
  · rw [firstPeriod] at *
    omega
  · omega

theorem filledBuckets_eq : filledBuckets range zone now db =
    (emptyBuckets range (localDay zone now)).map fun b => { b with
      value := b.value + (((windowPayments range zone now db).filter fun p =>
        keyFor range (localDay zone p.paymentDate) = b.key).map fun p =>
          Money.toNaira p.platformAmount).sum } :=
  foldl_addPayment (nodup_empty range _) _

theorem bucketKeys_filled : bucketKeys (filledBuckets range zone now db) =
    (List.range (size range)).map fun i : Nat =>
      keyFor range (periodStart range (firstPeriod range zone now + i)) := by
  have hkeys : bucketKeys (filledBuckets range zone now db) =
      bucketKeys (emptyBuckets range (localDay zone now)) := by
    rw [filledBuckets_eq, bucketKeys, bucketKeys, List.map_map]
    rfl
  rw [hkeys, bucketKeys_empty]
  rfl

theorem bucketKeys_getElem {i : Nat} {key : String} :
    (bucketKeys (filledBuckets range zone now db))[i]? = some key ↔
      i < size range ∧ keyFor range (periodStart range (firstPeriod range zone now + i)) = key := by
  rw [bucketKeys_filled, List.getElem?_map]
  by_cases hi : i < size range
  · simp [hi]
  · simp [hi]

theorem sum_windowPayments : ((windowPayments range zone now db).map fun p =>
      Money.toNaira p.platformAmount).sum = Money.toNaira
    (db.sumPayments (fun p => p.receiver = .PLATFORM ∧ p.isConfirmed ∧
      windowStart range zone now ≤ p.paymentDate) (·.platformAmount)) := by
  rw [windowPayments, ((List.mergeSort_perm _ _).map _).sum_eq, sum_filter, Db.sumPayments,
    Table.total, Money.toNaira_sum, List.map_map, List.map_map, Table.rows, List.map_map]
  congr 1
  apply List.map_congr_left
  intro e _
  simp only [Function.comp_apply, decide_eq_true_eq]
  split
  · rfl
  · simp [Money.toNaira]

/-- For every instant, range and zone the chart loses nothing of what was paid by then. -/
theorem revenue_charted (range : SeriesRange) (zone now : Int) (db : Db)
    (hpast : ∀ k p, db.payments.lookup k = some p → p.receiver = .PLATFORM →
      p.isConfirmed = true → p.paymentDate ≤ now) : Charted range zone now db := by
  have hkeys : bucketKeys (filledBuckets range zone now db) =
      bucketKeys (emptyBuckets range (localDay zone now)) := by
    rw [bucketKeys_filled, bucketKeys_empty]
    rfl
  constructor
  · rw [hkeys]
    exact nodup_empty range _
  · exact bucketKeys_filled
  · intro p hp
    obtain ⟨i, hi, hperiod⟩ := window_position hpast hp
    refine ⟨i, bucketKeys_getElem.mpr ⟨hi, ((keyFor_period range _ _).mpr hperiod).symm⟩, ?_⟩
    intro j hj
    obtain ⟨-, hkey⟩ := bucketKeys_getElem.mp hj
    have hperiod' := (keyFor_period range _ _).mp hkey.symm
    omega
  · intro p hp i hi
    obtain ⟨-, hkey⟩ := bucketKeys_getElem.mp hi
    exact (keyFor_period range _ _).mp hkey.symm
  · intro i b hb
    have hkey : i < size range ∧
        keyFor range (periodStart range (firstPeriod range zone now + i)) = b.key := by
      apply bucketKeys_getElem.mp
      rw [bucketKeys, List.getElem?_map, hb, Option.map_some]
    rw [filledBuckets_eq, List.getElem?_map] at hb
    obtain ⟨b₀, hb₀, rfl⟩ := Option.map_eq_some_iff.mp hb
    have hzero : b₀.value = 0 := by
      obtain ⟨back, -, rfl⟩ := List.mem_map.mp (List.mem_of_getElem? hb₀)
      rfl
    simp only [hzero, zero_add]
    congr 2
    apply List.filter_congr
    intro p _
    rw [← hkey.2, decide_eq_decide]
    exact keyFor_period range _ _
  · have hfilled : ((filledBuckets range zone now db).map (·.value)).sum =
        ((emptyBuckets range (localDay zone now)).map (·.value)).sum +
          ((windowPayments range zone now db).map fun p => Money.toNaira p.platformAmount).sum := by
      refine sum_foldl_addPayment (nodup_empty range _) fun p hp => ?_
      obtain ⟨i, hi, hperiod⟩ := window_position hpast hp
      rw [← hkeys]
      exact List.mem_of_getElem? (bucketKeys_getElem.mpr
        ⟨hi, ((keyFor_period range _ _).mpr hperiod).symm⟩)
    have hzero : ((emptyBuckets range (localDay zone now)).map (·.value)).sum = 0 := by
      simp [emptyBuckets, Function.comp_def]
    rw [hzero, zero_add, sum_windowPayments] at hfilled
    rw [revenueSeries, List.map_map]
    exact hfilled

end Chart

/-- A fee of ₦500 that was paid on the last day of February. -/
def februaryFee : Db :=
  { oneFamily with
    payments := [⟨"fee",
      { submitted .SUCCESS with
        receiver := .PLATFORM
        isConfirmed := true
        platformAmount := 50000
        paymentDate := daysFromCivil 2026 2 28 * DAY_MS }⟩].toAList }

theorem revenue_charted_february :
    Charted .monthly 0 (daysFromCivil 2026 3 15 * DAY_MS) februaryFee ∧
      revenueSeries .monthly 0 (daysFromCivil 2026 3 15 * DAY_MS) februaryFee =
        [("Oct", 0), ("Nov", 0), ("Dec", 0), ("Jan", 0), ("Feb", 500), ("Mar", 0)] := by
  refine ⟨revenue_charted .monthly 0 _ februaryFee ?_, ?_⟩
  · intro k p hp _ _
    obtain ⟨-, rfl⟩ := Prod.mk.inj (List.mem_singleton.mp (Table.mem_rows.mpr hp))
    decide
  · decide +kernel

end Revenue

end Lopay
