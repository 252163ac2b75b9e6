import Lopay.Fees.Phases
import Lopay.Transactions.Alone

/-!
# Publishing a schedule

`setClassFees` retires the classes that a payload does not name and upserts those it names, in
one transaction. `Published` is what that comes to, class by class; a schedule published twice
is published once.
-/

namespace Lopay.Fees

open Transactions

variable {locale : Locale} {schoolId : Id} {entries : List (String × Int)} {s s' : Shelf}

/-! ### What the statements write -/

theorem mem_fees {key : FeeKey} {row : ClassFee} :
    (key, row) ∈ fees s ↔ s.classFees.lookup key = some row := Table.mem_rows

/-- Rows that were all read under their keys, written back changed. -/
theorem lookup_putAll (f : ClassFee → ClassFee) {rows : List (FeeKey × ClassFee)}
    {old : FeeKey → Option ClassFee} (hrows : ∀ r ∈ rows, old r.1 = some r.2) (key : FeeKey) :
    (store.applyAll (rows.map fun r => .putClassFee r.1 (f r.2)) s).classFees.lookup key =
      if key ∈ rows.map Prod.fst then (old key).map f else s.classFees.lookup key := by
  induction rows generalizing s with
  | nil => rfl
  | cons r rows ih =>
    simp only [List.map_cons, Store.applyAll_cons]
    rw [ih fun r' hr' => hrows r' (List.mem_cons_of_mem _ hr')]
    have hr := hrows r List.mem_cons_self
    by_cases hkey : key = r.1
    · subst hkey
      simp [Write.apply, hr]
    · have hmem : key ∈ r.1 :: rows.map Prod.fst ↔ key ∈ rows.map Prod.fst :=
        List.mem_cons.trans (or_iff_right hkey)
      rw [if_congr hmem rfl rfl, store_apply, Write.apply, AList.lookup_insert_ne hkey]

theorem lookup_retired (kept : List String) (key : FeeKey) :
    (store.applyAll (retired schoolId kept s) s).classFees.lookup key =
      if key.1 = schoolId ∧ key.2 ∉ kept then (s.classFees.lookup key).map retire
      else s.classFees.lookup key := by
  let old : FeeKey → Option ClassFee := fun key => s.classFees.lookup key
  have hrows : ∀ r ∈ (fees s).filter fun r => r.1.1 = schoolId && r.2.isActive &&
      !kept.contains r.1.2, old r.1 = some r.2 :=
    fun r hr => mem_fees.mp (List.mem_of_mem_filter hr)
  have hmem : key ∈ ((fees s).filter fun r => r.1.1 = schoolId && r.2.isActive &&
      !kept.contains r.1.2).map Prod.fst ↔
        ∃ row, s.classFees.lookup key = some row ∧ key.1 = schoolId ∧ row.isActive = true ∧
          key.2 ∉ kept := by
    simp only [List.mem_map, List.mem_filter, Prod.exists, exists_and_right, exists_eq_right,
      mem_fees]
    simp [and_assoc]
  rw [retired, lookup_putAll retire hrows, if_congr hmem rfl rfl]
  cases hrow : s.classFees.lookup key with
  | none => simp
  | some row =>
    cases hactive : row.isActive with
    | true => simp [hactive, old, hrow]
    | false =>
      -- An inactive row is not among them, and retiring it would change nothing.
      have hsame : retire row = row := by
        cases row
        cases hactive
        rfl
      simp [hactive, hsame]

/-- The row an upsert leaves where it found `row?`. -/
def revised (feeAmount : Int) (id : Id) (row? : Option ClassFee) : ClassFee where
  id := (row?.map ClassFee.id).getD id
  feeAmount := feeAmount
  isActive := true

theorem upserted_ok {key : FeeKey} {feeAmount : Int} {id : Id} {r : FeeKey × ClassFee}
    {ws : List Write} (h : upserted key feeAmount id s = .ok (r, ws)) :
    ws = [.putClassFee key (revised feeAmount id (s.classFees.lookup key))] := by
  unfold upserted at h
  cases hrow : s.classFees.lookup key with
  | some row =>
    rw [hrow] at h
    obtain ⟨-, rfl⟩ := Prod.mk.inj (Except.ok.inj h)
    rfl
  | none =>
    rw [hrow] at h
    simp only [inserted, hrow, Option.isSome_none] at h
    split at h
    · cases h
    · split at h
      · cases h
      · obtain ⟨-, rfl⟩ := Prod.mk.inj (Except.ok.inj h)
        rfl

/-! ### The entries of a schedule -/

/-- From `v` to `v'` the entries have been upserted, and nothing else has happened. -/
structure Upserted (schoolId : Id) (entries : List (String × Int)) (v v' : Shelf) : Prop where
  entry : ∀ e ∈ entries, ∃ row, v'.classFees.lookup (schoolId, e.1) = some row ∧
    row.isActive = true ∧ row.feeAmount = e.2 ∧
    ∀ old, v.classFees.lookup (schoolId, e.1) = some old → row.id = old.id
  rest : ∀ key : FeeKey, (key.1 = schoolId → key.2 ∉ entries.map Prod.fst) →
    v'.classFees.lookup key = v.classFees.lookup key

theorem Upserted.nil {v : Shelf} : Upserted schoolId [] v v where
  entry := fun _ he => nomatch he
  rest := fun _ _ => rfl

theorem Upserted.cons {e : String × Int} {v v' : Shelf} {id : Id}
    (hnew : e.1 ∉ entries.map Prod.fst)
    (h : Upserted schoolId entries
      ((Write.putClassFee (schoolId, e.1)
        (revised e.2 id (v.classFees.lookup (schoolId, e.1)))).apply v) v') :
    Upserted schoolId (e :: entries) v v' := by
  constructor
  · intro e' he'
    rcases List.mem_cons.mp he' with rfl | he'
    · refine ⟨_, (h.rest (schoolId, e'.1) fun _ => hnew).trans (AList.lookup_insert _), rfl, rfl, ?_⟩
      intro old hold
      simp [revised, hold]
    · obtain ⟨row, hrow, hactive, hamount, hid⟩ := h.entry e' he'
      refine ⟨row, hrow, hactive, hamount, fun old hold => hid old ?_⟩
      have hne : e'.1 ≠ e.1 := fun heq => hnew (heq ▸ List.mem_map_of_mem he')
      simp [Write.apply, hne, hold]
  · intro key hkey
    have hne : key ≠ (schoolId, e.1) := by
      rintro rfl
      exact hkey rfl List.mem_cons_self
    rw [h.rest key fun hX hmem => hkey hX (List.mem_cons_of_mem _ hmem)]
    exact AList.lookup_insert_ne hne

/-! ### A published schedule -/

/-- The schedule of a school has become `entries`. -/
structure Published (schoolId : Id) (entries : List (String × Int)) (s s' : Shelf) : Prop where
  active : ∀ className feeAmount,
    (∃ row, s'.classFees.lookup (schoolId, className) = some row ∧ row.isActive = true ∧
      row.feeAmount = feeAmount) ↔ (className, feeAmount) ∈ entries
  dropped : ∀ className, className ∉ entries.map Prod.fst →
    s'.classFees.lookup (schoolId, className) =
      (s.classFees.lookup (schoolId, className)).map retire
  kept : ∀ key row, s.classFees.lookup key = some row →
    ∃ row', s'.classFees.lookup key = some row' ∧ row'.id = row.id
  others : ∀ key : FeeKey, key.1 ≠ schoolId →
    s'.classFees.lookup key = s.classFees.lookup key

/-- Both stages of the transaction. -/
theorem Upserted.published
    (h : Upserted schoolId entries
      (store.applyAll (retired schoolId (entries.map Prod.fst) s) s) s') :
    Published schoolId entries s s' := by
  have hdropped : ∀ className, className ∉ entries.map Prod.fst →
      s'.classFees.lookup (schoolId, className) =
        (s.classFees.lookup (schoolId, className)).map retire := by
    intro className hclass
    rw [h.rest _ fun _ => hclass, lookup_retired, if_pos ⟨rfl, hclass⟩]
  have hothers : ∀ key : FeeKey, key.1 ≠ schoolId →
      s'.classFees.lookup key = s.classFees.lookup key := by
    intro key hkey
    rw [h.rest _ fun heq => absurd heq hkey, lookup_retired, if_neg fun hboth => hkey hboth.1]
  refine ⟨fun className feeAmount => ⟨?_, fun hmem => ?_⟩, hdropped, ?_, hothers⟩
  · rintro ⟨row, hrow, hactive, rfl⟩
    by_cases hclass : className ∈ entries.map Prod.fst
    · obtain ⟨e, he, rfl⟩ := List.mem_map.mp hclass
      obtain ⟨row', hrow', -, hamount, -⟩ := h.entry e he
      obtain rfl := Option.some.inj (hrow'.symm.trans hrow)
      rw [hamount]
      exact he
    · rw [hdropped className hclass, Option.map_eq_some_iff] at hrow
      obtain ⟨old, -, rfl⟩ := hrow
      cases hactive
  · obtain ⟨row, hrow, hactive, hamount, -⟩ := h.entry _ hmem
    exact ⟨row, hrow, hactive, hamount⟩
  · rintro ⟨school, className⟩ row hrow
    by_cases hschool : school = schoolId
    · subst hschool
      by_cases hclass : className ∈ entries.map Prod.fst
      · obtain ⟨e, he, rfl⟩ := List.mem_map.mp hclass
        obtain ⟨row', hrow', -, -, hid⟩ := h.entry e he
        refine ⟨row', hrow', hid row ?_⟩
        rw [lookup_retired, if_neg fun hboth => hboth.2 hclass, hrow]
      · exact ⟨retire row, by rw [hdropped className hclass, hrow]; rfl, rfl⟩
    · exact ⟨row, (hothers (school, className) hschool).trans hrow, rfl⟩

theorem mem_feeList {f : ListedFee} : f ∈ feeList locale schoolId s ↔ ∃ className row,
    s.classFees.lookup (schoolId, className) = some row ∧ row.isActive = true ∧
      f = listedFee ((schoolId, className), row) := by
  simp only [feeList, List.mem_map, List.mem_mergeSort, List.mem_filter, Bool.and_eq_true,
    decide_eq_true_eq]
  constructor
  · rintro ⟨⟨⟨school, className⟩, row⟩, ⟨hmem, rfl, hactive⟩, rfl⟩
    exact ⟨className, row, mem_fees.mp hmem, hactive, rfl⟩
  · rintro ⟨className, row, hrow, hactive, rfl⟩
    exact ⟨_, ⟨mem_fees.mpr hrow, rfl, hactive⟩, rfl⟩

/-- A list names every class once. -/
theorem feeList_nodup : ((feeList locale schoolId s).map ListedFee.className).Nodup := by
  have hkeys : ((fees s).map Prod.fst).Nodup := by
    simp only [fees, Table.rows, List.map_map]
    exact s.classFees.nodupKeys
  have hperm := (List.mergeSort_perm ((fees s).filter fun r => r.1.1 = schoolId && r.2.isActive)
    fun r r' => locale.before r.1.2 r'.1.2).map fun r => r.1.2
  rw [feeList, List.map_map]
  refine hperm.nodup_iff.mpr ?_
  refine List.Nodup.map_on ?_ (List.Nodup.filter _ hkeys.of_map)
  intro r hr r' hr' hname
  simp only [List.mem_filter, Bool.and_eq_true, decide_eq_true_eq] at hr hr'
  obtain ⟨key, row⟩ := r
  obtain ⟨key', row'⟩ := r'
  obtain rfl : key = key' := Prod.ext (hr.2.1.trans hr'.2.1.symm) hname
  have hrow := (mem_fees.mp hr.1).symm.trans (mem_fees.mp hr'.1)
  rw [Option.some.inj hrow]

/-- The list of a published schedule is the schedule. -/
theorem Published.list_perm (hnames : (entries.map Prod.fst).Nodup)
    (h : Published schoolId entries s s') :
    ((feeList locale schoolId s').map fun f => (f.className, f.feeAmount)).Perm
      (entries.map fun e => (e.1, Money.toNaira e.2)) := by
  have hlisted : ((feeList locale schoolId s').map fun f => (f.className, f.feeAmount)).Nodup := by
    refine List.Nodup.of_map Prod.fst ?_
    rw [List.map_map]
    exact feeList_nodup
  have hpaid : (entries.map fun e => (e.1, Money.toNaira e.2)).Nodup := by
    refine List.Nodup.of_map Prod.fst ?_
    rw [List.map_map]
    exact hnames
  refine (List.perm_ext_iff_of_nodup hlisted hpaid).mpr fun pair => ?_
  simp only [List.mem_map, mem_feeList]
  constructor
  · rintro ⟨f, ⟨className, row, hrow, hactive, rfl⟩, rfl⟩
    exact ⟨_, (h.active className row.feeAmount).mp ⟨row, hrow, hactive, rfl⟩, rfl⟩
  · rintro ⟨e, he, rfl⟩
    obtain ⟨row, hrow, hactive, hamount⟩ := (h.active e.1 e.2).mpr he
    exact ⟨_, ⟨e.1, row, hrow, hactive, rfl⟩, by rw [← hamount]; rfl⟩

/-- What is published is a matter of the rows alone. -/
theorem Published.of_rows {s'' : Shelf} (h : Published schoolId entries s s')
    (hrows : s''.classFees = s'.classFees) : Published schoolId entries s s'' := by
  obtain ⟨hactive, hdropped, hkept, hothers⟩ := h
  rw [← hrows] at hactive hdropped hkept hothers
  exact ⟨hactive, hdropped, hkept, hothers⟩

/-- Publishing a schedule a second time changes nothing. -/
theorem Published.again {s'' : Shelf} (h : Published schoolId entries s s')
    (h' : Published schoolId entries s' s'') (key : FeeKey) :
    s''.classFees.lookup key = s'.classFees.lookup key := by
  obtain ⟨school, className⟩ := key
  by_cases hschool : school = schoolId
  · subst hschool
    by_cases hclass : className ∈ entries.map Prod.fst
    · obtain ⟨e, he, rfl⟩ := List.mem_map.mp hclass
      obtain ⟨row, hrow, hactive, hamount⟩ := (h.active e.1 e.2).mpr he
      obtain ⟨row', hrow', hactive', hamount'⟩ := (h'.active e.1 e.2).mpr he
      obtain ⟨again, hagain, hid⟩ := h'.kept _ row hrow
      obtain rfl := Option.some.inj (hagain.symm.trans hrow')
      rw [hrow', hrow]
      cases row
      cases again
      simp_all
    · rw [h'.dropped className hclass, h.dropped className hclass]
      cases s.classFees.lookup (school, className) <;> rfl
  · exact h'.others _ hschool

/-! ### The run -/

/-- One of the upserts fails: the database is not reached, or it refuses the row. -/
def upsertsFail (schoolId : Id) : List (String × Int) → (Nat → Choice Answer) → Shelf → Bool
  | [], _, _ => false
  | e :: entries, ch, v =>
    (ch 1).fault || match upserted (schoolId, e.1) e.2 ((ch 0).answer .newId) v with
      | .error _ => true
      | .ok (_, ws) => upsertsFail schoolId entries (fun n => ch (n + 2)) (store.applyAll ws v)

/-- One of the writes that `setClassFees` makes to the database fails, the commit among them. -/
def writesFail (schoolId : Id) (entries : List (String × Int)) (ch : Nat → Choice Answer)
    (s : Shelf) : Bool :=
  (ch 1).fault || (upsertsFail schoolId entries (fun n => ch (n + 2))
      (store.applyAll (retired schoolId (entries.map Prod.fst) s) s) ||
    (ch (2 * entries.length + 2)).fault)

variable {x : Ctx Shelf Write Answer} {v : Shelf}

/-- The upserts and the commit: one of them fails and nothing has happened, or all the entries
    are upserted and the rest of the request begins. -/
theorem alone_upserting (ch : Nat → Choice Answer) (hnames : (entries.map Prod.fst).Nodup)
    (hx : x.Inside store s v) :
    (upsertsFail schoolId entries ch v || (ch (2 * entries.length)).fault) = true ∧
      (∃ e y, (upserting locale schoolId entries).alone store ch x = (.error e, y) ∧ y.now = s) ∨
    ¬ (upsertsFail schoolId entries ch v || (ch (2 * entries.length)).fault) = true ∧
      ∃ ch' y, (upserting locale schoolId entries).alone store ch x =
          (deleting locale schoolId).alone store ch' y ∧
        y.tx = none ∧ Upserted schoolId entries v y.now := by
  induction entries generalizing x ch v with
  | nil =>
    simp only [upserting, committing, Prog.alone, upsertsFail, Bool.false_or, List.length_nil]
    by_cases hfault : (ch 0).fault = true
    · rw [if_pos hfault]
      exact Or.inl ⟨hfault, .database, x.closed, rfl, hx.now⟩
    · rw [if_neg hfault]
      refine Or.inr ⟨hfault, _, _, rfl, Ctx.see_tx store _ _, ?_⟩
      have hnow : (x.closed.see store x.pending).now = v := (Ctx.see_now store _ _).trans hx.view
      rw [hnow]
      exact .nil
  | cons e entries ih =>
    obtain ⟨hnew, hnames⟩ := List.nodup_cons.mp hnames
    have hasked : (x.answered Call.newId ((ch 0).answer .newId)).Inside store s v :=
      ⟨hx.now, hx.tx⟩
    have hlen : 2 * (e :: entries).length = 2 * entries.length + 2 := by
      rw [List.length_cons]
      omega
    simp only [upserting, upsertingRow, Prog.alone, hasked.view, upsertsFail, hlen]
    cases hfault : (ch 1).fault with
    | true =>
      exact Or.inl ⟨rfl, .database, _, rfl, hasked.now⟩
    | false =>
      cases hout : upserted (schoolId, e.1) e.2 ((ch 0).answer .newId) v with
      | error error => exact Or.inl ⟨rfl, error, _, rfl, (hasked.wrote []).now⟩
      | ok out =>
        obtain ⟨r, ws⟩ := out
        have hrest := ih (fun n => ch (n + 2)) hnames (hasked.wrote ws)
        rw [upserted_ok hout] at hrest ⊢
        refine hrest.imp_right ?_
        rintro ⟨hnot, ch', y, hrun, htx, hups⟩
        exact ⟨hnot, ch', y, hrun, htx, .cons hnew hups⟩

/-- A program without a transaction leaves the fee rows alone. -/
def Spares (p : Program) : Prop :=
  ∀ (ch : Nat → Choice Answer) (x : Ctx Shelf Write Answer), x.tx = none →
    (p.alone store ch x).2.now.classFees = x.now.classFees

theorem spares_ret (r : Except Err Reply) : Spares (.ret r) := fun _ _ _ => rfl

theorem spares_stmt {w : Shelf → List Write} {k : Option Shelf → Program}
    (hw : ∀ v s, (store.applyAll (w v) s).classFees = s.classFees) (hk : ∀ v?, Spares (k v?)) :
    Spares (.stmt w k) := by
  intro ch x htx
  unfold Prog.alone
  split
  · exact hk none _ _ htx
  · refine (hk _ _ _ ?_).trans ?_
    · rw [Ctx.wrote_tx, htx]
      rfl
    · rw [Ctx.wrote_now, Ctx.released_outside htx, hw]

theorem spares_loading : Spares (loading locale schoolId) := by
  refine spares_stmt (fun _ _ => rfl) fun
    | none => spares_ret _
    | some v => spares_stmt (fun _ _ => rfl) fun _ => spares_ret _

theorem spares_looking : Spares (looking locale schoolId) := by
  refine spares_stmt (fun _ _ => rfl) fun
    | none => spares_loading
    | some v => ?_
  dsimp only
  split
  · exact spares_ret _
  · exact spares_loading

theorem spares_deleting : Spares (deleting locale schoolId) :=
  spares_stmt (fun _ _ => rfl) fun _ => spares_looking

/-- Class names that differ up to spaces and case differ when trimmed. -/
theorem names_nodup {fees : List CreateClassFeeDto} {seen : List String}
    (h : duplicate? locale seen fees = none) :
    ((fees.map normalized).map Prod.fst).Nodup ∧
      ∀ name ∈ (fees.map normalized).map Prod.fst, locale.toLowerCase name ∉ seen := by
  induction fees generalizing seen with
  | nil => exact ⟨List.nodup_nil, fun _ hname => nomatch hname⟩
  | cons fee fees ih =>
    simp only [duplicate?, List.contains_iff_mem] at h
    split at h
    · cases h
    · next hseen =>
      obtain ⟨hnodup, hfresh⟩ := ih h
      refine ⟨List.nodup_cons.mpr ⟨fun hmem => ?_, hnodup⟩, fun name hname => ?_⟩
      · exact hfresh _ hmem List.mem_cons_self
      · rcases List.mem_cons.mp hname with rfl | hname
        · exact hseen
        · exact fun hmem => hfresh name hname (List.mem_cons_of_mem _ hmem)

/-- `setClassFees` on a state, with nobody beside it. -/
def setAlone (locale : Locale) (schoolId : Id) (fees : List CreateClassFeeDto)
    (ch : Nat → Choice Answer) (s : Shelf) : Except Err Reply × Ctx Shelf Write Answer :=
  ((Job.setClassFees schoolId fees).program locale).alone store ch (.init s)

variable {fees : List CreateClassFeeDto}

/-- One run on an accepted payload. -/
theorem setAlone_outcome (schoolId : Id) (s : Shelf) (ch : Nat → Choice Answer)
    (haccepted : duplicate? locale [] fees = none) :
    let out := setAlone locale schoolId fees ch s
    (writesFail schoolId (fees.map normalized) ch s = true →
      (∃ e, out.1 = .error e) ∧ out.2.now = s) ∧
    (writesFail schoolId (fees.map normalized) ch s = false →
      Published schoolId (fees.map normalized) s out.2.now) := by
  have hnames := (names_nodup haccepted).1
  simp only [setAlone, setClassFees_program, haccepted, Prog.alone, retiring, writesFail]
  generalize fees.map normalized = entries at hnames
  have hopened : (Ctx.opened (.init s : Ctx Shelf Write Answer)).Inside store s s :=
    ⟨rfl, [], rfl, rfl⟩
  rw [hopened.view]
  cases hfault : (ch 1).fault with
  | true => exact ⟨fun _ => ⟨⟨.database, rfl⟩, rfl⟩, fun hnot => nomatch hnot⟩
  | false =>
    rw [if_neg Bool.false_ne_true, Bool.false_or]
    have hinside := hopened.wrote (retired schoolId (entries.map Prod.fst) s)
    rcases alone_upserting (fun n => ch (n + 2)) hnames hinside with
      ⟨hfail, e, y, hrun, hnow⟩ | ⟨hnot, ch', y, hrun, htx, hups⟩
    · rw [hrun]
      exact ⟨fun _ => ⟨⟨e, rfl⟩, hnow⟩, fun hnot => absurd (hfail.symm.trans hnot) (by decide)⟩
    · rw [hrun]
      refine ⟨fun hfail => absurd hfail hnot, fun _ => ?_⟩
      exact hups.published.of_rows (spares_deleting ch' y htx)

/-- Publishing a schedule replaces the fee list of the school. Either a write to the database
    fails, and nothing has happened, or the schedule is published and listed; and the same
    request a second time, however it goes, changes no row. -/
theorem setClassFees_replaces (locale : Locale) (schoolId : Id) (fees : List CreateClassFeeDto)
    (s : Shelf) (ch : Nat → Choice Answer) (haccepted : duplicate? locale [] fees = none) :
    let out := setAlone locale schoolId fees ch s
    let entries := fees.map normalized
    (writesFail schoolId entries ch s = true → (∃ e, out.1 = .error e) ∧ out.2.now = s) ∧
    (writesFail schoolId entries ch s = false →
      Published schoolId entries s out.2.now ∧
      ((feeList locale schoolId out.2.now).map fun f => (f.className, f.feeAmount)).Perm
        (entries.map fun e => (e.1, Money.toNaira e.2)) ∧
      ∀ ch' key, (setAlone locale schoolId fees ch' out.2.now).2.now.classFees.lookup key =
        out.2.now.classFees.lookup key) := by
  obtain ⟨hfails, hlands⟩ := setAlone_outcome schoolId s ch haccepted
  refine ⟨hfails, fun hnot => ?_⟩
  have hpublished := hlands hnot
  refine ⟨hpublished, hpublished.list_perm (names_nodup haccepted).1, fun ch' key => ?_⟩
  obtain ⟨hfails', hlands'⟩ := setAlone_outcome schoolId
    (setAlone locale schoolId fees ch s).2.now ch' haccepted
  cases hfail : writesFail schoolId (fees.map normalized) ch'
      (setAlone locale schoolId fees ch s).2.now with
  | true => rw [(hfails' hfail).2]
  | false => exact hpublished.again (hlands' hfail) key

/-- A locale in which ASCII letters have a lower case. -/
def plainLocale : Locale where
  toLowerCase := fun text => String.ofList (text.toList.map Char.toLower)
  before := fun a b => decide (a ≤ b)

/-- Everything goes well, and ids are drawn in order. -/
def inOrder : Nat → Choice Answer := fun n =>
  { fault := false, answer := fun | .newId => "id" ++ Nat.repr n }

/-- A school that drops SS 3, takes up JSS 1 again and adds JSS 2. -/
theorem setClassFees_replaces_juniors :
    let old : Table FeeKey ClassFee := (AList.insert ("s1", "SS 3") ⟨"f1", 7000000, true⟩
      (AList.insert ("s1", "JSS 1") ⟨"f2", 4500000, false⟩ ∅))
    let juniors : List CreateClassFeeDto := [⟨" JSS 1 ", 50000⟩, ⟨"JSS 2", 60000⟩]
    let s : Shelf := { classFees := old, cached := ∅ }
    duplicate? plainLocale [] juniors = none ∧
      Published "s1" [("JSS 1", 5000000), ("JSS 2", 6000000)] s
        (setAlone plainLocale "s1" juniors inOrder s).2.now := by
  intro old juniors s
  have haccepted : duplicate? plainLocale [] juniors = none := by decide +kernel
  have hpublished := ((setClassFees_replaces plainLocale "s1" juniors s inOrder haccepted).2
    (by decide +kernel)).1
  have hentries : juniors.map normalized = [("JSS 1", 5000000), ("JSS 2", 6000000)] := by
    decide +kernel
  rw [hentries] at hpublished
  exact ⟨haccepted, hpublished⟩

end Lopay.Fees
