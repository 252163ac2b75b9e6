import Lopay.Fees.Publishing
import Lopay.Transactions.Timeline

/-!
# What one step of a request does

At every moment a request is in one of the phases of `Lopay.Fees.Phases`, and `Told` says what
a step from there does to the rows of a school and to its cached list.
-/

namespace Lopay.Fees

open Transactions

variable {locale : Locale} {schoolId : Id} {job : Job}

/-! ### Writes -/

/-- The fee rows of the school are the same. -/
def SameFees (schoolId : Id) (s s' : Shelf) : Prop :=
  ∀ className, s'.classFees.lookup (schoolId, className) = s.classFees.lookup (schoolId, className)

/-- The list cached for the school. -/
def cachedList (schoolId : Id) (s : Shelf) : Option (List ListedFee) :=
  s.cached.lookup (CacheKeys.classFees schoolId)

theorem classFees_inj {X Y : Id} (h : CacheKeys.classFees X = CacheKeys.classFees Y) : X = Y := by
  have htext := congrArg String.toList h
  simp only [CacheKeys.classFees, String.toList_append, List.append_cancel_left_eq] at htext
  exact String.toList_inj.mp htext

/-- The row is one of the school. -/
def Write.Concerns (schoolId : Id) : Write → Prop
  | .putClassFee key _ => key.1 = schoolId
  | .setCache _ _ => False
  | .delCache _ => False

/-- Fee rows and nothing else. -/
def Write.IsRow : Write → Prop
  | .putClassFee _ _ => True
  | .setCache _ _ => False
  | .delCache _ => False

theorem sameFees_of_not_concerns {ws : List Write} (h : ∀ w ∈ ws, ¬ w.Concerns schoolId)
    (s : Shelf) : SameFees schoolId s (store.applyAll ws s) := by
  induction ws generalizing s with
  | nil => exact fun _ => rfl
  | cons w ws ih =>
    intro className
    rw [Store.applyAll_cons, ih (fun w' hw' => h w' (List.mem_cons_of_mem _ hw')) _ className]
    have hw := h w List.mem_cons_self
    cases w with
    | putClassFee key row =>
      refine AList.lookup_insert_ne ?_
      rintro rfl
      exact hw rfl
    | setCache key value => rfl
    | delCache key => rfl

theorem cached_of_rows {ws : List Write} (h : ∀ w ∈ ws, w.IsRow) (s : Shelf) :
    (store.applyAll ws s).cached = s.cached := by
  induction ws generalizing s with
  | nil => rfl
  | cons w ws ih =>
    rw [Store.applyAll_cons, ih fun w' hw' => h w' (List.mem_cons_of_mem _ hw')]
    have hw := h w List.mem_cons_self
    cases w with
    | putClassFee key row => rfl
    | setCache key value => exact absurd hw id
    | delCache key => exact absurd hw id

/-- What a statement of the service writes are rows. -/
theorem written_rows {key : FeeKey} {row : ClassFee} {s : Shelf} :
    ∀ w ∈ written (inserted key row s), ∃ row', w = .putClassFee key row' := by
  unfold inserted
  split
  · exact fun _ hw => nomatch hw
  · split
    · exact fun _ hw => nomatch hw
    · intro w hw
      exact ⟨row, List.mem_singleton.mp hw⟩

theorem upserted_rows {key : FeeKey} {feeAmount : Int} {id : Id} {s : Shelf} :
    ∀ w ∈ written (upserted key feeAmount id s), ∃ row', w = .putClassFee key row' := by
  unfold upserted
  split
  · intro w hw
    exact ⟨_, List.mem_singleton.mp hw⟩
  · exact written_rows

theorem updated_rows {id : Id} {feeAmount : Int} {s : Shelf} :
    ∀ w ∈ written (updated id feeAmount s), w.IsRow := by
  unfold updated
  split
  · intro w hw
    obtain rfl := List.mem_singleton.mp hw
    exact trivial
  · exact fun _ hw => nomatch hw

theorem retired_rows {kept : List String} {s : Shelf} :
    ∀ w ∈ retired schoolId kept s, w.IsRow ∧ ∀ X, w.Concerns X → X = schoolId := by
  intro w hw
  obtain ⟨r, hr, rfl⟩ := List.mem_map.mp hw
  have hschool : r.1.1 = schoolId := by
    simp only [List.mem_filter, Bool.and_eq_true, decide_eq_true_eq] at hr
    exact hr.2.1.1
  exact ⟨trivial, fun X hX => hX.symm.trans hschool⟩

/-! ### Phases -/

/-- Rows of the school alone. -/
def OwnRows (schoolId : Id) (ws : List Write) : Prop :=
  ∀ w ∈ ws, w.IsRow ∧ ∀ X, w.Concerns X → X = schoolId

/-- Where a request is, and what its transaction has written so far. -/
inductive Phase (locale : Locale) : Job → Program → Option (List Write) → Prop
  | done {job : Job} (r : Except Err Reply) : Phase locale job (.ret r) none
  | looking {job : Job} (X : Id) : Phase locale job (looking locale X) none
  | loading {job : Job} (X : Id) : Phase locale job (loading locale X) none
  | storing {job : Job} (X : Id) (list : List ListedFee) : Phase locale job (storing X list) none
  | starting (X : Id) (fees : List CreateClassFeeDto) (entries : List (String × Int)) :
    Phase locale (.setClassFees X fees) (.start (retiring locale X entries)) none
  | retiring (X : Id) (fees : List CreateClassFeeDto) (entries : List (String × Int)) :
    Phase locale (.setClassFees X fees) (retiring locale X entries) (some [])
  | upserting (X : Id) (fees : List CreateClassFeeDto) (entries : List (String × Int))
    {ws : List Write} : OwnRows X ws →
    Phase locale (.setClassFees X fees) (upserting locale X entries) (some ws)
  | upsertingRow (X : Id) (fees : List CreateClassFeeDto) (entries : List (String × Int))
    (e : String × Int) (id : Id) {ws : List Write} : OwnRows X ws →
    Phase locale (.setClassFees X fees) (upsertingRow X e id (upserting locale X entries)) (some ws)
  | abandoning (X : Id) (fees : List CreateClassFeeDto) (error : Err) (ws : List Write) :
    Phase locale (.setClassFees X fees) (abandoning error) (some ws)
  | deleting (X : Id) (fees : List CreateClassFeeDto) :
    Phase locale (.setClassFees X fees) (deleting locale X) none
  | finding (X : Id) (className : String) (feeAmount : ℚ) (kobo : Int) :
    Phase locale (.createClassFee X className feeAmount) (finding X className kobo) none
  | dropping (X : Id) (className : String) (feeAmount : ℚ) (kobo : Int)
    (existingFee : Option ClassFee) :
    Phase locale (.createClassFee X className feeAmount) (dropping X className kobo existingFee) none
  | updating (X : Id) (className : String) (feeAmount : ℚ) (id : Id) (kobo : Int) :
    Phase locale (.createClassFee X className feeAmount) (updating id kobo) none
  | inserting (X : Id) (className : String) (feeAmount : ℚ) (key : FeeKey) (kobo : Int) :
    Phase locale (.createClassFee X className feeAmount) (inserting key kobo) none
  | insertingRow (X : Id) (className : String) (feeAmount : ℚ) (key : FeeKey) (row : ClassFee) :
    Phase locale (.createClassFee X className feeAmount) (insertingRow key row) none
  | expiring (key : String) : Phase locale (.expire key) (expiring key) none

/-- Every request begins in one of them. -/
theorem Phase.begins (job : Job) : Phase locale job (job.program locale) none := by
  cases job with
  | createClassFee X className feeAmount =>
    rw [createClassFee_program]
    exact .finding X className feeAmount _
  | setClassFees X fees =>
    rw [setClassFees_program]
    split
    · exact .done _
    · exact .starting X fees _
  | getClassFees X =>
    rw [getClassFees_program]
    exact .looking X
  | expire key =>
    rw [expire_program]
    exact .expiring key

/-- The rows that the next statement writes on `v`. -/
def nextWrites (p : Program) (v : Shelf) : List Write :=
  match p with
  | .stmt w _ => w v
  | _ => []

/-- Who writes nothing next stores no list next. -/
theorem stores_nothing (X : Id) (list : List ListedFee) (_ : Shelf) :
    ([] : List Write) ≠ [.setCache (CacheKeys.classFees X) list] :=
  (List.cons_ne_nil _ _).symm

/-! ### One step -/

variable {p : Program} {x : Ctx Shelf Write Answer} {ch : Choice Answer} {s : Shelf}
  {free : List FeeKey → Bool} {out : Stepped Shelf Write Answer (Except Err Reply)}

/-- What a step comes to: where the request is afterwards, whose rows it has changed, which list
    it has stored and from which rows it holds one. -/
structure Told (locale : Locale) (job : Job) (p : Program) (s : Shelf)
    (out : Stepped Shelf Write Answer (Except Err Reply)) : Prop where
  phase : Phase locale job out.prog out.ctx.tx
  rows : ∀ X, ¬ SameFees X s (store.applyAll out.released s) →
    (∃ Y className feeAmount, job = .createClassFee Y className feeAmount) ∨
      ∃ fees, job = .setClassFees X fees ∧ out.prog = deleting locale X
  cached : ∀ X list, cachedList X (store.applyAll out.released s) = some list →
    cachedList X s = some list ∨
      p = storing X list ∧ SameFees X s (store.applyAll out.released s)
  read : ∀ X list v, nextWrites out.prog v = [.setCache (CacheKeys.classFees X) list] →
    list = feeList locale X s ∧ SameFees X s (store.applyAll out.released s)

/-- A step that nobody sees. -/
theorem Told.quiet (hphase : Phase locale job out.prog out.ctx.tx) (hreleased : out.released = [])
    (hread : ∀ X list v, nextWrites out.prog v ≠ [.setCache (CacheKeys.classFees X) list]) :
    Told locale job p s out where
  phase := hphase
  rows := by
    intro X hX
    rw [hreleased] at hX
    exact absurd (fun _ => rfl) hX
  cached := by
    intro X list hlist
    rw [hreleased] at hlist
    exact Or.inl hlist
  read := fun X list v h => absurd h (hread X list v)

/-- A request that is over. -/
theorem Told.returned {r : Except Err Reply}
    (hrows : ∀ X, ¬ SameFees X s (store.applyAll out.released s) →
      ∃ Y className feeAmount, job = .createClassFee Y className feeAmount)
    (hcached : ∀ X list, cachedList X (store.applyAll out.released s) = some list →
      cachedList X s = some list ∨
        p = storing X list ∧ SameFees X s (store.applyAll out.released s))
    (hprog : out.prog = .ret r) (htx : out.ctx.tx = none) : Told locale job p s out where
  phase := by
    rw [hprog, htx]
    exact .done r
  rows := fun X hX => Or.inl (hrows X hX)
  cached := hcached
  read := by
    intro X list v h
    rw [hprog] at h
    cases h

/-- The cached list of one school goes, and nothing else happens. -/
theorem cached_delCache {X : Id} {key : String} {list : List ListedFee}
    (h : cachedList X (store.applyAll [.delCache key] s) = some list) :
    cachedList X s = some list := Table.lookup_of_erase h

theorem stmt_step {w : Shelf → List Write} {k : Option Shelf → Program}
    (h : Prog.step store free ch (.stmt w k) x = some out) :
    (ch.fault = true ∧ out = ⟨k none, x.failed, []⟩) ∨
    (ch.fault = false ∧ out = ⟨k (some (x.view store)), x.wrote store (w (x.view store)),
      x.released (w (x.view store))⟩) := by
  simp only [Prog.step] at h
  split at h
  · next hfault => exact Or.inl ⟨hfault, (Option.some.inj h).symm⟩
  · next hfault =>
    split at h
    · exact Or.inr ⟨Bool.eq_false_iff.mpr hfault, (Option.some.inj h).symm⟩
    · cases h

/-- A statement outside a transaction. -/
theorem stmt_step_outside {w : Shelf → List Write} {k : Option Shelf → Program}
    (hx : x.Outside s) (h : Prog.step store free ch (.stmt w k) x = some out) :
    (ch.fault = true ∧ out.prog = k none ∧ out.ctx.tx = none ∧ out.released = []) ∨
    (ch.fault = false ∧ out.prog = k (some s) ∧ out.ctx.tx = none ∧ out.released = w s) := by
  rcases stmt_step h with ⟨hfault, rfl⟩ | ⟨hfault, rfl⟩
  · exact Or.inl ⟨hfault, rfl, hx.tx, rfl⟩
  · rw [hx.view]
    exact Or.inr ⟨hfault, rfl, (hx.wrote _).tx, Ctx.released_outside hx.tx _⟩

/-- A statement inside one. -/
theorem stmt_step_inside {w : Shelf → List Write} {k : Option Shelf → Program} {ws : List Write}
    (htx : x.tx = some ws) (h : Prog.step store free ch (.stmt w k) x = some out) :
    out.released = [] ∧
      ((out.prog = k none ∧ out.ctx.tx = some ws) ∨
      ∃ v, out.prog = k (some v) ∧ out.ctx.tx = some (ws ++ w v)) := by
  rcases stmt_step h with ⟨-, rfl⟩ | ⟨-, rfl⟩
  · exact ⟨rfl, Or.inl ⟨rfl, htx⟩⟩
  · refine ⟨?_, Or.inr ⟨_, rfl, ?_⟩⟩
    · simp only [Ctx.released, htx]
    · rw [Ctx.wrote_tx, htx]
      rfl

theorem nextWrites_upserting {entries : List (String × Int)} {v : Shelf} :
    nextWrites (upserting locale schoolId entries) v = [] := by
  cases entries <;> rfl

/-- No statement that writes rows stores a list. -/
theorem rows_ne_setCache {ws : List Write} (h : ∀ w ∈ ws, w.IsRow) {key : String}
    {list : List ListedFee} : ws ≠ [.setCache key list] := by
  rintro rfl
  exact h _ List.mem_cons_self

theorem OwnRows.append {ws ws' : List Write} (h : OwnRows schoolId ws) (h' : OwnRows schoolId ws') :
    OwnRows schoolId (ws ++ ws') := fun w hw => (List.mem_append.mp hw).elim (h w) (h' w)

theorem ownRows_upserted {e : String × Int} {id : Id} {v : Shelf} :
    OwnRows schoolId (written (upserted (schoolId, e.1) e.2 id v)) := by
  intro w hw
  obtain ⟨row, rfl⟩ := upserted_rows w hw
  exact ⟨trivial, fun X hX => hX.symm⟩

/-- A step by which a request only gets on. -/
theorem Told.proceeds {q : Program} {tx : Option (List Write)} (hprog : out.prog = q)
    (htx : out.ctx.tx = tx) (hphase : Phase locale job q tx) (hreleased : out.released = [])
    (hread : ∀ X list v, nextWrites q v ≠ [.setCache (CacheKeys.classFees X) list]) :
    Told locale job p s out := by
  subst hprog htx
  exact .quiet hphase hreleased hread

theorem nextWrites_updating {id : Id} {kobo : Int} {X : Id} {list : List ListedFee} {v : Shelf} :
    nextWrites (updating id kobo) v ≠ [.setCache (CacheKeys.classFees X) list] :=
  rows_ne_setCache updated_rows

theorem nextWrites_insertingRow {key : FeeKey} {row : ClassFee} {X : Id} {list : List ListedFee}
    {v : Shelf} : nextWrites (insertingRow key row) v ≠ [.setCache (CacheKeys.classFees X) list] := by
  refine rows_ne_setCache fun w hw => ?_
  obtain ⟨row', rfl⟩ := written_rows w hw
  exact trivial

/-- The phases of a reader. -/
theorem told_looking {X : Id} (hx : x.Outside s)
    (h : (looking locale X).step store free ch x = some out) :
    Told locale job (looking locale X) s out := by
  rcases stmt_step_outside hx h with ⟨-, hprog, htx, hreleased⟩ | ⟨-, hprog, htx, hreleased⟩
  · exact .proceeds hprog htx (.loading X) hreleased stores_nothing
  · dsimp only at hprog
    split at hprog
    · exact .proceeds hprog htx (.done _) hreleased stores_nothing
    · exact .proceeds hprog htx (.loading X) hreleased stores_nothing

theorem told_loading {X : Id} (hx : x.Outside s)
    (h : (loading locale X).step store free ch x = some out) :
    Told locale job (loading locale X) s out := by
  rcases stmt_step_outside hx h with ⟨-, hprog, htx, hreleased⟩ | ⟨-, hprog, htx, hreleased⟩
  · exact .proceeds hprog htx (.done _) hreleased stores_nothing
  · refine ⟨?_, fun Y hY => ?_, fun Y list hlist => ?_, fun Y list v hset => ?_⟩
    · rw [hprog, htx]
      exact .storing X _
    · rw [hreleased] at hY
      exact absurd (fun _ => rfl) hY
    · rw [hreleased] at hlist
      exact Or.inl hlist
    · rw [hprog] at hset
      obtain ⟨hkey, rfl⟩ := Write.setCache.inj (List.singleton_inj.mp hset)
      obtain rfl := classFees_inj hkey
      rw [hreleased]
      exact ⟨rfl, fun _ => rfl⟩

theorem told_storing {X : Id} {list : List ListedFee} (hx : x.Outside s)
    (h : (storing X list).step store free ch x = some out) :
    Told locale job (storing X list) s out := by
  rcases stmt_step_outside hx h with ⟨-, hprog, htx, hreleased⟩ | ⟨-, hprog, htx, hreleased⟩
  · exact .proceeds hprog htx (.done _) hreleased stores_nothing
  · refine .returned (fun Y hY => ?_) (fun Y list' hlist => ?_) hprog htx
    · rw [hreleased] at hY
      exact absurd (fun _ => rfl) hY
    · rw [hreleased] at hlist
      rcases Table.lookup_insert_some hlist with ⟨hkey, rfl⟩ | ⟨-, hold⟩
      · rw [hreleased, classFees_inj hkey]
        exact Or.inr ⟨rfl, fun _ => rfl⟩
      · exact Or.inl hold

/-- A statement that deletes a cached list. -/
theorem told_del {key : String} {q : Program} (hx : x.Outside s)
    (hphase : Phase locale job q none)
    (hread : ∀ X list v, nextWrites q v ≠ [.setCache (CacheKeys.classFees X) list])
    (h : (Prog.stmt (fun _ => [.delCache key]) fun _ => q).step store free ch x = some out) :
    Told locale job p s out := by
  rcases stmt_step_outside hx h with ⟨-, hprog, htx, hreleased⟩ | ⟨-, hprog, htx, hreleased⟩
  · exact .proceeds hprog htx hphase hreleased hread
  · refine ⟨by rwa [hprog, htx], fun X hX => ?_, fun X list hlist => ?_, fun X list v hset => ?_⟩
    · rw [hreleased] at hX
      exact absurd (fun _ => rfl) hX
    · rw [hreleased] at hlist
      exact Or.inl (cached_delCache hlist)
    · rw [hprog] at hset
      exact absurd hset (hread X list v)

/-- The last statement of `createClassFee`. -/
theorem told_writing {f : Shelf → Except Err ((FeeKey × ClassFee) × List Write)} {Y : Id}
    {className : String} {feeAmount : ℚ} (hx : x.Outside s)
    (hrows : ∀ v, ∀ w ∈ written (f v), w.IsRow)
    (h : (Prog.stmt (fun v => written (f v)) fun
      | none => .ret (.error .database)
      | some v => .ret ((f v).map fun out => .fee out.1)).step store free ch x = some out) :
    Told locale (.createClassFee Y className feeAmount) p s out := by
  rcases stmt_step_outside hx h with ⟨-, hprog, htx, hreleased⟩ | ⟨-, hprog, htx, hreleased⟩
  · exact .proceeds hprog htx (.done _) hreleased stores_nothing
  · refine .returned (fun X _ => ⟨Y, className, feeAmount, rfl⟩) (fun X list hlist => ?_) hprog htx
    rw [hreleased, cachedList, cached_of_rows (hrows s)] at hlist
    exact Or.inl hlist

/-- The commit of a schedule. -/
theorem told_committing {X : Id} {fees : List CreateClassFeeDto} {ws : List Write}
    (hws : OwnRows X ws) (htx : x.tx = some ws)
    (h : (committing locale X).step store free ch x = some out) :
    Told locale (.setClassFees X fees) p s out := by
  simp only [committing, Prog.step] at h
  have hpending : x.pending = ws := by
    rw [Ctx.pending, htx]
    rfl
  split at h
  · obtain rfl := Option.some.inj h
    exact .quiet (.done _) rfl stores_nothing
  · obtain rfl := Option.some.inj h
    rw [hpending]
    have htx' : (x.closed.see store ws).tx = none := Ctx.see_tx store _ _
    refine ⟨?_, fun Y hY => ?_, fun Y list hlist => ?_, fun Y list v hset => ?_⟩
    · rw [htx']
      exact .deleting X fees
    · by_cases hschool : X = Y
      · subst hschool
        exact Or.inr ⟨fees, rfl, rfl⟩
      · refine absurd (sameFees_of_not_concerns (fun w hw hY => ?_) s) hY
        exact hschool ((hws w hw).2 Y hY).symm
    · rw [cachedList, cached_of_rows fun w hw => (hws w hw).1] at hlist
      exact Or.inl hlist
    · cases List.singleton_inj.mp hset

theorem told_finding {X : Id} {className : String} {feeAmount : ℚ} {kobo : Int}
    (hx : x.Outside s) (h : (finding X className kobo).step store free ch x = some out) :
    Told locale (.createClassFee X className feeAmount) p s out := by
  rcases stmt_step_outside hx h with ⟨-, hprog, htx, hreleased⟩ | ⟨-, hprog, htx, hreleased⟩
  · exact .proceeds hprog htx (.done _) hreleased stores_nothing
  · exact .proceeds hprog htx (.dropping X className feeAmount kobo _) hreleased fun _ _ _ => nofun

theorem told_dropping {X : Id} {className : String} {feeAmount : ℚ} {kobo : Int}
    {existingFee : Option ClassFee} (hx : x.Outside s)
    (h : (dropping X className kobo existingFee).step store free ch x = some out) :
    Told locale (.createClassFee X className feeAmount) p s out := by
  cases existingFee with
  | some existing =>
    exact told_del hx (.updating X className feeAmount _ _) (fun _ _ _ => nextWrites_updating) h
  | none => exact told_del hx (.inserting X className feeAmount _ _) stores_nothing h

theorem told_retiring {X : Id} {fees : List CreateClassFeeDto} {entries : List (String × Int)}
    (htx : x.tx = some []) (h : (retiring locale X entries).step store free ch x = some out) :
    Told locale (.setClassFees X fees) p s out := by
  obtain ⟨hreleased, ⟨hprog, htx'⟩ | ⟨v, hprog, htx'⟩⟩ := stmt_step_inside htx h
  · exact .proceeds hprog htx' (.abandoning X fees _ _) hreleased stores_nothing
  · refine .proceeds hprog htx' (.upserting X fees entries retired_rows) hreleased ?_
    intro _ _ _
    rw [nextWrites_upserting]
    exact nofun

theorem told_upsertingRow {X : Id} {fees : List CreateClassFeeDto} {entries : List (String × Int)}
    {e : String × Int} {id : Id} {ws : List Write} (hws : OwnRows X ws) (htx : x.tx = some ws)
    (h : (upsertingRow X e id (upserting locale X entries)).step store free ch x = some out) :
    Told locale (.setClassFees X fees) p s out := by
  obtain ⟨hreleased, ⟨hprog, htx'⟩ | ⟨v, hprog, htx'⟩⟩ := stmt_step_inside htx h
  · exact .proceeds hprog htx' (.abandoning X fees _ _) hreleased stores_nothing
  · dsimp only at hprog
    split at hprog
    · refine .proceeds hprog htx' (.upserting X fees entries (hws.append ownRows_upserted))
        hreleased ?_
      intro _ _ _
      rw [nextWrites_upserting]
      exact nofun
    · exact .proceeds hprog htx' (.abandoning X fees _ _) hreleased stores_nothing

/-- What a step from a phase does. -/
theorem Phase.told (hphase : Phase locale job p x.tx) (hnow : x.now = s)
    (h : p.step store free ch x = some out) : Told locale job p s out := by
  cases htx : x.tx with
  | none =>
    rw [htx] at hphase
    have hx : x.Outside s := ⟨hnow, htx⟩
    cases hphase with
    | done r => cases h
    | looking X => exact told_looking hx h
    | loading X => exact told_loading hx h
    | storing X list => exact told_storing hx h
    | starting X fees entries =>
      obtain rfl := Option.some.inj h
      exact .proceeds rfl rfl (.retiring X fees entries) rfl fun _ _ _ =>
        rows_ne_setCache fun w hw => (retired_rows w hw).1
    | deleting X fees => exact told_del hx (.looking X) stores_nothing h
    | finding X className feeAmount kobo => exact told_finding hx h
    | dropping X className feeAmount kobo existingFee => exact told_dropping hx h
    | updating X className feeAmount id kobo => exact told_writing hx (fun _ => updated_rows) h
    | inserting X className feeAmount key kobo =>
      obtain rfl := Option.some.inj h
      exact .proceeds rfl htx (.insertingRow X className feeAmount _ _) rfl fun _ _ _ =>
        nextWrites_insertingRow
    | insertingRow X className feeAmount key row =>
      refine told_writing hx (fun v w hw => ?_) h
      obtain ⟨row', rfl⟩ := written_rows w hw
      exact trivial
    | expiring key => exact told_del hx (.done _) stores_nothing h
  | some ws =>
    rw [htx] at hphase
    cases hphase with
    | retiring X fees entries => exact told_retiring htx h
    | upserting X fees entries hws =>
      cases entries with
      | nil => exact told_committing hws htx h
      | cons e entries =>
        obtain rfl := Option.some.inj h
        refine .proceeds rfl htx (.upsertingRow X fees entries e _ hws) rfl fun _ _ _ => ?_
        exact rows_ne_setCache fun w hw => (ownRows_upserted w hw).1
    | upsertingRow X fees entries e id hws => exact told_upsertingRow hws htx h
    | abandoning X fees error ws =>
      obtain rfl := Option.some.inj h
      exact .proceeds rfl rfl (.done _) rfl stores_nothing

/-- Who is about to delete the cached list of what it has published, does that next. -/
theorem Phase.deleting_of_nextWrites {fees : List CreateClassFeeDto} {tx : Option (List Write)}
    {X : Id} {key : String} {v : Shelf} (hphase : Phase locale (.setClassFees X fees) p tx)
    (h : nextWrites p v = [.delCache key]) : p = Fees.deleting locale X ∧ tx = none := by
  have hrows : ∀ ws : List Write, (∀ w ∈ ws, w.IsRow) → ws ≠ [.delCache key] := by
    rintro ws hws rfl
    exact hws _ List.mem_cons_self
  cases hphase with
  | done r => cases h
  | looking X => cases h
  | loading X => cases h
  | storing X list => cases h
  | starting X fees entries => cases h
  | retiring X fees entries => exact absurd h (hrows _ fun w hw => (retired_rows w hw).1)
  | upserting X fees entries hws =>
    rw [nextWrites_upserting] at h
    cases h
  | upsertingRow X fees entries e id hws =>
    exact absurd h (hrows _ fun w hw => (ownRows_upserted w hw).1)
  | abandoning X fees error ws => cases h
  | deleting X fees => exact ⟨rfl, rfl⟩

/-- A delete that does not fail leaves no list. -/
theorem deleting_deletes {X : Id} (hx : x.Outside s) (hfault : ch.fault = false)
    (h : (deleting locale X).step store free ch x = some out) :
    cachedList X (store.applyAll out.released s) = none := by
  rcases stmt_step_outside hx h with ⟨hfault', -⟩ | ⟨-, -, -, hreleased⟩
  · rw [hfault] at hfault'
    cases hfault'
  · rw [hreleased]
    exact AList.lookup_erase _ _

/-- One that fails leaves everything as it is. -/
theorem fails_quietly {w : Shelf → List Write} {k : Option Shelf → Program} (hfault : ch.fault = true)
    (h : Prog.step store free ch (.stmt w k) x = some out) : out.released = [] := by
  rcases stmt_step h with ⟨-, rfl⟩ | ⟨hfault', -⟩
  · rfl
  · rw [hfault] at hfault'
    cases hfault'

/-- Who is about to look into the cache is in no transaction. -/
theorem Phase.outside_of_looking {tx : Option (List Write)} {X : Id}
    (hphase : Phase locale job p tx) (h : p = Fees.looking locale X) : tx = none := by
  cases hphase with
  | retiring Y fees entries => cases congrFun (Prog.stmt.inj h).2 none
  | upserting Y fees entries hws => cases entries <;> cases h
  | upsertingRow Y fees entries e id hws => cases congrFun (Prog.stmt.inj h).2 none
  | abandoning Y fees error ws => cases h
  | _ => rfl

/-- No request begins with a store. -/
theorem begins_not_storing {X : Id} {list : List ListedFee} : job.program locale ≠ storing X list := by
  intro h
  have hnext := congrArg (fun p => nextWrites p ⟨∅, ∅⟩) h
  cases job with
  | createClassFee Y className feeAmount =>
    rw [createClassFee_program] at hnext
    cases hnext
  | setClassFees Y fees =>
    rw [setClassFees_program] at hnext
    split at hnext <;> cases hnext
  | getClassFees Y =>
    rw [getClassFees_program] at hnext
    cases hnext
  | expire key =>
    rw [expire_program] at hnext
    cases List.singleton_inj.mp hnext

end Lopay.Fees
