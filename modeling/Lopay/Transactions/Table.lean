import Mathlib.Data.List.AList
import Mathlib.Algebra.Order.BigOperators.Group.List
import Mathlib.Tactic.Ring

/-!
# Finite tables and their sums

A table maps each key to at most one row. It is Mathlib's association list, so
two rows under one key cannot be built and every lookup law is already there.
What a ledger needs beyond those laws are the sums of a column over the rows
that satisfy a condition, and how one insertion or replacement moves such a sum.
Conditional sums are sums of `if`, so a single lemma family covers totals,
reserved amounts and counts.
-/

namespace Transactions

/-- Rows of type `ρ` under keys of type `α`, at most one row per key. -/
abbrev Table (α ρ : Type) := AList fun _ : α => ρ

namespace Table

variable {α ρ : Type}

/-- The rows of a table with their keys, in storage order. -/
def rows (t : Table α ρ) : List (α × ρ) :=
  t.entries.map fun e => (e.1, e.2)

/-- Sum a column over the whole table. -/
def total (f : α → ρ → Int) (t : Table α ρ) : Int :=
  (t.entries.map fun e => f e.1 e.2).sum

/-- Every row satisfies `p`, read off the lookups. -/
def Forall [DecidableEq α] (p : α → ρ → Prop) (t : Table α ρ) : Prop :=
  ∀ k r, t.lookup k = some r → p k r

section Lookup

variable [DecidableEq α]

theorem mem_rows {t : Table α ρ} {k : α} {r : ρ} :
    (k, r) ∈ t.rows ↔ t.lookup k = some r := by
  rw [← Option.mem_def, AList.mem_lookup_iff, rows, List.mem_map]
  constructor
  · rintro ⟨⟨k', r'⟩, hmem, heq⟩
    obtain ⟨rfl, rfl⟩ := Prod.mk.inj heq
    exact hmem
  · intro hmem
    exact ⟨⟨k, r⟩, hmem, rfl⟩

/-- The lookup after an insertion, as one conditional. -/
theorem lookup_insert_ite (t : Table α ρ) (k k' : α) (r : ρ) :
    (t.insert k r).lookup k' = if k' = k then some r else t.lookup k' := by
  by_cases h : k' = k
  · subst h
    rw [if_pos rfl, AList.lookup_insert]
  · rw [if_neg h, AList.lookup_insert_ne h]

/-- The lookup after a deletion, as one conditional. -/
theorem lookup_erase_ite (t : Table α ρ) (k k' : α) :
    (t.erase k).lookup k' = if k' = k then none else t.lookup k' := by
  by_cases h : k' = k
  · subst h
    rw [if_pos rfl, AList.lookup_erase]
  · rw [if_neg h, AList.lookup_erase_ne h]

/-- A row that is left was there. -/
theorem lookup_of_erase {t : Table α ρ} {k k' : α} {r : ρ}
    (h : (t.erase k).lookup k' = some r) : t.lookup k' = some r := by
  rw [lookup_erase_ite] at h
  split at h
  · cases h
  · exact h

/-- A row of an updated table is the new row or an old one under another key. -/
theorem lookup_insert_some {t : Table α ρ} {k k' : α} {r r' : ρ}
    (h : (t.insert k r).lookup k' = some r') :
    (k' = k ∧ r' = r) ∨ (k' ≠ k ∧ t.lookup k' = some r') := by
  rw [lookup_insert_ite] at h
  split at h
  · next heq => exact Or.inl ⟨heq, (Option.some.inj h).symm⟩
  · next hne => exact Or.inr ⟨hne, h⟩

theorem Forall.insert {p : α → ρ → Prop} {t : Table α ρ} (ht : t.Forall p) {k : α} {r : ρ}
    (hr : p k r) : Forall p (t.insert k r) := by
  intro k' r' h
  rcases lookup_insert_some h with ⟨rfl, rfl⟩ | ⟨-, hold⟩
  · exact hr
  · exact ht k' r' hold

end Lookup

/-! ### Sums -/

@[simp] theorem total_empty (f : α → ρ → Int) : total f (∅ : Table α ρ) = 0 := rfl

theorem total_nonneg {f : α → ρ → Int} [DecidableEq α] {t : Table α ρ}
    (h : ∀ k r, t.lookup k = some r → 0 ≤ f k r) : 0 ≤ total f t := by
  apply List.sum_nonneg
  intro v hv
  obtain ⟨e, he, rfl⟩ := List.mem_map.mp hv
  exact h e.1 e.2 (AList.mem_lookup_iff.mpr he)

theorem total_congr {f g : α → ρ → Int} [DecidableEq α] {t : Table α ρ}
    (h : ∀ k r, t.lookup k = some r → f k r = g k r) : total f t = total g t := by
  unfold total
  congr 1
  apply List.map_congr_left
  intro e he
  exact h e.1 e.2 (AList.mem_lookup_iff.mpr he)

theorem total_mono {f g : α → ρ → Int} [DecidableEq α] {t : Table α ρ}
    (h : ∀ k r, t.lookup k = some r → f k r ≤ g k r) : total f t ≤ total g t := by
  apply List.sum_le_sum
  intro e he
  exact h e.1 e.2 (AList.mem_lookup_iff.mpr he)

theorem total_add (f g : α → ρ → Int) (t : Table α ρ) :
    total (fun k r => f k r + g k r) t = total f t + total g t := by
  unfold total
  exact List.sum_map_add

variable [DecidableEq α]

/-- A row splits off the total of its table. -/
theorem total_eq_add_erase (f : α → ρ → Int) {t : Table α ρ} {k : α} {r : ρ}
    (h : t.lookup k = some r) : total f t = f k r + total f (t.erase k) := by
  have hmem : (⟨k, r⟩ : Sigma fun _ : α => ρ) ∈ t.entries := AList.mem_lookup_iff.mp h
  obtain ⟨r', l₁, l₂, -, hsplit, hrest⟩ :=
    List.exists_of_kerase (List.mem_keys_of_mem hmem)
  have hr : r' = r := by
    have hmem' : (⟨k, r'⟩ : Sigma fun _ : α => ρ) ∈ t.entries := by
      rw [hsplit]
      exact List.mem_append_right _ List.mem_cons_self
    have := (AList.mem_lookup_iff.mpr hmem').symm.trans h
    exact Option.some.inj this
  subst hr
  have herase : (t.erase k).entries = l₁ ++ l₂ := hrest
  unfold total
  rw [herase, hsplit]
  simp only [List.map_append, List.map_cons, List.sum_append, List.sum_cons]
  ring

theorem total_erase_of_lookup_none (f : α → ρ → Int) {t : Table α ρ} {k : α}
    (h : t.lookup k = none) : total f (t.erase k) = total f t := by
  have hkeys : k ∉ t.entries.keys := AList.lookup_eq_none.mp h
  have : (t.erase k).entries = t.entries := List.kerase_of_notMem_keys hkeys
  unfold total
  rw [this]

theorem total_insert (f : α → ρ → Int) (t : Table α ρ) (k : α) (r : ρ) :
    total f (t.insert k r) = f k r + total f (t.erase k) := by
  unfold total
  rw [AList.entries_insert, List.map_cons, List.sum_cons]
  rfl

/-- Adding a row under a fresh key adds its value. -/
theorem total_insert_new (f : α → ρ → Int) {t : Table α ρ} {k : α} (r : ρ)
    (h : t.lookup k = none) : total f (t.insert k r) = total f t + f k r := by
  rw [total_insert, total_erase_of_lookup_none f h]
  ring

/-- Replacing a row moves the sum by the difference of the two values. -/
theorem total_insert_old (f : α → ρ → Int) {t : Table α ρ} {k : α} {r₀ : ρ} (r : ρ)
    (h : t.lookup k = some r₀) : total f (t.insert k r) = total f t - f k r₀ + f k r := by
  rw [total_insert, total_eq_add_erase f h]
  ring

/-- A replacement that keeps the row's value keeps the sum. -/
theorem total_insert_same {f : α → ρ → Int} {t : Table α ρ} {k : α} {r₀ r : ρ}
    (h : t.lookup k = some r₀) (hf : f k r = f k r₀) :
    total f (t.insert k r) = total f t := by
  rw [total_insert_old f r h, hf]
  ring

/-- A sum of non-negative values is at least each of them. -/
theorem le_total {f : α → ρ → Int} {t : Table α ρ} {k : α} {r : ρ}
    (hnn : ∀ k r, t.lookup k = some r → 0 ≤ f k r) (h : t.lookup k = some r) :
    f k r ≤ total f t := by
  have hrest : 0 ≤ total f (t.erase k) := by
    apply total_nonneg
    intro k' r' h'
    by_cases hk : k' = k
    · subst hk
      rw [AList.lookup_erase] at h'
      cases h'
    · rw [AList.lookup_erase_ne hk] at h'
      exact hnn k' r' h'
  rw [total_eq_add_erase f h]
  exact le_add_of_nonneg_right hrest

/-- A sum in which only one row counts. -/
theorem total_single {t : Table α ρ} {k : α} {r : ρ} (h : t.lookup k = some r) (v : Int) :
    total (fun k' _ => if k' = k then v else 0) t = v := by
  have hrest : total (fun k' _ => if k' = k then v else 0) (t.erase k) =
      total (fun _ _ => 0) (t.erase k) := by
    apply total_congr
    intro k' r' h'
    by_cases hk : k' = k
    · subst hk
      rw [AList.lookup_erase] at h'
      cases h'
    · rw [if_neg hk]
  have hzero : total (fun _ _ => 0) (t.erase k) = 0 := by
    unfold total
    simp
  rw [total_eq_add_erase _ h, hrest, hzero, if_pos rfl, Int.add_zero]

end Table

end Transactions
