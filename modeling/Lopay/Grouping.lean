import Mathlib.Algebra.BigOperators.Group.List.Basic
import Mathlib.Data.List.Nodup

/-!
# Maps that keep the order of their keys

Rows are gathered under their keys: the first row of a key begins an entry at the end of the
map, later ones add to it where it stands. Every key has one entry, the keys are those of the
rows, and a figure that each row adds to comes to the same summed over the entries or over
the rows.
-/

namespace Grouping

variable {α κ β : Type} [DecidableEq κ]

/-- Change the value under a key; begin one if there is none. -/
def upsert (k : κ) (init : β) (f : β → β) : List (κ × β) → List (κ × β)
  | [] => [(k, f init)]
  | (k', b) :: rest => if k' = k then (k', f b) :: rest else (k', b) :: upsert k init f rest

/-- Add each row to the entry of its key. -/
def gather (key : α → κ) (init : α → β) (add : α → β → β) (rows : List α)
    (m : List (κ × β)) : List (κ × β) :=
  rows.foldl (fun m r => upsert (key r) (init r) (add r) m) m

def keys (m : List (κ × β)) : List κ := m.map (·.1)

section Upsert

variable {k : κ} {init : β} {f : β → β} {m : List (κ × β)}

theorem keys_upsert : keys (upsert k init f m) = if k ∈ keys m then keys m else keys m ++ [k] := by
  induction m with
  | nil => simp [upsert, keys]
  | cons e m ih =>
    obtain ⟨k', b⟩ := e
    by_cases h : k' = k
    · simp [upsert, keys, h]
    · have hne : k ≠ k' := fun heq => h heq.symm
      simp only [upsert, if_neg h, keys, List.map_cons] at ih ⊢
      rw [ih]
      by_cases hmem : k ∈ m.map (·.1)
      · simp [hmem]
      · simp [hmem, hne]

theorem upsert_new (h : k ∉ keys m) : upsert k init f m = m ++ [(k, f init)] := by
  induction m with
  | nil => rfl
  | cons e m ih =>
    obtain ⟨k', b⟩ := e
    simp only [keys, List.map_cons, List.mem_cons, not_or] at h
    have hne : k' ≠ k := fun heq => h.1 heq.symm
    simp only [upsert, if_neg hne, ih h.2, List.cons_append]

theorem nodup_upsert (h : (keys m).Nodup) : (keys (upsert k init f m)).Nodup := by
  rw [keys_upsert]
  split
  · exact h
  · next hnew => exact h.append (List.nodup_singleton k) (List.disjoint_singleton.mpr hnew)

/-- What the value under a key counts for moves the sum over the map. -/
theorem sum_upsert {M : Type} [AddCommMonoid M] {μ : β → M} {w : M} (hinit : μ init = 0)
    (hf : ∀ b, μ (f b) = μ b + w) :
    ((upsert k init f m).map fun e => μ e.2).sum = (m.map fun e => μ e.2).sum + w := by
  induction m with
  | nil => simp [upsert, hf, hinit]
  | cons e m ih =>
    obtain ⟨k', b⟩ := e
    by_cases h : k' = k
    · simp only [upsert, if_pos h, List.map_cons, List.sum_cons, hf]
      rw [add_right_comm]
    · simp only [upsert, if_neg h, List.map_cons, List.sum_cons, ih, add_assoc]

theorem forall_upsert {P : κ × β → Prop} (hm : ∀ e ∈ m, P e) (hinit : P (k, init))
    (hf : ∀ b, P (k, b) → P (k, f b)) : ∀ e ∈ upsert k init f m, P e := by
  induction m with
  | nil => simpa [upsert] using hf init hinit
  | cons e m ih =>
    obtain ⟨k', b⟩ := e
    have hhead := hm (k', b) List.mem_cons_self
    have hrest := fun e he => hm e (List.mem_cons_of_mem _ he)
    by_cases h : k' = k
    · subst h
      simp only [upsert, if_true, List.mem_cons]
      rintro e (rfl | he)
      · exact hf b hhead
      · exact hrest e he
    · simp only [upsert, if_neg h, List.mem_cons]
      rintro e (rfl | he)
      · exact hhead
      · exact ih hrest e he

end Upsert

section Gather

variable {key : α → κ} {init : α → β} {add : α → β → β} {rows : List α} {m : List (κ × β)}

theorem nodup_gather (h : (keys m).Nodup) : (keys (gather key init add rows m)).Nodup := by
  induction rows generalizing m with
  | nil => exact h
  | cons r rows ih => exact ih (nodup_upsert h)

theorem mem_keys_gather {k : κ} : k ∈ keys (gather key init add rows m) ↔
    k ∈ keys m ∨ ∃ r ∈ rows, key r = k := by
  induction rows generalizing m with
  | nil => simp [gather]
  | cons r rows ih =>
    have hstep : k ∈ keys (upsert (key r) (init r) (add r) m) ↔ k ∈ keys m ∨ key r = k := by
      rw [keys_upsert]
      split
      · next h =>
        constructor
        · exact Or.inl
        · rintro (hk | rfl)
          · exact hk
          · exact h
      · rw [List.mem_append, List.mem_singleton, eq_comm]
    rw [gather, List.foldl_cons]
    refine ih.trans ?_
    rw [hstep]
    simp [or_assoc]

theorem sum_gather {M : Type} [AddCommMonoid M] {μ : β → M} {w : α → M}
    (hinit : ∀ r, μ (init r) = 0) (hadd : ∀ r b, μ (add r b) = μ b + w r) :
    ((gather key init add rows m).map fun e => μ e.2).sum =
      (m.map fun e => μ e.2).sum + (rows.map w).sum := by
  induction rows generalizing m with
  | nil => simp [gather]
  | cons r rows ih =>
    rw [gather, List.foldl_cons]
    refine ih.trans ?_
    rw [sum_upsert (hinit r) (hadd r), List.map_cons, List.sum_cons, add_assoc]

theorem forall_gather {P : κ × β → Prop} (hm : ∀ e ∈ m, P e)
    (hinit : ∀ r ∈ rows, P (key r, init r))
    (hadd : ∀ r ∈ rows, ∀ b, P (key r, b) → P (key r, add r b)) :
    ∀ e ∈ gather key init add rows m, P e := by
  induction rows generalizing m with
  | nil => exact hm
  | cons r rows ih =>
    apply ih
    · exact forall_upsert hm (hinit r List.mem_cons_self) (hadd r List.mem_cons_self)
    · exact fun r' hr' => hinit r' (List.mem_cons_of_mem _ hr')
    · exact fun r' hr' => hadd r' (List.mem_cons_of_mem _ hr')

/-- Rows under keys of their own that are not there yet are put at the end. -/
theorem gather_new (hrows : (rows.map key).Nodup) (hm : ∀ r ∈ rows, key r ∉ keys m) :
    gather key init add rows m = m ++ rows.map fun r => (key r, add r (init r)) := by
  induction rows generalizing m with
  | nil => simp [gather]
  | cons r rows ih =>
    obtain ⟨hr, hrest⟩ := List.nodup_cons.mp hrows
    rw [gather, List.foldl_cons, upsert_new (hm r List.mem_cons_self)]
    refine (ih hrest fun r' hr' => ?_).trans ?_
    · simp only [keys, List.map_append, List.map_cons, List.map_nil, List.mem_append,
        List.mem_singleton, not_or]
      refine ⟨hm r' (List.mem_cons_of_mem _ hr'), fun heq => hr ?_⟩
      exact List.mem_map.mpr ⟨r', hr', heq⟩
    · simp

end Gather

end Grouping
