import Mathlib.Data.Nat.Digits.Lemmas
import Lopay.Ip.Spelling

/-!
# Digits, numerals and colons

The characters of an address, its numerals, which read back as their numbers, and what splitting at
`:` and at `::` makes of pieces that were joined.
-/

namespace Lopay.Ip

open Text

/-! ### Characters -/

theorem hexDigit_value {c : Char} (h : c ∈ hexDigits) :
    hexValue c < 16 ∧ Nat.digitChar (hexValue c) = c.toLower := by
  revert c
  decide

theorem hexDigit_plain {c : Char} (h : c ∈ hexDigits) :
    c ≠ ':' ∧ c ≠ '.' ∧ c ≠ '%' ∧ 0x21 ≤ c.toNat ∧ c.toNat ≤ 0x7e ∧ c ≠ ',' ∧ c ≠ '[' := by
  revert c
  decide

theorem digitChar_value {digit : Nat} (h : digit < 16) :
    hexValue (Nat.digitChar digit) = digit ∧ Nat.digitChar digit ∈ hexDigits
      ∧ (Nat.digitChar digit).toLower = Nat.digitChar digit := by
  revert digit
  decide

theorem octetText_digits : ∀ octet : Fin 256, octetText octet ≠ []
    ∧ (octetText octet).length ≤ 3 ∧ (octetText octet).all Char.isDigit
    ∧ ∀ c ∈ octetText octet, c ∈ hexDigits := by
  decide +kernel

theorem octetText_value : ∀ octet : Fin 256,
    Nat.ofDigits 10 ((octetText octet).reverse.map hexValue) = octet.val := by
  decide +kernel

theorem octetText_injective : Function.Injective octetText := by
  intro a b h
  apply Fin.ext
  rw [← octetText_value a, ← octetText_value b, h]

theorem isSpace_printable {c : Char} (hlow : 0x21 ≤ c.toNat) (hhigh : c.toNat ≤ 0x7e) :
    isSpace c = false := by
  simp [isSpace]
  omega

/-! ### Numerals -/

theorem shortest_digits (value : Nat) : ∀ c ∈ shortest value, c ∈ hexDigits ∧ c.toLower = c := by
  intro c hc
  unfold shortest at hc
  split at hc
  · rw [List.mem_singleton.1 hc]
    decide
  · rw [List.mem_reverse, List.mem_map] at hc
    obtain ⟨digit, hdigit, rfl⟩ := hc
    exact (digitChar_value (Nat.digits_lt_base (by decide) hdigit)).2

/-- A numeral reads back as its number. -/
theorem shortest_value (value : Nat) :
    Nat.ofDigits 16 ((shortest value).reverse.map hexValue) = value := by
  unfold shortest
  split
  · subst value
    rfl
  · rw [List.reverse_reverse, List.map_map]
    have hread : (Nat.digits 16 value).map (hexValue ∘ Nat.digitChar) = Nat.digits 16 value := by
      refine List.map_congr_left (fun digit hdigit => ?_) |>.trans (List.map_id _)
      exact (digitChar_value (Nat.digits_lt_base (by decide) hdigit)).1
    rw [hread, Nat.ofDigits_digits]

theorem shortest_injective : Function.Injective shortest := by
  intro a b h
  rw [← shortest_value a, ← shortest_value b, h]

theorem shortest_ne_nil (value : Nat) : shortest value ≠ [] := by
  unfold shortest
  split
  · simp
  · simp only [ne_eq, List.reverse_eq_nil_iff, List.map_eq_nil_iff, Nat.digits_eq_nil_iff_eq_zero]
    assumption

theorem shortest_length {value : Nat} (h : value < 0x10000) : (shortest value).length ≤ 4 := by
  unfold shortest
  split
  · decide
  · rw [List.length_reverse, List.length_map, Nat.digits_length_le_iff (by decide)]
    exact h

theorem shortest_lower (value : Nat) : (shortest value).map Char.toLower = shortest value := by
  refine List.map_congr_left (fun c hc => ?_) |>.trans (List.map_id _)
  exact (shortest_digits value c hc).2

theorem Group.value_lt (group : Group) : group.value < 0x10000 := by
  have hdigits : ∀ digit ∈ group.text.reverse.map hexValue, digit < 16 := by
    intro digit hdigit
    rw [List.mem_map] at hdigit
    obtain ⟨c, hc, rfl⟩ := hdigit
    exact (hexDigit_value (group.hex c (List.mem_reverse.1 hc))).1
  calc group.value
      < 16 ^ (group.text.reverse.map hexValue).length :=
        Nat.ofDigits_lt_base_pow_length (by decide) hdigits
    _ ≤ 16 ^ 4 := by
        apply Nat.pow_le_pow_right (by decide)
        simpa using group.short

/-! ### Joined and split texts -/

/-- Splitting at `::` starts after any text without a colon. -/
theorem splitDouble_append {piece : List Char} (h : ':' ∉ piece) (rest : List Char) :
    splitDouble (piece ++ rest) = (splitDouble rest).modifyHead (piece ++ ·) := by
  induction piece with
  | nil => cases hrest : splitDouble rest <;> simp [hrest]
  | cons c piece ih =>
    have hc : c ≠ ':' := fun heq => h (heq ▸ List.mem_cons_self)
    have hcons : ∀ text, splitDouble (c :: text) = (splitDouble text).modifyHead (c :: ·) := by
      intro text
      rw [splitDouble]
      intro _ heq
      exact absurd heq hc
    rw [List.cons_append, hcons, ih fun hmem => h (List.mem_cons_of_mem _ hmem)]
    cases splitDouble rest <;> rfl

/-- A single colon is no separator. -/
theorem splitDouble_single {c : Char} (hc : c ≠ ':') (rest : List Char) :
    splitDouble (':' :: c :: rest) = (splitDouble (c :: rest)).modifyHead (':' :: ·) := by
  rw [splitDouble]
  intro _ _ heq
  exact absurd (List.cons.inj heq).1 hc

/-- Pieces that a colon can hold apart. -/
def Clean (pieces : List (List Char)) : Prop :=
  ∀ piece ∈ pieces, piece ≠ [] ∧ ':' ∉ piece

abbrev join (pieces : List (List Char)) : List Char := [':'].intercalate pieces

theorem splitDouble_join {pieces : List (List Char)} (h : Clean pieces) (rest : List Char) :
    splitDouble (join pieces ++ rest) = (splitDouble rest).modifyHead (join pieces ++ ·) := by
  induction pieces with
  | nil => cases hrest : splitDouble rest <;> simp [hrest]
  | cons piece pieces ih =>
    have hpiece := (h piece List.mem_cons_self).2
    cases pieces with
    | nil => simpa using splitDouble_append hpiece rest
    | cons next pieces =>
      have htail := ih fun other hmem => h other (List.mem_cons_of_mem _ hmem)
      obtain ⟨hne, hcolon⟩ := h next (by simp)
      obtain ⟨c, more, rfl⟩ := List.exists_cons_of_ne_nil hne
      have hc : c ≠ ':' := fun heq => hcolon (heq ▸ List.mem_cons_self)
      -- After the piece comes one colon, and after that no second one.
      have hsplit : join (piece :: (c :: more) :: pieces) ++ rest
          = piece ++ (':' :: (join ((c :: more) :: pieces) ++ rest)) := by simp
      rw [hsplit, splitDouble_append hpiece]
      have hhead : join ((c :: more) :: pieces) = c :: join (more :: pieces) := by simp
      rw [hhead, List.cons_append, splitDouble_single hc, ← List.cons_append, ← hhead, htail]
      cases splitDouble rest <;> simp

theorem sideGroups_join {pieces : List (List Char)} (h : Clean pieces) :
    sideGroups (join pieces) = pieces := by
  unfold sideGroups
  cases pieces with
  | nil => simp
  | cons piece pieces =>
    have hne : join (piece :: pieces) ≠ [] := by
      obtain ⟨c, more, hpiece⟩ := List.exists_cons_of_ne_nil (h piece List.mem_cons_self).1
      simp [hpiece]
    rw [if_neg hne, List.splitOn_intercalate ':' (fun other hmem => (h other hmem).2) (by simp)]

theorem mem_intercalate {c sep : Char} {pieces : List (List Char)}
    (h : c ∈ [sep].intercalate pieces) : c = sep ∨ ∃ piece ∈ pieces, c ∈ piece := by
  induction pieces with
  | nil => simp at h
  | cons piece pieces ih =>
    cases pieces with
    | nil => exact Or.inr ⟨piece, by simp, by simpa using h⟩
    | cons next pieces =>
      rw [List.intercalate_cons_cons, List.mem_append, List.mem_append] at h
      rcases h with (h | h) | h
      · exact Or.inr ⟨piece, by simp, h⟩
      · exact Or.inl (by simpa using h)
      · rcases ih h with h | ⟨other, hmem, hc⟩
        · exact Or.inl h
        · exact Or.inr ⟨other, List.mem_cons_of_mem _ hmem, hc⟩

theorem join_injective {one other : List (List Char)} (hone : Clean one) (hother : Clean other)
    (hlength : one ≠ [] ∧ other ≠ []) (h : join one = join other) : one = other := by
  rw [← List.splitOn_intercalate ':' (fun piece hmem => (hone piece hmem).2) hlength.1,
    ← List.splitOn_intercalate ':' (fun piece hmem => (hother piece hmem).2) hlength.2]
  exact congrArg _ h

end Lopay.Ip
