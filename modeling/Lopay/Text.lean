import Mathlib.Data.List.DropRight
import Mathlib.Data.List.TakeWhile
import Mathlib.Tactic.Common

/-!
# Text

What JavaScript's `trim` does to a text, taken as the list of its code points.
-/

namespace Lopay.Text

/-- JavaScript's `\s`, which `trim` strips as well. -/
def isSpace (c : Char) : Bool :=
  let code := c.toNat
  (0x09 ≤ code && code ≤ 0x0d) || code = 0x20 || code = 0xa0 || code = 0x1680
    || (0x2000 ≤ code && code ≤ 0x200a) || code = 0x2028 || code = 0x2029 || code = 0x202f
    || code = 0x205f || code = 0x3000 || code = 0xfeff

def trim (text : List Char) : List Char :=
  ((text.dropWhile isSpace).reverse.dropWhile isSpace).reverse

theorem trim_eq_nil {text : List Char} (h : trim text = []) : ∀ c ∈ text, isSpace c := by
  have hinner : ∀ c ∈ text.dropWhile isSpace, isSpace c := by
    unfold trim at h
    rw [List.reverse_eq_nil_iff, List.dropWhile_eq_nil_iff] at h
    exact fun c hc => h c (List.mem_reverse.2 hc)
  have houter : text.dropWhile isSpace = [] := by
    cases hrest : text.dropWhile isSpace with
    | nil => rfl
    | cons c rest =>
      have hhead := List.head_dropWhile_not isSpace (l := text) (by simp [hrest])
      have hspace := hinner c (by simp [hrest])
      simp [hrest, hspace] at hhead
  exact List.dropWhile_eq_nil_iff.1 houter

/-- A text with no white space in it is trimmed already. -/
theorem trim_eq_self {text : List Char} (h : ∀ c ∈ text, isSpace c = false) : trim text = text := by
  have hkeep : ∀ part : List Char, (∀ c ∈ part, isSpace c = false) →
      part.dropWhile isSpace = part := by
    intro part hpart
    cases part with
    | nil => rfl
    | cons c rest => simp [hpart c List.mem_cons_self]
  unfold trim
  rw [hkeep text h, hkeep text.reverse fun c hc => h c (List.mem_reverse.1 hc),
    List.reverse_reverse]

/-- Nothing is left to trim. -/
theorem trim_trim (text : List Char) : trim (trim text) = trim text := by
  have hprefix : trim text <+: text.dropWhile isSpace := by
    have hsuffix := List.dropWhile_suffix isSpace (l := (text.dropWhile isSpace).reverse)
    simpa [trim] using List.reverse_prefix.mpr hsuffix
  have hstart : (trim text).dropWhile isSpace = trim text := by
    cases htrim : trim text with
    | nil => rfl
    | cons c rest =>
      rw [htrim] at hprefix
      rcases hprefix with ⟨more, hmore⟩
      have hc : isSpace c = false := by
        have hhead := List.head_dropWhile_not isSpace (l := text) (by simp [← hmore])
        simpa [← hmore] using hhead
      rw [List.dropWhile_cons, hc, if_neg Bool.false_ne_true]
  have hend : (trim text).reverse.dropWhile isSpace = (trim text).reverse := by
    rw [trim, List.reverse_reverse]
    exact List.dropWhile_idempotent isSpace _
  rw [trim, hstart, hend, List.reverse_reverse]

end Lopay.Text
