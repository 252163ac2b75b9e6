import Lopay.Text
import Mathlib.Algebra.Ring.Nat

/-!
# Phone numbers and their blind index

`common/phone.ts`, and the text handling of `auth/signup-guard.ts`. A number is reduced to one
spelling, `+234` and ten digits, and what is indexed is a keyed digest of that spelling. Text is
taken as its list of code points.
-/

namespace Lopay.Users

open Text

/-! ### Text -/

/-- `replace(/\s+/g, ' ')`; `within` says whether a run of spaces is under way. -/
def collapseSpaces (within : Bool) : List Char → List Char
  | [] => []
  | c :: rest =>
      if isSpace c then
        if within then collapseSpaces true rest else ' ' :: collapseSpaces true rest
      else c :: collapseSpaces false rest

def ZERO_WIDTH_CODEPOINTS : List Nat := [0x200b, 0x200c, 0x200d, 0x2060, 0xfeff]

/-- Whether `sanitizeName` lets a character through: no zero-width one, and of the control
    characters only those that are white space. -/
def legible (c : Char) : Bool :=
  let code := c.toNat
  !ZERO_WIDTH_CODEPOINTS.contains code
    && ((0x09 ≤ code && code ≤ 0x0d) || !(code ≤ 0x1f || (0x7f ≤ code && code ≤ 0x9f)))

def sanitizeName (raw : String) : String :=
  String.ofList (trim (collapseSpaces false (raw.toList.filter legible)))

/-- `length` of a JavaScript string, in UTF-16 units. -/
def utf16Length (text : String) : Nat :=
  (text.toList.map fun c => if 0x10000 ≤ c.toNat then 2 else 1).sum

/-! ### Numbers -/

/-- The Unicode category `\p{C}`, whose members change from one edition of the tables to the next.
    Printable ASCII is in none of them. -/
structure Unicode where
  other : Char → Bool
  printable : ∀ c : Char, 0x20 ≤ c.toNat → c.toNat ≤ 0x7e → other c = false

section Numbers

variable (unicode : Unicode)

/-- Drop the characters typed for legibility, and those nobody can see. -/
def stripPhoneFormatting (raw : List Char) : List Char :=
  (raw.filter fun c => !(isSpace c || c = '-' || c = '.' || c = '(' || c = ')')).filter
    fun c => !(unicode.other c || ZERO_WIDTH_CODEPOINTS.contains c.toNat)

def tenDigits (text : List Char) : Option (List Char) :=
  if text.length = 10 ∧ text.all Char.isDigit then some text else none

def NIGERIA_LOCAL : List Char → Option (List Char)
  | '0' :: rest => tenDigits rest
  | _ => none

def NIGERIA_INTERNATIONAL : List Char → Option (List Char)
  | '+' :: '2' :: '3' :: '4' :: rest => tenDigits rest
  | '2' :: '3' :: '4' :: rest => tenDigits rest
  | _ => none

/-- The one spelling of a number, if the text is one. -/
def canonicalizePhone (raw : String) : Option String :=
  let stripped := stripPhoneFormatting unicode raw.toList
  ((NIGERIA_LOCAL stripped).orElse fun _ => NIGERIA_INTERNATIONAL stripped).map
    fun significant => String.ofList ('+' :: '2' :: '3' :: '4' :: significant)

/-- The digest of the one spelling of a number; `hmac` is keyed by the deployment. -/
def phoneBlindIndex (hmac : String → String) (raw : String) : Option String :=
  (canonicalizePhone unicode raw).map hmac

theorem tenDigits_eq_some {text digits : List Char} :
    tenDigits text = some digits ↔ text = digits ∧ digits.length = 10 ∧ ∀ c ∈ digits, c.isDigit := by
  unfold tenDigits
  split <;> rename_i h <;> grind

theorem NIGERIA_LOCAL_digits {text digits : List Char} (h : NIGERIA_LOCAL text = some digits) :
    digits.length = 10 ∧ ∀ c ∈ digits, c.isDigit := by
  unfold NIGERIA_LOCAL at h
  split at h
  · exact (tenDigits_eq_some.1 h).2
  · cases h

theorem NIGERIA_INTERNATIONAL_digits {text digits : List Char}
    (h : NIGERIA_INTERNATIONAL text = some digits) :
    digits.length = 10 ∧ ∀ c ∈ digits, c.isDigit := by
  unfold NIGERIA_INTERNATIONAL at h
  split at h
  · exact (tenDigits_eq_some.1 h).2
  · exact (tenDigits_eq_some.1 h).2
  · cases h

/-- Nothing of a number in its one spelling is formatting. -/
theorem stripPhoneFormatting_plain {text : List Char}
    (h : ∀ c ∈ text, c = '+' ∨ c.isDigit) : stripPhoneFormatting unicode text = text := by
  have hcode : ∀ c ∈ text, c.toNat = 0x2b ∨ (0x30 ≤ c.toNat ∧ c.toNat ≤ 0x39) := by
    intro c hc
    rcases h c hc with rfl | hdigit
    · exact Or.inl rfl
    · simp only [Char.isDigit, Bool.and_eq_true, decide_eq_true_eq] at hdigit
      exact Or.inr hdigit
  unfold stripPhoneFormatting
  rw [List.filter_filter, List.filter_eq_self]
  intro c hc
  have hc := hcode c hc
  have hother := unicode.printable c (by omega) (by omega)
  have hne : ∀ d : Char, d.toNat ≠ c.toNat → c ≠ d := fun d hd heq => hd (by rw [heq])
  have hdash : c ≠ '-' := hne '-' (by rw [show '-'.toNat = 0x2d from rfl]; omega)
  have hdot : c ≠ '.' := hne '.' (by rw [show '.'.toNat = 0x2e from rfl]; omega)
  have hopen : c ≠ '(' := hne '(' (by rw [show '('.toNat = 0x28 from rfl]; omega)
  have hclose : c ≠ ')' := hne ')' (by rw [show ')'.toNat = 0x29 from rfl]; omega)
  simp [isSpace, ZERO_WIDTH_CODEPOINTS, hother, hdash, hdot, hopen, hclose]
  omega

/-- An accepted number reads as itself. -/
theorem canonicalizePhone_canonical {raw canonical : String}
    (h : canonicalizePhone unicode raw = some canonical) :
    canonicalizePhone unicode canonical = some canonical := by
  unfold canonicalizePhone at h
  simp only [Option.map_eq_some_iff] at h
  obtain ⟨digits, hdigits, rfl⟩ := h
  have hten : digits.length = 10 ∧ ∀ c ∈ digits, c.isDigit := by
    cases hlocal : NIGERIA_LOCAL (stripPhoneFormatting unicode raw.toList) with
    | some found =>
      rw [hlocal, Option.orElse_some, Option.some.injEq] at hdigits
      exact hdigits ▸ NIGERIA_LOCAL_digits hlocal
    | none =>
      rw [hlocal, Option.orElse_none] at hdigits
      exact NIGERIA_INTERNATIONAL_digits hdigits
  have hplain : stripPhoneFormatting unicode ('+' :: '2' :: '3' :: '4' :: digits)
      = '+' :: '2' :: '3' :: '4' :: digits := by
    apply stripPhoneFormatting_plain
    intro c hc
    simp only [List.mem_cons] at hc
    rcases hc with rfl | rfl | rfl | rfl | hc
    · exact Or.inl rfl
    · exact Or.inr rfl
    · exact Or.inr rfl
    · exact Or.inr rfl
    · exact Or.inr (hten.2 c hc)
  have hread : tenDigits digits = some digits := tenDigits_eq_some.2 ⟨rfl, hten⟩
  simp [canonicalizePhone, String.toList_ofList, hplain, NIGERIA_LOCAL, NIGERIA_INTERNATIONAL,
    hread]

theorem phoneBlindIndex_canonical {hmac : String → String} {raw canonical : String}
    (h : canonicalizePhone unicode raw = some canonical) :
    phoneBlindIndex unicode hmac canonical = some (hmac canonical) := by
  simp [phoneBlindIndex, canonicalizePhone_canonical unicode h]

end Numbers

end Lopay.Users
