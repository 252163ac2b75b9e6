import Mathlib.Data.List.Basic
import Mathlib.Tactic.Common

/-!
# UTF-8, read leniently

The decoder of the WHATWG encoding standard: one byte at a time, with the code point that is
under way and the range in which the next byte must lie. A byte out of its range closes the
sequence with a replacement character and is then read afresh. The encoder is Lean's own,
and what it writes is read back as it was.
-/

namespace Utf8

abbrev Bytes := List UInt8

/-- What is written for a sequence that is no character. -/
def replacement : Char := '\uFFFD'

/-- A sequence under way: its value so far, how many bytes are missing, and the range of the
    next one. -/
structure Pending where
  codePoint : Nat
  missing : Nat
  lower : Nat
  upper : Nat
deriving DecidableEq, Repr

/-- A byte that begins a sequence; a `Char` when it is one by itself. -/
def opening (b : Nat) : Char ⊕ Pending :=
  if b ≤ 0x7F then .inl (Char.ofNat b)
  else if 0xC2 ≤ b ∧ b ≤ 0xDF then .inr ⟨b - 0xC0, 1, 0x80, 0xBF⟩
  else if 0xE0 ≤ b ∧ b ≤ 0xEF then
    .inr ⟨b - 0xE0, 2, if b = 0xE0 then 0xA0 else 0x80, if b = 0xED then 0x9F else 0xBF⟩
  else if 0xF0 ≤ b ∧ b ≤ 0xF4 then
    .inr ⟨b - 0xF0, 3, if b = 0xF0 then 0x90 else 0x80, if b = 0xF4 then 0x8F else 0xBF⟩
  else .inl replacement

/-- The rest of the text, with a sequence under way or without. -/
def decodeFrom : Option Pending → Bytes → List Char
  | none, [] => []
  | some _, [] => [replacement]
  | none, b :: rest =>
    match opening b.toNat with
    | .inl c => c :: decodeFrom none rest
    | .inr p => decodeFrom (some p) rest
  | some p, b :: rest =>
    if p.lower ≤ b.toNat ∧ b.toNat ≤ p.upper then
      let codePoint := p.codePoint * 64 + (b.toNat - 0x80)
      if p.missing = 1 then Char.ofNat codePoint :: decodeFrom none rest
      else decodeFrom (some ⟨codePoint, p.missing - 1, 0x80, 0xBF⟩) rest
    else
      -- the byte is not part of the sequence: it is read again as a first one
      replacement :: match opening b.toNat with
        | .inl c => c :: decodeFrom none rest
        | .inr p => decodeFrom (some p) rest

def decode (bytes : Bytes) : List Char := decodeFrom none bytes

def encode (text : List Char) : Bytes := text.flatMap String.utf8EncodeChar

@[simp] theorem encode_nil : encode [] = [] := rfl

@[simp] theorem encode_cons (c : Char) (text : List Char) :
    encode (c :: text) = String.utf8EncodeChar c ++ encode text := rfl

@[simp] theorem encode_append (text text' : List Char) :
    encode (text ++ text') = encode text ++ encode text' := List.flatMap_append

/-! ### One byte of a sequence -/

/-- A byte that is expected carries six bits. -/
theorem decodeFrom_more {p : Pending} {b : UInt8} (rest : Bytes)
    (h : p.lower ≤ b.toNat ∧ b.toNat ≤ p.upper) (hmissing : p.missing ≠ 1) :
    decodeFrom (some p) (b :: rest) =
      decodeFrom (some ⟨p.codePoint * 64 + (b.toNat - 0x80), p.missing - 1, 0x80, 0xBF⟩) rest := by
  simp [decodeFrom, h, hmissing]

theorem decodeFrom_last {p : Pending} {b : UInt8} (rest : Bytes)
    (h : p.lower ≤ b.toNat ∧ b.toNat ≤ p.upper) (hmissing : p.missing = 1) :
    decodeFrom (some p) (b :: rest) =
      Char.ofNat (p.codePoint * 64 + (b.toNat - 0x80)) :: decode rest := by
  simp [decodeFrom, decode, h, hmissing]

theorem decode_single {b : UInt8} (rest : Bytes) (h : b.toNat ≤ 0x7F) :
    decode (b :: rest) = Char.ofNat b.toNat :: decode rest := by
  simp [decode, decodeFrom, opening, h]

theorem decode_opening {b : UInt8} {p : Pending} (rest : Bytes) (h : opening b.toNat = .inr p) :
    decode (b :: rest) = decodeFrom (some p) rest := by
  simp [decode, decodeFrom, h]

theorem toNat_ofNat {n : Nat} (h : n < 256) : (UInt8.ofNat n).toNat = n := by
  simpa using Nat.mod_eq_of_lt h

/-! ### What the encoder writes -/

/-- Surrogates and what lies beyond the last plane are no characters. -/
theorem scalar (c : Char) : c.toNat < 0xD800 ∨ (0xDFFF < c.toNat ∧ c.toNat < 0x110000) := c.valid

section Openings

variable {v : Nat}

theorem opening_two (h : 0x7F < v) (h' : v ≤ 0x7FF) :
    opening (v / 64 % 32 + 192) = .inr ⟨v / 64, 1, 0x80, 0xBF⟩ := by
  have hbyte : v / 64 % 32 = v / 64 := by omega
  rw [hbyte]
  simp only [opening]
  rw [if_neg (by omega), if_pos (by omega), Nat.add_sub_cancel]

theorem opening_three (h : v ≤ 0xFFFF) :
    opening (v / 4096 % 16 + 224) = .inr ⟨v / 4096, 2, if v / 4096 = 0 then 0xA0 else 0x80,
      if v / 4096 = 13 then 0x9F else 0xBF⟩ := by
  have hbyte : v / 4096 % 16 = v / 4096 := by omega
  have hfirst : v / 4096 + 224 = 0xE0 ↔ v / 4096 = 0 := by omega
  have hlast : v / 4096 + 224 = 0xED ↔ v / 4096 = 13 := by omega
  rw [hbyte]
  simp only [opening, hfirst, hlast]
  rw [if_neg (by omega), if_neg (by omega), if_pos (by omega), Nat.add_sub_cancel]

theorem opening_four (h : v < 0x110000) :
    opening (v / 262144 % 8 + 240) = .inr ⟨v / 262144, 3, if v / 262144 = 0 then 0x90 else 0x80,
      if v / 262144 = 4 then 0x8F else 0xBF⟩ := by
  have hbyte : v / 262144 % 8 = v / 262144 := by omega
  have hfirst : v / 262144 + 240 = 0xF0 ↔ v / 262144 = 0 := by omega
  have hlast : v / 262144 + 240 = 0xF4 ↔ v / 262144 = 4 := by omega
  rw [hbyte]
  simp only [opening, hfirst, hlast]
  rw [if_neg (by omega), if_neg (by omega), if_neg (by omega), if_pos (by omega),
    Nat.add_sub_cancel]

end Openings

/-- The last six bits of a character complete it. -/
theorem decodeFrom_ends {c : Char} {p : Pending} (rest : Bytes) (hmissing : p.missing = 1)
    (hcode : p.codePoint = c.toNat / 64) (hlower : p.lower = 0x80) (hupper : p.upper = 0xBF) :
    decodeFrom (some p) (UInt8.ofNat (c.toNat % 64 + 128) :: rest) = c :: decode rest := by
  have hbyte : (UInt8.ofNat (c.toNat % 64 + 128)).toNat = c.toNat % 64 + 128 :=
    toNat_ofNat (by omega)
  rw [decodeFrom_last rest (by rw [hbyte]; omega) hmissing, hbyte, hcode,
    show c.toNat / 64 * 64 + (c.toNat % 64 + 128 - 0x80) = c.toNat by omega, Char.ofNat_toNat]

/-- Six bits in between. -/
theorem decodeFrom_takes {v : Nat} {p : Pending} (rest : Bytes) (hmissing : p.missing ≠ 1)
    (hcode : p.codePoint = v / 64) (hlower : p.lower ≤ v % 64 + 128)
    (hupper : v % 64 + 128 ≤ p.upper) :
    decodeFrom (some p) (UInt8.ofNat (v % 64 + 128) :: rest) =
      decodeFrom (some ⟨v, p.missing - 1, 0x80, 0xBF⟩) rest := by
  have hbyte : (UInt8.ofNat (v % 64 + 128)).toNat = v % 64 + 128 := toNat_ofNat (by omega)
  rw [decodeFrom_more rest (by rw [hbyte]; exact ⟨hlower, hupper⟩) hmissing, hbyte, hcode,
    show v / 64 * 64 + (v % 64 + 128 - 0x80) = v by omega]

theorem decode_encodeChar (c : Char) (rest : Bytes) :
    decode (String.utf8EncodeChar c ++ rest) = c :: decode rest := by
  have hscalar := scalar c
  unfold String.utf8EncodeChar
  simp only [show c.val.toNat = c.toNat from rfl]
  split
  · next h₁ =>
    have hbyte : (UInt8.ofNat c.toNat).toNat = c.toNat := toNat_ofNat (by omega)
    rw [List.singleton_append, decode_single rest (by rw [hbyte]; exact h₁), hbyte,
      Char.ofNat_toNat]
  split
  · next h₁ h₂ =>
    have hopening := opening_two (v := c.toNat) (by omega) h₂
    rw [List.cons_append, List.singleton_append,
      decode_opening _ (by rw [toNat_ofNat (by omega)]; exact hopening)]
    exact decodeFrom_ends rest rfl rfl rfl rfl
  split
  · next h₁ h₂ h₃ =>
    have hopening := opening_three (v := c.toNat) h₃
    rw [List.cons_append, List.cons_append, List.singleton_append,
      decode_opening _ (by rw [toNat_ofNat (by omega)]; exact hopening),
      -- the range of the second byte leaves out overlong forms and surrogates
      decodeFrom_takes (v := c.toNat / 64) _ (by simp) (by simp only; omega)
        (by simp only; split <;> omega) (by simp only; split <;> omega)]
    exact decodeFrom_ends rest rfl rfl rfl rfl
  · next h₁ h₂ h₃ =>
    have hopening := opening_four (v := c.toNat) (by omega)
    rw [List.cons_append, List.cons_append, List.cons_append, List.singleton_append,
      decode_opening _ (by rw [toNat_ofNat (by omega)]; exact hopening),
      -- the range of the second byte leaves out overlong forms and what lies beyond
      decodeFrom_takes (v := c.toNat / 4096) _ (by simp) (by simp only; omega)
        (by simp only; split <;> omega) (by simp only; split <;> omega),
      decodeFrom_takes (v := c.toNat / 64) _ (by simp) (by simp only; omega) (by simp)
        (by simp only; omega)]
    exact decodeFrom_ends rest rfl rfl rfl rfl

/-- What is written is read back. -/
theorem decode_encode (text : List Char) : decode (encode text) = text := by
  induction text with
  | nil => rfl
  | cons c text ih => rw [encode_cons, decode_encodeChar, ih]

/-- A character below 128 is its own byte. -/
theorem encodeChar_ascii {c : Char} (h : c.toNat ≤ 0x7F) :
    String.utf8EncodeChar c = [UInt8.ofNat c.toNat] := by
  simp [String.utf8EncodeChar, show c.val.toNat = c.toNat from rfl, h]

end Utf8
