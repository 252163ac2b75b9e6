import Lopay.Encoding.Utf8

/-!
# `application/x-www-form-urlencoded`

The format of `URLSearchParams`, as the URL standard has it: pairs of texts, each written byte
by byte of its UTF-8. What the serializer writes consists of letters, digits and a few marks,
so it can stand in any part of a URL, and the parser reads the same pairs back.
-/

namespace Urlencoded

open Utf8

abbrev Text := List Char

/-! ### Writing -/

/-- The bytes that stand for themselves: letters, digits and `*-._`. -/
def isKept (b : UInt8) : Bool :=
  let n := b.toNat
  (0x30 ≤ n && n ≤ 0x39) || (0x41 ≤ n && n ≤ 0x5A) || (0x61 ≤ n && n ≤ 0x7A)
    || n = 0x2A || n = 0x2D || n = 0x2E || n = 0x5F

def hexDigit (n : Nat) : UInt8 := UInt8.ofNat (if n < 10 then 0x30 + n else 0x37 + n)

def encodeByte (b : UInt8) : Bytes :=
  if b = 0x20 then [0x2B]
  else if isKept b then [b]
  else [0x25, hexDigit (b.toNat / 16), hexDigit (b.toNat % 16)]

def encodeText (text : Text) : Bytes := (encode text).flatMap encodeByte

def encodePair (pair : Text × Text) : Bytes := encodeText pair.1 ++ 0x3D :: encodeText pair.2

def ofAscii (bytes : Bytes) : Text := bytes.map fun b => Char.ofNat b.toNat

def serialize (pairs : List (Text × Text)) : Text :=
  ofAscii (List.intercalate [0x26] (pairs.map encodePair))

/-! ### Reading -/

def hexValue (b : UInt8) : Option Nat :=
  let n := b.toNat
  if 0x30 ≤ n ∧ n ≤ 0x39 then some (n - 0x30)
  else if 0x41 ≤ n ∧ n ≤ 0x46 then some (n - 0x37)
  else if 0x61 ≤ n ∧ n ≤ 0x66 then some (n - 0x57)
  else none

/-- A `%` without two hexadecimal digits after it stands for itself. -/
def percentDecode : Bytes → Bytes
  | [] => []
  | [b] => [b]
  | [b, b'] => [b, b']
  | b :: high :: low :: rest =>
    if b = 0x25 then
      match hexValue high, hexValue low with
      | some h, some l => UInt8.ofNat (h * 16 + l) :: percentDecode rest
      | _, _ => b :: percentDecode (high :: low :: rest)
    else b :: percentDecode (high :: low :: rest)

def plusToSpace (bytes : Bytes) : Bytes := bytes.map fun b => if b = 0x2B then 0x20 else b

def decodeText (bytes : Bytes) : Text := decode (percentDecode (plusToSpace bytes))

/-- The name ends at the first `=`; without one the value is empty. -/
def decodePair (bytes : Bytes) : Text × Text :=
  (decodeText (bytes.takeWhile (· ≠ 0x3D)), decodeText (bytes.dropWhile (· ≠ 0x3D)).tail)

def parse (text : Text) : List (Text × Text) :=
  (((encode text).splitOn 0x26).filter fun part => part ≠ []).map decodePair

/-! ### `URLSearchParams` -/

/-- The parameters of a query string, with or without its `?`. -/
def ofQuery : Text → List (Text × Text)
  | '?' :: text => parse text
  | text => parse text

def get (pairs : List (Text × Text)) (name : Text) : Option Text :=
  (pairs.find? fun pair => pair.1 = name).map (·.2)

/-- The first pair of that name gets the value and the others go; a new name is appended. -/
def set (name value : Text) : List (Text × Text) → List (Text × Text)
  | [] => [(name, value)]
  | pair :: pairs =>
    if pair.1 = name then (name, value) :: pairs.filter fun pair => pair.1 ≠ name
    else pair :: set name value pairs

/-! ### What is written -/

/-- The bytes of a written text: those that stand for themselves, `+` and `%`. -/
def Written (b : UInt8) : Prop := isKept b ∨ b = 0x2B ∨ b = 0x25

instance (b : UInt8) : Decidable (Written b) := inferInstanceAs (Decidable (_ ∨ _))

theorem hexDigit_toNat {n : Nat} (h : n < 16) :
    (hexDigit n).toNat = if n < 10 then 0x30 + n else 0x37 + n := by
  unfold hexDigit
  exact toNat_ofNat (by split <;> omega)

theorem hexDigit_kept {n : Nat} (h : n < 16) : isKept (hexDigit n) := by
  simp only [isKept, hexDigit_toNat h]
  split <;> simp <;> omega

theorem hexValue_hexDigit {n : Nat} (h : n < 16) : hexValue (hexDigit n) = some n := by
  simp only [hexValue, hexDigit_toNat h]
  grind

theorem written_encodeByte {b x : UInt8} (hx : x ∈ encodeByte b) : Written x := by
  have hb := b.toNat_lt
  unfold encodeByte at hx
  split at hx
  · exact .inr (.inl (List.mem_singleton.mp hx))
  · split at hx
    · next hkept =>
      rw [List.mem_singleton.mp hx]
      exact .inl hkept
    · simp only [List.mem_cons, List.not_mem_nil, or_false] at hx
      rcases hx with rfl | rfl | rfl
      · exact .inr (.inr rfl)
      · exact .inl (hexDigit_kept (by omega))
      · exact .inl (hexDigit_kept (by omega))

theorem written_encodeText {text : Text} {x : UInt8} (hx : x ∈ encodeText text) : Written x := by
  rcases List.mem_flatMap.mp hx with ⟨b, -, hb⟩
  exact written_encodeByte hb

/-- Neither separator is written. -/
theorem Written.no_separator {b : UInt8} (h : Written b) : b ≠ 0x26 ∧ b ≠ 0x3D := by
  rcases h with h | rfl | rfl
  · constructor <;> rintro rfl <;> exact absurd h (by decide)
  · decide
  · decide

theorem Written.ascii {b : UInt8} (h : Written b) : b.toNat ≤ 0x7F := by
  rcases h with h | rfl | rfl
  · simp only [isKept, Bool.or_eq_true, Bool.and_eq_true, decide_eq_true_eq] at h
    omega
  · decide
  · decide

/-! ### A text is read back -/

theorem percentDecode_plain {b : UInt8} (h : b ≠ 0x25) (rest : Bytes) :
    percentDecode (b :: rest) = b :: percentDecode rest := by
  match rest with
  | [] => rfl
  | [_] => simp [percentDecode]
  | _ :: _ :: _ => rw [percentDecode, if_neg h]

theorem percentDecode_escaped {m n : Nat} (hm : m < 16) (hn : n < 16) (rest : Bytes) :
    percentDecode (0x25 :: hexDigit m :: hexDigit n :: rest) =
      UInt8.ofNat (m * 16 + n) :: percentDecode rest := by
  rw [percentDecode, if_pos rfl, hexValue_hexDigit hm, hexValue_hexDigit hn]

theorem plusToSpace_append (bytes bytes' : Bytes) :
    plusToSpace (bytes ++ bytes') = plusToSpace bytes ++ plusToSpace bytes' := List.map_append

theorem plusToSpace_kept {b : UInt8} (h : isKept b) : (if b = 0x2B then 0x20 else b) = b := by
  rw [if_neg]
  rintro rfl
  exact absurd h (by decide)

/-- `+` is turned into a space before the escapes are read, so a `+` that was written as
    `%2B` stays one. -/
theorem percentDecode_encodeByte (b : UInt8) (rest : Bytes) :
    percentDecode (plusToSpace (encodeByte b ++ rest)) = b :: percentDecode (plusToSpace rest) := by
  have hb := b.toNat_lt
  rw [plusToSpace_append]
  unfold encodeByte
  split
  · next hspace =>
    rw [hspace]
    exact percentDecode_plain (by decide) _
  split
  · next hkept =>
    have hpercent : b ≠ 0x25 := by
      rintro rfl
      exact absurd hkept (by decide)
    simp only [plusToSpace, List.map_cons, List.map_nil, List.singleton_append,
      plusToSpace_kept hkept]
    exact percentDecode_plain hpercent _
  · have hhigh : b.toNat / 16 < 16 := by omega
    have hlow : b.toNat % 16 < 16 := by omega
    have hvalue : UInt8.ofNat (b.toNat / 16 * 16 + b.toNat % 16) = b := by
      rw [show b.toNat / 16 * 16 + b.toNat % 16 = b.toNat by omega]
      exact UInt8.ofNat_toNat
    simp only [plusToSpace, List.map_cons, List.map_nil, List.cons_append, List.nil_append,
      plusToSpace_kept (hexDigit_kept hhigh), plusToSpace_kept (hexDigit_kept hlow)]
    rw [if_neg (by decide), percentDecode_escaped hhigh hlow, hvalue]

theorem percentDecode_encodeBytes (bytes : Bytes) :
    percentDecode (plusToSpace (bytes.flatMap encodeByte)) = bytes := by
  induction bytes with
  | nil => rfl
  | cons b bytes ih => rw [List.flatMap_cons, percentDecode_encodeByte, ih]

theorem decodeText_encodeText (text : Text) : decodeText (encodeText text) = text := by
  unfold decodeText encodeText
  rw [percentDecode_encodeBytes, decode_encode]

/-! ### Pairs are read back -/

theorem takeWhile_before {p : UInt8 → Bool} {bytes : Bytes} {b : UInt8} (rest : Bytes)
    (h : ∀ x ∈ bytes, p x) (hb : p b = false) :
    (bytes ++ b :: rest).takeWhile p = bytes ∧ (bytes ++ b :: rest).dropWhile p = b :: rest := by
  constructor
  · rw [List.takeWhile_append_of_pos h, List.takeWhile_cons, hb, if_neg (by decide),
      List.append_nil]
  · rw [List.dropWhile_append_of_pos h, List.dropWhile_cons, hb, if_neg (by decide)]

theorem decodePair_encodePair (pair : Text × Text) : decodePair (encodePair pair) = pair := by
  have hname : ∀ x ∈ encodeText pair.1, decide (x ≠ 0x3D) := fun x hx =>
    decide_eq_true (written_encodeText hx).no_separator.2
  have hcut := takeWhile_before (encodeText pair.2) hname (b := 0x3D) (by decide)
  unfold decodePair encodePair
  rw [hcut.1, hcut.2, List.tail_cons, decodeText_encodeText, decodeText_encodeText]

theorem encodePair_no_separator (pair : Text × Text) : (0x26 : UInt8) ∉ encodePair pair := by
  intro hmem
  rcases List.mem_append.mp hmem with hname | hrest
  · exact (written_encodeText hname).no_separator.1 rfl
  · rcases List.mem_cons.mp hrest with heq | hvalue
    · exact absurd heq (by decide)
    · exact (written_encodeText hvalue).no_separator.1 rfl

theorem encodePair_ne_nil (pair : Text × Text) : encodePair pair ≠ [] := by
  unfold encodePair
  simp

theorem toNat_char {n : Nat} (h : n < 0xD800) : (Char.ofNat n).toNat = n := by
  have hvalid : Nat.isValidChar n := .inl h
  rw [Char.ofNat, dif_pos hvalid]
  rfl

theorem encode_ofAscii {bytes : Bytes} (h : ∀ b ∈ bytes, b.toNat ≤ 0x7F) :
    encode (ofAscii bytes) = bytes := by
  induction bytes with
  | nil => rfl
  | cons b bytes ih =>
    have hb := h b List.mem_cons_self
    have hchar : (Char.ofNat b.toNat).toNat = b.toNat := toNat_char (by omega)
    simp only [ofAscii, List.map_cons, encode_cons]
    rw [encodeChar_ascii (by rw [hchar]; exact hb), hchar, UInt8.ofNat_toNat]
    exact congrArg (b :: ·) (ih fun b' hb' => h b' (List.mem_cons_of_mem _ hb'))

/-- The bytes of a query string. -/
theorem mem_joined {pairs : List (Text × Text)} {b : UInt8}
    (h : b ∈ List.intercalate [0x26] (pairs.map encodePair)) :
    Written b ∨ b = 0x26 ∨ b = 0x3D := by
  have hpair : ∀ pair : Text × Text, b ∈ encodePair pair → Written b ∨ b = 0x26 ∨ b = 0x3D := by
    intro pair hb
    rcases List.mem_append.mp hb with hname | hrest
    · exact .inl (written_encodeText hname)
    · rcases List.mem_cons.mp hrest with heq | hvalue
      · exact .inr (.inr heq)
      · exact .inl (written_encodeText hvalue)
  induction pairs with
  | nil => exact absurd h List.not_mem_nil
  | cons pair pairs ih =>
    cases pairs with
    | nil => exact hpair pair (by simpa using h)
    | cons next pairs =>
      simp only [List.map_cons, List.intercalate_cons_cons, List.mem_append,
        List.mem_singleton] at h
      rcases h with hfirst | hsep
      · rcases hfirst with hfirst | hsep
        · exact hpair pair hfirst
        · exact .inr (.inl hsep)
      · exact ih hsep

/-- What is written is read back, whatever the texts contain. -/
theorem parse_serialize (pairs : List (Text × Text)) : parse (serialize pairs) = pairs := by
  have hascii : ∀ b ∈ List.intercalate [0x26] (pairs.map encodePair), b.toNat ≤ 0x7F := by
    intro b hb
    rcases mem_joined hb with h | rfl | rfl
    · exact h.ascii
    · decide
    · decide
  unfold parse serialize
  rw [encode_ofAscii hascii]
  cases pairs with
  | nil => rfl
  | cons pair pairs =>
    have hparts : ∀ part ∈ (pair :: pairs).map encodePair, (0x26 : UInt8) ∉ part ∧ part ≠ [] := by
      intro part hpart
      rcases List.mem_map.mp hpart with ⟨written, -, rfl⟩
      exact ⟨encodePair_no_separator written, encodePair_ne_nil written⟩
    rw [List.splitOn_intercalate 0x26 (fun part hpart => (hparts part hpart).1) (by simp),
      List.filter_eq_self.mpr fun part hpart => decide_eq_true (hparts part hpart).2, List.map_map]
    simp [Function.comp_def, decodePair_encodePair]

/-- A query string keeps to its part of a URL: it begins no other part, and no segment. -/
theorem serialize_stays {pairs : List (Text × Text)} {c : Char} (h : c ∈ serialize pairs) :
    c ≠ '#' ∧ c ≠ '?' ∧ c ≠ '/' := by
  rcases List.mem_map.mp h with ⟨b, hb, rfl⟩
  have hbyte := b.toNat_lt
  have hnot : ∀ mark : UInt8, (Char.ofNat b.toNat).toNat = mark.toNat →
      ¬(Written mark ∨ mark = 0x26 ∨ mark = 0x3D) → False := by
    intro mark heq hmark
    rw [toNat_char (by omega)] at heq
    rw [UInt8.toNat_inj.mp heq] at hb
    exact hmark (mem_joined hb)
  exact ⟨fun heq => hnot 0x23 (congrArg Char.toNat heq) (by decide),
    fun heq => hnot 0x3F (congrArg Char.toNat heq) (by decide),
    fun heq => hnot 0x2F (congrArg Char.toNat heq) (by decide)⟩

/-! ### Texts that stand for themselves -/

/-- Letters, digits, `-` and `_`. -/
def IsPlain (text : Text) : Prop := ∀ c ∈ text, c.isAlphanum ∨ c = '-' ∨ c = '_'

theorem alphanum_range {c : Char} (h : c.isAlphanum) : (0x30 ≤ c.toNat ∧ c.toNat ≤ 0x39) ∨
    (0x41 ≤ c.toNat ∧ c.toNat ≤ 0x5A) ∨ (0x61 ≤ c.toNat ∧ c.toNat ≤ 0x7A) := by
  have hclasses : ((decide (c.val ≥ 'A'.val ∧ c.val ≤ 'Z'.val) ||
      (decide (c.val ≥ 'a'.val) && decide (c.val ≤ 'z'.val))) ||
      (decide (c.val ≥ '0'.val) && decide (c.val ≤ '9'.val))) = true := h
  simp only [Bool.or_eq_true, Bool.and_eq_true, decide_eq_true_eq, ge_iff_le,
    UInt32.le_iff_toNat_le, Char.reduceVal, UInt32.reduceToNat,
    show c.val.toNat = c.toNat from rfl] at hclasses
  omega

theorem IsPlain.kept {text : Text} (h : IsPlain text) : ∀ c ∈ text,
    c.toNat ≤ 0x7F ∧ isKept (UInt8.ofNat c.toNat) := by
  intro c hc
  rcases h c hc with halnum | rfl | rfl
  · have hrange := alphanum_range halnum
    have hbyte : (UInt8.ofNat c.toNat).toNat = c.toNat := toNat_ofNat (by omega)
    simp only [isKept, hbyte, Bool.or_eq_true, Bool.and_eq_true, decide_eq_true_eq]
    omega
  · decide
  · decide

theorem encodeText_plain {text : Text} (h : IsPlain text) : ofAscii (encodeText text) = text := by
  induction text with
  | nil => rfl
  | cons c text ih =>
    rcases h.kept c List.mem_cons_self with ⟨hascii, hkept⟩
    have hspace : UInt8.ofNat c.toNat ≠ 0x20 := by
      intro heq
      rw [heq] at hkept
      exact absurd hkept (by decide)
    have hbyte : encodeText (c :: text) = UInt8.ofNat c.toNat :: encodeText text := by
      simp [encodeText, encodeChar_ascii hascii, encodeByte, hspace, hkept]
    have hrest := ih fun c' hc' => h c' (List.mem_cons_of_mem _ hc')
    rw [hbyte, ofAscii, List.map_cons, toNat_ofNat (by omega), Char.ofNat_toNat]
    exact congrArg (c :: ·) hrest

/-- The query string of one plain pair is its name, `=` and its value. -/
theorem serialize_plain {name value : Text} (hname : IsPlain name) (hvalue : IsPlain value) :
    serialize [(name, value)] = name ++ '=' :: value := by
  have hpair : serialize [(name, value)] =
      ofAscii (encodeText name) ++ '=' :: ofAscii (encodeText value) := by
    simp [serialize, encodePair, ofAscii]
  rw [hpair, encodeText_plain hname, encodeText_plain hvalue]

/-! ### Parameters -/

@[simp] theorem get_nil (name : Text) : get [] name = none := rfl

theorem get_cons (pair : Text × Text) (pairs : List (Text × Text)) (name : Text) :
    get (pair :: pairs) name = if pair.1 = name then some pair.2 else get pairs name := by
  simp only [get, List.find?_cons]
  split <;> simp_all

theorem get_set_self (pairs : List (Text × Text)) (name value : Text) :
    get (set name value pairs) name = some value := by
  induction pairs with
  | nil => simp [set, get_cons]
  | cons pair pairs ih =>
    rw [set]
    split
    · simp [get_cons]
    · next hne => rw [get_cons, if_neg hne, ih]

/-- The other parameters stay as they were. -/
theorem get_set_of_ne {name other : Text} (h : other ≠ name) (value : Text)
    (pairs : List (Text × Text)) : get (set name value pairs) other = get pairs other := by
  induction pairs with
  | nil => simp [set, get_cons, h.symm]
  | cons pair pairs ih =>
    rw [set]
    split
    · next heq =>
      rw [get_cons, if_neg h.symm, get_cons, if_neg (heq ▸ h.symm)]
      simp only [get, List.find?_filter]
      congr 2
      funext pair
      grind
    · rw [get_cons, get_cons, ih]

end Urlencoded
