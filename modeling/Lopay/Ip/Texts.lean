import Lopay.Ip.Numerals

/-!
# What is left of the text of an address

`normalizeIp` on each spelling: the dotted quad of a mapped address written `::ffff:` and a quad,
and otherwise the text without its zone.
-/

namespace Lopay.Ip

open Text

/-! ### The text of an address -/

theorem Quad.text_digits (quad : Quad) : ∀ c ∈ quad.text, c ∈ hexDigits ∨ c = '.' := by
  intro c hc
  rcases mem_intercalate hc with h | ⟨piece, hpiece, h⟩
  · exact Or.inr h
  · simp only [List.mem_cons, List.not_mem_nil, or_false] at hpiece
    rcases hpiece with rfl | rfl | rfl | rfl <;>
      exact Or.inl ((octetText_digits _).2.2.2 c h)

theorem Quad.text_splitOn (quad : Quad) : quad.text.splitOn '.'
    = [octetText quad.a, octetText quad.b, octetText quad.c, octetText quad.d] := by
  apply List.splitOn_intercalate
  · intro piece hpiece hdot
    simp only [List.mem_cons, List.not_mem_nil, or_false] at hpiece
    have hhex : '.' ∈ hexDigits := by
      rcases hpiece with rfl | rfl | rfl | rfl <;> exact (octetText_digits _).2.2.2 _ hdot
    exact absurd hhex (by decide)
  · simp

theorem Quad.text_injective : Function.Injective Quad.text := by
  intro one other h
  have hparts := congrArg (List.splitOn '.') h
  rw [one.text_splitOn, other.text_splitOn] at hparts
  simp only [List.cons.injEq, octetText_injective.eq_iff, and_true] at hparts
  cases one
  cases other
  simp_all

theorem Quad.dottedQuad_text (quad : Quad) : dottedQuad quad.text := by
  have hoctet : ∀ octet, (1 ≤ (octetText octet).length && (octetText octet).length ≤ 3
      && (octetText octet).all Char.isDigit) = true := by
    intro octet
    obtain ⟨hne, hlength, hdigits, -⟩ := octetText_digits octet
    simp [hlength, hdigits, Nat.one_le_iff_ne_zero, hne]
  simp [dottedQuad, quad.text_splitOn, hoctet]

theorem Quad.text_ne_nil (quad : Quad) : quad.text ≠ [] := by
  obtain ⟨c, more, h⟩ := List.exists_cons_of_ne_nil (octetText_digits quad.a).1
  simp [Quad.text, h]

theorem Quad.colon_not_mem (quad : Quad) : ':' ∉ quad.text := by
  intro h
  rcases quad.text_digits _ h with h | h <;> exact absurd h (by decide)

theorem clean_texts (groups : List Group) : Clean (groups.map (·.text)) := by
  intro piece hpiece
  obtain ⟨group, -, rfl⟩ := List.mem_map.1 hpiece
  exact ⟨group.pos, fun hcolon => (hexDigit_plain (group.hex _ hcolon)).1 rfl⟩

section Address

variable (address : Ipv6)

theorem Ipv6.tailPieces_clean : Clean address.tailPieces := by
  intro piece hpiece
  rw [Ipv6.tailPieces, List.mem_append] at hpiece
  rcases hpiece with hgroup | hquad
  · exact clean_texts _ piece hgroup
  · cases hcase : address.quad with
    | none => simp [hcase] at hquad
    | some quad =>
      rw [hcase] at hquad
      obtain rfl : piece = quad.text := by simpa using hquad
      exact ⟨quad.text_ne_nil, quad.colon_not_mem⟩

theorem Ipv6.pieces_chars (groups : List Group) {piece : List Char} {c : Char}
    (hpiece : piece ∈ groups.map (·.text) ++ address.tailPieces) (hc : c ∈ piece) :
    c ∈ hexDigits ∨ c = '.' := by
  have hgroup : ∀ groups : List Group, piece ∈ groups.map (·.text) → c ∈ hexDigits := by
    intro groups hmem
    obtain ⟨group, -, rfl⟩ := List.mem_map.1 hmem
    exact group.hex c hc
  rw [Ipv6.tailPieces, List.mem_append, List.mem_append] at hpiece
  rcases hpiece with hhead | htail | hquad
  · exact Or.inl (hgroup _ hhead)
  · exact Or.inl (hgroup _ htail)
  · cases hcase : address.quad with
    | none => simp [hcase] at hquad
    | some quad =>
      rw [hcase] at hquad
      obtain rfl : piece = quad.text := by simpa using hquad
      exact quad.text_digits c hc

theorem Ipv6.bare_chars : ∀ c ∈ address.bare, c ∈ hexDigits ∨ c = '.' ∨ c = ':' := by
  intro c hc
  have hjoin : ∀ pieces : List (List Char),
      (∀ piece ∈ pieces, piece ∈ address.head.map (·.text) ++ address.tailPieces) →
      c ∈ join pieces → c ∈ hexDigits ∨ c = '.' ∨ c = ':' := by
    intro pieces hsub hmem
    rcases mem_intercalate hmem with h | ⟨piece, hpiece, h⟩
    · exact Or.inr (Or.inr h)
    · rcases address.pieces_chars _ (hsub piece hpiece) h with h | h
      · exact Or.inl h
      · exact Or.inr (Or.inl h)
  unfold Ipv6.bare at hc
  split at hc
  · exact hjoin _ (fun piece h => h) hc
  · simp only [List.mem_append, List.mem_cons] at hc
    rcases hc with hc | rfl | rfl | hc
    · exact hjoin _ (fun piece h => List.mem_append_left _ h) hc
    · exact Or.inr (Or.inr rfl)
    · exact Or.inr (Or.inr rfl)
    · exact hjoin _ (fun piece h => List.mem_append_right _ h) hc

/-- Splitting a joined text at its colons; the empty text is one empty piece. -/
theorem splitOn_join {pieces : List (List Char)} (h : Clean pieces) :
    (join pieces).splitOn ':' = if pieces = [] then [[]] else pieces := by
  split
  · subst pieces
    rfl
  · exact List.splitOn_intercalate ':' (fun piece hmem => (h piece hmem).2) ‹_›

theorem Ipv6.bare_splitOn_none (h : address.tail = none) :
    address.bare.splitOn ':' = address.head.map (·.text) ++ address.tailPieces := by
  have hfilled := address.filled h
  have hclean : Clean (address.head.map (·.text) ++ address.tailPieces) := by
    intro piece hpiece
    rcases List.mem_append.1 hpiece with hpiece | hpiece
    · exact clean_texts _ piece hpiece
    · exact address.tailPieces_clean piece hpiece
  simp only [Ipv6.bare, h]
  rw [splitOn_join hclean, if_neg]
  intro hnil
  have hlength := congrArg List.length hnil
  simp at hlength
  split at hfilled <;> simp_all

theorem Ipv6.bare_splitOn_some {groups : List Group} (h : address.tail = some groups) :
    address.bare.splitOn ':'
      = (if address.head = [] then [[]] else address.head.map (·.text))
        ++ [] :: (if address.tailPieces = [] then [[]] else address.tailPieces) := by
  simp only [Ipv6.bare, h]
  rw [List.splitOn_append_cons_self, splitOn_join (clean_texts address.head)]
  simp [List.splitOn_cons_eq_if_modifyHead, splitOn_join address.tailPieces_clean]

/-! ### Mapped addresses -/

/-- `::ffff:` and a dotted quad. -/
def Ipv6.MappedForm (quad : Quad) : Prop :=
  address.head = [] ∧ (∃ group : Group, address.tail = some [group]
    ∧ group.lower = ['f', 'f', 'f', 'f']) ∧ address.quad = some quad

theorem mappedIpv4_eq_some {value text : List Char} :
    mappedIpv4 value = some text ↔ ∃ ffff, value.splitOn ':' = [[], [], ffff, text]
      ∧ ffff.map Char.toLower = ['f', 'f', 'f', 'f'] ∧ dottedQuad text := by
  unfold mappedIpv4
  split
  · rename_i ffff quad hsplit
    rw [hsplit]
    constructor
    · intro h
      split at h
      · cases h
        exact ⟨ffff, rfl, ‹_›⟩
      · cases h
    · rintro ⟨ffff', heq, hform⟩
      simp only [List.cons.injEq, and_true, true_and] at heq
      obtain ⟨rfl, rfl⟩ := heq
      rw [if_pos hform]
  · rename_i hsplit
    constructor
    · intro h
      cases h
    · rintro ⟨ffff, heq, -⟩
      exact absurd heq (hsplit ffff text)

theorem dottedQuad_chars {text : List Char} (h : dottedQuad text) :
    '.' ∈ text ∧ ∀ c ∈ text, c = '.' ∨ c.isDigit := by
  simp only [dottedQuad, Bool.and_eq_true, decide_eq_true_eq, List.all_eq_true] at h
  obtain ⟨hlength, hparts⟩ := h
  constructor
  · by_contra hdot
    rw [List.splitOn_eq_singleton hdot] at hlength
    simp at hlength
  · intro c hc
    have hjoin : ['.'].intercalate (text.splitOn '.') = text := List.intercalate_splitOn '.'
    rw [← hjoin] at hc
    rcases mem_intercalate hc with h | ⟨part, hpart, hc⟩
    · exact Or.inl h
    · exact Or.inr ((hparts part hpart).2 c hc)

/-- What the pattern matches holds no zone. -/
theorem mappedIpv4_percent {value text : List Char} (h : mappedIpv4 value = some text) :
    '%' ∉ value := by
  obtain ⟨ffff, hsplit, hffff, hquad⟩ := mappedIpv4_eq_some.1 h
  intro hpercent
  have hjoin : [':'].intercalate (value.splitOn ':') = value := List.intercalate_splitOn ':'
  rw [← hjoin, hsplit] at hpercent
  rcases mem_intercalate hpercent with hcolon | ⟨piece, hpiece, hc⟩
  · exact absurd hcolon (by decide)
  · simp only [List.mem_cons, List.not_mem_nil, or_false] at hpiece
    rcases hpiece with rfl | rfl | rfl | rfl
    · cases hc
    · cases hc
    · have hlower := List.mem_map_of_mem (f := Char.toLower) hc
      rw [hffff] at hlower
      exact absurd hlower (by decide)
    · rcases (dottedQuad_chars hquad).2 _ hc with h | h <;> exact absurd h (by decide)

theorem Ipv6.mappedIpv4_bare {text : List Char} :
    mappedIpv4 address.bare = some text ↔ ∃ quad, address.MappedForm quad ∧ text = quad.text := by
  rw [mappedIpv4_eq_some]
  cases htail : address.tail with
  | none =>
    -- Without `::` no piece is empty.
    rw [address.bare_splitOn_none htail]
    constructor
    · rintro ⟨ffff, hsplit, -⟩
      have hempty : [] ∈ address.head.map (·.text) ++ address.tailPieces := by simp [hsplit]
      rcases List.mem_append.1 hempty with hmem | hmem
      · exact absurd rfl (clean_texts _ _ hmem).1
      · exact absurd rfl (address.tailPieces_clean _ hmem).1
    · rintro ⟨quad, ⟨-, ⟨group, hgroup, -⟩, -⟩, -⟩
      rw [htail] at hgroup
      cases hgroup
  | some groups =>
    rw [address.bare_splitOn_some htail]
    constructor
    · rintro ⟨ffff, hsplit, hffff, hquad⟩
      have hhead : address.head = [] := by
        by_contra hne
        rw [if_neg hne] at hsplit
        obtain ⟨group, more, hcons⟩ := List.exists_cons_of_ne_nil hne
        rw [hcons] at hsplit
        exact group.pos (List.cons.inj hsplit).1
      simp only [hhead, if_true, List.singleton_append, List.cons.injEq, true_and] at hsplit
      split at hsplit
      · simp at hsplit
      · cases hcase : address.quad with
        | none =>
          -- The last group has no dot in it.
          exfalso
          simp only [Ipv6.tailPieces, htail, hcase, Option.getD_some, Option.map_none,
            Option.toList_none, List.append_nil] at hsplit
          have hmem : text ∈ groups.map (·.text) := by simp [hsplit]
          obtain ⟨group, -, rfl⟩ := List.mem_map.1 hmem
          exact (hexDigit_plain (group.hex _ (dottedQuad_chars hquad).1)).2.1 rfl
        | some quad =>
          simp only [Ipv6.tailPieces, htail, hcase, Option.getD_some, Option.map_some,
            Option.toList_some] at hsplit
          cases groups with
          | nil => simp at hsplit
          | cons group more =>
            cases more with
            | nil =>
              simp only [List.map_cons, List.map_nil, List.cons_append, List.nil_append,
                List.cons.injEq, and_true] at hsplit
              obtain ⟨rfl, rfl⟩ := hsplit
              exact ⟨quad, ⟨hhead, ⟨group, htail, hffff⟩, hcase⟩, rfl⟩
            | cons other more => simp at hsplit
    · rintro ⟨quad, ⟨hhead, ⟨group, hgroup, hlower⟩, hquad⟩, rfl⟩
      obtain rfl : groups = [group] := Option.some.inj (htail.symm.trans hgroup)
      refine ⟨group.text, ?_, hlower, quad.dottedQuad_text⟩
      simp [hhead, Ipv6.tailPieces, htail, hquad]

/-! ### Normalised texts -/

/-- A printable character other than a comma or an opening bracket. -/
def Printed (c : Char) : Prop :=
  0x21 ≤ c.toNat ∧ c.toNat ≤ 0x7e ∧ c ≠ ',' ∧ c ≠ '['

theorem hexDigit_printed {c : Char} (h : c ∈ hexDigits) : Printed c := by
  obtain ⟨-, -, -, hlow, hhigh, hcomma, hbracket⟩ := hexDigit_plain h
  exact ⟨hlow, hhigh, hcomma, hbracket⟩

theorem zoneChar_printed {c : Char} (h : isZoneChar c) : Printed c := by
  have hcode : c.toNat ≠ 0x2c ∧ c.toNat ≠ 0x5b ∧ 0x21 ≤ c.toNat ∧ c.toNat ≤ 0x7e := by
    simp [isZoneChar] at h
    omega
  refine ⟨hcode.2.2.1, hcode.2.2.2, ?_, ?_⟩
  · rintro rfl
    exact hcode.1 rfl
  · rintro rfl
    exact hcode.2.1 rfl

theorem Quad.text_printed (quad : Quad) : ∀ c ∈ quad.text, Printed c := by
  intro c hc
  rcases quad.text_digits c hc with h | rfl
  · exact hexDigit_printed h
  · unfold Printed
    decide

theorem Ipv6.text_printed : ∀ c ∈ address.text, Printed c := by
  have hbare : ∀ c ∈ address.bare, Printed c := by
    intro c hc
    rcases address.bare_chars c hc with h | rfl | rfl
    · exact hexDigit_printed h
    · unfold Printed
      decide
    · unfold Printed
      decide
  intro c hc
  unfold Ipv6.text at hc
  split at hc
  · exact hbare c hc
  · rename_i zone hzone
    rcases List.mem_append.1 hc with hc | hc
    · exact hbare c hc
    · rcases List.mem_cons.1 hc with rfl | hc
      · unfold Printed
        decide
      · exact zoneChar_printed ((address.zoned zone hzone).2 c hc)

theorem Ipv6.two_colons : 2 ≤ address.bare.count ':' := by
  cases htail : address.tail with
  | some groups =>
    simp only [Ipv6.bare, htail, List.count_append, List.count_cons_self]
    omega
  | none =>
    have hlength : 7 ≤ (address.head.map (·.text) ++ address.tailPieces).length := by
      have hfilled := address.filled htail
      cases hquad : address.quad <;> simp_all [Ipv6.tailPieces]
    simp only [Ipv6.bare, htail]
    generalize address.head.map (·.text) ++ address.tailPieces = pieces at hlength
    match pieces, hlength with
    | one :: two :: three :: rest, _ =>
      simp only [List.intercalate_cons_cons, List.count_append, List.count_singleton_self]
      omega

theorem bracketed_eq_none {text : List Char} (h : '[' ∉ text) : bracketed text = none := by
  unfold bracketed
  split
  · exact absurd List.mem_cons_self h
  · rfl

theorem takeWhile_ne {c : Char} {text : List Char} (h : c ∉ text) (rest : List Char) :
    (text ++ c :: rest).takeWhile (· ≠ c) = text ∧ text.takeWhile (· ≠ c) = text := by
  have hkeep : ∀ d ∈ text, decide (d ≠ c) = true := by
    intro d hd
    have hne : d ≠ c := fun heq => h (heq ▸ hd)
    simpa using hne
  constructor
  · rw [List.takeWhile_append_of_pos hkeep]
    simp
  · rw [List.takeWhile_eq_self_iff]
    exact hkeep

theorem Ipv6.percent_not_mem : '%' ∉ address.bare := by
  intro h
  rcases address.bare_chars _ h with h | h | h <;> exact absurd h (by decide)

/-- What is left of a text without decorations to take off: its zone aside, the match of the mapped
    form or the text itself. -/
theorem normalizeIp_printed {text : List Char} (hprinted : ∀ c ∈ text, Printed c)
    (hne : text ≠ []) (hcolons : text.count ':' ≠ 1) :
    normalizeIp text =
      (let value := ((mappedIpv4 text).getD text).takeWhile (· ≠ '%')
      if value = [] then none else some value) := by
  have htrim : trim text = text :=
    trim_eq_self fun c hc => isSpace_printable (hprinted c hc).1 (hprinted c hc).2.1
  have hbracket : '[' ∉ text := fun h => (hprinted _ h).2.2.2 rfl
  simp [normalizeIp, htrim, hne, bracketed_eq_none hbracket, hcolons]

theorem Quad.normalizeIp_text (quad : Quad) : normalizeIp quad.text = some quad.text := by
  have hpercent : '%' ∉ quad.text := by
    intro h
    rcases quad.text_digits _ h with h | h <;> exact absurd h (by decide)
  have hmapped : mappedIpv4 quad.text = none := by
    simp [mappedIpv4, List.splitOn_eq_singleton quad.colon_not_mem]
  rw [normalizeIp_printed quad.text_printed quad.text_ne_nil
    (by simp [List.count_eq_zero_of_not_mem quad.colon_not_mem])]
  rw [hmapped, Option.getD_none, (takeWhile_ne hpercent []).2]
  simp [quad.text_ne_nil]

theorem Ipv6.bare_ne_nil : address.bare ≠ [] := by
  intro h
  have hcolons := address.two_colons
  simp [h] at hcolons

theorem Ipv6.normalizeIp_text : normalizeIp address.text
    = some ((mappedIpv4 address.text).getD address.bare) := by
  have hpercent := address.percent_not_mem
  have htext : address.text.takeWhile (· ≠ '%') = address.bare
      ∧ ∃ zone, address.text = address.bare ++ zone := by
    unfold Ipv6.text
    split
    · exact ⟨(takeWhile_ne hpercent []).2, [], by simp⟩
    · rename_i zone hzone
      exact ⟨(takeWhile_ne hpercent zone).1, _, rfl⟩
  obtain ⟨hcut, zone, happend⟩ := htext
  have hne : address.text ≠ [] := by simp [happend, address.bare_ne_nil]
  have hcolons : address.text.count ':' ≠ 1 := by
    have htwo := address.two_colons
    rw [happend, List.count_append]
    omega
  rw [normalizeIp_printed address.text_printed hne hcolons]
  cases hmapped : mappedIpv4 address.text with
  | none =>
    rw [Option.getD_none, hcut]
    simp [address.bare_ne_nil]
  | some text =>
    -- The match is a dotted quad.
    obtain ⟨-, -, -, hquad⟩ := mappedIpv4_eq_some.1 hmapped
    obtain ⟨hdot, hchars⟩ := dottedQuad_chars hquad
    have hpercent : '%' ∉ text := by
      intro h
      rcases hchars _ h with h | h <;> exact absurd h (by decide)
    rw [Option.getD_some, (takeWhile_ne hpercent []).2]
    simp [List.ne_nil_of_mem hdot]

/-- The pattern of mapped addresses on a text: it wants no zone. -/
theorem Ipv6.mappedIpv4_text {text : List Char} :
    mappedIpv4 address.text = some text
      ↔ address.zone = none ∧ ∃ quad, address.MappedForm quad ∧ text = quad.text := by
  cases hzone : address.zone with
  | none => simp [Ipv6.text, hzone, address.mappedIpv4_bare]
  | some zone =>
    simp only [Ipv6.text, hzone, reduceCtorEq, false_and, iff_false]
    intro h
    exact mappedIpv4_percent h (by simp)

end Address

end Lopay.Ip
