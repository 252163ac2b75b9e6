import Lopay.Ip.Texts

/-!
# The key of a spelling

What the code makes of each spelling of an address, and when that is the key of the client the
spelling denotes.
-/

namespace Lopay.Ip

open Text

section Address

variable (address : Ipv6)

/-! ### Collapsed texts -/

theorem Quad.collapseIpv6_text (quad : Quad) (prefixBits : Nat) :
    collapseIpv6 quad.text prefixBits = quad.text := by
  simp [collapseIpv6, quad.colon_not_mem]

/-- Four groups and four zeros: the spelling of a /64 as a key. -/
def subnetKey (groups : List (List Char)) : List Char :=
  join (groups ++ List.replicate 4 ['0'])

/-- Of eight non-empty groups, the first four are kept. -/
theorem collapseIpv6_groups {ip : List Char} (hcolon : ':' ∈ ip)
    (hlength : (expandedGroups ip).length = 8) (hne : ∀ group ∈ expandedGroups ip, group ≠ []) :
    collapseIpv6 ip 64 = subnetKey (((expandedGroups ip).take 4).map (·.map Char.toLower)) := by
  have hmasked : (((expandedGroups ip).take 4).map fun group =>
      if group = [] then ['0'] else group.map Char.toLower)
        = ((expandedGroups ip).take 4).map (·.map Char.toLower) :=
    List.map_congr_left fun group hmem => if_neg (hne group (List.mem_of_mem_take hmem))
  unfold collapseIpv6
  rw [if_neg (not_not.2 hcolon)]
  simp only [hlength, ne_eq, not_true_eq_false, if_false]
  rw [List.map_append, show min 8 (64 / 16) = 4 from rfl, hmasked, subnetKey]
  rfl

theorem Ipv6.colon_mem : ':' ∈ address.bare :=
  List.count_pos_iff.1 (Nat.lt_of_lt_of_le Nat.zero_lt_two address.two_colons)

theorem Ipv6.pieces_ne_nil : ∀ piece ∈ address.pieces, piece ≠ [] := by
  intro piece hpiece
  simp only [Ipv6.pieces, List.mem_append] at hpiece
  rcases hpiece with (hpiece | hpiece) | hpiece
  · exact (clean_texts _ piece hpiece).1
  · rw [List.eq_of_mem_replicate hpiece]
    simp
  · exact (address.tailPieces_clean piece hpiece).1

/-- With `::`, the code fills the pieces up to eight. -/
theorem Ipv6.collapseIpv6_some {groups : List Group} (htail : address.tail = some groups) :
    collapseIpv6 address.bare 64
      = subnetKey ((address.pieces.take 4).map (·.map Char.toLower)) := by
  have hsplit : splitDouble address.bare
      = [join (address.head.map (·.text)), join address.tailPieces] := by
    have hrest : splitDouble (join address.tailPieces) = [join address.tailPieces] := by
      simpa [splitDouble] using splitDouble_join address.tailPieces_clean []
    simp only [Ipv6.bare, htail]
    rw [splitDouble_join (clean_texts address.head), splitDouble, hrest]
    simp
  have hgroups : expandedGroups address.bare = address.pieces := by
    simp [expandedGroups, hsplit, sideGroups_join (clean_texts address.head),
      sideGroups_join address.tailPieces_clean, Ipv6.pieces]
  have hlength : address.pieces.length = 8 := by
    have hfull := address.full
    cases hquad : address.quad <;> simp [htail, hquad] at hfull <;>
      simp [Ipv6.pieces, Ipv6.tailPieces, htail, hquad] <;> omega
  rw [collapseIpv6_groups address.colon_mem (hgroups ▸ hlength)
    (hgroups ▸ address.pieces_ne_nil), hgroups]

/-- Without `::` the pieces are the groups, and a dotted quad makes them seven. -/
theorem Ipv6.collapseIpv6_none (htail : address.tail = none) :
    collapseIpv6 address.bare 64 =
      if address.quad.isSome then address.bare
      else subnetKey ((address.pieces.take 4).map (·.map Char.toLower)) := by
  have hfilled := address.filled htail
  have hclean : Clean (address.head.map (·.text) ++ address.tailPieces) := by
    intro piece hpiece
    rcases List.mem_append.1 hpiece with hpiece | hpiece
    · exact clean_texts _ piece hpiece
    · exact address.tailPieces_clean piece hpiece
  have hgroups : expandedGroups address.bare
      = address.head.map (·.text) ++ address.tailPieces := by
    have hsplit := splitDouble_join hclean []
    simp only [List.append_nil, splitDouble, List.modifyHead_cons] at hsplit
    have hone : (splitDouble address.bare).length = 1 := by
      simp [Ipv6.bare, htail, hsplit]
    simp [expandedGroups, hone, address.bare_splitOn_none htail]
  cases hquad : address.quad with
  | some quad =>
    have hseven : (expandedGroups address.bare).length ≠ 8 := by
      rw [hgroups]
      simp_all [Ipv6.tailPieces]
    unfold collapseIpv6
    rw [if_neg (not_not.2 address.colon_mem)]
    simp [hseven]
  | none =>
    have hpieces : address.head.map (·.text) ++ address.tailPieces = address.pieces := by
      simp_all [Ipv6.pieces, Ipv6.tailPieces]
    have hlength : address.pieces.length = 8 := by
      rw [← hpieces, List.length_append, List.length_map]
      simp_all [Ipv6.tailPieces]
    rw [hpieces] at hgroups
    rw [collapseIpv6_groups address.colon_mem (hgroups ▸ hlength)
      (hgroups ▸ address.pieces_ne_nil), hgroups]
    rfl

end Address

/-! ### Keys and clients -/

/-- The key of a text that names the caller. -/
def textKey (text : List Char) : List Char :=
  match normalizeIp text with
  | some ip => collapseIpv6 ip 64
  | none => "unknown".toList

def Client.key : Client → List Char
  | .ipv4 quad => quad.text
  | .ipv6 subnet => subnetKey (subnet.map shortest)

theorem Quad.textKey (quad : Quad) : textKey quad.text = quad.text := by
  simp [Ip.textKey, quad.normalizeIp_text, quad.collapseIpv6_text]

theorem quadOf_groups (quad : Quad) :
    quadOf (quad.a.val * 256 + quad.b.val) (quad.c.val * 256 + quad.d.val) = quad := by
  obtain ⟨⟨a, ha⟩, ⟨b, hb⟩, ⟨c, hc⟩, ⟨d, hd⟩⟩ := quad
  simp only [quadOf, Fin.ofNat, Quad.mk.injEq, Fin.mk.injEq]
  omega

theorem hexDigit_f {c : Char} (h : c ∈ hexDigits) : hexValue c = 15 ↔ c.toLower = 'f' := by
  revert c
  decide

theorem Group.value_ffff (group : Group) :
    group.value = 0xffff ↔ group.lower = ['f', 'f', 'f', 'f'] := by
  obtain ⟨text, pos, short, hex⟩ := group
  have hdigit : ∀ c ∈ text, hexValue c < 16 ∧ (hexValue c = 15 ↔ c.toLower = 'f') :=
    fun c hc => ⟨(hexDigit_value (hex c hc)).1, hexDigit_f (hex c hc)⟩
  match text, pos, short with
  | [a], _, _ | [a, b], _, _ | [a, b, c], _, _ =>
    simp only [List.mem_cons, List.not_mem_nil, or_false, forall_eq_or_imp, forall_eq] at hdigit
    simp [Group.value, Group.lower, Nat.ofDigits]
    omega
  | [a, b, c, d], _, _ =>
    simp only [List.mem_cons, List.not_mem_nil, or_false, forall_eq_or_imp, forall_eq] at hdigit
    obtain ⟨⟨ha, ha'⟩, ⟨hb, hb'⟩, ⟨hc, hc'⟩, hd, hd'⟩ := hdigit
    simp [Group.value, Group.lower, Nat.ofDigits, ← ha', ← hb', ← hc', ← hd']
    omega

section Address

variable (address : Ipv6)

theorem Ipv6.values_mapped {group : Group} {quad : Quad} (hhead : address.head = [])
    (htail : address.tail = some [group]) (hquad : address.quad = some quad) :
    address.values = [0, 0, 0, 0, 0, group.value, quad.a.val * 256 + quad.b.val,
      quad.c.val * 256 + quad.d.val] := by
  simp [Ipv6.values, hhead, htail, hquad, Ipv6.quadGroups]

theorem Ipv6.client_mappedForm {quad : Quad} (h : address.MappedForm quad) :
    address.values.take 6 = [0, 0, 0, 0, 0, 0xffff] ∧ address.client = .ipv4 quad := by
  obtain ⟨hhead, ⟨group, htail, hlower⟩, hquad⟩ := h
  have hvalues := address.values_mapped hhead htail hquad
  rw [group.value_ffff.2 hlower] at hvalues
  have htake : address.values.take 6 = [0, 0, 0, 0, 0, 0xffff] := by rw [hvalues]; rfl
  refine ⟨htake, ?_⟩
  rw [Ipv6.client, if_pos htake, hvalues]
  exact congrArg Client.ipv4 (quadOf_groups quad)

theorem Ipv6.textKey_mapped {quad : Quad} (h : address.MappedForm quad)
    (hzone : address.zone = none) : textKey address.text = quad.text := by
  have hmapped := address.mappedIpv4_text.2 ⟨hzone, quad, h, rfl⟩
  simp [textKey, address.normalizeIp_text, hmapped, quad.collapseIpv6_text]

theorem Ipv6.textKey_other (h : ∀ quad, address.MappedForm quad → address.zone ≠ none) :
    textKey address.text =
      if address.quad.isSome ∧ address.tail = none then address.bare
      else subnetKey ((address.pieces.take 4).map (·.map Char.toLower)) := by
  have hmapped : mappedIpv4 address.text = none := by
    cases hcase : mappedIpv4 address.text with
    | none => rfl
    | some text =>
      obtain ⟨hzone, quad, hform, -⟩ := address.mappedIpv4_text.1 hcase
      exact absurd hzone (h quad hform)
  simp only [textKey, address.normalizeIp_text, hmapped, Option.getD_none]
  cases htail : address.tail with
  | none => simp [address.collapseIpv6_none htail]
  | some groups => simp [address.collapseIpv6_some htail]

theorem colon_mem_subnetKey (groups : List (List Char)) : ':' ∈ subnetKey groups := by
  unfold subnetKey join
  induction groups with
  | nil => decide
  | cons group groups ih =>
    rw [List.cons_append, List.intercalate_cons_of_ne_nil (by simp)]
    simp

/-- A key without a colon is that of a mapped form. -/
theorem Ipv6.textKey_colon (h : ∀ quad, address.MappedForm quad → address.zone ≠ none) :
    ':' ∈ textKey address.text := by
  rw [address.textKey_other h]
  split
  · exact address.colon_mem
  · exact colon_mem_subnetKey _

theorem Ipv6.plain_mapped (h : address.values.take 6 = [0, 0, 0, 0, 0, 0xffff]) :
    address.Plain ↔ (∃ quad, address.MappedForm quad) ∧ address.zone = none := by
  rw [Ipv6.Plain, if_pos h]
  constructor
  · rintro ⟨hhead, ⟨group, htail⟩, hquad, hzone⟩
    obtain ⟨quad, hquad⟩ := Option.isSome_iff_exists.1 hquad
    have hvalue : group.value = 0xffff := by
      rw [address.values_mapped hhead htail hquad] at h
      simpa using h
    exact ⟨⟨quad, hhead, ⟨group, htail, group.value_ffff.1 hvalue⟩, hquad⟩, hzone⟩
  · rintro ⟨⟨quad, hhead, ⟨group, htail, -⟩, hquad⟩, hzone⟩
    exact ⟨hhead, ⟨group, htail⟩, by simp [hquad], hzone⟩

theorem subnetKey_inj {one other : List (List Char)} (hone : Clean one) (hother : Clean other) :
    subnetKey one = subnetKey other ↔ one = other := by
  have hzeros : ∀ {groups}, Clean groups → Clean (groups ++ List.replicate 4 ['0']) := by
    intro groups h piece hpiece
    rcases List.mem_append.1 hpiece with hpiece | hpiece
    · exact h piece hpiece
    · rw [List.eq_of_mem_replicate hpiece]
      decide
  constructor
  · intro h
    exact List.append_cancel_right (join_injective (hzeros hone) (hzeros hother) (by simp) h)
  · rintro rfl
    rfl

theorem clean_shortest (values : List Nat) : Clean (values.map shortest) := by
  intro piece hpiece
  obtain ⟨value, -, rfl⟩ := List.mem_map.1 hpiece
  exact ⟨shortest_ne_nil value,
    fun hcolon => (hexDigit_plain (shortest_digits value _ hcolon).1).1 rfl⟩

theorem hexDigit_lower {c : Char} (h : c ∈ hexDigits) : c.toLower ≠ ':' := by
  revert c
  decide

theorem Ipv6.clean_lower :
    Clean ((address.pieces.take 4).map (·.map Char.toLower)) := by
  intro lowered hlowered
  obtain ⟨piece, hmem, rfl⟩ := List.mem_map.1 hlowered
  have hpiece := List.mem_of_mem_take hmem
  refine ⟨fun hnil => address.pieces_ne_nil piece hpiece (List.map_eq_nil_iff.1 hnil), ?_⟩
  intro hcolon
  obtain ⟨c, hc, heq⟩ := List.mem_map.1 hcolon
  have hchar : c ∈ hexDigits ∨ c = '.' := by
    simp only [Ipv6.pieces, List.mem_append] at hpiece
    rcases hpiece with (hpiece | hpiece) | hpiece
    · exact address.pieces_chars _ (List.mem_append_left _ hpiece) hc
    · rw [List.eq_of_mem_replicate hpiece, List.mem_singleton] at hc
      exact Or.inl (by rw [hc]; decide)
    · exact address.pieces_chars [] hpiece hc
  rcases hchar with h | rfl
  · exact hexDigit_lower h heq
  · exact absurd heq (by decide)

theorem dot_not_mem_subnetKey (subnet : List Nat) : '.' ∉ subnetKey (subnet.map shortest) := by
  intro h
  rcases mem_intercalate h with h | ⟨piece, hpiece, hdot⟩
  · exact absurd h (by decide)
  · rcases List.mem_append.1 hpiece with hpiece | hpiece
    · obtain ⟨value, -, rfl⟩ := List.mem_map.1 hpiece
      exact (hexDigit_plain (shortest_digits value _ hdot).1).2.1 rfl
    · rw [List.eq_of_mem_replicate hpiece] at hdot
      exact absurd hdot (by decide)

theorem Ipv6.dot_mem_bare (hquad : address.quad.isSome) (htail : address.tail = none) :
    '.' ∈ address.bare := by
  obtain ⟨quad, hquad⟩ := Option.isSome_iff_exists.1 hquad
  have hdot := (dottedQuad_chars quad.dottedQuad_text).1
  have hjoin : [':'].intercalate (address.bare.splitOn ':') = address.bare :=
    List.intercalate_splitOn ':'
  rw [← hjoin, address.bare_splitOn_none htail]
  have hlast : address.tailPieces = [quad.text] := by simp [Ipv6.tailPieces, htail, hquad]
  rw [hlast]
  -- The quad is the last piece.
  induction address.head.map (·.text) with
  | nil => simpa using hdot
  | cons piece pieces ih =>
    rw [List.cons_append, List.intercalate_cons_of_ne_nil (by simp)]
    exact List.mem_append_right _ ih

/-- A spelling is plain exactly when its key is that of the client it denotes. -/
theorem Ipv6.plain_iff : address.Plain ↔ textKey address.text = address.client.key := by
  by_cases hmapped : address.values.take 6 = [0, 0, 0, 0, 0, 0xffff]
  · rw [address.plain_mapped hmapped]
    constructor
    · rintro ⟨⟨quad, hform⟩, hzone⟩
      rw [address.textKey_mapped hform hzone, (address.client_mappedForm hform).2]
      rfl
    · intro h
      -- The key is that of an IPv4 address, and only the mapped form gives one.
      by_contra hplain
      have hother : ∀ quad, address.MappedForm quad → address.zone ≠ none :=
        fun quad hform hzone => hplain ⟨⟨quad, hform⟩, hzone⟩
      have hcolon := address.textKey_colon hother
      rw [h, Ipv6.client, if_pos hmapped] at hcolon
      exact Quad.colon_not_mem _ hcolon
  · have hother : ∀ quad, address.MappedForm quad → address.zone ≠ none :=
      fun quad hform => absurd (address.client_mappedForm hform).1 hmapped
    rw [address.textKey_other hother, Ipv6.Plain, if_neg hmapped, Ipv6.client, if_neg hmapped,
      Client.key]
    by_cases hseven : address.quad.isSome ∧ address.tail = none
    · rw [if_pos hseven]
      refine iff_of_false ?_ ?_
      · rintro ⟨htail, -⟩
        simpa [hseven.2] using htail hseven.1
      · intro h
        exact dot_not_mem_subnetKey _ (h ▸ address.dot_mem_bare hseven.1 hseven.2)
    · rw [if_neg hseven, subnetKey_inj address.clean_lower (clean_shortest _)]
      have htail : address.quad.isSome → address.tail.isSome := by
        intro hquad
        rw [Option.isSome_iff_ne_none]
        exact fun hnone => hseven ⟨hquad, hnone⟩
      exact and_iff_right htail

theorem Spelling.plain_iff (spelling : Spelling) :
    spelling.Plain ↔ textKey spelling.text = spelling.client.key := by
  cases spelling with
  | ipv4 quad => exact iff_of_true trivial quad.textKey
  | ipv6 address => exact address.plain_iff

theorem Client.key_injective : Function.Injective Client.key := by
  intro one other h
  cases one with
  | ipv4 quad =>
    cases other with
    | ipv4 quad' => exact congrArg _ (Quad.text_injective h)
    | ipv6 subnet =>
      have hcolon : ':' ∈ (Client.ipv6 subnet).key := colon_mem_subnetKey _
      rw [← h] at hcolon
      exact absurd hcolon quad.colon_not_mem
  | ipv6 subnet =>
    cases other with
    | ipv4 quad =>
      have hcolon : ':' ∈ (Client.ipv6 subnet).key := colon_mem_subnetKey _
      rw [h] at hcolon
      exact absurd hcolon quad.colon_not_mem
    | ipv6 subnet' =>
      have hgroups := (subnetKey_inj (clean_shortest _) (clean_shortest _)).1 h
      exact congrArg _ (shortest_injective.list_map hgroups)

end Address

/-! ### A plain spelling for each client -/

/-- The shortest group of a value. -/
def Group.ofValue (value : Nat) (h : value < 0x10000) : Group where
  text := shortest value
  pos := shortest_ne_nil value
  short := shortest_length h
  hex := fun c hc => (shortest_digits value c hc).1

theorem Group.value_ofValue (value : Nat) (h : value < 0x10000) :
    (Group.ofValue value h).value = value :=
  shortest_value value

/-- A /64 by its four groups, the rest zero. -/
def subnetSpelling (a b c d : Fin 0x10000) : Ipv6 where
  head := [Group.ofValue a a.isLt, Group.ofValue b b.isLt, Group.ofValue c c.isLt,
    Group.ofValue d d.isLt, Group.ofValue 0 (by decide), Group.ofValue 0 (by decide),
    Group.ofValue 0 (by decide), Group.ofValue 0 (by decide)]
  tail := none
  quad := none
  zone := none
  full := by simp
  filled := by simp
  zoned := by simp

theorem subnetSpelling_values (a b c d : Fin 0x10000) :
    (subnetSpelling a b c d).values = [a.val, b.val, c.val, d.val, 0, 0, 0, 0] := by
  simp [Ipv6.values, subnetSpelling, Ipv6.quadGroups, Group.value_ofValue]

theorem subnetSpelling_client (a b c d : Fin 0x10000) :
    (subnetSpelling a b c d).client = .ipv6 [a.val, b.val, c.val, d.val]
      ∧ (subnetSpelling a b c d).Plain := by
  have hvalues := subnetSpelling_values a b c d
  have hmapped : ¬(subnetSpelling a b c d).values.take 6 = [0, 0, 0, 0, 0, 0xffff] := by
    simp [hvalues]
  constructor
  · rw [Ipv6.client, if_neg hmapped, hvalues]
    rfl
  · rw [Ipv6.Plain, if_neg hmapped, hvalues]
    simp [subnetSpelling, Ipv6.pieces, Ipv6.tailPieces, Group.ofValue, shortest_lower]

theorem Ipv6.values_lt (address : Ipv6) : ∀ value ∈ address.values, value < 0x10000 := by
  have hgroups : ∀ groups : List Group, ∀ value ∈ groups.map Group.value, value < 0x10000 := by
    intro groups value hvalue
    obtain ⟨group, -, rfl⟩ := List.mem_map.1 hvalue
    exact group.value_lt
  intro value hvalue
  simp only [Ipv6.values, List.mem_append] at hvalue
  rcases hvalue with (hvalue | hvalue) | hvalue | hvalue
  · exact hgroups _ value hvalue
  · rw [List.eq_of_mem_replicate hvalue]
    decide
  · exact hgroups _ value hvalue
  · unfold Ipv6.quadGroups at hvalue
    split at hvalue
    · cases hvalue
    · simp only [List.mem_cons, List.not_mem_nil, or_false] at hvalue
      omega

theorem Ipv6.values_length (address : Ipv6) : address.values.length = 8 := by
  have hfull := address.full
  cases hquad : address.quad <;> cases htail : address.tail <;>
    simp [hquad, htail] at hfull <;>
    simp [Ipv6.values, Ipv6.quadGroups, hquad, htail] <;> omega

/-- Whatever a spelling denotes has a plain spelling. -/
theorem Spelling.exists_plain (spelling : Spelling) :
    ∃ plain : Spelling, plain.Plain ∧ plain.client = spelling.client := by
  cases spelling with
  | ipv4 quad => exact ⟨.ipv4 quad, trivial, rfl⟩
  | ipv6 address =>
    by_cases hmapped : address.values.take 6 = [0, 0, 0, 0, 0, 0xffff]
    · refine ⟨.ipv4 (quadOf (address.values.getD 6 0) (address.values.getD 7 0)), trivial, ?_⟩
      simp only [Spelling.client, Ipv6.client, if_pos hmapped]
    · have hlength := address.values_length
      have hlt := address.values_lt
      match hvalues : address.values, hlength with
      | a :: b :: c :: d :: rest, _ =>
        rw [hvalues] at hlt
        have hplain := subnetSpelling_client ⟨a, hlt a (by simp)⟩ ⟨b, hlt b (by simp)⟩
          ⟨c, hlt c (by simp)⟩ ⟨d, hlt d (by simp)⟩
        refine ⟨.ipv6 _, hplain.2, hplain.1.trans ?_⟩
        rw [Spelling.client, Ipv6.client, if_neg hmapped, hvalues]
        rfl

/-! ### Requests -/

/-- The request names its caller by the text: in the declared header, as its only or its leftmost
    entry, or on the connection when none is declared. -/
inductive Presents (text : List Char) : ClientIpRequest → Option String → Prop where
  | direct {req : ClientIpRequest} (h : req.ip = some text) : Presents text req none
  | socket {req : ClientIpRequest} (hip : req.ip = none) (h : req.remoteAddress = some text) :
      Presents text req none
  | header {req : ClientIpRequest} {name : String} {entries : List Char}
      (h : req.headers name = some (.one (text ++ entries)))
      (hentries : entries = [] ∨ entries.head? = some ',') : Presents text req (some name)
  | repeated {req : ClientIpRequest} {name : String} {entries : List Char}
      {others : List (List Char)} (h : req.headers name = some (.many ((text ++ entries) :: others)))
      (hentries : entries = [] ∨ entries.head? = some ',') : Presents text req (some name)

theorem Spelling.text_printed (spelling : Spelling) : ∀ c ∈ spelling.text, Printed c := by
  cases spelling with
  | ipv4 quad => exact quad.text_printed
  | ipv6 address => exact address.text_printed

theorem Spelling.normalizes (spelling : Spelling) : ∃ ip, normalizeIp spelling.text = some ip := by
  cases spelling with
  | ipv4 quad => exact ⟨_, quad.normalizeIp_text⟩
  | ipv6 address => exact ⟨_, address.normalizeIp_text⟩

theorem normalizeIp_nil : normalizeIp [] = none := by
  simp [normalizeIp, trim]

theorem first_entry {text entries : List Char} (h : ',' ∉ text)
    (hentries : entries = [] ∨ entries.head? = some ',') :
    (text ++ entries).takeWhile (· ≠ ',') = text := by
  rcases hentries with rfl | hhead
  · rw [List.append_nil]
    exact (takeWhile_ne h []).2
  · obtain ⟨rest, rfl⟩ := List.head?_eq_some_iff.1 hhead
    exact (takeWhile_ne h rest).1

/-- However the text reaches the limiter, its key is the same. -/
theorem clientIpKey_presents {spelling : Spelling} {req : ClientIpRequest}
    {headerName : Option String} (h : Presents spelling.text req headerName) :
    clientIpKey req headerName = textKey spelling.text := by
  obtain ⟨ip, hip⟩ := spelling.normalizes
  have hprinted := spelling.text_printed
  have hne : spelling.text ≠ [] := by
    intro hnil
    rw [hnil, normalizeIp_nil] at hip
    cases hip
  obtain ⟨first, rest, htext⟩ := List.exists_cons_of_ne_nil hne
  have htrim : trim spelling.text = spelling.text :=
    trim_eq_self fun c hc => isSpace_printable (hprinted c hc).1 (hprinted c hc).2.1
  have hcomma : ',' ∉ spelling.text := fun hmem => (hprinted _ hmem).2.2.1 rfl
  have hparse : ∀ entries, (entries = [] ∨ entries.head? = some ',') → ∀ others,
      parseForwardedIp (.one (spelling.text ++ entries)) = some ip
        ∧ parseForwardedIp (.many ((spelling.text ++ entries) :: others)) = some ip := by
    intro entries hentries others
    have hfirst := first_entry hcomma hentries
    simp only [parseForwardedIp, List.head?_cons, hfirst, htrim, if_neg hne, hip, and_self]
  have hresolve : resolveClientIp req headerName = some ip := by
    cases h with
    | direct h =>
      rw [htext] at h hip
      simpa [resolveClientIp, h] using hip
    | socket hnone h =>
      rw [htext] at h hip
      simpa [resolveClientIp, hnone, h] using hip
    | header h hentries => simp [resolveClientIp, h, (hparse _ hentries []).1]
    | repeated h hentries => simp [resolveClientIp, h, (hparse _ hentries _).2]
  simp [clientIpKey, textKey, hresolve, hip]

/-- A spelling gets, against every plain one, the same key exactly when both denote the same
    client, if and only if it is plain itself. -/
theorem clientIpKey_exact (one : Spelling) :
    one.Plain ↔ ∀ other : Spelling, other.Plain → ∀ req req' headerName headerName',
      Presents one.text req headerName → Presents other.text req' headerName' →
        (clientIpKey req headerName = clientIpKey req' headerName'
          ↔ one.client = other.client) := by
  constructor
  · intro hone other hother req req' headerName headerName' hreq hreq'
    rw [clientIpKey_presents hreq, clientIpKey_presents hreq', one.plain_iff.1 hone,
      other.plain_iff.1 hother]
    exact Client.key_injective.eq_iff
  · intro h
    obtain ⟨plain, hplain, hclient⟩ := one.exists_plain
    have hdirect : ∀ text : List Char, Presents text ⟨fun _ => none, some text, none⟩ none :=
      fun text => .direct rfl
    have hsame := (h plain hplain _ _ _ _ (hdirect one.text) (hdirect plain.text)).2 hclient.symm
    rw [clientIpKey_presents (hdirect one.text), clientIpKey_presents (hdirect plain.text),
      plain.plain_iff.1 hplain, hclient] at hsame
    exact one.plain_iff.2 hsame

/-- `2001:db8::1`. -/
def documentation : Ipv6 where
  head := [⟨"2001".toList, by decide, by decide, by decide⟩,
    ⟨"db8".toList, by decide, by decide, by decide⟩]
  tail := some [⟨"1".toList, by decide, by decide, by decide⟩]
  quad := none
  zone := none
  full := by decide
  filled := by decide
  zoned := by simp

/-- `2001:DB8:0::5%eth0`. -/
def documentationZone : Ipv6 where
  head := [⟨"2001".toList, by decide, by decide, by decide⟩,
    ⟨"DB8".toList, by decide, by decide, by decide⟩,
    ⟨"0".toList, by decide, by decide, by decide⟩]
  tail := some [⟨"5".toList, by decide, by decide, by decide⟩]
  quad := none
  zone := some "eth0".toList
  full := by decide
  filled := by decide
  zoned := by
    intro text htext
    obtain rfl : "eth0".toList = text := by simpa using htext
    decide

/-- A request straight from the connection. -/
def requestFrom (spelling : Spelling) : ClientIpRequest :=
  ⟨fun _ => none, some spelling.text, none⟩

theorem clientIpKey_exact_documentation :
    (Spelling.ipv6 documentation).Plain
      ∧ (clientIpKey (requestFrom (.ipv6 documentation)) none
          = clientIpKey (requestFrom (.ipv6 documentationZone)) none
        ↔ (Spelling.ipv6 documentation).client = (Spelling.ipv6 documentationZone).client) := by
  have hone : (Spelling.ipv6 documentation).Plain :=
    (Spelling.plain_iff _).2 (by decide +kernel)
  have hother : (Spelling.ipv6 documentationZone).Plain :=
    (Spelling.plain_iff _).2 (by decide +kernel)
  exact ⟨hone, (clientIpKey_exact _).1 hone _ hother _ _ _ _ (.direct rfl) (.direct rfl)⟩

/-- `2001:0db8::1`. -/
def documentationPadded : Ipv6 :=
  { documentation with
    head := [⟨"2001".toList, by decide, by decide, by decide⟩,
      ⟨"0db8".toList, by decide, by decide, by decide⟩]
    full := by decide
    filled := by decide }

/-- `::ffff:` and two groups. -/
def hexMapped (high low : Fin 0x10000) : Ipv6 where
  head := []
  tail := some [⟨"ffff".toList, by decide, by decide, by decide⟩,
    Group.ofValue high high.isLt, Group.ofValue low low.isLt]
  quad := none
  zone := none
  full := by simp
  filled := by simp
  zoned := by simp

/-- A leading zero gives one address two keys, and the hexadecimal mapped form gives two addresses
    one key. -/
theorem clientIpKey_not_exact :
    (Spelling.ipv6 documentation).client = (Spelling.ipv6 documentationPadded).client
      ∧ clientIpKey (requestFrom (.ipv6 documentation)) none
        ≠ clientIpKey (requestFrom (.ipv6 documentationPadded)) none
      ∧ (Spelling.ipv6 (hexMapped 0x0102 0x0304)).client
        ≠ (Spelling.ipv6 (hexMapped 0x0506 0x0708)).client
      ∧ clientIpKey (requestFrom (.ipv6 (hexMapped 0x0102 0x0304))) none
        = clientIpKey (requestFrom (.ipv6 (hexMapped 0x0506 0x0708))) none := by
  decide +kernel

end Lopay.Ip
