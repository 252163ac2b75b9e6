import Mathlib.Data.List.Infix
import Mathlib.Tactic.Common

/-!
# Paths

A path is a text of segments between slashes. To resolve it, walk it: an empty segment and `.` stay
where they are, `..` goes back to the parent, at the root it stays, and any other segment is a name
to go into. `settle` reads the same path without a place to start from: how far it climbs out of
wherever it starts, and the names it then goes into.
-/

namespace Paths

abbrev Segment := List Char

def segments (path : List Char) : List Segment := path.splitOn '/'

def Segment.stays (segment : Segment) : Prop := segment = [] ∨ segment = ['.']

instance (segment : Segment) : Decidable segment.stays :=
  inferInstanceAs (Decidable (segment = [] ∨ segment = ['.']))

def Segment.climbs (segment : Segment) : Prop := segment = ['.', '.']

instance (segment : Segment) : Decidable segment.climbs :=
  inferInstanceAs (Decidable (segment = ['.', '.']))

/-- One segment of a path that names something. -/
structure Segment.IsName (segment : Segment) : Prop where
  stays : ¬segment.stays
  climbs : ¬segment.climbs
  slash : '/' ∉ segment

/-- Where the segments lead to; the place is a stack, with the innermost name on top. -/
def walk (place : List Segment) : List Segment → List Segment
  | [] => place
  | segment :: rest =>
      if segment.stays then walk place rest
      else if segment.climbs then walk place.tail rest
      else walk (segment :: place) rest

def resolve (path : List Char) : List Segment := (walk [] (segments path)).reverse

/-- The `..` that no name before them takes back, and the names that no `..` takes back. -/
def settle : List Segment → Nat × List Segment
  | [] => (0, [])
  | segment :: rest =>
      let (excess, names) := settle rest
      if segment.stays then (excess, names)
      else if segment.climbs then (excess + 1, names)
      else
        match excess with
        | 0 => (0, segment :: names)
        | excess + 1 => (excess, names)

theorem walk_eq (place path : List Segment) :
    walk place path = (settle path).2.reverse ++ place.drop (settle path).1 := by
  induction path generalizing place with
  | nil => rfl
  | cons segment rest ih =>
    simp only [walk, settle]
    split
    · exact ih place
    · split
      · rw [ih, List.drop_tail]
      · rw [ih]
        split <;> rename_i hexcess <;> simp [hexcess]

theorem walk_append (place first second : List Segment) :
    walk place (first ++ second) = walk (walk place first) second := by
  induction first generalizing place with
  | nil => rfl
  | cons segment rest ih =>
    simp only [List.cons_append, walk]
    split
    · exact ih place
    · split
      · exact ih place.tail
      · exact ih (segment :: place)

theorem walk_names {names : List Segment} (h : ∀ name ∈ names, name.IsName)
    (place : List Segment) : walk place names = names.reverse ++ place := by
  induction names generalizing place with
  | nil => rfl
  | cons name rest ih =>
    obtain ⟨hname, hrest⟩ := List.forall_mem_cons.1 h
    simp [walk, hname.stays, hname.climbs, ih hrest]

/-! ### Folders -/

/-- The text of a folder, a slash after each name. -/
def folderText (folder : List Segment) : List Char := folder.flatMap (· ++ ['/'])

theorem segments_folderText {folder : List Segment} (h : ∀ name ∈ folder, name.IsName)
    (rest : List Char) : segments (folderText folder ++ rest) = folder ++ segments rest := by
  induction folder with
  | nil => rfl
  | cons name more ih =>
    obtain ⟨hname, hmore⟩ := List.forall_mem_cons.1 h
    have htext : folderText (name :: more) ++ rest = name ++ '/' :: (folderText more ++ rest) := by
      simp [folderText]
    rw [htext, segments, List.splitOn_append_cons_self_of_not_mem hname.slash]
    exact congrArg (name :: ·) (ih hmore)

theorem resolve_folderText {folder : List Segment} (h : ∀ name ∈ folder, name.IsName)
    (rest : List Char) : resolve (folderText folder ++ rest)
      = folder.take (folder.length - (settle (segments rest)).1) ++ (settle (segments rest)).2 := by
  rw [resolve, segments_folderText h, walk_append, walk_names h, List.append_nil, walk_eq,
    List.reverse_append, List.reverse_reverse, List.drop_reverse, List.reverse_reverse]

/-- A path that begins with a folder stays in it exactly if it goes back into whatever of the folder
    it climbs out of. -/
theorem within_folder_iff {folder : List Segment} (h : ∀ name ∈ folder, name.IsName)
    (rest : List Char) : folder <+: resolve (folderText folder ++ rest)
      ↔ folder.drop (folder.length - (settle (segments rest)).1) <+: (settle (segments rest)).2 := by
  rw [resolve_folderText h]
  conv_lhs => lhs; rw [← List.take_append_drop (folder.length - (settle (segments rest)).1) folder]
  exact List.prefix_append_right_inj _

/-! ### Paths that never climb -/

theorem settle_of_no_climb {path : List Segment} (h : ∀ segment ∈ path, ¬segment.climbs) :
    (settle path).1 = 0 := by
  induction path with
  | nil => rfl
  | cons segment rest ih =>
    obtain ⟨hsegment, hrest⟩ := List.forall_mem_cons.1 h
    simp only [settle, if_neg hsegment]
    split
    · exact ih hrest
    · rw [ih hrest]

theorem infix_of_mem_segments {path : List Char} {segment : Segment}
    (h : segment ∈ segments path) : segment <:+: path := by
  have hjoin : ['/'].intercalate (segments path) = path := List.intercalate_splitOn '/'
  rw [← hjoin]
  generalize segments path = all at h
  induction all with
  | nil => cases h
  | cons first rest ih =>
    cases rest with
    | nil =>
      rw [List.mem_singleton.1 h, List.intercalate_singleton]
    | cons second rest =>
      rw [List.intercalate_cons_cons]
      rcases List.mem_cons.1 h with rfl | hrest
      · exact ⟨[], _, by rw [List.nil_append, List.append_assoc]⟩
      · exact (ih hrest).trans (List.suffix_append _ _).isInfix

end Paths
