import Mathlib.Data.List.Basic
import Mathlib.Data.Set.List

/-! Lexical components of a path, as the standard library of a Unix system cuts them. -/

namespace VerticalAI.Foundation.Path

inductive Component where
  | rootDir
  | curDir
  | parentDir
  | normal (name : List Char)
  deriving DecidableEq, Repr

/-- Cut at every separator. -/
def pieces : List Char → List (List Char)
  | [] => [[]]
  | char :: rest =>
      if char = '/' then [] :: pieces rest
      else
        match pieces rest with
        | [] => [[char]]
        | piece :: others => (char :: piece) :: others

/-- A piece between separators, unless it is empty or a dot that says nothing. -/
def componentOf (piece : List Char) : Option Component :=
  if piece = [] ∨ piece = ['.'] then none
  else if piece = ['.', '.'] then some .parentDir
  else some (.normal piece)

/-- A leading separator is the root, a leading dot the current directory; elsewhere repeated
separators and dots are dropped.
-/
def components (path : List Char) : List Component :=
  match path with
  | [] => []
  | '/' :: rest => .rootDir :: (pieces rest).filterMap componentOf
  | _ =>
      match pieces path with
      | ['.'] :: rest => .curDir :: rest.filterMap componentOf
      | others => others.filterMap componentOf

/-- A relative path under a base, with one separator between them. -/
def join (base relative : List Char) : List Char :=
  if base = [] ∨ base.getLast? = some '/' then base ++ relative
  else base ++ '/' :: relative

theorem pieces_ne_nil (path : List Char) : pieces path ≠ [] := by
  cases path with
  | nil => nofun
  | cons char rest =>
      rw [pieces]
      split
      · nofun
      · split <;> nofun

/-- A separator ends a piece, by induction on what is before it. -/
theorem pieces_append_separator (path rest : List Char)
    : pieces (path ++ '/' :: rest) = pieces path ++ pieces rest := by
  induction path with
  | nil => rfl
  | cons char others ih =>
      rw [List.cons_append, pieces, pieces, ih]
      split
      · rfl
      · cases cut : pieces others with
        | nil => exact absurd cut (pieces_ne_nil others)
        | cons piece more => rfl

/-- The components that a separator in front leaves of a path. -/
def inner (path : List Char) : List Component := (pieces path).filterMap componentOf

/-- A path that no separator begins is cut as it stands, but for a leading dot. -/
theorem components_unrooted {path : List Char} (unrooted : path.head? ≠ some '/')
    : components path
      = (if (pieces path).head? = some ['.'] then [.curDir] else []) ++ inner path := by
  have cut : components path = match pieces path with
      | ['.'] :: rest => .curDir :: rest.filterMap componentOf
      | others => others.filterMap componentOf := by
    cases path with
    | nil => rfl
    | cons char rest =>
        rw [components]
        · nofun
        · exact fun others same => unrooted (congrArg List.head? same)
  rw [cut, inner]
  split
  · next rest dotted =>
      rw [dotted]
      rfl
  · next undotted =>
      rw [if_neg, List.nil_append]
      intro dotted
      obtain ⟨rest, same⟩ := List.head?_eq_some_iff.mp dotted
      exact undotted rest same

/-- What follows a separator adds its components, by cases on how the path begins. -/
theorem components_append_separator {path : List Char} (named : path ≠ []) (rest : List Char)
    : components (path ++ '/' :: rest) = components path ++ inner rest := by
  obtain ⟨char, others, rfl⟩ := List.exists_cons_of_ne_nil named
  by_cases root : char = '/'
  · subst root
    simp only [List.cons_append, components, pieces_append_separator, List.filterMap_append, inner]
  · have unrooted (tail : List Char) : (char :: tail).head? ≠ some '/' :=
      fun same => root (Option.some.inj same)
    rw [List.cons_append, components_unrooted (unrooted _), components_unrooted (unrooted _),
      ← List.cons_append, inner, inner, pieces_append_separator, List.filterMap_append,
      List.head?_append_of_ne_nil _ (pieces_ne_nil _), List.append_assoc, inner]

/-- Joining adds the components of the relative path. -/
theorem components_join {base : List Char} (named : base ≠ []) (relative : List Char)
    : components (join base relative) = components base ++ inner relative := by
  rw [join]
  split
  · next ends =>
      obtain ⟨front, rfl⟩ : ∃ front, base = front ++ ['/'] :=
        List.getLast?_eq_some_iff.mp (ends.resolve_left named)
      rw [List.append_assoc, List.singleton_append]
      by_cases lone : front = []
      · subst lone
        rfl
      · rw [components_append_separator lone, components_append_separator lone]
        exact congrArg (· ++ inner relative) (List.append_nil _).symm
  · exact components_append_separator named relative

theorem join_ne_nil {base : List Char} (named : base ≠ []) (relative : List Char)
    : join base relative ≠ [] := by
  rw [join]
  split
  · exact List.append_ne_nil_of_left_ne_nil named relative
  · exact List.append_ne_nil_of_left_ne_nil named _

/-- Different files of one directory have different paths. -/
theorem join_injective (base : List Char) {first second : List Char}
    (same : join base first = join base second)
    : first = second := by
  rw [join, join] at same
  split at same
  · exact List.append_cancel_left same
  · exact (List.cons.inj (List.append_cancel_left same)).2

/-- The path is the root, or leads to it and then down by ordinary names. -/
def Beneath (root path : List Char) : Prop :=
  ∃ names : List (List Char), components path = components root ++ names.map .normal

/-- The directory is the path or one on the way to it. -/
def OnTheWay (directory path : List Char) : Prop := components directory <+: components path

theorem Beneath.refl (root : List Char) : Beneath root root := ⟨[], (List.append_nil _).symm⟩

/-- On the way to what is beneath a root is what is beneath it and what is on the way to it. -/
theorem Beneath.onTheWay {root path directory : List Char} (beneath : Beneath root path)
    (passed : OnTheWay directory path)
    : Beneath root directory ∨ OnTheWay directory root := by
  obtain ⟨names, built⟩ := beneath
  rw [OnTheWay, built] at passed
  rcases List.prefix_or_prefix_of_prefix passed (List.prefix_append _ _) with above | below
  · exact Or.inr above
  · obtain ⟨more, same⟩ := below
    rw [← same, List.prefix_append_right_inj, List.prefix_map_iff] at passed
    obtain ⟨kept, -, rfl⟩ := passed
    exact Or.inl ⟨kept, same.symm⟩

/-- A path that no separator begins has the components that one in front would leave. -/
theorem inner_subset {path : List Char} (unrooted : path.head? ≠ some '/')
    : inner path ⊆ components path := by
  rw [components_unrooted unrooted]
  exact List.subset_append_right _ _

/-- A path that a separator begins has the root among its components. -/
theorem rootDir_mem {path : List Char} (rooted : path.head? = some '/')
    : Component.rootDir ∈ components path := by
  obtain ⟨rest, rfl⟩ := List.head?_eq_some_iff.mp rooted
  exact List.mem_cons_self

theorem componentOf_ne_curDir (piece : List Char) : componentOf piece ≠ some .curDir := by
  rw [componentOf]
  split
  · nofun
  · split <;> nofun

/-- A relative path of ordinary names and dots leads no further than beneath where it starts. -/
theorem Beneath.join {root base relative : List Char} (beneath : Beneath root base)
    (named : base ≠ [])
    (ordinary : ∀ component ∈ components relative,
      component = .curDir ∨ ∃ name, component = .normal name)
    : Beneath root (join base relative) := by
  have unrooted : relative.head? ≠ some '/' := by
    intro rooted
    rcases ordinary _ (rootDir_mem rooted) with same | ⟨name, same⟩ <;> cases same
  have names : inner relative ∈ Set.range (List.map Component.normal) := by
    rw [Set.range_list_map]
    intro component member
    rcases ordinary component (inner_subset unrooted member) with rfl | ⟨name, rfl⟩
    · obtain ⟨piece, -, cut⟩ := List.mem_filterMap.mp member
      exact absurd cut (componentOf_ne_curDir piece)
    · exact ⟨name, rfl⟩
  obtain ⟨above, built⟩ := beneath
  obtain ⟨below, same⟩ := names
  exact ⟨above ++ below, by rw [components_join named, built, ← same, List.map_append, List.append_assoc]⟩

end VerticalAI.Foundation.Path
