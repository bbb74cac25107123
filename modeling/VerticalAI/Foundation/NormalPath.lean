import Mathlib.Data.List.DropRight
import VerticalAI.Foundation.Path

/-! The file a path names, whatever its spelling: separators of either kind, names without regard to
case or to the dots and spaces at their ends, and no detours.
-/

namespace VerticalAI.Foundation.Path

/-- A back slash separates as a slash does. -/
def unify (char : Char) : Char := if char = '\\' then '/' else char

/-- What a name ends in that does not matter. -/
def isTrailing (char : Char) : Bool := char = '.' || char = ' '

/-- A name as it matters: what it ends in is dropped and its case ignored. -/
def foldName (name : List Char) : List Char := (name.rdropWhile isTrailing).map Char.toLower

/-- A name of nothing but dots and spaces says nothing. -/
def foldComponent : Component → Option Component
  | .normal name => if foldName name = [] then none else some (.normal (foldName name))
  | other => some other

/-- Follow one more component from where others lead, the last of them first. Above the root is the
root.
-/
def follow (before : List Component) : Component → List Component
  | .curDir => before
  | .parentDir =>
      match before with
      | .normal _ :: above => above
      | .rootDir :: above => .rootDir :: above
      | _ => .parentDir :: before
  | component => component :: before

/-- The components without detours. -/
def resolve (components : List Component) : List Component := (components.foldl follow []).reverse

/-- Lexical normalisation. -/
def normalise (path : List Char) : List Component :=
  resolve ((components (path.map unify)).filterMap foldComponent)

/-- The path leads to something in the directory. -/
def LiesUnder (directory : List Char) (path : List Component) : Prop :=
  [.normal directory] <+: path ∧ path ≠ [.normal directory]

instance (directory : List Char) (path : List Component) : Decidable (LiesUnder directory path) :=
  inferInstanceAs (Decidable (_ ∧ _))

/-- The name a path ends in. -/
def fileName (path : List Component) : Option (List Char) :=
  match path.getLast? with
  | some (.normal name) => some name
  | _ => none

/-- Only letters have a lower case. -/
theorem eq_of_toLower {char other : Char} (lower : char.toLower = other)
    (letter : other.isLower = false)
    : char = other := by
  delta Char.toLower at lower
  split at lower
  · next upper =>
      have value : other.val.toNat = (char.val.toNat + 32) % 2 ^ 32 := by
        rw [← lower]
        exact UInt32.toNat_add char.val 32
      have least : 65 ≤ char.val.toNat := UInt32.le_iff_toNat_le.mp upper.1
      have most : char.val.toNat ≤ 90 := UInt32.le_iff_toNat_le.mp upper.2
      have above : 'a'.val ≤ other.val := UInt32.le_iff_toNat_le.mpr (show 97 ≤ _ by omega)
      have below : other.val ≤ 'z'.val := UInt32.le_iff_toNat_le.mpr (show _ ≤ 122 by omega)
      delta Char.isLower at letter
      rw [decide_eq_true above, decide_eq_true below] at letter
      cases letter
  · exact lower

/-- A text that separators cannot be part of stands at the end of a path in whichever way its
separators are read.
-/
theorem suffix_of_unified {path ending : List Char} (inside : '/' ∉ ending)
    (ends : ending <:+ (path.map unify).map Char.toLower)
    : ending <:+ path.map Char.toLower := by
  rw [List.map_map, List.suffix_map_iff] at ends
  obtain ⟨last, suffix, rfl⟩ := ends
  have kept : last.map (Char.toLower ∘ unify) = last.map Char.toLower := by
    refine List.map_congr_left fun char member => ?_
    have separates : char ≠ '\\' := by
      rintro rfl
      exact inside (List.mem_map.mpr ⟨'\\', member, rfl⟩)
    rw [Function.comp_apply, unify, if_neg separates]
  rw [kept]
  exact suffix.map Char.toLower

/-- An ordinary name at the end stays there. -/
theorem resolve_concat_normal (before : List Component) (name : List Char)
    : resolve (before ++ [.normal name]) = resolve before ++ [.normal name] := by
  rw [resolve, resolve, List.foldl_append]
  exact List.reverse_cons

theorem pieces_single {piece : List Char} (whole : '/' ∉ piece) : pieces piece = [piece] := by
  induction piece with
  | nil => rfl
  | cons char rest ih =>
      simp only [List.mem_cons, not_or] at whole
      rw [pieces, if_neg (Ne.symm whole.1), ih whole.2]

/-- The name after the last separator is the last component. -/
theorem components_ends_in {path last : List Char}
    (ends : path = last ∨ ∃ front, path = front ++ '/' :: last) (whole : '/' ∉ last)
    (ordinary : componentOf last = some (.normal last))
    : ∃ before, components path = before ++ [.normal last] := by
  have alone : inner last = [.normal last] := by
    rw [inner, pieces_single whole, List.filterMap_cons_some ordinary]
    rfl
  rcases ends with rfl | ⟨front, rfl⟩
  · have unrooted : path.head? ≠ some '/' := fun rooted => whole (List.mem_of_mem_head? rooted)
    exact ⟨_, by rw [components_unrooted unrooted, alone]⟩
  · by_cases named : front = []
    · subst named
      exact ⟨[.rootDir], congrArg (List.cons Component.rootDir) alone⟩
    · exact ⟨_, by rw [components_append_separator named, alone]⟩

/-- Every text is what follows its last separator, or ends in a separator and that. -/
theorem exists_last (path : List Char)
    : ∃ last, '/' ∉ last ∧ (path = last ∨ ∃ front, path = front ++ '/' :: last) := by
  induction path with
  | nil => exact ⟨[], List.not_mem_nil, .inl rfl⟩
  | cons char rest ih =>
      obtain ⟨last, whole, rfl | ⟨front, rfl⟩⟩ := ih
      · by_cases separator : char = '/'
        · subst separator
          exact ⟨rest, whole, .inr ⟨[], rfl⟩⟩
        · exact ⟨char :: rest, by simp only [List.mem_cons, Ne.symm separator, whole, or_self,
            not_false_eq_true], .inl rfl⟩
      · exact ⟨last, whole, .inr ⟨char :: front, rfl⟩⟩

/-- What has no separator and stands at the end stands behind the last separator. -/
theorem suffix_of_last {path last ending : List Char}
    (cut : path = last ∨ ∃ front, path = front ++ '/' :: last) (whole : '/' ∉ ending)
    (ends : ending <:+ path)
    : ending <:+ last := by
  rcases cut with rfl | ⟨front, rfl⟩
  · exact ends
  · have behind : last <:+ front ++ '/' :: last := ⟨front ++ ['/'], by simp⟩
    rcases List.suffix_or_suffix_of_suffix ends behind with inside | around
    · exact inside
    · obtain ⟨more, rfl⟩ := around
      rcases List.eq_nil_or_concat' more with rfl | ⟨before, char, rfl⟩
      · exact List.suffix_refl _
      · obtain ⟨start, built⟩ := ends
        have joined : start ++ before ++ [char] ++ last = front ++ ['/'] ++ last := by
          simpa using built
        have separated := List.append_cancel_right joined
        obtain rfl : char = '/' := by simpa using (List.append_inj' separated rfl).2
        exact absurd (by simp) whole

/-- A piece that does not end in a dot is an ordinary name. -/
theorem componentOf_concat {front : List Char} {char : Char} (notDot : char ≠ '.')
    : componentOf (front ++ [char]) = some (.normal (front ++ [char])) := by
  have differs {dots : List Char} (ends : dots.getLast? = some '.') : front ++ [char] ≠ dots := by
    rintro rfl
    rw [List.getLast?_concat] at ends
    exact notDot (Option.some.inj ends)
  rw [componentOf, if_neg, if_neg (differs rfl)]
  rintro (empty | dot)
  · exact List.cons_ne_nil _ _ (List.append_eq_nil_iff.mp empty).2
  · exact differs rfl dot

/-- Of a name that ends in neither dot nor space only the case is ignored. -/
theorem foldComponent_concat {front : List Char} {char : Char} (keep : isTrailing char = false)
    : foldComponent (.normal (front ++ [char]))
      = some (.normal ((front ++ [char]).map Char.toLower)) := by
  have folded : foldName (front ++ [char]) = (front ++ [char]).map Char.toLower := by
    rw [foldName, List.rdropWhile_concat_neg _ _ _ (by rw [keep]; exact Bool.false_ne_true)]
  rw [foldComponent, folded, if_neg]
  rw [List.map_append]
  exact fun empty => List.cons_ne_nil _ _ (List.append_eq_nil_iff.mp empty).2

/-- The file name of a path that ends in no separator, dot or space is what follows the last
separator, in lower case.
-/
theorem fileName_normalise {path : List Char} {char : Char} (ends : path.getLast? = some char)
    (notSlash : char ≠ '/') (notBack : char ≠ '\\') (keep : isTrailing char = false)
    : ∃ last, last <:+ path.map unify
        ∧ (∀ ending, '/' ∉ ending → ending <:+ path.map unify → ending <:+ last)
        ∧ fileName (normalise path) = some (last.map Char.toLower) := by
  obtain ⟨last, whole, cut⟩ := exists_last (path.map unify)
  have stays : (path.map unify).getLast? = some char := by
    rw [List.getLast?_map, ends, Option.map_some, unify, if_neg notBack]
  have lastEnds : last.getLast? = some char := by
    rcases cut with same | ⟨front, same⟩
    · rw [← same]
      exact stays
    · rw [same] at stays
      cases last with
      | nil =>
          rw [List.getLast?_append, List.getLast?_singleton] at stays
          exact absurd (Option.some.inj stays).symm notSlash
      | cons first others =>
          rw [List.getLast?_append, List.getLast?_cons_cons] at stays
          exact stays
  have suffix : last <:+ path.map unify := by
    rcases cut with same | ⟨front, same⟩
    · exact ⟨[], same.symm⟩
    · exact ⟨front ++ ['/'], by rw [same, List.append_assoc, List.singleton_append]⟩
  obtain ⟨front, rfl⟩ := List.getLast?_eq_some_iff.mp lastEnds
  have notDot : char ≠ '.' := by
    rintro rfl
    exact absurd keep (by decide)
  obtain ⟨before, built⟩ := components_ends_in cut whole (componentOf_concat notDot)
  refine ⟨front ++ [char], suffix, fun ending => suffix_of_last cut, ?_⟩
  rw [normalise, built, List.filterMap_append,
    List.filterMap_cons_some (foldComponent_concat keep), List.filterMap_nil,
    resolve_concat_normal, fileName, List.getLast?_concat]

/-- A single name lies under nothing. -/
theorem not_liesUnder_of_single {path directory : List Char} (whole : '/' ∉ path.map unify)
    : ¬LiesUnder directory (normalise path) := by
  have short : (normalise path).length ≤ 1 := by
    have unrooted : (path.map unify).head? ≠ some '/' :=
      fun rooted => whole (List.mem_of_mem_head? rooted)
    have one : (components (path.map unify)).length ≤ 1 := by
      rw [components_unrooted unrooted, inner, pieces_single whole]
      by_cases dot : path.map unify = ['.']
      · rw [dot]
        decide
      · rw [if_neg (by simpa using dot)]
        exact List.length_filterMap_le _ _
    have few := (List.length_filterMap_le foldComponent _).trans one
    rw [normalise]
    rcases folded : (components (path.map unify)).filterMap foldComponent with
      _ | ⟨component, _ | ⟨_, _⟩⟩
    · exact Nat.zero_le _
    · cases component <;> simp [resolve, follow]
    · simp [folded] at few
  rintro ⟨⟨rest, built⟩, more⟩
  rw [← built, List.length_append, List.length_singleton] at short
  have nothing : rest = [] := List.length_eq_zero_iff.mp (by omega)
  rw [← built, nothing] at more
  exact more (List.append_nil _)

end VerticalAI.Foundation.Path
