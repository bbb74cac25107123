import VerticalAI.Store.SegmentReplay

/-! Directories that hold a list of events: full segments, then the one being filled. -/

namespace VerticalAI.Store
open VerticalAI.Foundation VerticalAI.Contracts

/-- The most events whose segments six digits can number. -/
def maxEvents : Nat := 10 ^ 10

theorem maxEvents_lt : maxEvents < 2 ^ 64 := by decide

/-- Segments under their names, numbered from zero. -/
def rowsOf (contents : List (List UInt8)) : List (String × List UInt8) :=
  contents.mapIdx (fun segment bytes => (segmentFile segment, bytes))

theorem rowsOf_concat (contents : List (List UInt8)) (bytes : List UInt8)
    : rowsOf (contents ++ [bytes])
      = rowsOf contents ++ [(segmentFile contents.length, bytes)] := by
  simp only [rowsOf, List.mapIdx_append, List.mapIdx_cons, List.mapIdx_nil, Nat.zero_add]

theorem mem_rowsOf {contents : List (List UInt8)} {name : String} {bytes : List UInt8}
    : (name, bytes) ∈ rowsOf contents
      ↔ ∃ segment, contents[segment]? = some bytes ∧ name = segmentFile segment := by
  simp only [rowsOf, List.mem_mapIdx, Prod.mk.injEq]
  constructor
  · rintro ⟨segment, bound, rfl, rfl⟩
    exact ⟨segment, List.getElem?_eq_getElem bound, rfl⟩
  · rintro ⟨segment, found, rfl⟩
    obtain ⟨bound, rfl⟩ := List.getElem?_eq_some_iff.mp found
    exact ⟨segment, bound, rfl, rfl⟩

theorem rowsOf_increasing {contents : List (List UInt8)}
    (fits : contents.length ≤ maxSegments)
    : (rowsOf contents).Pairwise (fun first second => compare first.1 second.1 = .lt) := by
  rw [List.pairwise_iff_getElem]
  intro low high boundLow boundHigh smaller
  have bound : high < contents.length := by
    simpa only [rowsOf, List.length_mapIdx] using boundHigh
  simp only [rowsOf, List.getElem_mapIdx]
  exact segmentFile_lt smaller (by omega)

/-- The directory lists these segments and nothing else. -/
structure Lists (dir : Dir) (full : List (List UInt8)) (last : Option (List UInt8))
    : Prop where
  listing : dir.list = rowsOf (full ++ last.toList)
  room : full.length < maxSegments ∨ (last = none ∧ full.length ≤ maxSegments)

namespace Lists

variable {dir : Dir} {full : List (List UInt8)} {last : Option (List UInt8)}

/-- Every listed file is a segment. -/
theorem segments_eq (lists : Lists dir full last)
    : segments dir = rowsOf (full ++ last.toList) := by
  rw [segments, lists.listing, List.filter_eq_self]
  rintro ⟨name, bytes⟩ member
  obtain ⟨segment, found, rfl⟩ := mem_rowsOf.mp member
  exact isSegment_segmentFile segment

/-- The newest segment is the one after the full ones. -/
theorem newest (lists : Lists dir full last) (room : full.length < maxSegments)
    : dir[segmentFile full.length]? = last := by
  refine Option.ext fun bytes => ?_
  rw [← Table.mem_list, lists.listing, mem_rowsOf]
  constructor
  · rintro ⟨segment, found, named⟩
    have bound := (List.getElem?_eq_some_iff.mp found).1
    have atMostOne : last.toList.length ≤ 1 := Option.length_toList_le
    rw [List.length_append] at bound
    have same := segmentFile_injective room (by omega) named
    subst same
    rw [List.getElem?_append_right (Nat.le_refl _), Nat.sub_self] at found
    cases last with
    | none => simp only [Option.toList_none, List.getElem?_nil, reduceCtorEq] at found
    | some held =>
        simpa only [Option.toList_some, List.getElem?_cons_zero] using found
  · rintro rfl
    refine ⟨full.length, ?_, rfl⟩
    rw [List.getElem?_append_right (Nat.le_refl _), Nat.sub_self]
    rfl

/-- Writing the newest segment replaces it or adds it at the end of the listing. -/
theorem insert (lists : Lists dir full last) (room : full.length < maxSegments)
    (bytes : List UInt8)
    : Lists (dir.insert (segmentFile full.length) bytes) full (some bytes) := by
  refine ⟨Table.list_eq (rowsOf_increasing ?_) ?_, Or.inl room⟩
  · simp only [Option.toList_some, List.length_append, List.length_singleton]
    omega
  · intro name held
    rw [Option.toList_some, rowsOf_concat, List.mem_append, List.mem_singleton]
    by_cases same : name = segmentFile full.length
    · subst same
      rw [Std.ExtTreeMap.getElem?_insert_self, Option.some.injEq, Prod.mk.injEq]
      constructor
      · rintro (member | ⟨-, rfl⟩)
        · obtain ⟨segment, found, named⟩ := mem_rowsOf.mp member
          have bound := (List.getElem?_eq_some_iff.mp found).1
          have equal := segmentFile_injective room (by omega) named
          omega
        · rfl
      · rintro rfl
        exact Or.inr ⟨rfl, rfl⟩
    · rw [Table.getElem?_insert_ne same, ← Table.mem_list, lists.listing]
      cases last with
      | none =>
          simp only [Option.toList_none, List.append_nil, Prod.mk.injEq, same, false_and,
            or_false]
      | some previous =>
          simp only [Option.toList_some, rowsOf_concat, List.mem_append,
            List.mem_singleton, Prod.mk.injEq, same, false_and, or_false]

end Lists

/-- The directory holds these events: `chunks` in full segments, `tail` in the newest one. -/
structure Holds (dir : Dir) (full : List (List UInt8)) (chunks : List (List LedgerEvent))
    (last : Option (List UInt8)) (tail : List LedgerEvent)
    : Prop where
  lists : Lists dir full last
  images : List.Forall₂ SegmentImage full chunks
  sizes : ∀ chunk ∈ chunks, chunk.length = segmentEvents
  newest : last = some (segmentBytes tail) ∨ (last = none ∧ tail = [])
  open_end : tail.length < segmentEvents

/-- The directory replays to exactly these events and can be appended to. -/
def Stores (dir : Dir) (events : List LedgerEvent) : Prop :=
  ∃ full chunks last tail,
    Holds dir full chunks last tail ∧ events = chunks.flatten ++ tail

theorem length_flatten_chunks {chunks : List (List LedgerEvent)}
    (sizes : ∀ chunk ∈ chunks, chunk.length = segmentEvents)
    : chunks.flatten.length = chunks.length * segmentEvents := by
  induction chunks with
  | nil => simp only [List.flatten_nil, List.length_nil, Nat.zero_mul]
  | cons chunk rest ih =>
      have first := sizes chunk List.mem_cons_self
      have others := ih (fun other member => sizes other (List.mem_cons_of_mem _ member))
      rw [List.flatten_cons, List.length_append, List.length_cons, first, others,
        Nat.succ_mul, Nat.add_comm]

namespace Holds

variable {dir : Dir} {full : List (List UInt8)} {chunks : List (List LedgerEvent)}
  {last : Option (List UInt8)} {tail : List LedgerEvent}

theorem length_events (holds : Holds dir full chunks last tail)
    : (chunks.flatten ++ tail).length = full.length * segmentEvents + tail.length := by
  rw [List.length_append, length_flatten_chunks holds.sizes, holds.images.length_eq]

/-- The next event goes to the newest segment. -/
theorem segment_eq (holds : Holds dir full chunks last tail)
    : (chunks.flatten ++ tail).length / segmentEvents = full.length := by
  have newest := holds.open_end
  rw [holds.length_events]
  unfold segmentEvents at *
  omega

theorem room (holds : Holds dir full chunks last tail)
    (fits : (chunks.flatten ++ tail).length < maxEvents)
    : full.length < maxSegments := by
  rw [holds.length_events] at fits
  unfold maxEvents segmentEvents at fits
  unfold maxSegments
  omega

/-- What the newest segment has so far is the text of its events. -/
theorem newest_bytes (holds : Holds dir full chunks last tail)
    (room : full.length < maxSegments)
    : dir[segmentFile full.length]?.getD [] = segmentBytes tail := by
  rw [holds.lists.newest room]
  rcases holds.newest with held | ⟨absent, empty⟩
  · rw [held, Option.getD_some]
  · rw [absent, empty]
    rfl

/-- The path the next event is written to. -/
theorem segmentPath_eq (holds : Holds dir full chunks last tail)
    (fits : (chunks.flatten ++ tail).length < maxEvents)
    : segmentPath (UInt64.ofNat (chunks.flatten ++ tail).length) = segmentFile full.length := by
  have small : (chunks.flatten ++ tail).length < 2 ^ 64 := by
    unfold maxEvents at fits
    omega
  rw [segmentPath, UInt64.toNat_ofNat_of_lt' small, holds.segment_eq]

end Holds

/-- Writing the newest segment as the image of a longer or equal list of its events stores
them; a segment that is now full may lack its last line break.
-/
theorem stores_insert {dir : Dir} {full : List (List UInt8)}
    {chunks : List (List LedgerEvent)} {last : Option (List UInt8)}
    (lists : Lists dir full last) (images : List.Forall₂ SegmentImage full chunks)
    (sizes : ∀ chunk ∈ chunks, chunk.length = segmentEvents)
    (room : full.length < maxSegments) {bytes : List UInt8} {tail : List LedgerEvent}
    (image : SegmentImage bytes tail) (short : tail.length ≤ segmentEvents)
    (terminated : tail.length < segmentEvents → bytes = segmentBytes tail)
    : Stores (dir.insert (segmentFile full.length) bytes) (chunks.flatten ++ tail) := by
  have written := lists.insert room bytes
  rcases Nat.lt_or_ge tail.length segmentEvents with filling | complete
  · exact ⟨full, chunks, some bytes, tail,
      ⟨written, images, sizes, Or.inl (by rw [terminated filling]), filling⟩, rfl⟩
  · have listing := written.listing
    have moved : full ++ (some bytes).toList = (full ++ [bytes]) ++ (none : Option _).toList := by
      simp only [Option.toList_some, Option.toList_none, List.append_nil]
    rw [moved] at listing
    refine ⟨full ++ [bytes], chunks ++ [tail], none, [], ⟨⟨listing, Or.inr ⟨rfl, ?_⟩⟩,
      ?_, ?_, Or.inr ⟨rfl, rfl⟩, by decide⟩, ?_⟩
    · rw [List.length_append, List.length_singleton]
      omega
    · exact List.rel_append images (List.Forall₂.cons image List.Forall₂.nil)
    · intro chunk member
      rcases List.mem_append.mp member with earlier | new
      · exact sizes chunk earlier
      · rw [List.mem_singleton.mp new]
        omega
    · simp only [List.flatten_append, List.flatten_cons, List.flatten_nil, List.append_nil]

theorem lists_empty : Lists ∅ [] none := ⟨rfl, Or.inr ⟨rfl, by decide⟩⟩

/-- The empty directory stores no events. -/
theorem stores_empty : Stores ∅ [] :=
  ⟨[], [], none, [], ⟨lists_empty, List.Forall₂.nil,
    by simp only [List.not_mem_nil, false_implies, implies_true], Or.inr ⟨rfl, rfl⟩,
    by decide⟩, rfl⟩

/-- One segment stores the events whose lines it has. -/
theorem stores_segment {events : List LedgerEvent} (few : events.length ≤ segmentEvents)
    : Stores (Std.ExtTreeMap.insert ∅ (segmentFile 0) (segmentBytes events)) events :=
  stores_insert lists_empty List.Forall₂.nil (by simp) (by decide) (Or.inl rfl) few fun _ => rfl

end VerticalAI.Store
