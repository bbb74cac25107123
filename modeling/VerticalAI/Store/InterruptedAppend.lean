import VerticalAI.Store.LedgerOps

/-! Opening a directory whose newest segment ends in bytes of a line that was being appended:
one lemma for each way those bytes can end.
-/

namespace VerticalAI.Store
open VerticalAI.Foundation VerticalAI.Contracts

/-- The newest segment holds the text of its events and, after it, bytes of a line that was
being appended.
-/
structure Interrupted (dir : Dir) (full : List (List UInt8))
    (chunks : List (List LedgerEvent)) (tail : List LedgerEvent) (bytes : List UInt8)
    : Prop where
  lists : Lists dir full (some (segmentBytes tail ++ bytes))
  room : full.length < maxSegments
  images : List.Forall₂ SegmentImage full chunks
  sizes : ∀ chunk ∈ chunks, chunk.length = segmentEvents
  open_end : tail.length < segmentEvents

namespace Interrupted

variable {dir : Dir} {full : List (List UInt8)} {chunks : List (List LedgerEvent)}
  {tail : List LedgerEvent} {bytes : List UInt8}

theorem decode_eq (bytes : List UInt8)
    : Utf8.decode (segmentBytes tail ++ bytes)
      = (Utf8.decode bytes).map (linesText tail ++ ·) :=
  Utf8.decode_encode_append _ _

/-- Cutting the segment back to its whole lines stores their events again. -/
theorem stores_truncated (interrupted : Interrupted dir full chunks tail bytes)
    : Stores (dir.insert (segmentFile full.length) (segmentBytes tail))
        (chunks.flatten ++ tail) :=
  stores_insert interrupted.lists interrupted.images interrupted.sizes interrupted.room
    (Or.inl rfl) (Nat.le_of_lt interrupted.open_end) (fun _ => rfl)

/-- Nothing landed: the segment is as it was. -/
theorem stores_nothing (interrupted : Interrupted dir full chunks tail [])
    : Stores dir (chunks.flatten ++ tail) := by
  have lists := interrupted.lists
  rw [List.append_nil] at lists
  exact ⟨full, chunks, _, tail, ⟨lists, interrupted.images, interrupted.sizes, Or.inl rfl,
    interrupted.open_end⟩, rfl⟩

/-- When that event was the last of its segment, the directory stores it like any other. -/
theorem stores_whole (interrupted : Interrupted dir full chunks tail bytes)
    {event : LedgerEvent} (read : Utf8.decode bytes = some event.toJson.render)
    (complete : tail.length + 1 = segmentEvents)
    : Stores dir (chunks.flatten ++ (tail ++ [event])) := by
  have image : SegmentImage (segmentBytes tail ++ bytes) (tail ++ [event]) := by
    refine Or.inr ?_
    rw [← Utf8.encode_of_decode read, segmentBytes_append, segmentBytes_singleton, eventLine,
      Utf8.encode_append, List.append_assoc]
  have length : (tail ++ [event]).length = segmentEvents := by
    rw [List.length_append, List.length_singleton, complete]
  have same : dir.insert (segmentFile full.length) (segmentBytes tail ++ bytes) = dir := by
    refine Std.ExtTreeMap.ext_getElem? fun name => ?_
    by_cases named : name = segmentFile full.length
    · rw [named, Std.ExtTreeMap.getElem?_insert_self,
        interrupted.lists.newest interrupted.room]
    · rw [Table.getElem?_insert_ne named]
  have stored := stores_insert interrupted.lists interrupted.images interrupted.sizes
    interrupted.room image (Nat.le_of_eq length) (fun short => by omega)
  rwa [same] at stored

section Opening

variable [EventReader]

/-- Opening comes down to replaying the interrupted segment. -/
theorem open_eq (lawful : EventReader.Lawful)
    (interrupted : Interrupted dir full chunks tail bytes)
    : replaySegments (segments dir) ⟨{}, false, dir⟩
      = replaySegments [(segmentFile full.length, segmentBytes tail ++ bytes)]
          ⟨⟨chunks.flatten⟩, false, dir⟩ :=
  open_lists lawful interrupted.lists interrupted.images

/-- A cut inside a character leaves a segment that is not text, and opening fails. -/
theorem open_not_text (lawful : EventReader.Lawful)
    (interrupted : Interrupted dir full chunks tail bytes) (broken : Utf8.decode bytes = none)
    : ∃ err, LedgerFs.open dir = .error err := by
  rw [LedgerFs.open, LedgerFs.openIn, interrupted.open_eq lawful, replaySegments, decode_eq,
    broken, Option.map_none]
  exact ⟨_, rfl⟩

/-- A cut that leaves part of the event's text is dropped and truncated away. -/
theorem open_part (lawful : EventReader.Lawful)
    (interrupted : Interrupted dir full chunks tail bytes) {text : List Char}
    {event : LedgerEvent} (read : Utf8.decode bytes = some text) (nonempty : text ≠ [])
    (inside : text <+: event.toJson.render) (part : text ≠ event.toJson.render)
    : LedgerFs.open dir
      = .ok (⟨⟨chunks.flatten ++ tail⟩, true⟩,
          dir.insert (segmentFile full.length) (segmentBytes tail)) := by
  obtain ⟨brace, opens⟩ := render_event event
  obtain ⟨err, refused⟩ := lawful.incomplete event text inside part
  obtain ⟨rest, joined⟩ := inside
  have starts : ∃ others, text = '{' :: others := by
    cases text with
    | nil => exact absurd rfl nonempty
    | cons char others =>
        rw [opens, List.cons_append] at joined
        exact ⟨others, by rw [(List.cons.inj joined).1]⟩
  have absent : '\n' ∉ text := by
    intro member
    exact newline_not_mem_event event (joined ▸ List.mem_append_left rest member)
  have line := brace_line starts absent
  have unterminated : text.getLast? ≠ some '\n' :=
    fun ends => absent (List.mem_of_getLast? ends)
  -- The bytes before the line are what truncating keeps of the segment.
  have kept : (dir[segmentFile full.length]?.getD []).take (0 + (segmentBytes tail).length)
      = segmentBytes tail := by
    rw [interrupted.lists.newest interrupted.room, Option.getD_some, Nat.zero_add,
      List.take_left]
  rw [LedgerFs.open, LedgerFs.openIn, interrupted.open_eq lawful, replaySegments, decode_eq,
    read, Option.map_some]
  simp only [splitInclusive_linesText, Text.splitInclusive_unterminated absent nonempty,
    replayLines_events lawful, List.isEmpty_nil, replayLines, line.1, if_neg line.2, refused,
    unterminated, ne_eq, not_false_eq_true, decide_true, Bool.and_self, if_true,
    replaySegments, kept]

/-- When the whole text of the event landed, it is replayed and the segment stays as it is. -/
theorem open_whole (lawful : EventReader.Lawful)
    (interrupted : Interrupted dir full chunks tail bytes) {event : LedgerEvent}
    (read : Utf8.decode bytes = some event.toJson.render)
    : LedgerFs.open dir = .ok (⟨⟨chunks.flatten ++ (tail ++ [event])⟩, false⟩, dir) := by
  have image : SegmentImage (segmentBytes tail ++ bytes) (tail ++ [event]) := by
    refine Or.inr ?_
    rw [← Utf8.encode_of_decode read, segmentBytes_append, segmentBytes_singleton, eventLine,
      Utf8.encode_append, List.append_assoc]
  obtain ⟨text, decoded, replayed⟩ := replayLines_image lawful image
    (segmentFile full.length) true ⟨⟨chunks.flatten⟩, false, dir⟩
  rw [LedgerFs.open, LedgerFs.openIn, interrupted.open_eq lawful, replaySegments, decoded]
  simp only [List.isEmpty_nil, replayed, replaySegments]

/-- Otherwise the next append continues the unterminated line, and no later open gets past
it.
-/
theorem open_merged (lawful : EventReader.Lawful)
    (interrupted : Interrupted dir full chunks tail bytes) {event : LedgerEvent}
    (read : Utf8.decode bytes = some event.toJson.render) (later : LedgerEvent)
    : ∃ err,
        LedgerFs.open (dir.insert (segmentFile full.length)
          ((segmentBytes tail ++ bytes) ++ Utf8.encode (eventLine later)))
        = .error err := by
  have merged := interrupted.lists.insert interrupted.room
    ((segmentBytes tail ++ bytes) ++ Utf8.encode (eventLine later))
  obtain ⟨inside, opens⟩ := render_event event
  obtain ⟨insideLater, opensLater⟩ := render_event later
  have absent : '\n' ∉ event.toJson.render ++ later.toJson.render := by
    rw [List.mem_append, not_or]
    exact ⟨newline_not_mem_event event, newline_not_mem_event later⟩
  have line := brace_line
    ⟨inside ++ later.toJson.render, by rw [opens, List.cons_append]⟩ absent
  obtain ⟨err, refused⟩ := lawful.trailing _ insideLater event (lawful.reads event)
  rw [← opensLater] at refused
  have decoded : Utf8.decode ((segmentBytes tail ++ bytes) ++ Utf8.encode (eventLine later))
      = some (linesText tail
          ++ (event.toJson.render ++ later.toJson.render ++ '\n' :: [])) := by
    rw [← Utf8.encode_of_decode read, segmentBytes, ← Utf8.encode_append,
      ← Utf8.encode_append, Utf8.decode_encode, eventLine, List.append_assoc,
      List.append_assoc]
  have stripped : (event.toJson.render ++ later.toJson.render ++ ['\n']).rdropWhile (· = '\n')
      = event.toJson.render ++ later.toJson.render := by
    rw [List.rdropWhile_concat_pos _ _ _ (by decide), line.1]
  have terminated : (event.toJson.render ++ later.toJson.render ++ ['\n']).getLast?
      = some '\n' := by
    rw [List.getLast?_append, List.getLast?_singleton, Option.some_or]
  rw [LedgerFs.open, LedgerFs.openIn, open_lists lawful merged interrupted.images,
    Option.toList_some, List.map_cons, List.map_nil, replaySegments, decoded]
  simp only [splitInclusive_linesText, Text.splitInclusive_terminated absent,
    replayLines_events lawful, replayLines, stripped, if_neg line.2, refused, terminated,
    ne_eq, not_true_eq_false, decide_false, Bool.and_false, Bool.false_eq_true, if_false]
  exact ⟨_, rfl⟩

end Opening

end Interrupted

end VerticalAI.Store
