import VerticalAI.Store.SegmentReplay

/-! Directories whose segments hold arbitrary bytes, as after an alteration behind the store's
back: which of them open, what they replay to, and what writing a line does to them.
-/

namespace VerticalAI.Store
open VerticalAI.Foundation VerticalAI.Contracts

section Foreign

variable [EventReader]

-----------------------------------------------------------------------------------------
-- Readable directories
-----------------------------------------------------------------------------------------

/-- What the JSON library is given of a line. -/
def lineText (rawLine : List Char) : List Char := rawLine.rdropWhile (· = '\n')

/-- The events a line adds to the chain: one, or none if it is blank. -/
def lineEvents (rawLine : List Char) : List LedgerEvent :=
  if Text.trim (lineText rawLine) = [] then []
  else
    match EventReader.fromStr (lineText rawLine) with
    | .ok event => [event]
    | .error _ => []

/-- The line is blank or an event. -/
def Readable (rawLine : List Char) : Prop :=
  Text.trim (lineText rawLine) = []
  ∨ ∃ event, EventReader.fromStr (lineText rawLine) = .ok event

/-- The lines of a file, if it is a text. -/
def fileLines (bytes : List UInt8) : Option (List (List Char)) :=
  (Utf8.decode bytes).map (Text.splitInclusive '\n')

/-- The file is a text of readable lines. -/
def FileReads (bytes : List UInt8) : Prop :=
  ∃ lines, fileLines bytes = some lines ∧ ∀ line ∈ lines, Readable line

/-- The events a file adds to the chain. -/
def fileEvents (bytes : List UInt8) : List LedgerEvent :=
  ((fileLines bytes).getD []).flatMap lineEvents

/-- The events these files hold, in order. -/
def filesEvents (files : List (String × List UInt8)) : List LedgerEvent :=
  files.flatMap fun file => fileEvents file.2

/-- Every segment of the directory reads, and together they hold these events. -/
structure Reads (dir : Dir) (events : List LedgerEvent) : Prop where
  files : ∀ file ∈ segments dir, FileReads file.2
  events_eq : filesEvents (segments dir) = events

/-- Some segment has a whole line that is no event. -/
def Corrupt (dir : Dir) : Prop :=
  ∃ file ∈ segments dir, ∃ lines,
    fileLines file.2 = some lines
    ∧ ∃ line ∈ lines, Text.Terminated '\n' line ∧ ¬Readable line

/-- The text of events reads as these events. -/
theorem fileReads_segmentBytes (lawful : EventReader.Lawful) (events : List LedgerEvent)
    : FileReads (segmentBytes events) ∧ fileEvents (segmentBytes events) = events := by
  have cut : fileLines (segmentBytes events) = some (events.map eventLine) := by
    have pieces := splitInclusive_linesText events []
    rw [List.append_nil, Text.splitInclusive_nil, List.append_nil] at pieces
    rw [fileLines, segmentBytes, Utf8.decode_encode, Option.map_some, pieces]
  have text (event : LedgerEvent) : lineText (eventLine event) = event.toJson.render :=
    rdropWhile_eventLine event
  have present (event : LedgerEvent) : Text.trim event.toJson.render ≠ [] :=
    (brace_line (render_event event) (newline_not_mem_event event)).2
  constructor
  · refine ⟨_, cut, fun line member => ?_⟩
    obtain ⟨event, -, rfl⟩ := List.mem_map.mp member
    exact Or.inr ⟨event, by rw [text, lawful.reads]⟩
  · have one (event : LedgerEvent) : lineEvents (eventLine event) = [event] := by
      simp only [lineEvents, text, if_neg (present event), lawful.reads]
    rw [fileEvents, cut, Option.getD_some, List.flatMap_map]
    simp only [one, List.flatMap_singleton']

-----------------------------------------------------------------------------------------
-- Opening
-----------------------------------------------------------------------------------------

/-- A readable line is replayed to its events. -/
theorem replayLines_readable {name : String} {isLast : Bool} {rawLine : List Char}
    (readable : Readable rawLine) (rest : List (List Char)) (lineIdx offset : Nat)
    (state : Replay)
    : replayLines name isLast (rawLine :: rest) lineIdx offset state
      = replayLines name isLast rest (lineIdx + 1) (offset + (Utf8.encode rawLine).length)
          { state with chain := ⟨state.chain.events ++ lineEvents rawLine⟩ } := by
  by_cases blank : Text.trim (lineText rawLine) = []
  · have none : lineEvents rawLine = [] := if_pos blank
    unfold lineText at blank
    simp only [replayLines, if_pos blank, none, List.append_nil]
  · obtain ⟨event, read⟩ := readable.resolve_left blank
    have one : lineEvents rawLine = [event] := by
      simp only [lineEvents, if_neg blank, read]
    unfold lineText at blank read
    simp only [replayLines, if_neg blank, read, one, Ledger.pushVerified]

/-- Readable lines are replayed to their events, by induction on the lines. -/
theorem replayLines_allReadable {name : String} {isLast : Bool} {lines : List (List Char)}
    (readable : ∀ line ∈ lines, Readable line) (rest : List (List Char))
    (lineIdx offset : Nat) (state : Replay)
    : replayLines name isLast (lines ++ rest) lineIdx offset state
      = replayLines name isLast rest (lineIdx + lines.length)
          (offset + (Utf8.encode lines.flatten).length)
          { state with chain := ⟨state.chain.events ++ lines.flatMap lineEvents⟩ } := by
  induction lines generalizing lineIdx offset state with
  | nil =>
      simp only [List.nil_append, List.length_nil, Nat.add_zero, List.flatten_nil,
        Utf8.encode_nil, List.flatMap_nil, List.append_nil]
  | cons line others ih =>
      have later := fun other member => readable other (List.mem_cons_of_mem line member)
      rw [List.cons_append, replayLines_readable (readable line List.mem_cons_self), ih later]
      simp only [List.flatMap_cons, List.flatten_cons, Utf8.encode_append, List.length_append,
        List.append_assoc, List.length_cons]
      congr 1 <;> omega

/-- Readable lines of a whole file are replayed to their events. -/
theorem replayLines_file {name : String} {isLast : Bool} {lines : List (List Char)}
    (readable : ∀ line ∈ lines, Readable line) (state : Replay)
    : replayLines name isLast lines 0 0 state
      = (.ok (), { state with chain := ⟨state.chain.events ++ lines.flatMap lineEvents⟩ }) := by
  rw [← List.append_nil lines, replayLines_allReadable readable, List.append_nil, replayLines]

/-- Lines that replay are readable, but for an unterminated last one that is cut off. By
induction on the lines.
-/
theorem replayLines_inv {name : String} {isLast : Bool} {lines : List (List Char)}
    {lineIdx offset : Nat} {state final : Replay}
    (replayed : replayLines name isLast lines lineIdx offset state = (.ok (), final))
    : ((∀ line ∈ lines, Readable line)
        ∧ final = { state with
            chain := ⟨state.chain.events ++ lines.flatMap lineEvents⟩ })
      ∨ ∃ front last,
          lines = front ++ [last]
          ∧ isLast = true
          ∧ last.getLast? ≠ some '\n'
          ∧ (∀ line ∈ front, Readable line)
          ∧ final = {
              chain := ⟨state.chain.events ++ front.flatMap lineEvents⟩
              recovered := true
              dir := state.dir.insert name ((state.dir[name]?.getD []).take
                (offset + (Utf8.encode front.flatten).length)) } := by
  induction lines generalizing lineIdx offset state with
  | nil =>
      cases replayed
      refine Or.inl ⟨fun _ member => absurd member List.not_mem_nil, ?_⟩
      simp only [List.flatMap_nil, List.append_nil]
  | cons line others ih =>
      by_cases readable : Readable line
      · have whole {lines : List (List Char)} (later : ∀ line ∈ lines, Readable line)
            : ∀ other ∈ line :: lines, Readable other := by
          intro other member
          rcases List.mem_cons.mp member with rfl | inside
          · exact readable
          · exact later other inside
        rw [replayLines_readable readable] at replayed
        rcases ih replayed with ⟨later, rfl⟩ | ⟨front, last, rfl, isLast, open_end, later, rfl⟩
        · exact Or.inl ⟨whole later, by simp only [List.flatMap_cons, List.append_assoc]⟩
        · refine Or.inr ⟨line :: front, last, rfl, isLast, open_end, whole later, ?_⟩
          simp only [List.flatMap_cons, List.append_assoc, List.flatten_cons,
            Utf8.encode_append, List.length_append, Nat.add_assoc]
      · have present : ¬Text.trim (lineText line) = [] := fun blank => readable (Or.inl blank)
        cases read : EventReader.fromStr (lineText line) with
        | ok event => exact absurd (Or.inr ⟨event, read⟩) readable
        | error err =>
            unfold lineText at present read
            simp only [replayLines, if_neg present, read] at replayed
            split at replayed
            · next ends =>
                cases replayed
                simp only [Bool.and_eq_true, List.isEmpty_iff, decide_eq_true_eq] at ends
                obtain ⟨⟨isLast, rfl⟩, open_end⟩ := ends
                refine Or.inr ⟨[], line, rfl, isLast, open_end,
                  fun _ member => absurd member List.not_mem_nil, ?_⟩
                simp only [List.flatMap_nil, List.append_nil, List.flatten_nil,
                  Utf8.encode_nil, List.length_nil, Nat.add_zero]
            · cases replayed

/-- Replaying files goes through the first and on to the others, and needs both to succeed. -/
theorem replaySegments_cons_inv {name : String} {bytes : List UInt8}
    {others : List (String × List UInt8)} {state final : Replay}
    (replayed : replaySegments ((name, bytes) :: others) state = (.ok (), final))
    : ∃ lines middle,
        fileLines bytes = some lines
        ∧ replayLines name others.isEmpty lines 0 0 state = (.ok (), middle)
        ∧ replaySegments others middle = (.ok (), final) := by
  cases read : Utf8.decode bytes with
  | none =>
      simp only [replaySegments, read] at replayed
      cases replayed
  | some text =>
      rcases lines : replayLines name others.isEmpty (Text.splitInclusive '\n' text) 0 0 state
        with ⟨err | _, middle⟩
      · simp only [replaySegments, read, lines] at replayed
        cases replayed
      · simp only [replaySegments, read, lines] at replayed
        exact ⟨_, middle, by rw [fileLines, read, Option.map_some], lines, replayed⟩

/-- Files that read are replayed to their events, by induction on the files. -/
theorem replaySegments_reads {files : List (String × List UInt8)}
    (reads : ∀ file ∈ files, FileReads file.2) (state : Replay)
    : replaySegments files state
      = (.ok (), { state with chain := ⟨state.chain.events ++ filesEvents files⟩ }) := by
  induction files generalizing state with
  | nil => simp only [replaySegments, filesEvents, List.flatMap_nil, List.append_nil]
  | cons file others ih =>
      obtain ⟨name, bytes⟩ := file
      obtain ⟨lines, cut, readable⟩ := reads (name, bytes) List.mem_cons_self
      have later := ih (fun file member => reads file (List.mem_cons_of_mem _ member))
      obtain ⟨text, read, rfl⟩ := Option.map_eq_some_iff.mp cut
      simp only [replaySegments, read, replayLines_file readable, later, filesEvents,
        List.flatMap_cons, fileEvents, fileLines, Option.map_some, Option.getD_some,
        List.append_assoc]

/-- A directory that reads is opened to its events and stays as it is. -/
theorem Reads.opens {dir : Dir} {events : List LedgerEvent} (reads : Reads dir events)
    : LedgerFs.open dir = .ok (⟨⟨events⟩, false⟩, dir) := by
  rw [LedgerFs.open, LedgerFs.openIn, replaySegments_reads reads.files, reads.events_eq]
  rfl

/-- The last file reads but for an unterminated last line, which opening cuts off. -/
structure CutOff (files front : List (String × List UInt8)) (name : String)
    (bytes : List UInt8) (lines : List (List Char)) (last : List Char)
    : Prop where
  files_eq : files = front ++ [(name, bytes)]
  front : ∀ file ∈ front, FileReads file.2
  pieces : fileLines bytes = some (lines ++ [last])
  open_end : last.getLast? ≠ some '\n'
  readable : ∀ line ∈ lines, Readable line

/-- Files that replay read, but for an unterminated last line of the last one. By induction on
the files.
-/
theorem replaySegments_inv {files : List (String × List UInt8)} {state final : Replay}
    (replayed : replaySegments files state = (.ok (), final))
    : ((∀ file ∈ files, FileReads file.2)
        ∧ final = { state with chain := ⟨state.chain.events ++ filesEvents files⟩ })
      ∨ ∃ front name bytes lines last,
          CutOff files front name bytes lines last
          ∧ final = {
              chain := ⟨state.chain.events ++ (filesEvents front ++ lines.flatMap lineEvents)⟩
              recovered := true
              dir := state.dir.insert name ((state.dir[name]?.getD []).take
                (Utf8.encode lines.flatten).length) } := by
  induction files generalizing state with
  | nil =>
      cases replayed
      refine Or.inl ⟨fun _ member => absurd member List.not_mem_nil, ?_⟩
      simp only [filesEvents, List.flatMap_nil, List.append_nil]
  | cons file others ih =>
      obtain ⟨name, bytes⟩ := file
      obtain ⟨lines, middle, cut, first, rest⟩ := replaySegments_cons_inv replayed
      have held : fileEvents bytes = lines.flatMap lineEvents := by
        rw [fileEvents, cut, Option.getD_some]
      rcases replayLines_inv first with
        ⟨readable, rfl⟩ | ⟨front, last, rfl, isLast, open_end, readable, rfl⟩
      · have whole {files : List (String × List UInt8)}
            (later : ∀ file ∈ files, FileReads file.2)
            : ∀ file ∈ (name, bytes) :: files, FileReads file.2 := by
          intro file member
          rcases List.mem_cons.mp member with rfl | inside
          · exact ⟨lines, cut, readable⟩
          · exact later file inside
        rcases ih rest with ⟨later, rfl⟩
          | ⟨front, lastName, lastBytes, kept, last, cutOff, rfl⟩
        · refine Or.inl ⟨whole later, ?_⟩
          simp only [filesEvents, List.flatMap_cons, held, List.append_assoc]
        · refine Or.inr ⟨(name, bytes) :: front, lastName, lastBytes, kept, last,
            ⟨?_, whole cutOff.front, cutOff.pieces, cutOff.open_end, cutOff.readable⟩, ?_⟩
          · rw [cutOff.files_eq, List.cons_append]
          · simp only [filesEvents, List.flatMap_cons, held, List.append_assoc]
      · obtain rfl : others = [] := List.isEmpty_iff.mp isLast
        cases rest
        refine Or.inr ⟨[], name, bytes, front, last,
          ⟨rfl, fun _ member => absurd member List.not_mem_nil, cut, open_end, readable⟩, ?_⟩
        simp only [filesEvents, List.flatMap_nil, List.nil_append, Nat.zero_add]

-----------------------------------------------------------------------------------------
-- Writing one file
-----------------------------------------------------------------------------------------

omit [EventReader] in
/-- Writing a segment changes the list of segments in one place. -/
theorem segments_insert (dir : Dir) {path : String} (named : isSegment path = true)
    : ∃ before after,
        segments dir = before ++ (dir[path]?.map (path, ·)).toList ++ after
        ∧ ∀ bytes, segments (dir.insert path bytes) = before ++ [(path, bytes)] ++ after := by
  obtain ⟨before, after, listing, written⟩ := Table.list_insert dir path
  refine ⟨before.filter (fun file => isSegment file.1),
    after.filter (fun file => isSegment file.1), ?_, fun bytes => ?_⟩
  · have kept : (dir[path]?.map (path, ·)).toList.filter (fun file => isSegment file.1)
        = (dir[path]?.map (path, ·)).toList := by
      cases dir[path]? with
      | none => rfl
      | some bytes => simp only [Option.map_some, Option.toList_some, List.filter_cons, named,
          if_true, List.filter_nil]
    rw [segments, listing, List.filter_append, List.filter_append, kept]
  · have kept : [(path, bytes)].filter (fun file => isSegment file.1) = [(path, bytes)] := by
      simp only [List.filter_cons, named, if_true, List.filter_nil]
    rw [segments, written, List.filter_append, List.filter_append, kept]

omit [EventReader] in
/-- Writing the last segment changes the end of the list of segments. -/
theorem segments_insert_last {dir : Dir} {name : String} {bytes : List UInt8}
    {front : List (String × List UInt8)} (held : dir[name]? = some bytes)
    (named : isSegment name = true) (last : segments dir = front ++ [(name, bytes)])
    (bytes' : List UInt8)
    : segments (dir.insert name bytes') = front ++ [(name, bytes')] := by
  obtain ⟨before, after, listing, written⟩ := segments_insert dir named
  rw [held, Option.map_some, Option.toList_some] at listing
  have increasing : (segments dir).Pairwise
      (fun first second => compare first.1 second.1 = .lt) :=
    (Table.list_increasing dir).filter _
  rw [listing, List.append_assoc, List.singleton_append] at increasing
  rw [last] at listing
  obtain rfl : after = [] := by
    rcases List.eq_nil_or_concat' after with rfl | ⟨earlier, file, rfl⟩
    · rfl
    · rw [← List.append_assoc] at listing
      have same := (List.append_inj' listing rfl).2
      have above := (List.pairwise_append.mp increasing).2.1
      have larger := (List.pairwise_cons.mp above).1 file
        (List.mem_append_right _ List.mem_cons_self)
      rw [← (List.cons.inj same).1, Std.ReflOrd.compare_self] at larger
      cases larger
  rw [List.append_nil] at listing
  rw [written, List.append_nil, (List.append_inj' listing rfl).1]

omit [EventReader] in
/-- The terminated lines of a file are the lines of the bytes that hold them. -/
theorem fileLines_front {bytes : List UInt8} {lines : List (List Char)} {last : List Char}
    (pieces : fileLines bytes = some (lines ++ [last]))
    : fileLines (Utf8.encode lines.flatten) = some lines
      ∧ bytes = Utf8.encode lines.flatten ++ Utf8.encode last := by
  obtain ⟨text, read, cut⟩ := Option.map_eq_some_iff.mp pieces
  have bytes_eq : bytes = Utf8.encode lines.flatten ++ Utf8.encode last := by
    rw [← Utf8.encode_of_decode read, ← Utf8.encode_append, ← List.flatten_concat, ← cut,
      Text.flatten_splitInclusive]
  refine ⟨?_, bytes_eq⟩
  obtain ⟨whole, rest, text_eq, terminated, absent⟩ := Text.exists_lines '\n' text
  rw [text_eq, Text.splitInclusive_exists_lines terminated absent] at cut
  have front : ∀ line ∈ lines, Text.Terminated '\n' line := by
    intro line member
    split at cut
    · exact terminated line (by rw [cut]; exact List.mem_append_left _ member)
    · rw [← (List.append_inj' cut rfl).1] at member
      exact terminated line member
  have only := Text.splitInclusive_exists_lines front List.not_mem_nil
  rw [List.append_nil, if_pos rfl] at only
  rw [fileLines, Utf8.decode_encode, Option.map_some, only]

/-- A ledger that opens is what the segments replayed to. -/
theorem open_replayed {dir dir' : Dir} {ledger : LedgerFs}
    (opened : LedgerFs.open dir = .ok (ledger, dir'))
    : ∃ final, replaySegments (segments dir) ⟨{}, false, dir⟩ = (.ok (), final)
      ∧ ledger = ⟨final.chain, final.recovered⟩ ∧ dir' = final.dir := by
  rw [LedgerFs.open, LedgerFs.openIn] at opened
  rcases replayed : replaySegments (segments dir) ⟨{}, false, dir⟩ with ⟨err | _, final⟩
  · rw [replayed] at opened
    cases opened
  · rw [replayed] at opened
    cases opened
    exact ⟨final, rfl, rfl, rfl⟩

/-- What opening leaves behind reads as the events it replayed. -/
theorem reads_of_open {dir dir' : Dir} {ledger : LedgerFs}
    (opened : LedgerFs.open dir = .ok (ledger, dir'))
    : Reads dir' ledger.events := by
  obtain ⟨final, replayed, rfl, rfl⟩ := open_replayed opened
  rcases replaySegments_inv replayed with ⟨files, rfl⟩
    | ⟨front, name, bytes, lines, last, cutOff, rfl⟩
  · exact ⟨files, rfl⟩
  · obtain ⟨front_lines, bytes_eq⟩ := fileLines_front cutOff.pieces
    have listed : (name, bytes) ∈ segments dir := by
      rw [cutOff.files_eq]
      exact List.mem_append_right _ List.mem_cons_self
    obtain ⟨held, named⟩ := List.mem_filter.mp listed
    rw [Table.mem_list] at held
    have kept : (dir[name]?.getD []).take (Utf8.encode lines.flatten).length
        = Utf8.encode lines.flatten := by
      rw [held, Option.getD_some, bytes_eq, List.take_left]
    have reads : FileReads (Utf8.encode lines.flatten) := ⟨lines, front_lines, cutOff.readable⟩
    have rewritten := segments_insert_last held named cutOff.files_eq
      (Utf8.encode lines.flatten)
    refine ⟨?_, ?_⟩
    · intro file member
      rw [kept, rewritten, List.mem_append, List.mem_singleton] at member
      rcases member with earlier | rfl
      · exact cutOff.front file earlier
      · exact reads
    · rw [kept, rewritten, filesEvents, List.flatMap_append, List.flatMap_singleton,
        fileEvents, front_lines, Option.getD_some]
      rfl

/-- Nothing opens a corrupt directory. -/
theorem Corrupt.refuses {dir dir' : Dir} {ledger : LedgerFs} (corrupt : Corrupt dir)
    : LedgerFs.open dir ≠ .ok (ledger, dir') := by
  intro opened
  obtain ⟨file, listed, lines, cut, line, member, terminated, unreadable⟩ := corrupt
  have contradicts (reads : FileReads file.2) : False := by
    obtain ⟨others, same, readable⟩ := reads
    obtain rfl := Option.some.inj (cut.symm.trans same)
    exact unreadable (readable line member)
  obtain ⟨final, replayed, -, -⟩ := open_replayed opened
  rcases replaySegments_inv replayed with ⟨files, -⟩
    | ⟨front, name, bytes, kept, last, cutOff, -⟩
  · exact contradicts (files file listed)
  · rw [cutOff.files_eq, List.mem_append, List.mem_singleton] at listed
    rcases listed with earlier | rfl
    · exact contradicts (cutOff.front file earlier)
    · obtain rfl := Option.some.inj (cut.symm.trans cutOff.pieces)
      rcases List.mem_append.mp member with inside | ends
      · exact unreadable (cutOff.readable line inside)
      · obtain rfl := List.mem_singleton.mp ends
        exact cutOff.open_end terminated.getLast?_eq

-----------------------------------------------------------------------------------------
-- Writing a line
-----------------------------------------------------------------------------------------

/-- An event's text with blanks in front is read as that event or refused, depending on which
blanks the JSON library skips.
-/
def EventReader.SkipsBlanks : Prop :=
  ∀ (blanks : List Char) (event : LedgerEvent),
    Text.trim blanks = []
    → fromStr (blanks ++ event.toJson.render) = .ok event
      ∨ ∃ err, fromStr (blanks ++ event.toJson.render) = .error err

/-- The whole line that writing an event after `rest` makes is that event, or no event at all;
it is an event only after a blank rest.
-/
theorem continued_line (lawful : EventReader.Lawful) (blanks : EventReader.SkipsBlanks)
    {rest : List Char} (absent : '\n' ∉ rest) (readable : Readable rest) (event : LedgerEvent)
    : ¬Readable (rest ++ eventLine event)
      ∨ (Readable (rest ++ eventLine event)
          ∧ lineEvents rest = []
          ∧ lineEvents (rest ++ eventLine event) = [event]) := by
  have unbroken {text : List Char} (free : '\n' ∉ text)
      : text.rdropWhile (· = '\n') = text := by
    rw [List.rdropWhile_eq_self_iff]
    intro nonempty ends
    rw [decide_eq_true_eq] at ends
    exact free (ends ▸ List.getLast_mem nonempty)
  have rest_text : lineText rest = rest := unbroken absent
  have joined : '\n' ∉ rest ++ event.toJson.render := by
    rw [List.mem_append, not_or]
    exact ⟨absent, newline_not_mem_event event⟩
  have text : lineText (rest ++ eventLine event) = rest ++ event.toJson.render := by
    rw [lineText, eventLine, ← List.append_assoc, List.rdropWhile_concat_pos _ _ _ (by decide),
      unbroken joined]
  obtain ⟨inside, opens⟩ := render_event event
  have present : Text.trim (rest ++ event.toJson.render) ≠ [] := by
    intro empty
    have brace := Text.trim_eq_nil_iff.mp empty '{'
      (by rw [opens]; exact List.mem_append_right _ List.mem_cons_self)
    exact absurd brace (by decide)
  have refused (err : String)
      (read : EventReader.fromStr (rest ++ event.toJson.render) = .error err)
      : ¬Readable (rest ++ eventLine event) := by
    intro readable
    rw [Readable, text] at readable
    rcases readable with blank | ⟨other, accepted⟩
    · exact present blank
    · rw [read] at accepted
      cases accepted
  rw [Readable, rest_text] at readable
  rcases readable with blank | ⟨other, read⟩
  · rcases blanks rest event blank with accepted | ⟨err, read⟩
    · refine Or.inr ⟨Or.inr ⟨event, by rw [text, accepted]⟩, ?_, ?_⟩
      · rw [lineEvents, rest_text, if_pos blank]
      · rw [lineEvents, text, if_neg present, accepted]
    · exact Or.inl (refused err read)
  · obtain ⟨err, read⟩ := lawful.trailing rest inside other read
    rw [← opens] at read
    exact Or.inl (refused err read)

omit [EventReader] in
/-- The lines of a file after an event was written to it: the last one was continued if it
had no break.
-/
theorem fileLines_write {bytes : List UInt8} {lines : List (List Char)}
    (cut : fileLines bytes = some lines) (event : LedgerEvent)
    : ∃ front rest,
        lines = (if rest = [] then front else front ++ [rest])
        ∧ (∀ line ∈ front, Text.Terminated '\n' line)
        ∧ '\n' ∉ rest
        ∧ fileLines (bytes ++ Utf8.encode (eventLine event))
          = some (front ++ [rest ++ eventLine event]) := by
  obtain ⟨text, read, rfl⟩ := Option.map_eq_some_iff.mp cut
  obtain ⟨front, rest, rfl, terminated, absent⟩ := Text.exists_lines '\n' text
  refine ⟨front, rest, Text.splitInclusive_exists_lines terminated absent, terminated, absent,
    ?_⟩
  rw [← Utf8.encode_of_decode read, ← Utf8.encode_append, fileLines, Utf8.decode_encode,
    Option.map_some,
    Text.splitInclusive_continued terminated absent (eventLine_terminated event)]

/-- Writing an event to a file that reads adds it at the end, or leaves a whole line that is
no event.
-/
theorem FileReads.write (lawful : EventReader.Lawful) (blanks : EventReader.SkipsBlanks)
    {bytes : List UInt8} (reads : FileReads bytes) (event : LedgerEvent)
    : (FileReads (bytes ++ Utf8.encode (eventLine event))
        ∧ fileEvents (bytes ++ Utf8.encode (eventLine event)) = fileEvents bytes ++ [event])
      ∨ ∃ lines,
          fileLines (bytes ++ Utf8.encode (eventLine event)) = some lines
          ∧ ∃ line ∈ lines, Text.Terminated '\n' line ∧ ¬Readable line := by
  obtain ⟨lines, cut, readable⟩ := reads
  obtain ⟨front, rest, lines_eq, -, absent, written⟩ := fileLines_write cut event
  have restReadable : Readable rest := by
    by_cases empty : rest = []
    · exact Or.inl (by rw [empty]; rfl)
    · rw [if_neg empty] at lines_eq
      exact readable rest (by rw [lines_eq]; exact List.mem_append_right _ List.mem_cons_self)
  have before : fileEvents bytes = front.flatMap lineEvents ++ lineEvents rest := by
    rw [fileEvents, cut, Option.getD_some, lines_eq]
    split
    · next empty =>
        have none : lineEvents rest = [] := if_pos (by rw [empty]; rfl)
        rw [none, List.append_nil]
    · rw [List.flatMap_append, List.flatMap_singleton]
  have frontReadable : ∀ line ∈ front, Readable line := by
    intro line member
    refine readable line ?_
    rw [lines_eq]
    split
    · exact member
    · exact List.mem_append_left _ member
  obtain ⟨body, free, ends⟩ := eventLine_terminated event
  have terminated : Text.Terminated '\n' (rest ++ eventLine event) := by
    refine ⟨rest ++ body, ?_, by rw [ends, List.append_assoc]⟩
    rw [List.mem_append, not_or]
    exact ⟨absent, free⟩
  rcases continued_line lawful blanks absent restReadable event with
    unreadable | ⟨whole, none, one⟩
  · exact Or.inr ⟨_, written, _, List.mem_append_right _ List.mem_cons_self, terminated,
      unreadable⟩
  · refine Or.inl ⟨⟨_, written, ?_⟩, ?_⟩
    · intro line member
      rcases List.mem_append.mp member with inside | last
      · exact frontReadable line inside
      · obtain rfl := List.mem_singleton.mp last
        exact whole
    · rw [before, none, List.append_nil, fileEvents, written, Option.getD_some,
        List.flatMap_append, List.flatMap_singleton, one]

/-- The directory after an event was written to a segment. -/
def written (dir : Dir) (path : String) (event : LedgerEvent) : Dir :=
  dir.insert path (dir[path]?.getD [] ++ Utf8.encode (eventLine event))

/-- Writing an event puts it somewhere among the others, or leaves the directory corrupt. -/
theorem Reads.write (lawful : EventReader.Lawful) (blanks : EventReader.SkipsBlanks)
    {dir : Dir} {events : List LedgerEvent} (reads : Reads dir events) {path : String}
    (named : isSegment path = true) (event : LedgerEvent)
    : Corrupt (written dir path event)
      ∨ ∃ before after,
          events = before ++ after
          ∧ Reads (written dir path event) (before ++ event :: after) := by
  obtain ⟨before, after, listing, rewritten⟩ := segments_insert dir named
  have others : ∀ file, file ∈ before ∨ file ∈ after → FileReads file.2 := by
    intro file member
    refine reads.files file ?_
    rw [listing]
    rcases member with earlier | later
    · exact List.mem_append_left _ (List.mem_append_left _ earlier)
    · exact List.mem_append_right _ later
  have target : FileReads (dir[path]?.getD [])
      ∧ filesEvents (dir[path]?.map (path, ·)).toList = fileEvents (dir[path]?.getD []) := by
    cases held : dir[path]? with
    | none => exact ⟨⟨[], rfl, fun _ member => absurd member List.not_mem_nil⟩, rfl⟩
    | some bytes =>
        refine ⟨reads.files (path, bytes) ?_, ?_⟩
        · rw [listing, held]
          exact List.mem_append_left _ (List.mem_append_right _ List.mem_cons_self)
        · exact List.flatMap_singleton _ _
  rcases target.1.write lawful blanks event with ⟨whole, added⟩ | ⟨lines, cut, broken⟩
  · refine Or.inr ⟨filesEvents before ++ fileEvents (dir[path]?.getD []), filesEvents after,
      ?_, ?_, ?_⟩
    · rw [← reads.events_eq, listing, ← target.2]
      simp only [filesEvents, List.flatMap_append, List.append_assoc]
    · intro file member
      rw [written, rewritten, List.mem_append, List.mem_append, List.mem_singleton] at member
      rcases member with (earlier | rfl) | later
      · exact others file (Or.inl earlier)
      · exact whole
      · exact others file (Or.inr later)
    · rw [written, rewritten]
      simp only [filesEvents, List.flatMap_append, List.flatMap_cons, added,
        List.append_assoc, List.cons_append, List.nil_append]
  · refine Or.inl ⟨(path, _), ?_, lines, cut, broken⟩
    rw [written, rewritten]
    exact List.mem_append_left _ (List.mem_append_right _ List.mem_cons_self)

/-- Writing an event does not repair a corrupt directory. -/
theorem Corrupt.write {dir : Dir} (corrupt : Corrupt dir) {path : String}
    (named : isSegment path = true) (event : LedgerEvent)
    : Corrupt (written dir path event) := by
  obtain ⟨file, listed, lines, cut, line, member, terminated, unreadable⟩ := corrupt
  obtain ⟨before, after, listing, rewritten⟩ := segments_insert dir named
  have elsewhere (place : file ∈ before ∨ file ∈ after) : Corrupt (written dir path event) := by
    refine ⟨file, ?_, lines, cut, line, member, terminated, unreadable⟩
    rw [written, rewritten]
    rcases place with earlier | later
    · exact List.mem_append_left _ (List.mem_append_left _ earlier)
    · exact List.mem_append_right _ later
  rw [listing, List.mem_append, List.mem_append] at listed
  rcases listed with (earlier | here) | later
  · exact elsewhere (Or.inl earlier)
  · obtain ⟨bytes, held, rfl⟩ := Option.map_eq_some_iff.mp (Option.mem_toList.mp here)
    obtain ⟨front, rest, lines_eq, whole, absent, grown⟩ := fileLines_write cut event
    have inside : line ∈ front := by
      rw [lines_eq] at member
      split at member
      · exact member
      · rcases List.mem_append.mp member with earlier | last
        · exact earlier
        · obtain rfl := List.mem_singleton.mp last
          obtain ⟨body, -, rfl⟩ := terminated
          exact absurd (List.mem_append_right _ List.mem_cons_self) absent
    refine ⟨(path, bytes ++ Utf8.encode (eventLine event)), ?_, _, grown, line,
      List.mem_append_left _ inside, terminated, unreadable⟩
    rw [written, rewritten, held, Option.getD_some]
    exact List.mem_append_left _ (List.mem_append_right _ List.mem_cons_self)
  · exact elsewhere (Or.inr later)

end Foreign

end VerticalAI.Store
