import Mathlib.Data.List.Induction
import VerticalAI.Store.SegmentOrder

/-! What replaying the segments does with whole lines, with a line cut short and with a line
that was appended to another one.
-/

namespace VerticalAI.Store
open VerticalAI.Foundation VerticalAI.Contracts

/-- What the ledger relies on the JSON library for: it reads back every event that was
written, and it refuses a document that ends too early or goes on after its end.
-/
structure EventReader.Lawful [EventReader] : Prop where
  reads : ∀ event : LedgerEvent, fromStr event.toJson.render = .ok event
  incomplete
    : ∀ (event : LedgerEvent) (text : List Char),
        text <+: event.toJson.render
        → text ≠ event.toJson.render
        → ∃ err, fromStr text = .error err
  trailing
    : ∀ (text rest : List Char) (event : LedgerEvent),
        fromStr text = .ok event → ∃ err, fromStr (text ++ '{' :: rest) = .error err

/-- The lines of these events, one after the other. -/
def linesText (events : List LedgerEvent) : List Char := (events.map eventLine).flatten

def segmentBytes (events : List LedgerEvent) : List UInt8 := Utf8.encode (linesText events)

theorem linesText_append (first second : List LedgerEvent)
    : linesText (first ++ second) = linesText first ++ linesText second := by
  simp only [linesText, List.map_append, List.flatten_append]

@[simp] theorem linesText_singleton (event : LedgerEvent)
    : linesText [event] = eventLine event := by
  simp only [linesText, List.map_cons, List.map_nil, List.flatten_cons, List.flatten_nil,
    List.append_nil]

theorem segmentBytes_append (first second : List LedgerEvent)
    : segmentBytes (first ++ second) = segmentBytes first ++ segmentBytes second := by
  simp only [segmentBytes, linesText_append, Utf8.encode_append]

@[simp] theorem segmentBytes_singleton (event : LedgerEvent)
    : segmentBytes [event] = Utf8.encode (eventLine event) := by
  simp only [segmentBytes, linesText_singleton]

/-- The bytes of a segment that holds these events; the last line break may be missing. -/
def SegmentImage (bytes : List UInt8) (events : List LedgerEvent) : Prop :=
  bytes = segmentBytes events ∨ bytes ++ Utf8.encode ['\n'] = segmentBytes events

/-- The text of an event is an object, so it opens with a brace. -/
theorem render_event (event : LedgerEvent)
    : ∃ inside, event.toJson.render = '{' :: inside :=
  ⟨_, rfl⟩

theorem newline_not_mem_event (event : LedgerEvent) : '\n' ∉ event.toJson.render :=
  Json.newline_not_mem_render _

theorem eventLine_terminated (event : LedgerEvent)
    : Text.Terminated '\n' (eventLine event) :=
  ⟨_, newline_not_mem_event event, rfl⟩

theorem linesText_terminated (events : List LedgerEvent)
    : ∀ line ∈ events.map eventLine, Text.Terminated '\n' line := by
  intro line member
  obtain ⟨event, -, rfl⟩ := List.mem_map.mp member
  exact eventLine_terminated event

/-- Cutting the text of a segment gives its lines back, then the rest. -/
theorem splitInclusive_linesText (events : List LedgerEvent) (rest : List Char)
    : Text.splitInclusive '\n' (linesText events ++ rest)
      = events.map eventLine ++ Text.splitInclusive '\n' rest :=
  Text.splitInclusive_lines (linesText_terminated events) rest

/-- A text that opens with a brace and has no line break is neither blank nor shortened. -/
theorem brace_line {text : List Char} (opens : ∃ inside, text = '{' :: inside)
    (absent : '\n' ∉ text)
    : text.rdropWhile (· = '\n') = text ∧ Text.trim text ≠ [] := by
  constructor
  · rw [List.rdropWhile_eq_self_iff]
    intro nonempty
    have last := List.getLast_mem nonempty
    intro newline
    rw [decide_eq_true_eq] at newline
    exact absent (newline ▸ last)
  · obtain ⟨inside, rfl⟩ := opens
    exact Text.trim_ne_nil (by decide) inside

theorem rdropWhile_eventLine (event : LedgerEvent)
    : (eventLine event).rdropWhile (· = '\n') = event.toJson.render := by
  have kept := (brace_line (render_event event) (newline_not_mem_event event)).1
  rw [eventLine, List.rdropWhile_concat_pos _ _ _ (by decide), kept]

section Replaying

variable [EventReader] (lawful : EventReader.Lawful)

include lawful

/-- Replay one line, terminated or not, that is the text of an event. -/
theorem replayLines_event {name : String} {isLast : Bool} {rawLine : List Char}
    {event : LedgerEvent}
    (stripped : rawLine.rdropWhile (· = '\n') = event.toJson.render)
    (rest : List (List Char)) (lineIdx offset : Nat) (state : Replay)
    : replayLines name isLast (rawLine :: rest) lineIdx offset state
      = replayLines name isLast rest (lineIdx + 1) (offset + (Utf8.encode rawLine).length)
          { state with chain := state.chain.pushVerified event } := by
  have present := (brace_line (render_event event) (newline_not_mem_event event)).2
  simp only [replayLines, stripped, if_neg present, lawful.reads]

/-- Replaying the lines of a list of events pushes them in order, by induction on them. -/
theorem replayLines_events {name : String} {isLast : Bool} (events : List LedgerEvent)
    (rest : List (List Char)) (lineIdx offset : Nat) (state : Replay)
    : replayLines name isLast (events.map eventLine ++ rest) lineIdx offset state
      = replayLines name isLast rest (lineIdx + events.length)
          (offset + (segmentBytes events).length)
          { state with chain := ⟨state.chain.events ++ events⟩ } := by
  induction events generalizing lineIdx offset state with
  | nil =>
      simp only [List.map_nil, List.nil_append, List.length_nil, Nat.add_zero, segmentBytes,
        linesText, List.flatten_nil, Utf8.encode_nil, List.append_nil]
  | cons event others ih =>
      have bytes : segmentBytes (event :: others)
          = Utf8.encode (eventLine event) ++ segmentBytes others := by
        rw [← List.singleton_append, segmentBytes_append, segmentBytes_singleton]
      rw [List.map_cons, List.cons_append,
        replayLines_event lawful (rdropWhile_eventLine event), ih, bytes]
      simp only [Ledger.pushVerified, List.append_assoc, List.singleton_append,
        List.length_append, List.length_cons]
      congr 1 <;> omega

/-- Replaying a segment that holds these events pushes exactly them, also when its last line
break is missing, and leaves the directory alone.
-/
theorem replayLines_image {bytes : List UInt8} {events : List LedgerEvent}
    (image : SegmentImage bytes events) (name : String) (isLast : Bool) (state : Replay)
    : ∃ text,
        Utf8.decode bytes = some text
        ∧ replayLines name isLast (Text.splitInclusive '\n' text) 0 0 state
          = (.ok (), { state with chain := ⟨state.chain.events ++ events⟩ }) := by
  rcases image with rfl | unterminated
  · refine ⟨linesText events, Utf8.decode_encode _, ?_⟩
    have cut := splitInclusive_linesText events []
    rw [List.append_nil] at cut
    rw [cut, replayLines_events lawful]
    rfl
  · rcases List.eq_nil_or_concat' events with rfl | ⟨front, last, rfl⟩
    · have lengths := congrArg List.length unterminated
      simp only [List.length_append, segmentBytes, linesText, List.map_nil,
        List.flatten_nil, Utf8.encode_nil, List.length_nil] at lengths
      have break_byte : (Utf8.encode ['\n']).length = 1 := by decide
      omega
    · rw [segmentBytes_append, segmentBytes_singleton, eventLine, Utf8.encode_append,
        ← List.append_assoc] at unterminated
      have bytes_eq := List.append_cancel_right unterminated
      refine ⟨linesText front ++ last.toJson.render, ?_, ?_⟩
      · rw [bytes_eq, segmentBytes, ← Utf8.encode_append, Utf8.decode_encode]
      · have absent := newline_not_mem_event last
        have nonempty : last.toJson.render ≠ [] := by
          obtain ⟨inside, opens⟩ := render_event last
          rw [opens]
          exact List.cons_ne_nil _ _
        rw [splitInclusive_linesText, Text.splitInclusive_unterminated absent nonempty,
          replayLines_events lawful,
          replayLines_event lawful (brace_line (render_event last) absent).1]
        simp only [replayLines, Ledger.pushVerified, List.append_assoc]

/-- Segments that hold these events, in front of others, are replayed in order, by induction
on the segments.
-/
theorem replaySegments_images {files : List (String × List UInt8)}
    {chunks : List (List LedgerEvent)}
    (images : List.Forall₂ (fun file chunk => SegmentImage file.2 chunk) files chunks)
    (rest : List (String × List UInt8)) (state : Replay)
    : replaySegments (files ++ rest) state
      = replaySegments rest { state with chain := ⟨state.chain.events ++ chunks.flatten⟩ } := by
  induction images generalizing state with
  | nil => simp only [List.nil_append, List.flatten_nil, List.append_nil]
  | @cons file chunk files chunks image _ ih =>
      obtain ⟨name, bytes⟩ := file
      obtain ⟨text, read, replayed⟩ :=
        replayLines_image lawful image name (files ++ rest).isEmpty state
      simp only [List.cons_append, replaySegments, read, replayed, ih, List.flatten_cons,
        List.append_assoc]

end Replaying

end VerticalAI.Store
