import VerticalAI.Ipc.Wire

/-! However the bytes of a connection are cut on their way: the server answers its whole lines
one by one and in order, and every call of a client is told what was answered to its own
request.
-/

namespace VerticalAI.Correctness
open VerticalAI.Foundation VerticalAI.Contracts VerticalAI.Ipc

-----------------------------------------------------------------------------------------
-- Whole lines
-----------------------------------------------------------------------------------------

/-- What the server makes of a whole line of its input, the terminator included, or of what stands
before a failure.
-/
def judge (failure : Option String) (piece : List UInt8) : Except Closing (List Char) :=
  if maxLine + 1 < piece.length then .error .tooLong
  else
    match Text.atEnd newline (maxLine + 1) piece failure with
    | .error reason => .error (.unreadable reason)
    | .ok piece =>
        match lineOf piece with
        | .ok (some line) => .ok line
        | .ok none => .error .ended
        | .error closing => .error closing

/-- How a connection ends at the end of its input. -/
def ending : Option String → Closing
  | none => .ended
  | some reason => .unreadable reason

/-- The lines that can be read, up to the first that cannot, and how the connection ends on it. -/
def legible (failure : Option String) : List (List UInt8) → List (List Char) × Closing
  | [] => ([], ending failure)
  | piece :: pieces =>
      match judge failure piece with
      | .error closing => ([], closing)
      | .ok line => (line :: (legible failure pieces).1, (legible failure pieces).2)

theorem readLine_nil {source : Text.Source UInt8} (nothing : source.rest = [])
    : (readLine source).1 = match source.failure with
      | none => .ok none
      | some reason => .error (.unreadable reason) := by
  have taken := (Text.readUntil_eq newline (maxLine + 1) source).1
  rw [nothing, List.take_nil, Text.upTo] at taken
  rw [readLine, taken]
  cases source.failure <;> rfl

/-- A line is read as it stands in the whole, and what follows it is left. -/
theorem readLine_eq {source : Text.Source UInt8} (some_bytes : source.rest ≠ [])
    : (readLine source).1
        = (judge source.failure (Text.upTo newline source.rest)).map some
      ∧ ((Text.upTo newline source.rest).length ≤ maxLine + 1
        → (readLine source).2.rest
          = source.rest.drop (Text.upTo newline source.rest).length)
      ∧ (readLine source).2.failure = source.failure := by
  obtain ⟨taken, left, kept⟩ := Text.readUntil_eq newline (maxLine + 1) source
  have after : (readLine source).2 = (Text.readUntil newline (maxLine + 1) source).2 := by
    rw [readLine]
    split <;> rfl
  rw [Text.upTo_take] at taken left
  have some_piece : Text.upTo newline source.rest ≠ [] := by
    cases rest : source.rest with
    | nil => exact absurd rest some_bytes
    | cons head others =>
        rw [Text.upTo]
        split <;> exact List.cons_ne_nil _ _
  rw [after, left, kept, readLine, taken, judge]
  by_cases short : (Text.upTo newline source.rest).length ≤ maxLine + 1
  · rw [List.take_of_length_le short, if_neg (Nat.not_lt.mpr short)]
    refine ⟨?_, fun _ => rfl, rfl⟩
    cases given : Text.atEnd newline (maxLine + 1) (Text.upTo newline source.rest) source.failure with
    | error reason => rfl
    | ok piece =>
        rw [Text.atEnd_ok given] at some_piece
        cases read : lineOf piece with
        | error closing => simp [read, Except.map]
        | ok found =>
            cases found with
            | some line => simp [read, Except.map]
            | none =>
                rw [lineOf, if_neg some_piece] at read
                split at read
                · cases read
                · split at read <;> cases read
  · rw [Nat.not_le] at short
    refine ⟨?_, fun fits => absurd fits (Nat.not_le.mpr short), rfl⟩
    have length : ((Text.upTo newline source.rest).take (maxLine + 1)).length = maxLine + 1 :=
      List.length_take_of_le short.le
    have given : Text.atEnd newline (maxLine + 1)
        ((Text.upTo newline source.rest).take (maxLine + 1)) source.failure
          = .ok ((Text.upTo newline source.rest).take (maxLine + 1)) := by
      cases source.failure with
      | none => rfl
      | some reason => exact if_pos (Or.inr length)
    have open_end :
        ((Text.upTo newline source.rest).take (maxLine + 1)).getLast? ≠ some newline :=
      fun last => Text.not_mem_take_upTo short (List.mem_of_getLast? last)
    have some_bytes : (Text.upTo newline source.rest).take (maxLine + 1) ≠ [] := by
      rw [← List.length_pos_iff, length]
      exact Nat.succ_pos _
    rw [if_pos short, given]
    dsimp only
    rw [lineOf, if_neg some_bytes, if_pos open_end, length, if_pos (Nat.lt_succ_self _)]
    rfl

/-- A line that can be read is within the limit. -/
theorem judge_ok_length {failure : Option String} {piece : List UInt8} {line : List Char}
    (ok : judge failure piece = .ok line)
    : piece.length ≤ maxLine + 1 := by
  by_contra long
  rw [judge, if_pos (Nat.not_le.mp long)] at ok
  cases ok

-----------------------------------------------------------------------------------------
-- The server
-----------------------------------------------------------------------------------------

section Server

variable {σ : Type} [RpcReader] (handle : σ → WireRequest → Except RpcError Json × σ)

/-- The answers to lines, and what answering them leaves. -/
def answers : σ → List (List Char) → List Response × σ
  | state, [] => ([], state)
  | state, line :: lines =>
      let answered := answerLine handle state line
      let others := answers answered.2 lines
      (answered.1 :: others.1, others.2)

/-- Answer lines until an answer cannot be written. -/
def serveLines (faults : Nat → Option String)
    : Nat → σ → List (List Char) → Closing → Served σ
  | _, state, [], closing => ⟨[], closing, state⟩
  | count, state, line :: lines, closing =>
      let answered := answerLine handle state line
      match faults count with
      | none =>
          let served := serveLines faults (count + 1) answered.2 lines closing
          { served with written := answered.1 :: served.written }
      | some reason => ⟨[], .unwritable reason, answered.2⟩

/-- The loop serves the lines of the whole, by induction on what is left to read. -/
theorem handleConnection_eq (faults : Nat → Option String) (count : Nat) (state : σ)
    (source : Text.Source UInt8)
    : handleConnection handle faults count state source
      = serveLines handle faults count state
          (legible source.failure (Text.splitInclusive newline source.rest)).1
          (legible source.failure (Text.splitInclusive newline source.rest)).2 := by
  generalize size : source.rest.length = length
  induction length using Nat.strong_induction_on generalizing count state source with
  | _ length ih =>
      rw [handleConnection]
      by_cases some_bytes : source.rest = []
      · have nothing := readLine_nil some_bytes
        rw [some_bytes]
        cases failure : source.failure <;> rw [failure] at nothing
        all_goals
          split
          all_goals
            next read =>
              rw [read] at nothing
              cases nothing
              try rfl
      · obtain ⟨here, left, kept⟩ := readLine_eq some_bytes
        rw [Text.splitInclusive_upTo some_bytes, legible]
        split
        · next closing after read =>
            rw [read] at here
            cases judged : judge source.failure (Text.upTo newline source.rest) with
            | ok line =>
                rw [judged] at here
                cases here
            | error other =>
                rw [judged] at here
                cases here
                rfl
        · next read =>
            rw [read] at here
            cases judged : judge source.failure (Text.upTo newline source.rest) <;>
              rw [judged] at here <;> cases here
        · next line after read =>
            rw [read] at here left kept
            cases judged : judge source.failure (Text.upTo newline source.rest) with
            | error closing =>
                rw [judged] at here
                cases here
            | ok other =>
                rw [judged] at here
                cases here
                rw [← left (judge_ok_length judged)]
                dsimp only [serveLines]
                cases faults count with
                | none =>
                    have shorter := readLine_shorter read
                    rw [size] at shorter
                    have kept : after.failure = source.failure := kept
                    dsimp only
                    rw [ih _ shorter (count + 1) _ after rfl, kept]
                | some reason => rfl

/-- While answers can be written every line is answered, by induction on the lines. -/
theorem serveLines_written (faults : Nat → Option String) (count : Nat) (state : σ)
    (lines : List (List Char)) (closing : Closing)
    (writable : ∀ place < lines.length, faults (count + place) = none)
    : serveLines handle faults count state lines closing
      = ⟨(answers handle state lines).1, closing, (answers handle state lines).2⟩ := by
  induction lines generalizing count state with
  | nil => rfl
  | cons line lines ih =>
      have others : ∀ place < lines.length, faults (count + 1 + place) = none := by
        intro place within
        rw [Nat.add_assoc, Nat.add_comm 1]
        exact writable (place + 1) (Nat.add_lt_add_right within 1)
      have now := writable 0 (Nat.succ_pos _)
      rw [Nat.add_zero] at now
      simp only [serveLines, answers, now, ih _ _ others]

/-- The first answer that cannot be written ends it, by induction on the lines. -/
theorem serveLines_unwritable (faults : Nat → Option String) (count : Nat) (state : σ)
    {lines : List (List Char)} (closing : Closing) {place : Nat} {reason : String}
    (within : place < lines.length)
    (writable : ∀ earlier < place, faults (count + earlier) = none)
    (fault : faults (count + place) = some reason)
    : serveLines handle faults count state lines closing
      = ⟨(answers handle state (lines.take place)).1, .unwritable reason,
          (answers handle state (lines.take (place + 1))).2⟩ := by
  induction lines generalizing count place state with
  | nil => exact absurd within (Nat.not_lt_zero _)
  | cons line lines ih =>
      cases place with
      | zero =>
          rw [Nat.add_zero] at fault
          simp [serveLines, answers, fault]
      | succ place =>
          have now := writable 0 (Nat.succ_pos _)
          rw [Nat.add_zero] at now
          have others : ∀ earlier < place, faults (count + 1 + earlier) = none := by
            intro earlier before
            rw [Nat.add_assoc, Nat.add_comm 1]
            exact writable (earlier + 1) (Nat.add_lt_add_right before 1)
          have later : faults (count + 1 + place) = some reason := by
            rw [Nat.add_assoc, Nat.add_comm 1]
            exact fault
          simp only [serveLines, now, List.take_succ_cons, answers,
            ih _ _ (Nat.lt_of_succ_lt_succ within) others later]

/-- However its bytes are cut, a connection is served its whole lines in order, up to the first
that is too long, cut off, not text or not read: each of them is answered once, and nothing else is.
If an answer cannot be written the request it is for was served all the same, and none after it is.
-/
theorem lines_are_answered_in_order (faults : Nat → Option String) (state : σ)
    (source : Text.Source UInt8)
    : let lines := (legible source.failure (Text.splitInclusive newline source.rest)).1
      let served := handleConnection handle faults 0 state source
      ((∀ place < lines.length, faults place = none)
        → served.written = (answers handle state lines).1
          ∧ served.closing = (legible source.failure (Text.splitInclusive newline source.rest)).2
          ∧ served.state = (answers handle state lines).2)
      ∧ ∀ place reason, place < lines.length → (∀ earlier < place, faults earlier = none)
        → faults place = some reason
        → served.written = (answers handle state (lines.take place)).1
          ∧ served.closing = .unwritable reason
          ∧ served.state = (answers handle state (lines.take (place + 1))).2 := by
  intro lines served
  have whole : served
      = serveLines handle faults 0 state lines
          (legible source.failure (Text.splitInclusive newline source.rest)).2 :=
    handleConnection_eq handle faults 0 state source
  constructor
  · intro writable
    rw [whole, serveLines_written handle faults 0 state lines _ (by simpa using writable)]
    exact ⟨rfl, rfl, rfl⟩
  · intro place reason within writable fault
    rw [whole, serveLines_unwritable handle faults 0 state _ within (by simpa using writable)
      (by simpa using fault)]
    exact ⟨rfl, rfl, rfl⟩

end Server

-----------------------------------------------------------------------------------------
-- Calls
-----------------------------------------------------------------------------------------

/-- The requests that fit in a line, up to the first that does not. -/
def fitting (requests : List WireRequest) : List WireRequest :=
  requests.takeWhile fun request => (Utf8.encode request.text).length ≤ maxLine

/-- A line of a message, with more to come, is cut off whole. -/
theorem upTo_line {text : List Char} (absent : '\n' ∉ text) (more : List UInt8)
    : Text.upTo newline (Utf8.encode text ++ [newline] ++ more)
      = Utf8.encode text ++ [newline] := by
  have plain : newline ∉ Utf8.encode text := Utf8.newline_not_mem_encode absent
  rw [List.append_assoc, Text.upTo_append, if_neg plain]
  simp [Text.upTo]

theorem splitInclusive_lines (requests : List WireRequest)
    : Text.splitInclusive newline (requests.flatMap WireRequest.line)
      = requests.map WireRequest.line := by
  induction requests with
  | nil => rfl
  | cons request requests ih =>
      have absent : newline ∉ Utf8.encode request.text :=
        Utf8.newline_not_mem_encode request.newline_not_mem_text
      rw [List.flatMap_cons, List.map_cons, ← ih, WireRequest.line, List.append_assoc,
        List.singleton_append, Text.splitInclusive_terminated absent]

/-- A request's line is taken if it is not too long. -/
theorem judge_line (failure : Option String) (request : WireRequest)
    : judge failure request.line
      = if (Utf8.encode request.text).length ≤ maxLine then .ok request.text
        else .error .tooLong := by
  obtain ⟨body, ends⟩ := request.text_ends
  have read := decode_stripped body
  rw [← ends] at read
  have given : Text.atEnd newline (maxLine + 1) request.line failure = .ok request.line := by
    have whole : Text.Whole newline (maxLine + 1) request.line :=
      Or.inl (by simp [WireRequest.line])
    cases failure with
    | none => rfl
    | some reason => exact if_pos whole
  have length : request.line.length = (Utf8.encode request.text).length + 1 := by
    rw [WireRequest.line, List.length_append, List.length_singleton]
  by_cases fits : (Utf8.encode request.text).length ≤ maxLine
  · have short : ¬ maxLine + 1 < request.line.length := by omega
    rw [judge, if_neg short, given, if_pos fits]
    simp [WireRequest.line, lineOf, read]
  · have long : maxLine + 1 < request.line.length := by omega
    rw [judge, if_pos long, if_neg fits]

theorem legible_lines (failure : Option String) (requests : List WireRequest)
    : legible failure (requests.map WireRequest.line)
      = ((fitting requests).map WireRequest.text,
          if (fitting requests).length = requests.length then ending failure else .tooLong) := by
  induction requests with
  | nil => rfl
  | cons request requests ih =>
      rw [List.map_cons, legible, judge_line, fitting, List.takeWhile_cons]
      by_cases fits : (Utf8.encode request.text).length ≤ maxLine
      · simp only [if_pos fits, ih, decide_eq_true fits, if_true, List.map_cons,
          List.length_cons, Nat.add_right_cancel_iff]
        rfl
      · simp [fits]

section Calls

variable {σ : Type} [DecimalReader] [RpcReader]
  (handle : σ → WireRequest → Except RpcError Json × σ)

/-- What requests come to, handled one after the other as they are read, by their numbers, and what
handling them leaves; nothing for one that cannot be read.
-/
def outcomes : σ → List WireRequest → List (UInt64 × Option (Except RpcError Json)) × σ
  | state, [] => ([], state)
  | state, request :: requests =>
      match request.asRead with
      | none =>
          let others := outcomes state requests
          ((request.id, none) :: others.1, others.2)
      | some read =>
          let handled := handle state read
          let others := outcomes handled.2 requests
          ((request.id, some handled.1) :: others.1, others.2)

/-- What a caller is told of what a request came to. -/
inductive Told (id : UInt64) : Option (Except RpcError Json) → Except CallFailure Json → Prop
  | refused {reason : String} : Told id none (.error (.call (bad s!"not a request: {reason}")))
  | failed {error : RpcError} : Told id (some (.error error)) (.error (.call error))
  | nothing : Told id (some (.ok .null)) (.error (.malformed id))
  | value {value back : Json} (some_value : value ≠ .null)
      (read : value.reread belowMessage = some back)
      : Told id (some (.ok value)) (.ok back)
  | unread {value : Json} {reason : String} (unread : value.reread belowMessage = none)
      : Told id (some (.ok value)) (.error (.notAResponse reason))

omit [RpcReader] in
/-- A value without fractions comes back as it is. -/
theorem Told.plain {id : UInt64} {value : Json} {told : Except CallFailure Json}
    (tells : Told id (some (.ok value)) told) (some_value : value ≠ .null)
    (plain : value.Plain belowMessage)
    : told = .ok value := by
  have same := Json.reread_plain plain
  cases tells with
  | nothing => exact absurd rfl some_value
  | value _ read => rw [← Option.some.inj (read.symm.trans same)]
  | unread unread => cases unread.symm.trans same

/-- The answer to a request tells what it came to. -/
def Answers (call : UInt64 × Option (Except RpcError Json)) (response : Response) : Prop :=
  match call.2 with
  | none => ∃ reason : String, response = reply 0 (.error (bad s!"not a request: {reason}"))
  | some outcome => response = reply call.1 outcome

/-- Every request is answered, by induction on the requests: it reads as it is documented to. -/
theorem answers_texts (state : σ) {requests : List WireRequest}
    (reads : ∀ request ∈ requests, (RpcReader.request request.text).toOption = request.asRead)
    : List.Forall₂ Answers (outcomes handle state requests).1
        (answers handle state (requests.map WireRequest.text)).1
      ∧ (answers handle state (requests.map WireRequest.text)).2
        = (outcomes handle state requests).2
      ∧ (outcomes handle state requests).1.map (·.1) = requests.map (·.id) := by
  induction requests generalizing state with
  | nil => exact ⟨.nil, rfl, rfl⟩
  | cons request requests ih =>
      obtain ⟨here, others⟩ := List.forall_mem_cons.mp reads
      rw [List.map_cons, answers, outcomes, ← here, answerLine]
      cases given : RpcReader.request request.text with
      | error reason =>
          obtain ⟨told, left, ids⟩ := ih state others
          exact ⟨.cons ⟨reason, rfl⟩ told, left, congrArg (request.id :: ·) ids⟩
      | ok read =>
          obtain ⟨told, left, ids⟩ := ih (handle state read).2 others
          have same : read.id = request.id := by
            rw [given] at here
            obtain ⟨params, -, made⟩ := Option.map_eq_some_iff.mp here.symm
            rw [← made]
          refine ⟨.cons ?_ told, left, congrArg (request.id :: ·) ids⟩
          simp only [Answers, same]

omit [DecimalReader] [RpcReader] in
/-- The line of a reply comes back, and what follows it is left. -/
theorem nextLine_line (response : Response) {source : Text.Source UInt8} {more : List UInt8}
    (rest : source.rest = response.line ++ more)
    : (nextLine source).1 = .ok response.text ∧ (nextLine source).2.rest = more := by
  have upTo : Text.upTo newline source.rest = response.line := by
    rw [rest]
    exact upTo_line response.newline_not_mem_text more
  obtain ⟨taken, left, -⟩ := Text.readUntil_eq newline (source.rest.length + 1) source
  rw [List.take_of_length_le (Nat.le_succ _), upTo] at taken left
  have given : Text.atEnd newline (source.rest.length + 1) response.line source.failure
      = .ok response.line := by
    have whole : Text.Whole newline (source.rest.length + 1) response.line :=
      Or.inl (by simp [Response.line])
    cases source.failure with
    | none => rfl
    | some reason => exact if_pos whole
  obtain ⟨body, ends⟩ := response.text_ends
  have read := decode_stripped body
  rw [← ends] at read
  have after : source.rest.drop response.line.length = more := by rw [rest, List.drop_left]
  rw [given] at taken
  rw [after] at left
  simp [nextLine, taken, Response.line, read, left]

/-- A caller is told what its request came to, by cases on what is read of the answer. -/
theorem told_of_answers {call : UInt64 × Option (Except RpcError Json)} {response : Response}
    (tells : Answers call response)
    (understands : (RpcReader.response response.text).toOption = response.asRead)
    : Told call.1 call.2 (callResult call.1 (.ok response.text)) := by
  obtain ⟨id, outcome⟩ := call
  rw [callResult]
  match outcome, tells with
  | none, ⟨reason, same⟩ =>
      subst same
      cases given : RpcReader.response (reply 0 (.error (bad s!"not a request: {reason}"))).text with
      | error _ =>
          rw [given] at understands
          cases understands
      | ok back =>
          rw [given] at understands
          cases understands
          exact .refused
  | some (.error error), same =>
      subst same
      cases given : RpcReader.response (reply id (.error error)).text with
      | error _ =>
          rw [given] at understands
          cases understands
      | ok back =>
          rw [given] at understands
          cases understands
          exact .failed
  | some (.ok value), same =>
      subst same
      by_cases nothing : value = .null
      · subst nothing
        cases given : RpcReader.response (reply id (.ok .null)).text with
        | error _ =>
            rw [given] at understands
            cases understands
        | ok back =>
            rw [given] at understands
            cases understands
            exact .nothing
      · have read : (reply id (.ok value)).asRead
            = (value.reread belowMessage).map fun back => reply id (.ok back) := by
          cases value <;> first | rfl | exact absurd rfl nothing
        rw [read] at understands
        cases given : RpcReader.response (reply id (.ok value)).text with
        | error reason =>
            rw [given] at understands
            exact .unread (Option.map_eq_none_iff.mp understands.symm)
        | ok back =>
            rw [given] at understands
            obtain ⟨back, same, rfl⟩ := Option.map_eq_some_iff.mp understands.symm
            simp only [reply, if_true]
            exact .value nothing same

/-- Calls are told what their requests came to, by induction on their answers. -/
theorem callResults_told {calls : List (UInt64 × Option (Except RpcError Json))}
    {responses : List Response} {back : Text.Source UInt8}
    (tell : List.Forall₂ Answers calls responses)
    (received : back.rest = responses.flatMap Response.line)
    (understands : ∀ response ∈ responses,
      (RpcReader.response response.text).toOption = response.asRead)
    : List.Forall₂ (fun call told => Told call.1 call.2 told) calls
        (callResults (calls.map (·.1)) back) := by
  induction tell generalizing back with
  | nil => exact .nil
  | cons here _ ih =>
      obtain ⟨understood, others⟩ := List.forall_mem_cons.mp understands
      rw [List.flatMap_cons] at received
      obtain ⟨line, rest⟩ := nextLine_line _ received
      rw [List.map_cons, callResults]
      dsimp only
      rw [line]
      exact .cons (told_of_answers here understood) (ih rest others)

omit [DecimalReader] in
/-- The server answers the requests that fit in a line. -/
theorem handleConnection_lines (state : σ) {requests : List WireRequest}
    {there : Text.Source UInt8} (sent : there.rest = requests.flatMap WireRequest.line)
    : handleConnection handle (fun _ => none) 0 state there
      = ⟨(answers handle state ((fitting requests).map WireRequest.text)).1,
          if (fitting requests).length = requests.length then ending there.failure else .tooLong,
          (answers handle state ((fitting requests).map WireRequest.text)).2⟩ := by
  rw [handleConnection_eq, sent, splitInclusive_lines, legible_lines,
    serveLines_written handle _ 0 state _ _ (fun _ _ => rfl)]

/-- Requests sent over a connection, cut anyhow on the way there and back, are handled once each
and in order, up to the first that is too long for a line; one that cannot be read is refused
instead. Every call of them is told what came of its own request, and the connection is closed
before one that is too long.
-/
theorem calls_are_answered (state : σ) (requests : List WireRequest)
    (there back : Text.Source UInt8)
    (sent : there.rest = requests.flatMap WireRequest.line)
    (received : back.rest
      = (handleConnection handle (fun _ => none) 0 state there).written.flatMap Response.line)
    (reads : ∀ request ∈ fitting requests,
      (RpcReader.request request.text).toOption = request.asRead)
    (understands : ∀ response ∈ (handleConnection handle (fun _ => none) 0 state there).written,
      (RpcReader.response response.text).toOption = response.asRead)
    : let served := handleConnection handle (fun _ => none) 0 state there
      let calls := (outcomes handle state (fitting requests)).1
      calls.map (·.1) = (fitting requests).map (·.id)
        ∧ List.Forall₂ (fun call told => Told call.1 call.2 told) calls
          (callResults (calls.map (·.1)) back)
        ∧ served.written.length = (fitting requests).length
        ∧ served.state = (outcomes handle state (fitting requests)).2
        ∧ served.closing
          = if (fitting requests).length = requests.length then ending there.failure
            else .tooLong := by
  obtain ⟨tell, left, ids⟩ := answers_texts handle state reads
  rw [handleConnection_lines handle state sent] at received understands ⊢
  have count := tell.length_eq
  have numbers := congrArg List.length ids
  rw [List.length_map, List.length_map] at numbers
  exact ⟨ids, callResults_told tell received understands, count ▸ numbers, left, rfl⟩

end Calls

section Example

private def half : Decimal := ⟨['0', '.', '5'], by decide, by decide, by decide⟩

private def probe : WireRequest :=
  ⟨1, "arch.ls", .obj [("offset", .neg 0), ("share", .float half)], none⟩

private def nested : Nat → Json
  | 0 => .null
  | levels + 1 => .arr [nested levels]

/-- A request whose parameters go too deep. -/
private def deep : WireRequest := ⟨2, "boot.info", nested 127, none⟩

private def tooDeep : String := "recursion limit exceeded at line 1 column 181"

private def handleProbe : Nat → WireRequest → Except RpcError Json × Nat :=
  fun count _ => (.ok (.arr [.float half]), count + 1)

private def probeReply : Response := reply 1 (.ok (.arr [.float half]))

private def deepReply : Response := reply 0 (.error (bad s!"not a request: {tooDeep}"))

@[reducible] private def probeReader : RpcReader where
  request text := if text = probe.text then .ok probe else .error tooDeep
  response text :=
    if text = probeReply.text then .ok probeReply
    else if text = deepReply.text then .ok deepReply
    else .error "expected value"

attribute [local instance] probeReader

@[reducible] private def probeDecimals : DecimalReader where
  read text := if text = half.text then some half else none

attribute [local instance] probeDecimals

private def cutProbe : Text.Source UInt8 :=
  ⟨probe.line.take 9, [⟨probe.line.drop 9, by decide⟩, ⟨deep.line, by decide⟩], none⟩

private def servedProbe : Served Nat := handleConnection handleProbe (fun _ => none) 0 0 cutProbe

private theorem reread_nested (levels : Nat) : (nested (levels + 1)).reread levels = none := by
  induction levels with
  | zero => rfl
  | succ levels ih => rw [nested, Json.reread, Json.rereadItems, ih]; rfl

private theorem read_half : DecimalReader.read half.text = some half := if_pos rfl

private theorem fitting_probe : fitting [probe, deep] = [probe, deep] := by
  have short : (Utf8.encode probe.text).length ≤ maxLine := by decide
  have shortDeep : (Utf8.encode deep.text).length ≤ maxLine := by decide +kernel
  simp [fitting, short, shortDeep]

private theorem cutProbe_rest : cutProbe.rest = [probe, deep].flatMap WireRequest.line := by
  simp [cutProbe, Text.Source.rest, ← List.append_assoc]

private theorem servedProbe_written : servedProbe.written = [probeReply, deepReply] := by
  have unlike : deep.text ≠ probe.text := by decide
  have read : RpcReader.request probe.text = .ok probe := if_pos rfl
  have refused : RpcReader.request deep.text = .error tooDeep := if_neg unlike
  rw [servedProbe, handleConnection_lines handleProbe 0 cutProbe_rest, fitting_probe]
  simp only [List.map_cons, List.map_nil, answers, answerLine, read, refused]
  rfl

private def probeBack : Text.Source UInt8 := ⟨[probeReply, deepReply].flatMap Response.line, [], none⟩

/-- Two calls, the first request cut in two on the way, the second too deep to be read. -/
theorem calls_are_answered_twice
    : List.Forall₂ (fun call told => Told call.1 call.2 told)
        [(1, some (.ok (.arr [.float half]))), (2, none)] (callResults [1, 2] probeBack)
      ∧ servedProbe.written.length = 2 ∧ servedProbe.state = 1 ∧ servedProbe.closing = .ended := by
  have received : probeBack.rest = servedProbe.written.flatMap Response.line := by
    simp [servedProbe_written, probeBack, Text.Source.rest]
  have shallow : probe.asRead = some probe := by
    simp [WireRequest.asRead, probe, belowMessage, Json.reread, Json.rereadMembers, read_half]
    rfl
  have unread : deep.asRead = none := congrArg (Option.map _) (reread_nested 126)
  have reads : ∀ request ∈ fitting [probe, deep],
      (RpcReader.request request.text).toOption = request.asRead := by
    rw [fitting_probe]
    have unlike : deep.text ≠ probe.text := by decide
    have read : RpcReader.request probe.text = .ok probe := if_pos rfl
    have refused : RpcReader.request deep.text = .error tooDeep := if_neg unlike
    simp [read, refused, shallow, unread, Except.toOption]
  have understands : ∀ response ∈ servedProbe.written,
      (RpcReader.response response.text).toOption = response.asRead := by
    have unlike : deepReply.text ≠ probeReply.text := by decide
    have back : probeReply.asRead = some probeReply := by
      simp [probeReply, reply, Response.asRead, belowMessage, Json.reread, Json.rereadItems, read_half]
    have first : RpcReader.response probeReply.text = .ok probeReply := if_pos rfl
    have second : RpcReader.response deepReply.text = .ok deepReply :=
      (if_neg unlike).trans (if_pos rfl)
    rw [servedProbe_written, List.forall_mem_cons, List.forall_mem_singleton, first, second, back]
    exact ⟨rfl, rfl⟩
  have all := calls_are_answered handleProbe 0 [probe, deep] cutProbe probeBack cutProbe_rest received
    reads understands
  rw [fitting_probe] at all
  simp only [outcomes, shallow, unread] at all
  exact all.2

end Example

end VerticalAI.Correctness
