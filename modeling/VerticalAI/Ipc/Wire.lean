import VerticalAI.Foundation.JsonReading
import VerticalAI.Foundation.LineStream
import VerticalAI.Foundation.Utf8
import VerticalAI.Ipc.Server

/-! Both ends of a connection: requests and responses as lines of JSON, the server's loop over
the lines that come in, and the calls of a client.
-/

namespace VerticalAI.Ipc
open VerticalAI.Foundation VerticalAI.Contracts

/-- Longest request line accepted. -/
def maxLine : Nat := 1048576

def newline : UInt8 := 10

def carriageReturn : UInt8 := 13

/-- Why a connection ends. -/
inductive Closing where
  | ended
  | tooLong
  | midLine
  | notUtf8
  | unreadable (reason : String)
  | unwritable (reason : String)
  deriving DecidableEq

/-- A line without its terminator. -/
def stripped (buf : List UInt8) : List UInt8 :=
  let body := buf.dropLast
  if body.getLast? = some carriageReturn then body.dropLast else body

/-- The line that was read; none at a clean end of the stream. -/
def lineOf (buf : List UInt8) : Except Closing (Option (List Char)) :=
  if buf = [] then .ok none
  else if buf.getLast? ≠ some newline then
    .error (if maxLine < buf.length then .tooLong else .midLine)
  else
    match Utf8.decode (stripped buf) with
    | some text => .ok (some text)
    | none => .error .notUtf8

def readLine (source : Text.Source UInt8)
    : Except Closing (Option (List Char)) × Text.Source UInt8 :=
  let read := Text.readUntil newline (maxLine + 1) source
  match read.1 with
  | .ok buf => (lineOf buf, read.2)
  | .error reason => (.error (.unreadable reason), read.2)

/-- A line that was read leaves less to read. -/
theorem readLine_shorter {source after : Text.Source UInt8} {line : List Char}
    (read : readLine source = (.ok (some line), after))
    : after.rest.length < source.rest.length := by
  obtain ⟨taken, left, -⟩ := Text.readUntil_eq newline (maxLine + 1) source
  rw [readLine] at read
  split at read
  · next buf given =>
      rw [Prod.mk.injEq] at read
      obtain ⟨here, rfl⟩ := read
      rw [given] at taken
      have same := Text.atEnd_ok taken.symm
      have some_bytes : buf ≠ [] := by
        intro empty
        rw [empty] at here
        cases here
      have shorter : buf.length ≤ (source.rest.take (maxLine + 1)).length := by
        rw [← same]
        exact (Text.upTo_part _).length_le
      rw [List.length_take] at shorter
      have := List.length_pos_iff.mpr some_bytes
      rw [left, same, List.length_drop]
      omega
  · cases read

structure WireRequest where
  id : UInt64
  method : String
  params : Json
  presence : Option PresenceProof

/-- What a call came to, with the number of its request. -/
structure Response where
  id : UInt64
  result : Option Json
  error : Option RpcError

def PresenceProof.toJson (proof : PresenceProof) : Json :=
  .obj [("device_id", .str proof.deviceId), ("nonce", .str proof.nonce),
    ("signature_hex", .str proof.signatureHex)]

def WireRequest.text (request : WireRequest) : List Char :=
  (Json.obj [("jsonrpc", .str "2.0"), ("id", .num request.id.toNat),
    ("method", .str request.method), ("params", request.params),
    ("presence", Json.ofOption PresenceProof.toJson request.presence)]).render

def RpcError.toJson (error : RpcError) : Json :=
  .obj [("code", Json.ofInt error.code.toInt), ("message", .str error.message)]

/-- A result or an error that is not there is left out. -/
def Response.text (response : Response) : List Char :=
  (Json.obj ([("jsonrpc", .str "2.0"), ("id", .num response.id.toNat)]
    ++ (response.result.map fun value => ("result", value)).toList
    ++ (response.error.map fun error => ("error", error.toJson)).toList)).render

theorem WireRequest.newline_not_mem_text (request : WireRequest) : '\n' ∉ request.text :=
  Json.newline_not_mem_render _

theorem Response.newline_not_mem_text (response : Response) : '\n' ∉ response.text :=
  Json.newline_not_mem_render _

/-- What parses messages. -/
class RpcReader where
  request : List Char → Except String WireRequest
  response : List Char → Except String Response

/-- How many levels below a message are read. -/
def belowMessage : Nat := 126

/-- What is read where the text of a request stands. -/
def WireRequest.asRead [DecimalReader] (request : WireRequest) : Option WireRequest :=
  (Json.reread belowMessage request.params).map fun params => { request with params }

/-- What is read where the text of a response stands: a result of null is as good as none. -/
def Response.asRead [DecimalReader] (response : Response) : Option Response :=
  match response.result with
  | none | some .null => some { response with result := none }
  | some value =>
      (Json.reread belowMessage value).map fun value => { response with result := some value }

def reply (id : UInt64) : Except RpcError Json → Response
  | .ok value => ⟨id, some value, none⟩
  | .error error => ⟨id, none, some error⟩

def WireRequest.line (request : WireRequest) : List UInt8 := Utf8.encode request.text ++ [newline]

def Response.line (response : Response) : List UInt8 := Utf8.encode response.text ++ [newline]

/-- A message that ends in a brace comes back whole from its line. -/
theorem decode_stripped (text : List Char)
    : Utf8.decode (stripped (Utf8.encode (text ++ ['}']) ++ [newline])) = some (text ++ ['}']) := by
  have last : (Utf8.encode (text ++ ['}'])).getLast? ≠ some carriageReturn := by
    have brace : Utf8.encode ['}'] = [125] := by decide
    simp [brace, carriageReturn]
  rw [stripped, List.dropLast_concat, if_neg last, Utf8.decode_encode]

theorem WireRequest.text_ends (request : WireRequest)
    : ∃ body, request.text = body ++ ['}'] := by
  rw [WireRequest.text, Json.render]
  exact ⟨_, rfl⟩

theorem Response.text_ends (response : Response) : ∃ body, response.text = body ++ ['}'] := by
  rw [Response.text, Json.render]
  exact ⟨_, rfl⟩

/-- What a connection was given, how it ended, and what serving it left. -/
structure Served (σ : Type) where
  written : List Response
  closing : Closing
  state : σ

variable {σ : Type} [RpcReader]

/-- Answer one line. -/
def answerLine (handle : σ → WireRequest → Except RpcError Json × σ) (state : σ) (line : List Char)
    : Response × σ :=
  match RpcReader.request line with
  | .ok request =>
      let (outcome, state) := handle state request
      (reply request.id outcome, state)
  | .error reason => (reply 0 (.error (bad s!"not a request: {reason}")), state)

/-- Answer lines until there are no more, or one cannot be read or its answer not be written.
The faults say which answers cannot.
-/
def handleConnection (handle : σ → WireRequest → Except RpcError Json × σ)
    (faults : Nat → Option String) (count : Nat) (state : σ) (source : Text.Source UInt8)
    : Served σ :=
  match _read : readLine source with
  | (.error closing, _) => ⟨[], closing, state⟩
  | (.ok none, _) => ⟨[], .ended, state⟩
  | (.ok (some line), rest) =>
      let (response, state) := answerLine handle state line
      match faults count with
      | none =>
          let served := handleConnection handle faults (count + 1) state rest
          { served with written := response :: served.written }
      | some reason => ⟨[], .unwritable reason, state⟩
termination_by source.rest.length
decreasing_by exact readLine_shorter _read

/-- Why a call gives no value. -/
inductive CallFailure where
  | call (error : RpcError)
  | closed
  | notUtf8
  | unreadable (reason : String)
  | notAResponse (reason : String)
  | malformed (id : UInt64)

/-- One line of the replies, as long as it may be; the last may lack its terminator. -/
def nextLine (source : Text.Source UInt8) : Except CallFailure (List Char) × Text.Source UInt8 :=
  let read := Text.readUntil newline (source.rest.length + 1) source
  match read.1 with
  | .error reason => (.error (.unreadable reason), read.2)
  | .ok buf =>
      if buf = [] then (.error .closed, read.2)
      else
        match Utf8.decode (if buf.getLast? = some newline then stripped buf else buf) with
        | some line => (.ok line, read.2)
        | none => (.error .notUtf8, read.2)

/-- What a call makes of the line that came back. -/
def callResult (id : UInt64) : Except CallFailure (List Char) → Except CallFailure Json
  | .error failure => .error failure
  | .ok line =>
      match RpcReader.response line with
      | .error reason => .error (.notAResponse reason)
      | .ok response =>
          match response.result, response.error with
          | some value, none => if response.id = id then .ok value else .error (.malformed id)
          | _, some error => .error (.call error)
          | none, none => .error (.malformed id)

/-- What calls with these numbers make of the lines that come back. -/
def callResults : List UInt64 → Text.Source UInt8 → List (Except CallFailure Json)
  | [], _ => []
  | id :: ids, source =>
      let (line, source) := nextLine source
      callResult id line :: callResults ids source

end VerticalAI.Ipc
