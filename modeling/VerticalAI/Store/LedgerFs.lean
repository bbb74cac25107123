import VerticalAI.Contracts.Ledger
import VerticalAI.Foundation.Table
import VerticalAI.Foundation.Text

/-! The ledger on disk: segments of one JSON line an event, in a directory of their own. -/

namespace VerticalAI.Store
open VerticalAI.Foundation VerticalAI.Contracts

/-- The ledger directory: the bytes of each file by name. -/
abbrev Dir := Table (List UInt8)

/-- How the JSON library reads one event from a line, or the error it reports. -/
class EventReader where
  fromStr : List Char → Except String LedgerEvent

def segmentEvents : Nat := 10000

/-- A number in decimal, padded with zeros to at least `width` digits. -/
def padded : (width number : Nat) → List Char
  | 0, number => if number = 0 then [] else Nat.toDigits 10 number
  | width + 1, number => padded width (number / 10) ++ [Nat.digitChar (number % 10)]

/-- `.jsonl` -/
def segmentExtension : List Char := ['.', 'j', 's', 'o', 'n', 'l']

/-- The name of the segment with this number, `seg-{:06}.jsonl`. -/
def segmentFile (segment : Nat) : String :=
  String.ofList (['s', 'e', 'g', '-'] ++ padded 6 segment ++ segmentExtension)

/-- The segment an event with this sequence number belongs to. -/
def segmentPath (seq : UInt64) : String := segmentFile (seq.toNat / segmentEvents)

/-- The file extension is `jsonl`: the name ends so, and something stands before it. -/
def isSegment (name : String) : Bool :=
  segmentExtension.isSuffixOf name.toList && segmentExtension.length < name.toList.length

/-- One serialised event, newline-terminated. -/
def eventLine (event : LedgerEvent) : List Char := event.toJson.render ++ ['\n']

structure LedgerFs where
  chain : Ledger := {}
  recoveredPartialLine : Bool := false

/-- What replaying has gathered so far. -/
structure Replay where
  chain : Ledger
  recovered : Bool
  dir : Dir

section Opening

variable [EventReader]

/-- Replay the lines of one segment, each starting at its `offset` in bytes: whether they replay,
and what is left so far.
-/
def replayLines (name : String) (isLastSegment : Bool)
    : List (List Char) → (lineIdx offset : Nat) → Replay → Except String Unit × Replay
  | [], _, _, state => (.ok (), state)
  | rawLine :: rest, lineIdx, offset, state =>
      let next := offset + (Utf8.encode rawLine).length
      let line := rawLine.rdropWhile (· = '\n')
      if Text.trim line = [] then
        replayLines name isLastSegment rest (lineIdx + 1) next state
      else
        match EventReader.fromStr line with
        | .ok event =>
            replayLines name isLastSegment rest (lineIdx + 1) next
              { state with chain := state.chain.pushVerified event }
        | .error err =>
            -- A crash in the middle of an append: the line is dropped and cut off.
            if isLastSegment && rest.isEmpty && rawLine.getLast? ≠ some '\n' then
              (.ok (), { state with
                recovered := true
                dir := state.dir.insert name ((state.dir[name]?.getD []).take offset) })
            else
              (.error s!"ledger corruption in {name} line {lineIdx + 1}: {err}", state)

/-- Replay the segments in the order given, each on the directory that the one before left. -/
def replaySegments : List (String × List UInt8) → Replay → Except String Unit × Replay
  | [], state => (.ok (), state)
  | (name, bytes) :: rest, state =>
      match Utf8.decode bytes with
      | none => (.error "stream did not contain valid UTF-8", state)
      | some text =>
          match replayLines name rest.isEmpty (Text.splitInclusive '\n' text) 0 0 state with
          | (.ok (), state) => replaySegments rest state
          | (.error err, state) => (.error err, state)

/-- The segment files in name order. -/
def segments (dir : Dir) : List (String × List UInt8) :=
  dir.list.filter (fun file => isSegment file.1)

/-- Read and replay every segment: the ledger or the error, and the directory as it is then. An
unterminated last line of the last segment that does not parse is dropped and truncated away; any
other such line is corruption.
-/
def LedgerFs.openIn (dir : Dir) : Except String LedgerFs × Dir :=
  match replaySegments (segments dir) ⟨{}, false, dir⟩ with
  | (.ok (), state) => (.ok ⟨state.chain, state.recovered⟩, state.dir)
  | (.error err, state) => (.error err, state.dir)

/-- The ledger with the directory that opening it leaves, or the error. -/
def LedgerFs.open (dir : Dir) : Except String (LedgerFs × Dir) :=
  match LedgerFs.openIn dir with
  | (.ok ledger, left) => .ok (ledger, left)
  | (.error err, _) => .error err

end Opening

/-- The disk operation of an append that fails: how many bytes of the line had landed when
a write failed, and whether taking them off again worked.
-/
inductive WriteFault where
  | openSegment
  | readLength
  | write (landed : Nat) (undone : Bool)
  | syncData (undone : Bool)
  | syncDir
  deriving DecidableEq, Repr

section Appending

variable [Digest]

/-- Write one line to its segment and sync it; a segment created here is also made durable in
its directory.
-/
def writeLine (dir : Dir) (event : LedgerEvent) (fault : Option WriteFault)
    : Except String Unit × Dir :=
  let path := segmentPath event.seq
  let fresh := !dir.contains path
  let before := dir[path]?.getD []
  let opened := dir.insert path before
  let line := Utf8.encode (eventLine event)
  match fault with
  | some .openSegment => (.error s!"open {path}", dir)
  | some .readLength => (.error s!"metadata of {path}", opened)
  | some (.write landed undone) =>
      (.error s!"append to {path}",
        if undone then opened else dir.insert path (before ++ line.take landed))
  | some (.syncData undone) =>
      (.error s!"append to {path}", if undone then opened else dir.insert path (before ++ line))
  | some .syncDir =>
      if fresh then (.error "sync ledger", dir.insert path (before ++ line))
      else (.ok (), dir.insert path (before ++ line))
  | none => (.ok (), dir.insert path (before ++ line))

/-- Undo the in-memory append of the event at `seq`: rebuild the chain before it. -/
def LedgerFs.rollBack (ledger : LedgerFs) (seq : UInt64) : LedgerFs :=
  { ledger with chain := (ledger.chain.events.take seq.toNat).foldl Ledger.pushVerified {} }

/-- Append one event: only a line that reached the disk stays in the in-memory chain. -/
def LedgerFs.append (ledger : LedgerFs) (dir : Dir) (entry : Entry)
    (fault : Option WriteFault)
    : Except String LedgerEvent × LedgerFs × Dir :=
  let (event, chain) := ledger.chain.append entry
  let appended := { ledger with chain }
  match writeLine dir event fault with
  | (.ok (), dir) => (.ok event, appended, dir)
  | (.error err, dir) => (.error err, appended.rollBack event.seq, dir)

/-- The directory after power was lost while the line was written: the segment exists and
the first `landed` bytes of the line are in it.
-/
def torn (dir : Dir) (event : LedgerEvent) (landed : Nat) : Dir :=
  let path := segmentPath event.seq
  dir.insert path (dir[path]?.getD [] ++ (Utf8.encode (eventLine event)).take landed)

/-- Append several events, each of which reaches the disk. -/
def LedgerFs.appendAll (ledger : LedgerFs) (dir : Dir) : List Entry → LedgerFs × Dir
  | [] => (ledger, dir)
  | entry :: rest =>
      let (_, ledger, dir) := ledger.append dir entry none
      ledger.appendAll dir rest

end Appending

def LedgerFs.events (ledger : LedgerFs) : List LedgerEvent := ledger.chain.events

def LedgerFs.verify [Digest] (ledger : LedgerFs) : Bool := ledger.chain.verifyChain

end VerticalAI.Store
