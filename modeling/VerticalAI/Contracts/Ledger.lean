import VerticalAI.Contracts.Hashing
import VerticalAI.Foundation.HashChain
import VerticalAI.Foundation.JsonText

/-! The per-node hash-chained ledger: its clock, its events and the chain they form. -/

namespace VerticalAI.Contracts
open VerticalAI.Foundation

-----------------------------------------------------------------------------------------
-- The hybrid logical clock
-----------------------------------------------------------------------------------------

structure Hlc where
  wallMs : UInt64
  counter : UInt32
  node : String
  deriving DecidableEq, Repr

def Hlc.toJson (hlc : Hlc) : Json :=
  .obj [("wall_ms", .num hlc.wallMs.toNat), ("counter", .num hlc.counter.toNat),
    ("node", .str hlc.node)]

structure HlcClock where
  node : String
  last : Hlc
  deriving DecidableEq, Repr

def HlcClock.new (node : String) : HlcClock := ⟨node, ⟨0, 0, node⟩⟩

/-- The next stamp, and the clock that gave it. The counter is a `u32` and wraps. -/
def HlcClock.now (clock : HlcClock) (wallMs : UInt64) : Hlc × HlcClock :=
  let last :=
    if clock.last.wallMs < wallMs then ⟨wallMs, 0, clock.node⟩
    else { clock.last with counter := clock.last.counter + 1 }
  (last, { clock with last })

/-- A remote stamp is too far ahead of the local wall clock. -/
structure ClockAnomaly where
  node : String
  remoteWallMs : UInt64
  localWallMs : UInt64
  deriving DecidableEq, Repr

/-- Take a peer's stamp in, unless its wall time is further ahead than the skew allows. The sums are
machine integers and wrap.
-/
def HlcClock.receive (clock : HlcClock) (remote : Hlc) (wallMs maxSkewMs : UInt64)
    : Except ClockAnomaly Hlc × HlcClock :=
  if wallMs + maxSkewMs < remote.wallMs then
    (.error ⟨remote.node, remote.wallMs, wallMs⟩, clock)
  else
    let maxWall := max (max wallMs clock.last.wallMs) remote.wallMs
    let counter :=
      if maxWall = clock.last.wallMs ∧ maxWall = remote.wallMs then
        max clock.last.counter remote.counter + 1
      else if maxWall = clock.last.wallMs then clock.last.counter + 1
      else if maxWall = remote.wallMs then remote.counter + 1
      else 0
    let last : Hlc := ⟨maxWall, counter, clock.node⟩
    (.ok last, { clock with last })

/-- The first stamp is the earlier one by wall time and then by counter. -/
def Hlc.Before (first second : Hlc) : Prop :=
  first.wallMs < second.wallMs ∨ first.wallMs = second.wallMs ∧ first.counter < second.counter

/-- Stamps are ordered by their times first and by their counters where these are the
same.
-/
theorem Hlc.before_iff {first second : Hlc}
    : first.Before second
      ↔ first.wallMs.toNat < second.wallMs.toNat
        ∨ first.wallMs.toNat = second.wallMs.toNat
          ∧ first.counter.toNat < second.counter.toNat := by
  rw [Hlc.Before, UInt64.lt_iff_toNat_lt, UInt32.lt_iff_toNat_lt, UInt64.toNat_inj]

theorem Hlc.Before.trans {first second third : Hlc} (earlier : first.Before second)
    (later : second.Before third)
    : first.Before third := by
  rw [Hlc.before_iff] at earlier later ⊢
  omega

theorem Hlc.Before.irrefl (stamp : Hlc) : ¬stamp.Before stamp := by
  rw [Hlc.before_iff]
  omega

-----------------------------------------------------------------------------------------
-- Events
-----------------------------------------------------------------------------------------

inductive ClockQuality where
  | synced
  | unsynced
  | manualChangeDetected
  deriving DecidableEq, Repr

def ClockQuality.name : ClockQuality → String
  | .synced => "synced"
  | .unsynced => "unsynced"
  | .manualChangeDetected => "manual_change_detected"

inductive RetentionClass where
  | ephemeral
  | operational90d
  | compliance6m
  | compliance10y
  deriving DecidableEq, Repr

def RetentionClass.name : RetentionClass → String
  | .ephemeral => "ephemeral"
  | .operational90d => "operational90d"
  | .compliance6m => "compliance6m"
  | .compliance10y => "compliance10y"

structure LedgerEvent where
  seq : UInt64
  prevHash : String
  hash : String
  kind : String
  retention : RetentionClass
  wallMs : UInt64
  clockQuality : ClockQuality
  hlc : Hlc
  causalHeads : List String
  payloadHash : String
  deriving DecidableEq, Repr

/-- What an event's own hash commits to: everything but that hash. -/
structure Unhashed where
  seq : UInt64
  prevHash : String
  kind : String
  retention : RetentionClass
  wallMs : UInt64
  clockQuality : ClockQuality
  hlc : Hlc
  causalHeads : List String
  payloadHash : String
  deriving DecidableEq, Repr

namespace Unhashed

def toJson (content : Unhashed) : Json :=
  .obj [("seq", .num content.seq.toNat), ("prev_hash", .str content.prevHash),
    ("kind", .str content.kind), ("retention", .str content.retention.name),
    ("wall_ms", .num content.wallMs.toNat),
    ("clock_quality", .str content.clockQuality.name), ("hlc", content.hlc.toJson),
    ("causal_heads", .arr (content.causalHeads.map .str)),
    ("payload_hash", .str content.payloadHash)]

/-- The hash an event with this content has to carry. -/
def hash [Digest] (content : Unhashed) : String := hashCanonical content.toJson

end Unhashed

namespace LedgerEvent

def toJson (event : LedgerEvent) : Json :=
  .obj [("seq", .num event.seq.toNat), ("prev_hash", .str event.prevHash),
    ("hash", .str event.hash), ("kind", .str event.kind),
    ("retention", .str event.retention.name), ("wall_ms", .num event.wallMs.toNat),
    ("clock_quality", .str event.clockQuality.name), ("hlc", event.hlc.toJson),
    ("causal_heads", .arr (event.causalHeads.map .str)),
    ("payload_hash", .str event.payloadHash)]

def unhashed (event : LedgerEvent) : Unhashed where
  seq := event.seq
  prevHash := event.prevHash
  kind := event.kind
  retention := event.retention
  wallMs := event.wallMs
  clockQuality := event.clockQuality
  hlc := event.hlc
  causalHeads := event.causalHeads
  payloadHash := event.payloadHash

/-- Content and hash make up the whole event. -/
theorem eq_of_unhashed {first second : LedgerEvent} (content : first.unhashed = second.unhashed)
    (hash : first.hash = second.hash)
    : first = second := by
  cases first
  cases second
  simp only [unhashed, Unhashed.mk.injEq] at content hash
  simp only [content, hash]

end LedgerEvent

-----------------------------------------------------------------------------------------
-- Documents determine their values
-----------------------------------------------------------------------------------------

theorem ClockQuality.name_injective {first second : ClockQuality}
    (same : first.name = second.name)
    : first = second := by
  cases first <;> cases second <;> first | rfl | exact absurd same (by decide)

theorem RetentionClass.name_injective {first second : RetentionClass}
    (same : first.name = second.name)
    : first = second := by
  cases first <;> cases second <;> first | rfl | exact absurd same (by decide)

theorem Hlc.toJson_injective {first second : Hlc} (same : first.toJson = second.toJson)
    : first = second := by
  cases first
  cases second
  simp only [toJson, Json.obj.injEq, List.cons.injEq, Prod.mk.injEq, Json.num.injEq,
    Json.str.injEq, true_and, and_true, UInt64.toNat_inj, UInt32.toNat_inj] at same
  simp only [same]

theorem strings_injective {first second : List String}
    (same : first.map Json.str = second.map Json.str)
    : first = second :=
  List.map_injective_iff.mpr (fun _ _ equal => Json.str.inj equal) same

theorem Unhashed.toJson_injective {first second : Unhashed}
    (same : first.toJson = second.toJson)
    : first = second := by
  cases first
  cases second
  simp only [toJson, Json.obj.injEq, List.cons.injEq, Prod.mk.injEq, Json.num.injEq,
    Json.str.injEq, Json.arr.injEq, true_and, and_true, UInt64.toNat_inj] at same
  obtain ⟨seq, prev, kind, retention, wall, quality, hlc, heads, payload⟩ := same
  rw [seq, prev, kind, RetentionClass.name_injective retention, wall,
    ClockQuality.name_injective quality, Hlc.toJson_injective hlc, strings_injective heads,
    payload]

/-- Different events have different lines. -/
theorem LedgerEvent.toJson_injective {first second : LedgerEvent}
    (same : first.toJson = second.toJson)
    : first = second := by
  cases first
  cases second
  simp only [toJson, Json.obj.injEq, List.cons.injEq, Prod.mk.injEq, Json.num.injEq,
    Json.str.injEq, Json.arr.injEq, true_and, and_true, UInt64.toNat_inj] at same
  obtain ⟨seq, prev, hash, kind, retention, wall, quality, hlc, heads, payload⟩ := same
  rw [seq, prev, hash, kind, RetentionClass.name_injective retention, wall,
    ClockQuality.name_injective quality, Hlc.toJson_injective hlc, strings_injective heads,
    payload]

-----------------------------------------------------------------------------------------
-- The chain
-----------------------------------------------------------------------------------------

/-- The seven parameters of an append, in the contract's order. -/
structure Entry where
  kind : String
  retention : RetentionClass
  wallMs : UInt64
  clockQuality : ClockQuality
  hlc : Hlc
  causalHeads : List String
  payloadHash : String
  deriving DecidableEq, Repr

structure Ledger where
  events : List LedgerEvent := []
  deriving DecidableEq, Repr

/-- The hash the first event names as the one before it. -/
def genesisHash : String := "sha256:genesis"

/-- How ledger events link. -/
def ledgerChain [Digest] : HashChain LedgerEvent String where
  prev := (·.prevHash)
  hash := (·.hash)
  digest := (·.unhashed.hash)

section LedgerChain

variable [Digest] (event : LedgerEvent)

@[simp] theorem ledgerChain_prev : ledgerChain.prev event = event.prevHash := rfl

@[simp] theorem ledgerChain_hash : ledgerChain.hash event = event.hash := rfl

@[simp] theorem ledgerChain_digest : ledgerChain.digest event = event.unhashed.hash := rfl

end LedgerChain

namespace Ledger

variable [Digest]

/-- The event an append builds: its place and the hash before it come from the chain. -/
def nextEvent (ledger : Ledger) (entry : Entry) : LedgerEvent :=
  let seq := UInt64.ofNat ledger.events.length
  let prevHash := (ledger.events.getLast?.map (·.hash)).getD genesisHash
  let content : Unhashed :=
    { seq, prevHash, kind := entry.kind, retention := entry.retention, wallMs := entry.wallMs
      clockQuality := entry.clockQuality, hlc := entry.hlc
      causalHeads := entry.causalHeads, payloadHash := entry.payloadHash }
  { seq, prevHash, hash := content.hash, kind := entry.kind, retention := entry.retention
    wallMs := entry.wallMs, clockQuality := entry.clockQuality, hlc := entry.hlc
    causalHeads := entry.causalHeads, payloadHash := entry.payloadHash }

/-- Compute the next event and put it at the end. -/
def append (ledger : Ledger) (entry : Entry) : LedgerEvent × Ledger :=
  let event := ledger.nextEvent entry
  (event, ⟨ledger.events ++ [event]⟩)

/-- Re-load a persisted event without recomputing it. -/
def pushVerified (ledger : Ledger) (event : LedgerEvent) : Ledger :=
  ⟨ledger.events ++ [event]⟩

/-- Walk the chain from the hash `prev` on: every link and every hash recomputes. -/
def verifyFrom (prev : String) : List LedgerEvent → Bool
  | [] => true
  | event :: rest =>
      if event.prevHash ≠ prev then false
      else if event.unhashed.hash ≠ event.hash then false
      else verifyFrom event.hash rest

def verifyChain (ledger : Ledger) : Bool := verifyFrom genesisHash ledger.events

omit [Digest] in
/-- Loading events one at a time puts them at the end in order, by induction on them. -/
theorem foldl_pushVerified (ledger : Ledger) (events : List LedgerEvent)
    : events.foldl pushVerified ledger = ⟨ledger.events ++ events⟩ := by
  induction events generalizing ledger with
  | nil => simp only [List.foldl_nil, List.append_nil]
  | cons event rest ih =>
      simp only [List.foldl_cons, ih, pushVerified, List.append_assoc, List.cons_append,
        List.nil_append]

/-- The check accepts exactly the linked chains, by induction on the events. -/
theorem verifyFrom_iff {prev : String} {events : List LedgerEvent}
    : verifyFrom prev events = true ↔ ledgerChain.Linked prev events := by
  induction events generalizing prev with
  | nil => simp only [verifyFrom, HashChain.Linked]
  | cons event rest ih =>
      simp only [verifyFrom, HashChain.Linked, ledgerChain_prev, ledgerChain_hash,
        ledgerChain_digest]
      split_ifs with differs altered
      · simp only [differs, false_and]
      · simp only [altered, false_and, and_false]
      · simp only [not_not.mp differs, not_not.mp altered, true_and, ih]

/-- Verifying a ledger checks that its events link from the genesis hash, each under its
own hash.
-/
theorem verifyChain_iff {ledger : Ledger}
    : ledger.verifyChain = true ↔ ledgerChain.Linked genesisHash ledger.events :=
  verifyFrom_iff

/-- An appended event names the head before it and carries its own hash. -/
theorem nextEvent_linked (ledger : Ledger) (entry : Entry)
    : (ledger.nextEvent entry).prevHash = ledgerChain.headHash genesisHash ledger.events
      ∧ (ledger.nextEvent entry).unhashed.hash = (ledger.nextEvent entry).hash :=
  ⟨rfl, rfl⟩

/-- Appending to a chain that verifies gives one that verifies. -/
theorem verifyChain_append {ledger : Ledger} (verified : ledger.verifyChain = true)
    (entry : Entry)
    : (ledger.append entry).2.verifyChain = true := by
  rw [verifyChain_iff] at verified ⊢
  obtain ⟨names, carries⟩ := ledger.nextEvent_linked entry
  exact HashChain.linked_concat.mpr ⟨verified, names, carries⟩

@[simp] theorem append_snd_events (ledger : Ledger) (entry : Entry)
    : (ledger.append entry).2.events = ledger.events ++ [ledger.nextEvent entry] := rfl

@[simp] theorem append_fst (ledger : Ledger) (entry : Entry)
    : (ledger.append entry).1 = ledger.nextEvent entry := rfl

@[simp] theorem nextEvent_seq (ledger : Ledger) (entry : Entry)
    : (ledger.nextEvent entry).seq = UInt64.ofNat ledger.events.length := rfl

end Ledger

end VerticalAI.Contracts
