import VerticalAI.Store.CanonicalReader
import VerticalAI.Store.InterruptedAppend

/-! Reopening a ledger whose last append was cut short by a crash: at which cuts the ledger
recovers, and at which it does not.
-/

namespace VerticalAI.Correctness
open VerticalAI.Foundation VerticalAI.Contracts VerticalAI.Store

section Recovery

variable [Digest] [EventReader]

/-- The bytes of the line the next append writes. -/
def nextLine (ledger : LedgerFs) (entry : Entry) : List UInt8 :=
  Utf8.encode (eventLine (ledger.chain.nextEvent entry))

omit [EventReader] in
/-- Every line has its two braces and its break. -/
theorem three_le_length_nextLine (ledger : LedgerFs) (entry : Entry)
    : 3 ≤ (nextLine ledger entry).length := by
  have atLeast := Utf8.length_le_length_encode (eventLine (ledger.chain.nextEvent entry))
  have braces : 3 ≤ (eventLine (ledger.chain.nextEvent entry)).length := by
    rw [eventLine, LedgerEvent.toJson, Json.render]
    simp
  exact braces.trans atLeast

/-- The cut leaves text, and the whole line but its break only at the end of a segment. -/
structure CutHeals (ledger : LedgerFs) (entry : Entry) (landed : Nat) : Prop where
  text : (Utf8.decode ((nextLine ledger entry).take landed)).isSome
  whole
    : landed + 1 = (nextLine ledger entry).length
      → (ledger.events.length + 1) % segmentEvents = 0

/-- Directories and open ledgers that appends, contained faults, reopening and crashes with a
cut that heals lead to, starting from an empty directory.
-/
inductive Reached : Dir → LedgerFs → Prop
  | created : Reached ∅ {}
  | appended {dir ledger} (reached : Reached dir ledger)
    (room : ledger.events.length < maxEvents) (entry : Entry)
    : Reached (ledger.append dir entry none).2.2 (ledger.append dir entry none).2.1
  | refused {dir ledger} (reached : Reached dir ledger)
    (room : ledger.events.length < maxEvents) (entry : Entry) {fault : WriteFault}
    (contained : fault.Contained dir (ledger.chain.nextEvent entry))
    : Reached (ledger.append dir entry (some fault)).2.2
        (ledger.append dir entry (some fault)).2.1
  | reopened {dir ledger dir' ledger'} (reached : Reached dir ledger)
    (opened : LedgerFs.open dir = .ok (ledger', dir'))
    : Reached dir' ledger'
  | recovered {dir ledger dir' ledger'} (reached : Reached dir ledger)
    (room : ledger.events.length < maxEvents) {entry : Entry} {landed : Nat}
    (short : landed < (nextLine ledger entry).length) (heals : CutHeals ledger entry landed)
    (opened
      : LedgerFs.open (torn dir (ledger.chain.nextEvent entry) landed) = .ok (ledger', dir'))
    : Reached dir' ledger'

/-- After a crash in the append of `entry`, opening succeeds and replays the chain with or
without that event, and whatever is appended afterwards replays in order and verifies.
-/
def Recovers (dir : Dir) (ledger : LedgerFs) (entry : Entry) (landed : Nat) : Prop :=
  ∃ reopened dir',
    LedgerFs.open (torn dir (ledger.chain.nextEvent entry) landed) = .ok (reopened, dir')
    ∧ (reopened.events = ledger.events
        ∨ reopened.events = ledger.events ++ [ledger.chain.nextEvent entry])
    ∧ ∀ entries : List Entry,
        reopened.events.length + entries.length ≤ maxEvents
        → ∃ final dir'',
            LedgerFs.open (reopened.appendAll dir' entries).2 = .ok (final, dir'')
            ∧ final.events = (reopened.appendAll dir' entries).1.events
            ∧ final.verify = true

omit [EventReader] in
/-- The text of a cut is a prefix of the event's text. -/
theorem prefix_of_cut {ledger : LedgerFs} {entry : Entry} {landed : Nat} {text : List Char}
    (short : landed < (nextLine ledger entry).length)
    (read : Utf8.decode ((nextLine ledger entry).take landed) = some text)
    : text <+: (ledger.chain.nextEvent entry).toJson.render := by
  have front := Utf8.prefix_of_decode read (List.take_append_drop landed _)
  rcases List.prefix_concat_iff.mp front with whole | inside
  · have lengths := congrArg List.length (Utf8.encode_of_decode read)
    rw [whole, List.length_take] at lengths
    simp only [nextLine, eventLine] at lengths short
    omega
  · exact inside

omit [EventReader] in
/-- The cut left the whole text of the event exactly when only the line break is missing. -/
theorem cut_whole_iff {ledger : LedgerFs} {entry : Entry} {landed : Nat} {text : List Char}
    (short : landed < (nextLine ledger entry).length)
    (read : Utf8.decode ((nextLine ledger entry).take landed) = some text)
    : text = (ledger.chain.nextEvent entry).toJson.render
      ↔ landed + 1 = (nextLine ledger entry).length := by
  have bytes := Utf8.encode_of_decode read
  have line : nextLine ledger entry
      = Utf8.encode (ledger.chain.nextEvent entry).toJson.render ++ Utf8.encode ['\n'] := by
    rw [nextLine, eventLine, Utf8.encode_append]
  have break_byte : (Utf8.encode ['\n']).length = 1 := by decide
  constructor
  · rintro rfl
    have lengths := congrArg List.length bytes
    rw [List.length_take] at lengths
    rw [line, List.length_append] at short lengths ⊢
    omega
  · intro landed_eq
    have total : landed
        = (Utf8.encode (ledger.chain.nextEvent entry).toJson.render).length := by
      rw [line, List.length_append] at landed_eq
      omega
    rw [line, total, List.take_left] at bytes
    exact Utf8.encode_injective bytes

-----------------------------------------------------------------------------------------
-- Opening after the crash
-----------------------------------------------------------------------------------------

omit [EventReader] in
/-- A crash in an append interrupts the newest segment. -/
theorem interrupted_torn {dir : Dir} {ledger : LedgerFs}
    (stores : Stores dir ledger.events) (room : ledger.events.length < maxEvents)
    (entry : Entry) (landed : Nat)
    : ∃ full chunks tail,
        Interrupted (torn dir (ledger.chain.nextEvent entry) landed) full chunks tail
          ((nextLine ledger entry).take landed)
        ∧ ledger.events = chunks.flatten ++ tail
        ∧ ledger.events.length % segmentEvents = tail.length := by
  obtain ⟨full, chunks, tail, target⟩ := stores.target room entry
  have count := target.length_mod
  obtain ⟨⟨last, holds⟩, events_eq, fits, path, before⟩ := target
  have written : torn dir (ledger.chain.nextEvent entry) landed
      = dir.insert (segmentFile full.length)
          (segmentBytes tail ++ (nextLine ledger entry).take landed) := by
    rw [path] at before
    rw [torn, path, before, nextLine]
  refine ⟨full, chunks, tail, ⟨?_, fits, holds.images, holds.sizes, holds.open_end⟩,
    events_eq, count⟩
  rw [written]
  exact holds.lists.insert fits _

-----------------------------------------------------------------------------------------
-- What reopening finds
-----------------------------------------------------------------------------------------

/-- An open ledger whose directory stores its events, and whose chain verifies. -/
structure Sound (dir : Dir) (ledger : LedgerFs) : Prop where
  stores : Stores dir ledger.events
  verified : ledger.verify = true
  bounded : ledger.events.length ≤ maxEvents

omit [EventReader] in
/-- One more event keeps a ledger sound. -/
theorem Sound.extend {dir dir' : Dir} {ledger ledger' : LedgerFs} (sound : Sound dir ledger)
    (room : ledger.events.length < maxEvents) (entry : Entry)
    (grown : ledger'.events = ledger.events ++ [ledger.chain.nextEvent entry])
    (stores : Stores dir' ledger'.events)
    : Sound dir' ledger' := by
  have chain : ledger'.chain = (ledger.chain.append entry).2 := congrArg Ledger.mk grown
  refine ⟨stores, ?_, ?_⟩
  · rw [LedgerFs.verify, chain]
    exact Ledger.verifyChain_append sound.verified entry
  · rw [grown, List.length_append, List.length_singleton]
    omega

/-- After a crash at a cut that heals, opening gives a sound ledger with or without the event,
by cases on what landed: nothing, part of the text, or the whole of it.
-/
theorem CutHeals.reopens (lawful : EventReader.Lawful) {dir : Dir} {ledger : LedgerFs}
    (sound : Sound dir ledger) (room : ledger.events.length < maxEvents) {entry : Entry}
    {landed : Nat} (short : landed < (nextLine ledger entry).length)
    (heals : CutHeals ledger entry landed)
    : ∃ reopened dir',
        LedgerFs.open (torn dir (ledger.chain.nextEvent entry) landed) = .ok (reopened, dir')
        ∧ (reopened.events = ledger.events
            ∨ reopened.events = ledger.events ++ [ledger.chain.nextEvent entry])
        ∧ Sound dir' reopened := by
  obtain ⟨full, chunks, tail, interrupted, events_eq, count⟩ :=
    interrupted_torn sound.stores room entry landed
  obtain ⟨text, read⟩ := Option.isSome_iff_exists.mp heals.text
  have chain : ledger.chain = ⟨chunks.flatten ++ tail⟩ := by
    rw [← events_eq]
    rfl
  by_cases whole : text = (ledger.chain.nextEvent entry).toJson.render
  · subst whole
    have boundary := heals.whole ((cut_whole_iff short read).mp rfl)
    have complete : tail.length + 1 = segmentEvents := by
      have open_end := interrupted.open_end
      unfold segmentEvents at boundary count open_end ⊢
      omega
    have grown : (⟨⟨chunks.flatten ++ (tail ++ [ledger.chain.nextEvent entry])⟩, false⟩
        : LedgerFs).events = ledger.events ++ [ledger.chain.nextEvent entry] := by
      rw [events_eq, LedgerFs.events, List.append_assoc]
    refine ⟨_, _, interrupted.open_whole lawful read, Or.inr grown, ?_⟩
    exact sound.extend room entry grown (interrupted.stores_whole read complete)
  · have keeps : ∀ recovered dir', Stores dir' (chunks.flatten ++ tail)
        → Sound dir' ⟨ledger.chain, recovered⟩ := by
      intro recovered dir' stored
      rw [← events_eq] at stored
      exact ⟨stored, sound.verified, sound.bounded⟩
    by_cases nothing : text = []
    · subst nothing
      have empty := Utf8.encode_of_decode read
      rw [Utf8.encode_nil] at empty
      rw [← empty] at interrupted
      have opens := interrupted.stores_nothing.opens lawful
      rw [← chain] at opens
      exact ⟨_, _, opens, Or.inl rfl, keeps _ _ interrupted.stores_nothing⟩
    · have opens := interrupted.open_part lawful read nothing (prefix_of_cut short read) whole
      rw [← chain] at opens
      exact ⟨_, _, opens, Or.inl rfl, keeps _ _ interrupted.stores_truncated⟩

/-- Every reached ledger is sound, by induction on how it was reached. -/
theorem Reached.sound (lawful : EventReader.Lawful) {dir : Dir} {ledger : LedgerFs}
    (reached : Reached dir ledger)
    : Sound dir ledger := by
  induction reached with
  | created => exact ⟨stores_empty, rfl, Nat.zero_le _⟩
  | appended _ room entry sound =>
      obtain ⟨dir', ran, stored⟩ := sound.stores.append room entry
      rw [ran]
      exact sound.extend room entry rfl stored
  | refused _ room entry contained sound =>
      rcases sound.stores.append_fault room entry contained with
        ⟨err, dir', ran, stored⟩ | same
      · rw [ran]
        exact ⟨stored, sound.verified, sound.bounded⟩
      · obtain ⟨dir', ran, stored⟩ := sound.stores.append room entry
        rw [same, ran]
        exact sound.extend room entry rfl stored
  | reopened _ opened sound =>
      rw [sound.stores.opens lawful, Except.ok.injEq, Prod.mk.injEq] at opened
      obtain ⟨rfl, rfl⟩ := opened
      exact ⟨sound.stores, sound.verified, sound.bounded⟩
  | recovered _ room short heals opened sound =>
      obtain ⟨reopened, dir', opens, -, reopenedSound⟩ :=
        heals.reopens lawful sound room short
      rw [opens, Except.ok.injEq, Prod.mk.injEq] at opened
      obtain ⟨rfl, rfl⟩ := opened
      exact reopenedSound

/-- Whatever is appended to a sound ledger is replayed in order and verifies. -/
theorem Sound.appendAll (lawful : EventReader.Lawful) {dir : Dir} {ledger : LedgerFs}
    (sound : Sound dir ledger) (entries : List Entry)
    (fits : ledger.events.length + entries.length ≤ maxEvents)
    : ∃ final dir',
        LedgerFs.open (ledger.appendAll dir entries).2 = .ok (final, dir')
        ∧ final.events = (ledger.appendAll dir entries).1.events
        ∧ final.verify = true := by
  have stored := sound.stores.appendAll entries fits
  obtain ⟨_, -, -, verified⟩ := appendAll_events ledger dir entries
  exact ⟨_, _, stored.opens lawful, rfl, verified sound.verified⟩

/-- When all but the line break landed and the segment goes on, the next append ends up in the
same line and no later open succeeds.
-/
theorem not_recovers_of_whole (lawful : EventReader.Lawful) {dir : Dir} {ledger : LedgerFs}
    (sound : Sound dir ledger) (room : ledger.events.length < maxEvents) {entry : Entry}
    {landed : Nat} (whole : landed + 1 = (nextLine ledger entry).length)
    (within : (ledger.events.length + 1) % segmentEvents ≠ 0)
    : ¬Recovers dir ledger entry landed := by
  rintro ⟨reopened, dir', opened, -, later⟩
  obtain ⟨full, chunks, tail, interrupted, events_eq, count⟩ :=
    interrupted_torn sound.stores room entry landed
  have line : nextLine ledger entry
      = Utf8.encode (ledger.chain.nextEvent entry).toJson.render ++ Utf8.encode ['\n'] := by
    rw [nextLine, eventLine, Utf8.encode_append]
  have read : Utf8.decode ((nextLine ledger entry).take landed)
      = some (ledger.chain.nextEvent entry).toJson.render := by
    have break_byte : (Utf8.encode ['\n']).length = 1 := by decide
    have total : landed
        = (Utf8.encode (ledger.chain.nextEvent entry).toJson.render).length := by
      rw [line, List.length_append] at whole
      omega
    rw [line, total, List.take_left, Utf8.decode_encode]
  rw [interrupted.open_whole lawful read, Except.ok.injEq, Prod.mk.injEq] at opened
  obtain ⟨rfl, rfl⟩ := opened
  -- The event appended next belongs to the same segment.
  have length : (chunks.flatten ++ (tail ++ [ledger.chain.nextEvent entry])).length
      = full.length * segmentEvents + (tail.length + 1) := by
    rw [List.length_append, length_flatten_chunks interrupted.sizes,
      ← interrupted.images.length_eq, List.length_append, List.length_singleton]
  have sameSegment : segmentPath (UInt64.ofNat
      (chunks.flatten ++ (tail ++ [ledger.chain.nextEvent entry])).length)
      = segmentFile full.length := by
    have open_end := interrupted.open_end
    have bounded := interrupted.room
    have small : full.length * segmentEvents + (tail.length + 1) < 2 ^ 64 := by
      unfold segmentEvents maxSegments at *
      omega
    rw [length, segmentPath, UInt64.toNat_ofNat_of_lt' small]
    congr 1
    unfold segmentEvents at *
    omega
  obtain ⟨err, refuses⟩ := interrupted.open_merged lawful read
    (Ledger.nextEvent ⟨chunks.flatten ++ (tail ++ [ledger.chain.nextEvent entry])⟩ entry)
  have appended : (LedgerFs.appendAll
      ⟨⟨chunks.flatten ++ (tail ++ [ledger.chain.nextEvent entry])⟩, false⟩
      (torn dir (ledger.chain.nextEvent entry) landed) [entry]).2
      = (torn dir (ledger.chain.nextEvent entry) landed).insert (segmentFile full.length)
          ((segmentBytes tail ++ (nextLine ledger entry).take landed)
            ++ Utf8.encode (eventLine (Ledger.nextEvent
                ⟨chunks.flatten ++ (tail ++ [ledger.chain.nextEvent entry])⟩ entry))) := by
    have newest : (torn dir (ledger.chain.nextEvent entry)
        landed)[segmentFile full.length]?.getD []
        = segmentBytes tail ++ (nextLine ledger entry).take landed := by
      rw [interrupted.lists.newest interrupted.room, Option.getD_some]
    rw [← newest, ← sameSegment]
    rfl
  have fits : (⟨⟨chunks.flatten ++ (tail ++ [ledger.chain.nextEvent entry])⟩, false⟩
      : LedgerFs).events.length + [entry].length ≤ maxEvents := by
    have before := congrArg List.length events_eq
    rw [List.length_append, length_flatten_chunks interrupted.sizes,
      ← interrupted.images.length_eq] at before
    rw [LedgerFs.events, length, List.length_singleton]
    unfold maxEvents segmentEvents at *
    omega
  obtain ⟨final, dir'', reopens, -⟩ := later [entry] fits
  rw [appended, refuses] at reopens
  cases reopens

/-- A ledger recovers from a crash in an append exactly when the cut leaves text and, if it
leaves the whole line but its break, that line ends its segment.
-/
theorem recovers_iff_cutHeals (lawful : EventReader.Lawful) {dir : Dir} {ledger : LedgerFs}
    (reached : Reached dir ledger) (room : ledger.events.length < maxEvents) (entry : Entry)
    {landed : Nat} (short : landed < (nextLine ledger entry).length)
    : Recovers dir ledger entry landed ↔ CutHeals ledger entry landed := by
  have sound := reached.sound lawful
  constructor
  · intro recovers
    refine ⟨?_, fun whole => ?_⟩
    · by_contra broken
      obtain ⟨full, chunks, tail, interrupted, -, -⟩ :=
        interrupted_torn sound.stores room entry landed
      obtain ⟨err, refuses⟩ := interrupted.open_not_text lawful
        (Option.not_isSome_iff_eq_none.mp broken)
      obtain ⟨reopened, dir', opened, -⟩ := recovers
      rw [refuses] at opened
      cases opened
    · by_contra within
      exact not_recovers_of_whole lawful sound room whole within recovers
  · intro heals
    obtain ⟨reopened, dir', opened, found, reopenedSound⟩ :=
      heals.reopens lawful sound room short
    exact ⟨reopened, dir', opened, found,
      fun entries fits => reopenedSound.appendAll lawful entries fits⟩

end Recovery

attribute [local instance] plainDigest canonicalReader

/-- An event whose kind has a two-byte character. -/
def accentedEntry : Entry where
  kind := "é"
  retention := .operational90d
  wallMs := 1
  clockQuality := .synced
  hlc := ⟨1, 0, "n1"⟩
  causalHeads := []
  payloadHash := "sha256:p"

/-- The characters of an event's kind stand in its line. -/
theorem mem_eventLine_of_kind {event : LedgerEvent} {char : Char}
    (member : char ∈ Json.quote event.kind)
    : char ∈ eventLine event := by
  simp only [eventLine, LedgerEvent.toJson, Json.render, Json.renderMembers,
    List.cons_append, List.mem_cons, List.mem_append, member, true_or, or_true]

/-- A ledger of one event, with its directory. -/
def oneEvent : LedgerFs × Dir := LedgerFs.appendAll {} ∅ [accentedEntry]

theorem reached_oneEvent : Reached oneEvent.2 oneEvent.1 :=
  Reached.appended Reached.created (by decide) accentedEntry

/-- The first byte of a line is its brace. -/
theorem take_one_nextLine (ledger : LedgerFs) (entry : Entry)
    : (nextLine ledger entry).take 1 = Utf8.encode ['{'] := by
  obtain ⟨inside, opens⟩ := render_event (ledger.chain.nextEvent entry)
  rw [nextLine, eventLine, opens, List.cons_append, ← List.singleton_append, Utf8.encode_append]
  exact List.take_left' (by decide)

/-- A ledger with an event recovers from a cut behind the first byte of the next line. -/
theorem recovers_when_a_brace_landed : Recovers oneEvent.2 oneEvent.1 accentedEntry 1 := by
  have long := three_le_length_nextLine oneEvent.1 accentedEntry
  have heals : CutHeals oneEvent.1 accentedEntry 1 := by
    refine ⟨?_, fun whole => ?_⟩
    · rw [take_one_nextLine, Utf8.decode_encode]
      rfl
    · omega
  exact (recovers_iff_cutHeals canonicalReader_lawful reached_oneEvent (by decide)
    accentedEntry (by omega)).mpr heals

/-- A fresh ledger does not recover from a cut between the two bytes of that character, nor
from one that leaves all but the line break.
-/
theorem cuts_that_do_not_recover
    : (∃ landed < (nextLine {} accentedEntry).length,
        Utf8.decode ((nextLine {} accentedEntry).take landed) = none
        ∧ ¬Recovers ∅ {} accentedEntry landed)
      ∧ ¬Recovers ∅ {} accentedEntry ((nextLine {} accentedEntry).length - 1) := by
  have sound : Sound ∅ {} := Reached.created.sound canonicalReader_lawful
  constructor
  · have kind : 'é' ∈ Json.quote "é" := by decide +kernel
    have member : 'é' ∈ eventLine (Ledger.nextEvent {} accentedEntry) :=
      mem_eventLine_of_kind kind
    obtain ⟨landed, short, broken⟩ := Utf8.decode_inside member (by decide)
    refine ⟨landed, short, broken, ?_⟩
    rintro ⟨reopened, dir', opened, -⟩
    obtain ⟨full, chunks, tail, interrupted, -, -⟩ :=
      interrupted_torn sound.stores (by decide) accentedEntry landed
    obtain ⟨err, refuses⟩ := interrupted.open_not_text canonicalReader_lawful broken
    rw [refuses] at opened
    cases opened
  · have long := three_le_length_nextLine {} accentedEntry
    have within : (([] : List LedgerEvent).length + 1) % segmentEvents ≠ 0 := by decide
    exact not_recovers_of_whole canonicalReader_lawful sound (by decide) (by omega) within

end VerticalAI.Correctness
