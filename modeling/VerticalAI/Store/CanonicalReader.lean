import VerticalAI.Store.SegmentReplay

/-! A reader that accepts exactly the texts the ledger writes. -/

namespace VerticalAI.Store
open VerticalAI.Foundation VerticalAI.Contracts

open Classical in
/-- Find the event a text is the canonical text of. -/
noncomputable def canonicalFromStr (text : List Char) : Except String LedgerEvent :=
  if written : ∃ event : LedgerEvent, event.toJson.render = text then .ok written.choose
  else .error "not a ledger event"

@[reducible] noncomputable def canonicalReader : EventReader := ⟨canonicalFromStr⟩

theorem canonicalReader_of_render (event : LedgerEvent)
    : canonicalFromStr event.toJson.render = .ok event := by
  have written : ∃ other : LedgerEvent, other.toJson.render = event.toJson.render :=
    ⟨event, rfl⟩
  have same := LedgerEvent.toJson_injective (Json.render_injective written.choose_spec)
  simp only [canonicalFromStr, dif_pos written, same]

theorem canonicalReader_of_not_render {text : List Char}
    (foreign : ∀ event : LedgerEvent, event.toJson.render ≠ text)
    : canonicalFromStr text = .error "not a ledger event" := by
  have unwritten : ¬∃ event : LedgerEvent, event.toJson.render = text :=
    fun ⟨event, same⟩ => foreign event same
  simp only [canonicalFromStr, dif_neg unwritten]

theorem render_of_canonicalReader {text : List Char} {event : LedgerEvent}
    (read : canonicalFromStr text = .ok event)
    : event.toJson.render = text := by
  by_cases written : ∃ other : LedgerEvent, other.toJson.render = text
  · simp only [canonicalFromStr, dif_pos written, Except.ok.injEq] at read
    rw [← read]
    exact written.choose_spec
  · rw [canonicalReader_of_not_render (fun other same => written ⟨other, same⟩)] at read
    cases read

/-- A proper beginning of an event's text is refused. -/
theorem canonicalFromStr_incomplete (event : LedgerEvent) (text : List Char)
    (inside : text <+: event.toJson.render) (part : text ≠ event.toJson.render)
    : ∃ err, canonicalFromStr text = .error err := by
  refine ⟨_, canonicalReader_of_not_render ?_⟩
  rintro other rfl
  obtain ⟨rest, joined⟩ := inside
  have nothing := Json.obj_prefix joined.symm
  rw [nothing, List.append_nil] at joined
  exact part joined

/-- An event's text with something after it is refused. -/
theorem canonicalFromStr_trailing (text rest : List Char) (event : LedgerEvent)
    (read : canonicalFromStr text = .ok event)
    : ∃ err, canonicalFromStr (text ++ '{' :: rest) = .error err := by
  refine ⟨_, canonicalReader_of_not_render ?_⟩
  rintro other joined
  rw [← render_of_canonicalReader read] at joined
  cases Json.obj_prefix joined

/-- The canonical reader does what the ledger relies on: no text of an event starts another
one.
-/
theorem canonicalReader_lawful : @EventReader.Lawful canonicalReader :=
  @EventReader.Lawful.mk canonicalReader canonicalReader_of_render
    canonicalFromStr_incomplete canonicalFromStr_trailing

end VerticalAI.Store
