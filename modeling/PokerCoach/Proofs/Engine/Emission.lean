import PokerCoach.Proofs.Engine.History
import PokerCoach.Proofs.Journal.ReadBack
import Mathlib.Data.List.Induction

/-!
# All that is told can be read back

A skill only moves on an accuracy that is a finite number, whatever credit a marginal action earns,
and a move is all that an event tells an accuracy of. So each event that an engine appends to its
journal can be written as a line that is read back as this event.
-/

namespace PokerCoach

open Data Std Time

/-- The time of a call; what needs none has none. -/
def Operation.time? : Operation → Option Instant
  | decide _ _ _ now => some now
  | onboard _ _ now => some now
  | startSession _ _ now => some now
  | endSession _ now => some now
  | progress _ now => some now
  | coachingMode _ _ now => some now
  | skillSummaries _ now => some now
  | noteSurfaced .. => none
  | restart .. => none

namespace Engine

theorem isFinite_of_mem_onboardHappenings {player : String} {experience : Experience}
    {record : PlayerRecord} {rows : List Backfill} {happening : Happening}
    (hmem : happening ∈ onboardHappenings player experience record rows) : happening.IsFinite := by
  rcases List.mem_cons.mp hmem with rfl | hmem
  · rintro _ ⟨⟩
  · obtain ⟨gate, -, rfl⟩ := List.mem_map.mp hmem
    rintro _ ⟨⟩

section Entries

variable {σ : Type}

def entries (engine : Engine σ) : List Event :=
  engine.journal.elim [] Journal.entries

/-- The events of a journal after happenings of one time. -/
theorem TellsAt.exists_entries_eq {engine after : Engine σ} {now : Instant}
    {happenings : List Happening} (htells : engine.TellsAt now happenings after) :
    ∃ told, after.entries = engine.entries ++ told ∧
      ∀ event ∈ told, event.time = now ∧ event.happening ∈ happenings := by
  rw [entries, entries, show after.journal = _ from htells]
  cases engine.journal with
  | none => exact ⟨[], rfl, fun event hmem => absurd hmem List.not_mem_nil⟩
  | some journal =>
      refine ⟨if journal.blocked then [] else
        happenings.map fun happening => { time := now, happening }, ?_, fun event hmem => ?_⟩
      · rw [Option.map_some, journal.appendAll_eq]
        rfl
      · split at hmem
        · exact absurd hmem List.not_mem_nil
        · obtain ⟨happening, hhappening, rfl⟩ := List.mem_map.mp hmem
          exact ⟨rfl, hhappening⟩

variable [RecordStore σ] (engine : Engine σ)

/-! ### Runs -/

/-- What may bring a record tells finite happenings, at the time of its call. -/
theorem exists_tellsAt_step {operation : Operation} {player : String}
    (hbrings : operation.brings player) :
    ∃ now happenings, operation.time? = some now ∧
      engine.TellsAt now happenings (engine.step operation) ∧
      ∀ happening ∈ happenings, happening.IsFinite := by
  rcases operation.brings_cases hbrings with
    ⟨session, decision, live, now, rfl, -⟩ | ⟨experience, now, rfl⟩
  · refine ⟨now, _, rfl, tellsAt_decide session decision live now, fun happening hmem => ?_⟩
    split at hmem
    · exact (isChangeOf_of_mem_decisionHappenings hmem).elim (·.isFinite) (·.isFinite)
    · exact absurd hmem List.not_mem_nil
  · rcases engine.tellsAt_onboard player experience now with
      ⟨-, htells⟩ | ⟨record, rows, -, -, -, htells⟩
    · exact ⟨now, [], rfl, htells, fun happening hmem => absurd hmem List.not_mem_nil⟩
    · exact ⟨now, _, rfl, htells, fun _ => isFinite_of_mem_onboardHappenings⟩

theorem exists_entries_step {operation : Operation} (hgoes : operation.restarts? = none) :
    ∃ told, (engine.step operation).entries = engine.entries ++ told ∧
      ∀ event ∈ told, event.happening.IsFinite ∧ operation.time? = some event.time := by
  by_cases hbrings : ∃ player, operation.brings player
  · obtain ⟨player, hbrings⟩ := hbrings
    obtain ⟨now, happenings, htime, htells, hfinite⟩ := engine.exists_tellsAt_step hbrings
    obtain ⟨told, hentries, htold⟩ := htells.exists_entries_eq
    refine ⟨told, hentries, fun event hmem => ?_⟩
    obtain ⟨rfl, hhappening⟩ := htold event hmem
    exact ⟨hfinite _ hhappening, htime⟩
  · have hjournal : (engine.step operation).journal = engine.journal :=
      journal_step hgoes fun player hplayer => hbrings ⟨player, hplayer⟩
    refine ⟨[], ?_, fun event hmem => absurd hmem List.not_mem_nil⟩
    rw [entries, hjournal, List.append_nil, entries]

omit [RecordStore σ] in
/-- What the journal held to begin with: that of the engine, or that of its last restart. -/
def entriesSince (operations : List Operation) : List Event :=
  operations.foldl
    (fun entries operation =>
      match operation with
      | .restart _ journal => journal.elim [] Journal.entries
      | _ => entries)
    engine.entries

/-- All that a run adds to its journal is finite, and of the time of one of its calls. -/
theorem exists_entries_run (operations : List Operation) :
    ∃ told, (engine.run operations).entries = engine.entriesSince operations ++ told ∧
      ∀ event ∈ told, event.happening.IsFinite ∧
        ∃ operation ∈ operations, operation.time? = some event.time := by
  induction operations using List.reverseRecOn with
  | nil => exact ⟨[], by simp [entriesSince], fun event hmem => absurd hmem List.not_mem_nil⟩
  | append_singleton operations operation ih =>
      obtain ⟨told, hentries, htold⟩ := ih
      rw [run_append, run_cons, run_nil, entriesSince, List.foldl_append, ← entriesSince]
      cases hrestarts : operation.restarts? with
      | some course =>
          obtain ⟨journal, rfl⟩ := Operation.restarts?_eq_some hrestarts
          exact ⟨[], (List.append_nil _).symm, fun event hmem => absurd hmem List.not_mem_nil⟩
      | none =>
          obtain ⟨more, hmore, hlater⟩ :=
            (engine.run operations).exists_entries_step hrestarts
          refine ⟨told ++ more, ?_, fun event hmem => ?_⟩
          · rw [hmore, hentries, List.append_assoc]
            cases operation with
            | restart => cases hrestarts
            | _ => rfl
          · rcases List.mem_append.mp hmem with hmem | hmem
            · obtain ⟨hfinite, other, hother, htime⟩ := htold event hmem
              exact ⟨hfinite, other, List.mem_append_left _ hother, htime⟩
            · obtain ⟨hfinite, htime⟩ := hlater event hmem
              exact ⟨hfinite, operation, List.mem_append_right _ List.mem_cons_self, htime⟩

/-- Events of any kinds, whatever their texts, are read back in their order from a new journal that
they were appended to, from one line for each, and those of a player are the ones that name the
player. They only have to be regular, and their accuracies the doubles that their texts are read
as. All that any engine tells in any run is finite, and of the time of one of its calls: it is
regular if that time is common. -/
theorem journal_reads_back (path : String) (events : List Event)
    (hregular : ∀ event ∈ events, event.IsRegular)
    (hexact : ∀ event ∈ events, event.HasExactAccuracy) (operations : List Operation) :
    (∃ journal, events.foldlM Journal.append { path } = .ok journal ∧
      journal.events = .ok events ∧
      (∀ player, journal.eventsOf player =
        .ok (events.filter fun event => event.happening.player == player)) ∧
      Text.lines (journal.text?.getD "").toList =
        events.map fun event => Json.line (toData event)) ∧
    ∃ told, (engine.run operations).entries = engine.entriesSince operations ++ told ∧
      ∀ event ∈ told, event.happening.IsFinite ∧
        (∃ operation ∈ operations, operation.time? = some event.time) ∧
        (event.time.IsCommon → event.IsRegular) := by
  have hkept : ∀ event ∈ events, Kept event := fun event hmem =>
    Event.kept (hregular event hmem) (hexact event hmem)
  have hevents := Journal.events_of_kept hkept path
  refine ⟨⟨{ path, entries := events }, ?_, hevents, Journal.eventsOf_of_events hevents,
    Journal.lines_text? hkept path⟩, ?_⟩
  · exact Journal.foldlM_append { path } rfl events
  · obtain ⟨told, hentries, htold⟩ := engine.exists_entries_run operations
    refine ⟨told, hentries, fun event hmem => ?_⟩
    obtain ⟨hfinite, hcall⟩ := htold event hmem
    exact ⟨hfinite, hcall, fun hcommon => ⟨hcommon, hfinite⟩⟩

/-- Four events whose texts hold quotes, line feeds and fields of their own, and a run on settings
with which a marginal action earns no number. -/
theorem journal_reads_back_odd_texts :
    let ana := "\"ana\" \\ \n \r\n ä 🂡"
    let noon : Instant := ⟨2024, 2, 29, 12, 30, 5, 250000000, by decide, by decide⟩
    let events : List Event :=
      [{ time := noon, happening := .onboarded ana .beginner 3 },
       { version := 7, time := .epoch,
         happening := .moved ana "\x7d\n\x7b\"v\":2" .introduced .practicing 0.75 8 },
       { time := noon, happening := .gateUnlocked "bo" 1 },
       { time := noon, happening := .backfilled ana "\u0000" 2 .introduced }]
    let engine : Engine MemoryStore := launch .empty
      { settings := { Settings.standard with marginalCredit := 0.0 / 0.0 } }
      (some { path := "events.log" })
    let play (action : Action) : Operation :=
      .decide "s" { player := ana, hand := 1, street := .preflop, flags := { trash := true } }
        { action } .epoch
    let operations := List.replicate 6 (play .fold) ++ List.replicate 6 (play .raise)
    (∃ journal, events.foldlM Journal.append { path := "events.log" } = .ok journal ∧
      journal.events = .ok events ∧ journal.eventsOf "bo" = .ok [events[2]] ∧
      (Text.lines (journal.text?.getD "").toList).length = 4) ∧
    (engine.run operations).entries.length = 5 ∧
    ∀ event ∈ (engine.run operations).entries, event.IsRegular := by
  intro ana noon events engine play operations
  have hregular : ∀ event ∈ events, event.IsRegular := by decide +kernel
  have hexact : ∀ event ∈ events, event.HasExactAccuracy := by
    simp only [events, List.forall_mem_cons]
    refine ⟨?_, ?_, ?_, ?_, fun _ hmem => absurd hmem List.not_mem_nil⟩
    all_goals rintro transition ⟨⟩
    exact fun _ => rfl
  obtain ⟨⟨journal, happend, hevents, hof, hlines⟩, told, hentries, htold⟩ :=
    journal_reads_back engine "events.log" events hregular hexact operations
  have htimes : ∀ operation ∈ operations, operation.time? = some .epoch := by decide
  have hnew : engine.entriesSince operations = [] := rfl
  refine ⟨⟨journal, happend, hevents, hof "bo", ?_⟩, by decide +kernel, fun event hmem => ?_⟩
  · rw [hlines]
    rfl
  · rw [hentries, hnew, List.nil_append] at hmem
    obtain ⟨-, ⟨operation, hoperation, htime⟩, hwritten⟩ := htold event hmem
    have hepoch : event.time = .epoch :=
      Option.some.inj (htime.symm.trans (htimes operation hoperation))
    refine hwritten ?_
    rw [hepoch]
    decide

end Entries

end Engine

end PokerCoach
