import PokerCoach.Journal.Log
import PokerCoach.Proofs.Journal.Changes
import PokerCoach.Proofs.Progress.Kept
import PokerCoach.Proofs.Text.Page

/-!
# Journals are read back

Events of all kinds, whatever their texts hold, are read back from a journal that they were appended
to, one of each line. This asks for times of years of four digits and for accuracies that are finite
and are the doubles that their texts are read as.
-/

namespace PokerCoach

open Data Time

/-! ### Lines -/

namespace Text

/-- Lines without control characters, each with a line feed after it, are the lines of the text. -/
theorem lines_flatMap {texts : List (List Char)} (htexts : ∀ text ∈ texts, IsFrom 0x20 text) :
    lines (texts.flatMap (· ++ ['\n'])) = texts := by
  induction texts with
  | nil => rfl
  | cons text texts ih =>
      obtain ⟨htext, hrest⟩ := List.forall_mem_cons.mp htexts
      have hfeed : '\n' ∉ text := not_mem_of_isFrom htext (by decide)
      have hreturn : '\r' ∉ text := not_mem_of_isFrom htext (by decide)
      rw [List.flatMap_cons, List.append_assoc, List.singleton_append, lines_append_feed hfeed,
        dropReturn_of_not_mem hreturn, ih hrest]

end Text

/-! ### Events -/

/-- Whether an event can be written: its stamp shows a year of four digits, and its accuracy is a
number. -/
structure Event.IsRegular (event : Event) : Prop where
  time : event.time.IsCommon
  finite : event.happening.IsFinite

instance (event : Event) : Decidable event.IsRegular :=
  decidable_of_iff (event.time.IsCommon ∧ event.happening.IsFinite)
    ⟨fun h => ⟨h.1, h.2⟩, fun h => ⟨h.time, h.finite⟩⟩

/-- Whether the accuracies of an event, as far as they are finite, are read back from their
texts. -/
def Event.HasExactAccuracy (event : Event) : Prop :=
  ∀ transition ∈ event.happening.transition?, transition.accuracy.isFinite = true →
    Json.read (Json.printLine (.decimal transition.accuracy)).toList =
      .ok (.decimal transition.accuracy)

namespace Event

/-- The three fields that all events have come first. -/
theorem fields_toData (event : Event) (dialect : Dialect) :
    fields ["v", "ts", "event"] dialect (toData event) =
      .ok { dialect, found :=
        [("v", toData event.version), ("ts", toData event.time),
          ("event", toData event.happening.kind)] } := by
  obtain ⟨version, time, happening⟩ := event
  cases happening <;> rfl

theorem isReadable_toData (event : Event) : isReadable 127 (toData event) = true := by
  obtain ⟨version, time, happening⟩ := event
  cases happening <;> rfl

/-- The fields of what happened follow, under names of their own. -/
theorem fields_details (version : UInt8) (time : Instant) (happening : Happening) :
    fields (happening.details.map Prod.fst) .kept (toData { version, time, happening : Event }) =
      .ok { dialect := .kept, found := happening.details } := by
  cases happening <;> rfl

theorem ofKind_toData {event : Event}
    (haccuracy : ∀ transition ∈ event.happening.transition?, Kept transition.accuracy) :
    Happening.ofKind event.happening.kind (toData event) = .ok event.happening := by
  obtain ⟨version, time, happening⟩ := event
  have hfields := fields_details version time happening
  cases happening with
  | moved player skill source target accuracy opportunities =>
      refine (congrArg (· >>= _) hfields).trans ?_
      dsimp only [bind, Except.bind]
      rw [Fields.required_kept (kept_string player) rfl,
        Fields.required_kept (kept_string skill) rfl,
        Fields.required_kept (kept_mastery source) rfl,
        Fields.required_kept (kept_mastery target) rfl,
        Fields.required_kept (haccuracy _ rfl) rfl,
        Fields.required_kept (kept_uint32 opportunities) rfl]
      rfl
  | gateUnlocked player gate =>
      refine (congrArg (· >>= _) hfields).trans ?_
      dsimp only [bind, Except.bind]
      rw [Fields.required_kept (kept_string player) rfl,
        Fields.required_kept (kept_uint32 gate) rfl]
      rfl
  | backfilled player skill gate level =>
      refine (congrArg (· >>= _) hfields).trans ?_
      dsimp only [bind, Except.bind]
      rw [Fields.required_kept (kept_string player) rfl,
        Fields.required_kept (kept_string skill) rfl, Fields.required_kept (kept_uint32 gate) rfl,
        Fields.required_kept (kept_mastery level) rfl]
      rfl
  | onboarded player experience skills =>
      refine (congrArg (· >>= _) hfields).trans ?_
      dsimp only [bind, Except.bind]
      rw [Fields.required_kept (kept_string player) rfl,
        Fields.required_kept (kept_experience experience) rfl,
        Fields.required_kept (kept_uint32 skills) rfl]
      rfl

theorem legible_details {happening : Happening}
    (haccuracy : ∀ transition ∈ happening.transition?, Kept transition.accuracy) :
    ∀ field ∈ happening.details, Json.Legible field.2 := by
  cases happening with
  | moved player skill source target accuracy opportunities =>
      simp [Happening.details, (kept_string player).legible, (kept_string skill).legible,
        (kept_mastery source).legible, (kept_mastery target).legible,
        (haccuracy _ rfl).legible, (kept_uint32 opportunities).legible]
  | gateUnlocked player gate =>
      simp [Happening.details, (kept_string player).legible, (kept_uint32 gate).legible]
  | backfilled player skill gate level =>
      simp [Happening.details, (kept_string player).legible, (kept_string skill).legible,
        (kept_uint32 gate).legible, (kept_mastery level).legible]
  | onboarded player experience skills =>
      simp [Happening.details, (kept_string player).legible, (kept_experience experience).legible,
        (kept_uint32 skills).legible]

/-- A regular event keeps its tree if its accuracy does. -/
theorem kept {event : Event} (hregular : event.IsRegular) (hexact : event.HasExactAccuracy) :
    Kept event := by
  have haccuracy : ∀ transition ∈ event.happening.transition?, Kept transition.accuracy := by
    intro transition hmem
    have hread := hexact transition hmem (hregular.finite transition hmem)
    rw [Json.printLine, String.toList_ofList] at hread
    exact kept_float hread
  have hversion := kept_uint8 event.version
  have htime := kept_instant hregular.time
  have hkind := kept_string event.happening.kind
  constructor
  · refine legible_ofFields ?_
    simp only [List.forall_mem_append, List.forall_mem_cons]
    exact ⟨⟨hversion.legible, htime.legible, hkind.legible, by simp⟩, legible_details haccuracy⟩
  · intro dialect
    have hreadable := event.isReadable_toData
    have hfields := event.fields_toData dialect
    have hhappening := ofKind_toData haccuracy
    obtain ⟨entries, hentries⟩ : ∃ entries, toData event = .record entries := ⟨_, rfl⟩
    rw [hentries] at hreadable hfields hhappening ⊢
    unfold ofData instOfDataEvent
    dsimp only
    rw [hreadable, hfields]
    dsimp only [bind, Except.bind]
    rw [Fields.required_kept hversion rfl, Fields.required_kept htime rfl]
    exact congrArg (· >>= fun happening => .ok { event with happening }) hhappening

end Event

/-! ### Journals -/

namespace Journal

theorem foldlM_append (journal : Journal) (hopen : journal.blocked = false)
    (events : List Event) :
    events.foldlM append journal =
      .ok { journal with entries := journal.entries ++ events } := by
  induction events generalizing journal with
  | nil => simp [pure, Except.pure]
  | cons event rest ih =>
      have hfirst : journal.append event =
          .ok { journal with entries := journal.entries ++ [event] } := by simp [append, hopen]
      have hrest := ih { journal with entries := journal.entries ++ [event] } hopen
      rw [List.foldlM_cons, hfirst]
      refine hrest.trans ?_
      simp

section Kept

variable {events : List Event} (hkept : ∀ event ∈ events, Kept event)
include hkept

/-- A new journal has one line for each event. -/
theorem lines_text? (path : String) :
    Text.lines ((text? { path, entries := events }).getD "").toList =
      events.map fun event => Json.line (toData event) := by
  have htext : ((text? { path, entries := events }).getD "").toList =
      (events.map fun event => Json.line (toData event)).flatMap (· ++ ['\n']) := by
    cases events with
    | nil => rfl
    | cons event rest =>
        simp [text?, line, Json.printLine, String.toList_join, List.flatMap_map]
  rw [htext]
  refine Text.lines_flatMap (List.forall_mem_map.mpr fun event hmem => ?_)
  exact Json.isFrom_line (hkept event hmem).legible

/-- Each of the lines is read as its event, whatever their numbers. -/
theorem mapM_parseLine (number : Nat) :
    ((((events.map fun event => Json.line (toData event)).zipIdx number).filterMap
        fun (line, number) => if Text.isBlankText line then none else some (number, line)).mapM
      fun (number, line) => parseLine number line) = .ok events := by
  induction events generalizing number with
  | nil => rfl
  | cons event rest ih =>
      obtain ⟨hfirst, hrest⟩ := List.forall_mem_cons.mp hkept
      have hblank : Text.isBlankText (Json.line (toData event)) = false := rfl
      have hparsed : parseLine number (Json.line (toData event)) = .ok event := by
        have hread := (Json.reads_line hfirst.legible).read
        have hdecoded : (Json.decode (Json.line (toData event)) : Except Fault Event) =
            .ok event := by
          rw [Json.decode, hread]
          exact hfirst.reads .json
        rw [parseLine, hdecoded]
      simp only [List.map_cons, List.zipIdx_cons, List.filterMap_cons, hblank, Bool.false_eq_true,
        if_false, List.mapM_cons, hparsed, ih hrest]
      rfl

theorem events_of_kept (path : String) :
    Journal.events { path, entries := events } = .ok events := by
  have hparsed : parse ((text? { path, entries := events }).getD "") = .ok events := by
    rw [parse, Text.numberedLines, lines_text? hkept]
    exact mapM_parseLine hkept 1
  cases events with
  | nil => rfl
  | cons event rest => exact hparsed

end Kept

theorem eventsOf_of_events {journal : Journal} {events : List Event}
    (hevents : journal.events = .ok events) (player : String) :
    journal.eventsOf player =
      .ok (events.filter fun event => event.happening.player == player) := by
  rw [eventsOf, hevents]
  rfl

end Journal

end PokerCoach
