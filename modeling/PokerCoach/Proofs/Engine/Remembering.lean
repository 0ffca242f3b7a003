import PokerCoach.Proofs.Engine.OpenSessions
import PokerCoach.Proofs.Session.Log
import PokerCoach.Store.Faulty
import PokerCoach.Store.Memory

/-!
# Sessions remember what was reported

An open session holds the evaluations that the decisions made in it have reported since it was
opened, and nothing else. It is opened by a call or by its first decision, whatever the store does,
and it is forgotten when it is ended and when the engine is restarted.
-/

namespace PokerCoach

open Std Time

/-- The evaluations of a report that apply, as entries of a hand. -/
def DecisionReport.entries (report : DecisionReport) (hand : UInt32) : List Entry :=
  (report.evaluations.filter fun e => e.outcome.isApplicable).map (Entry.mk hand)

/-- Whether all that a session holds is gone after an operation. -/
def Operation.forgets (session : String) : Operation → Bool
  | endSession ended _ => ended = session
  | restart .. => true
  | _ => false

namespace Turn

variable {σ : Type} [RecordStore σ] (turn : Turn σ) (session : String) (live : LiveAction)
  (spot : Situation) (now : Instant) (skill : String)

/-- An evaluation of a taught skill is in the session as soon as it is in the report. -/
theorem logs_judge (htaught : (turn.engine.curriculum.skill? skill).isSome) {hand : UInt32}
    (hhand : turn.report.hand = hand) {before : List Entry} {opened : Session}
    (hopened : turn.engine.session? session = some opened)
    (hlogs : opened.Logs (before ++ turn.report.entries hand)) :
    ∃ after, (turn.judge session live spot now skill).engine.session? session = some after ∧
      after.Logs (before ++ (turn.judge session live spot now skill).report.entries hand) := by
  rcases turn.judge_cases session now live spot skill with
    ⟨hskip, hjudge⟩ | ⟨definition, -, -, happlicable, hjudge⟩
  · have hskipped :
        (turn.engine.rules.evaluate skill live spot).outcome.isApplicable = false := by
      by_contra happlies
      rw [hskip (by simpa using happlies)] at htaught
      cases htaught
    have hentries : (turn.note (turn.engine.rules.evaluate skill live spot)).report.entries hand =
        turn.report.entries hand := by
      simp [note, DecisionReport.entries, hskipped]
    rw [hjudge, hentries]
    exact ⟨opened, hopened, hlogs⟩
  · let evaluation := turn.engine.rules.evaluate skill live spot
    have hentries : (turn.learned definition evaluation now).report.entries hand =
        turn.report.entries hand ++ [⟨hand, evaluation⟩] := by
      simp [DecisionReport.entries, evaluations_learned, evaluation, happlicable]
    have hsession : (turn.learned definition evaluation now).engine.session? session =
        some opened := by
      rw [Engine.session?, sessions_learned]
      exact hopened
    refine ⟨(opened.record hand evaluation).1, ?_, ?_⟩
    · rw [hjudge]
      dsimp only
      rw [Engine.session?_remember, if_pos rfl, hsession, hand_learned, hhand]
      rfl
    · rw [hjudge]
      dsimp only
      rw [hentries, ← List.append_assoc]
      exact hlogs.record hand happlicable

variable {live spot} in
theorem logs_foldl_judge {skills : List String}
    (htaught : ∀ skill ∈ skills, (turn.engine.curriculum.skill? skill).isSome) {hand : UInt32}
    (hhand : turn.report.hand = hand) {before : List Entry} {opened : Session}
    (hopened : turn.engine.session? session = some opened)
    (hlogs : opened.Logs (before ++ turn.report.entries hand)) :
    let judged := skills.foldl (judge session live spot now) turn
    ∃ after, judged.engine.session? session = some after ∧
      after.Logs (before ++ judged.report.entries hand) := by
  induction skills generalizing turn opened with
  | nil => exact ⟨opened, hopened, hlogs⟩
  | cons skill rest ih =>
      have hcurriculum : (turn.judge session live spot now skill).engine.curriculum =
          turn.engine.curriculum :=
        congrArg Course.curriculum (turn.course_judge session now skill)
      obtain ⟨next, hnext, hnextLogs⟩ := turn.logs_judge session live spot now skill
        (htaught skill List.mem_cons_self) hhand hopened hlogs
      refine ih (turn.judge session live spot now skill) ?_ ?_ hnext hnextLogs
      · intro other hmem
        rw [hcurriculum]
        exact htaught other (List.mem_cons_of_mem skill hmem)
      · rw [hand_judge, hhand]

end Turn

namespace Engine

/-- The session has logged the entries; one that is not open has nothing. -/
structure Logs {σ : Type} (engine : Engine σ) (session : String) (entries : List Entry) : Prop where
  opened : ∀ opened, engine.session? session = some opened → opened.Logs entries
  closed : engine.session? session = none → entries = []

section Logs

variable {σ : Type} {engine : Engine σ} {session : String} {entries : List Entry}

theorem Logs.of_session? {other : Engine σ} (hlogs : engine.Logs session entries)
    (hsession : other.session? session = engine.session? session) : other.Logs session entries where
  opened opened hopened := hlogs.opened opened (hsession ▸ hopened)
  closed hclosed := hlogs.closed (hsession ▸ hclosed)

theorem Logs.of_some {opened : Session} (hopened : engine.session? session = some opened)
    (hlogs : opened.Logs entries) : engine.Logs session entries where
  opened other hother := by
    cases hopened.symm.trans hother
    exact hlogs
  closed hclosed := by cases hopened.symm.trans hclosed

theorem Logs.of_none (hclosed : engine.session? session = none) : engine.Logs session [] where
  opened opened hopened := by cases hclosed.symm.trans hopened
  closed _ := rfl

theorem Logs.ensureSession (hlogs : engine.Logs session entries) (owner : String) (now : Instant) :
    ∃ opened, (engine.ensureSession session owner now).session? session = some opened ∧
      opened.Logs entries := by
  refine ⟨_, (engine.session?_ensureSession session owner session now).trans (if_pos rfl), ?_⟩
  cases hsession : engine.session? session with
  | some opened => exact hlogs.opened opened hsession
  | none =>
      rw [hlogs.closed hsession]
      exact .start session owner engine.settings.cadence now

theorem Logs.startSession (hlogs : engine.Logs session entries) (owner : String) (now : Instant) :
    (engine.startSession session owner now).2.Logs session entries := by
  have hensure : (engine.startSession session owner now).2 =
      engine.ensureSession session owner now := by
    unfold Engine.startSession Engine.ensureSession
    split <;> rfl
  obtain ⟨opened, hopened, hopenedLogs⟩ := hlogs.ensureSession owner now
  rw [hensure]
  exact .of_some hopened hopenedLogs

theorem Logs.noteSurfaced (hlogs : engine.Logs session entries) (skill : String) (hand : UInt32) :
    (engine.noteSurfaced session skill hand).2.Logs session entries := by
  unfold Engine.noteSurfaced
  cases hsession : engine.session? session with
  | none => exact hlogs
  | some opened =>
      refine .of_some ?_ ((hlogs.opened opened hsession).noteSurfaced skill hand)
      rw [session?_setSession, if_pos rfl]

end Logs

section Decision

variable {σ : Type} [RecordStore σ] (engine : Engine σ) (session : String) (decision : Decision)
  (live : LiveAction) (now : Instant)

theorem taught_of_mem_triggered {skill : String}
    (hmem : skill ∈ (engine.startTurn session decision live now).report.triggered) :
    ((engine.startTurn session decision live now).engine.curriculum.skill? skill).isSome := by
  have hcurriculum : (engine.startTurn session decision live now).engine.curriculum =
      engine.course.curriculum :=
    congrArg Course.curriculum (engine.course_startTurn session decision live now)
  rw [hcurriculum]
  apply Draft.isSome_skill?_of_mem_triggered
  rw [← draft_startTurn]
  exact hmem

/-- A decision adds to its session what it reports. -/
theorem logs_decide {before : List Entry} {opened : Session}
    (hopened : (engine.ensureSession session decision.player now).session? session = some opened)
    (hlogs : opened.Logs before) :
    ∃ after, (engine.decide session decision live now).2.session? session = some after ∧
      after.Logs (before ++ (engine.decide session decision live now).1.entries decision.hand) := by
  have htaught : ∀ skill ∈ (engine.startTurn session decision live now).report.triggered,
      ((engine.startTurn session decision live now).engine.curriculum.skill? skill).isSome :=
    fun skill hmem => engine.taught_of_mem_triggered session decision live now hmem
  have hstart : (engine.startTurn session decision live now).engine.session? session =
      some opened := by
    rw [session?_startTurn, hopened]
  have hnothing : opened.Logs
      (before ++ (engine.startTurn session decision live now).report.entries decision.hand) := by
    rwa [show (engine.startTurn session decision live now).report.entries decision.hand = [] from
      rfl, List.append_nil]
  exact Turn.logs_foldl_judge _ session now htaught rfl hstart hnothing

end Decision

variable {σ : Type} [RecordStore σ] (engine : Engine σ)

/-! ### Runs -/

/-- What an operation reports in a session, as entries. -/
def reported (session : String) : Operation → List Entry
  | .decide other decision live now =>
      if other = session then
        (engine.decide other decision live now).1.entries decision.hand
      else []
  | _ => []

/-- What the operations of a run report in a session from when it was opened last. -/
def reportedSince (session : String) (engine : Engine σ) : List Operation → List Entry
  | [] => []
  | operation :: rest =>
      (if rest.any (Operation.forgets session) then [] else engine.reported session operation)
        ++ reportedSince session (engine.step operation) rest

section Run

variable {engine} {session : String} {entries : List Entry}

theorem Logs.step (hlogs : engine.Logs session entries) (operation : Operation) :
    (engine.step operation).Logs session
      (if operation.forgets session then [] else entries ++ engine.reported session operation) := by
  by_cases hgoes : operation.restarts? = none
  · by_cases hsession : operation.session? = some session
    · cases operation with
      | decide other decision live now =>
          cases hsession
          obtain ⟨opened, hopened, hopenedLogs⟩ := hlogs.ensureSession decision.player now
          obtain ⟨after, hafter, hafterLogs⟩ :=
            engine.logs_decide session decision live now hopened hopenedLogs
          rw [reported, if_pos rfl]
          exact .of_some hafter hafterLogs
      | startSession other player now =>
          cases hsession
          exact (List.append_nil entries).symm ▸ hlogs.startSession player now
      | endSession other now =>
          cases hsession
          rw [Operation.forgets, decide_eq_true rfl, if_pos rfl]
          exact .of_none ((engine.session?_endSession session session now).trans (if_pos rfl))
      | noteSurfaced other skill hand =>
          cases hsession
          exact (List.append_nil entries).symm ▸ hlogs.noteSurfaced skill hand
      | _ => cases hsession
    · have hkept := engine.session?_step_of_ne hsession hgoes
      have hreported : engine.reported session operation = [] := by
        cases operation with
        | decide other decision live now =>
            exact if_neg fun heq => hsession (congrArg some heq)
        | _ => rfl
      have hforgets : operation.forgets session = false := by
        cases operation with
        | endSession other now =>
            exact decide_eq_false fun heq => hsession (congrArg some heq)
        | restart course journal => cases hgoes
        | _ => rfl
      rw [hforgets, hreported, List.append_nil]
      exact hlogs.of_session? hkept
  · cases operation with
    | restart course journal => exact .of_none ExtTreeMap.getElem?_empty
    | _ => exact absurd rfl hgoes

theorem Logs.run (hlogs : engine.Logs session entries) (operations : List Operation) :
    (engine.run operations).Logs session
      ((if operations.any (Operation.forgets session) then [] else entries)
        ++ reportedSince session engine operations) := by
  induction operations generalizing engine entries with
  | nil => simpa [reportedSince] using hlogs
  | cons operation rest ih =>
      have hrest := ih (hlogs.step operation)
      rw [run_cons, List.any_cons, reportedSince]
      cases hforgotten : rest.any (Operation.forgets session) with
      | true =>
          rw [hforgotten] at hrest
          simpa using hrest
      | false =>
          rw [hforgotten] at hrest
          cases hforgets : operation.forgets session with
          | false => simpa [hforgets] using hrest
          | true =>
              have hreported : engine.reported session operation = [] := by
                cases operation with
                | decide => cases hforgets
                | _ => rfl
              simpa [hforgets, hreported] using hrest

end Run

/-- What a session answers to its questions and at its end, if it holds the entries. -/
structure Remembers (engine : Engine σ) (session : String) (entries : List Entry) : Prop where
  review : ∀ hand, engine.handReview session hand = .ok (worstFirst (onHand hand entries))
  summary : ∃ summary : SessionSummary, summary.Counts entries ∧
    engine.sessionSummary session = .ok summary ∧
    ∀ now, (engine.endSession session now).1 = .ok summary

theorem Logs.remembers {session : String} {entries : List Entry}
    (hlogs : engine.Logs session entries) (hopen : engine.session? session ≠ none) :
    engine.Remembers session entries := by
  obtain ⟨opened, hopened⟩ := Option.ne_none_iff_exists'.mp hopen
  have hlogs := hlogs.opened opened hopened
  constructor
  · intro hand
    rw [handReview, askSession, hopened]
    exact congrArg Except.ok (hlogs.review hand)
  · refine ⟨opened.summary, hlogs.summary, ?_, fun now => ?_⟩
    · rw [sessionSummary, askSession, hopened]
    · rw [endSession, hopened]

/-- What a session answers depends on the session only. -/
theorem answers_of_session? {other : Engine σ} {session : String}
    (hsession : other.session? session = engine.session? session) :
    (∀ hand, other.handReview session hand = engine.handReview session hand) ∧
      other.sessionSummary session = engine.sessionSummary session ∧
      ∀ now, (other.endSession session now).1 = (engine.endSession session now).1 := by
  refine ⟨fun hand => ?_, ?_, fun now => ?_⟩
  · rw [handReview, handReview, askSession, askSession, hsession]
  · rw [sessionSummary, sessionSummary, askSession, askSession, hsession]
  · unfold endSession
    rw [hsession]
    cases engine.session? session <;> rfl

/-- An open session holds what was reported in it since it was opened. Operations that are not about
it change none of its answers, and once it has ended nothing of it is left for another use. -/
theorem sessions_remember_reports (store : σ) (course : Course) (journal : Option Journal)
    (operations : List Operation) (session : String)
    (hopen : ((launch store course journal).run operations).session? session ≠ none) :
    let first := launch store course journal
    let engine := first.run operations
    engine.Remembers session (reportedSince session first operations) ∧
    (∀ others : List Operation,
      (∀ operation ∈ others,
        operation.session? ≠ some session ∧ operation.restarts? = none) →
      (∀ hand, (engine.run others).handReview session hand = engine.handReview session hand) ∧
        (engine.run others).sessionSummary session = engine.sessionSummary session ∧
        ∀ now, ((engine.run others).endSession session now).1 =
          (engine.endSession session now).1) ∧
    ∀ (now : Instant) (more : List Operation),
      let closed := (engine.endSession session now).2
      closed.session? session = none ∧
        ((closed.run more).session? session ≠ none →
          (closed.run more).Remembers session (reportedSince session closed more)) := by
  intro first engine
  -- A session that is not open at first holds what the whole run has reported since.
  have hfresh : ∀ (start : Engine σ) (run : List Operation), start.session? session = none →
      (start.run run).session? session ≠ none →
      (start.run run).Remembers session (reportedSince session start run) := by
    intro start run hclosed hopened
    have hlogs := (Logs.of_none hclosed).run run
    rw [ite_self, List.nil_append] at hlogs
    exact hlogs.remembers _ hopened
  refine ⟨hfresh first operations ExtTreeMap.getElem?_empty hopen, ?_, ?_⟩
  · intro others hothers
    exact engine.answers_of_session? (engine.session?_run_of_ne hothers)
  · intro now more closed
    have hclosed : closed.session? session = none :=
      (engine.session?_endSession session session now).trans (if_pos rfl)
    exact ⟨hclosed, hfresh closed more hclosed⟩

/-- Two players in two sessions side by side, while the first two writes fail. -/
theorem sessions_remember_reports_side_by_side :
    let store : FaultyStore MemoryStore := { inner := .empty, writeFails := fun write => write < 2 }
    let decision (player : String) (hand : UInt32) : Decision :=
      { player, hand, street := .preflop, flags := { trash := true } }
    let operations : List Operation :=
      [.decide "s" (decision "ana" 7) { action := .fold } .epoch,
       .decide "t" (decision "bo" 7) { action := .fold } .epoch,
       .decide "s" (decision "bo" 3) { action := .call } .epoch,
       .endSession "t" .epoch]
    let first := launch store {} none
    (first.run operations).session? "s" ≠ none ∧
      (reportedSince "s" first operations).map Entry.hand = [7, 3] ∧
      (first.run operations).Remembers "s" (reportedSince "s" first operations) := by
  intro store decision operations first
  have hopen : (first.run operations).session? "s" ≠ none := by
    rw [← Option.isSome_iff_ne_none]
    decide +kernel
  exact ⟨hopen, by decide +kernel, (sessions_remember_reports store {} none operations "s" hopen).1⟩

end Engine

end PokerCoach
