import PokerCoach.Proofs.Engine.Draft

/-!
# Open sessions

What operations do to the sessions of an engine. Records, events and the store are apart from them,
so that an operation changes at most the session it is about; only a restart closes all.
-/

namespace PokerCoach

open Std Time

/-- The session that an operation is about. -/
def Operation.session? : Operation → Option String
  | decide session .. => some session
  | startSession session .. => some session
  | endSession session _ => some session
  | noteSurfaced session .. => some session
  | _ => none

/-! ### What leaves sessions as they are -/

namespace Engine

section Frame

variable {σ : Type} (engine : Engine σ)

theorem sessions_emitAll (happenings : List Happening) (now : Instant) :
    (engine.emitAll happenings now).sessions = engine.sessions := by
  rw [emitAll_eq]

variable [RecordStore σ]

theorem sessions_persist (record : PlayerRecord) (now : Instant) :
    (engine.persist record now).2.sessions = engine.sessions := by
  obtain ⟨health, hwrite⟩ := engine.exists_write_eq record now
  rw [persist, hwrite]

theorem sessions_install (player : String) (source : Source) (now : Instant) :
    (engine.install player source now).2.sessions = engine.sessions := by
  cases hdurable : source.isDurable with
  | true =>
      rcases engine.install_durable hdurable with ⟨record, -, -, hinstall⟩ | ⟨happenings, hinstall⟩
      · rw [hinstall]
        rfl
      · rw [hinstall]
        exact (sessions_persist _ _ now).trans (engine.sessions_emitAll happenings now)
  | false =>
      cases source with
      | unread => rfl
      | _ => cases hdurable

theorem sessions_load (player : String) (now : Instant) :
    (engine.load player now).2.sessions = engine.sessions := by
  unfold load
  split
  · rfl
  all_goals
    dsimp only
    split
    · exact sessions_install _ player _ now
    · exact sessions_install _ player _ now
  · rfl
  · exact sessions_install _ player _ now

theorem sessions_release (player : String) (now : Instant) :
    (engine.release player now).sessions = engine.sessions := by
  unfold release
  split
  · rfl
  · next slot _ =>
      have hpersist := engine.sessions_persist slot.record now
      cases slot.durable with
      | false => rfl
      | true =>
          simp only [if_true]
          split <;> exact hpersist

theorem sessions_onboard (player : String) (experience : Experience) (now : Instant) :
    (engine.onboard player experience now).2.sessions = engine.sessions := by
  unfold onboard
  split
  · rfl
  · dsimp only
    split
    · rfl
    · rfl
    · split
      · rfl
      · next record rows _ =>
          obtain ⟨health, hwrite⟩ := (engine.fetch player).2.exists_write_eq record now
          rw [hwrite]
          dsimp only
          split
          · rfl
          · exact sessions_emitAll _ _ now

theorem sessions_progress (player : String) (now : Instant) :
    (engine.progress player now).2.sessions = engine.sessions := by
  unfold progress
  split
  · rfl
  · dsimp only
    split <;> rfl

theorem sessions_coachingMode (player skill : String) (now : Instant) :
    (engine.coachingMode player skill now).2.sessions = engine.sessions := by
  have hprogress := engine.sessions_progress player now
  unfold coachingMode
  split
  · rfl
  · dsimp only
    split <;> exact hprogress

end Frame

section Sessions

variable {σ : Type} (engine : Engine σ)

theorem session?_setSession (id other : String) (session : Session) :
    (engine.setSession id session).session? other =
      if id = other then some session else engine.session? other := by
  simp [session?, setSession, ExtTreeMap.getElem?_insert]

theorem session?_eq_none_iff {id : String} :
    engine.session? id = none ↔ engine.sessions.contains id = false := by
  rw [session?, ← Option.not_isSome_iff_eq_none, ExtTreeMap.contains_eq_isSome_getElem?,
    Bool.not_eq_true]

/-- A session that is not open is opened empty. -/
theorem session?_ensureSession (id owner other : String) (now : Instant) :
    (engine.ensureSession id owner now).session? other =
      if id = other then
        some ((engine.session? id).getD (.start id owner engine.settings.cadence now))
      else engine.session? other := by
  unfold ensureSession
  cases hsession : engine.session? id with
  | none =>
      rw [engine.session?_eq_none_iff.mp hsession, if_neg Bool.false_ne_true, session?_setSession]
      rfl
  | some session =>
      have hopen : engine.sessions.contains id = true := by
        rw [ExtTreeMap.contains_eq_isSome_getElem?]
        exact Option.isSome_of_eq_some hsession
      rw [if_pos hopen]
      by_cases hother : id = other
      · subst hother
        rw [if_pos rfl, hsession]
        rfl
      · rw [if_neg hother]

theorem session?_remember (id other : String) (hand : UInt32) (evaluation : Evaluation) :
    (engine.remember id hand evaluation).session? other =
      if id = other then
        (engine.session? id).map fun session => (session.record hand evaluation).1
      else engine.session? other := by
  unfold remember
  by_cases hother : id = other
  · subst hother
    cases hsession : engine.session? id with
    | none => rw [if_pos rfl, hsession]; rfl
    | some session => rw [session?_setSession, if_pos rfl, if_pos rfl]; rfl
  · cases engine.session? id with
    | none => rw [if_neg hother]
    | some session => rw [session?_setSession, if_neg hother, if_neg hother]

theorem session?_startSession_of_ne {id other : String} (hother : id ≠ other) (owner : String)
    (now : Instant) :
    (engine.startSession id owner now).2.session? other = engine.session? other := by
  unfold startSession
  split
  · rfl
  · rw [session?_setSession, if_neg hother]

theorem session?_noteSurfaced_of_ne {id other : String} (hother : id ≠ other) (skill : String)
    (hand : UInt32) :
    (engine.noteSurfaced id skill hand).2.session? other = engine.session? other := by
  unfold noteSurfaced
  split
  · rw [session?_setSession, if_neg hother]
  · rfl

end Sessions

end Engine

namespace Turn

variable {σ : Type} (turn : Turn σ)

theorem sessions_emitAll (happenings : List Happening) (now : Instant) :
    (turn.emitAll happenings now).engine.sessions = turn.engine.sessions := by
  unfold emitAll
  split
  · exact turn.engine.sessions_emitAll happenings now
  · rfl

theorem sessions_recordOutcome (skill : Skill) (outcome : Outcome) (now : Instant) :
    (turn.recordOutcome skill outcome now).engine.sessions = turn.engine.sessions := by
  unfold recordOutcome
  exact sessions_emitAll _ _ now

theorem sessions_openGate (skill : String) (now : Instant) :
    (turn.openGate skill now).engine.sessions = turn.engine.sessions := by
  unfold openGate
  dsimp only
  split
  · rfl
  · exact sessions_emitAll _ _ now

variable [RecordStore σ]

theorem sessions_save (now : Instant) : (turn.save now).engine.sessions = turn.engine.sessions := by
  unfold save
  split
  · exact turn.engine.sessions_persist _ now
  · rfl

theorem sessions_learned (skill : Skill) (evaluation : Evaluation) (now : Instant) :
    (turn.learned skill evaluation now).engine.sessions = turn.engine.sessions := by
  rw [learned, sessions_save, sessions_openGate, sessions_recordOutcome]
  rfl

theorem hand_learned (skill : Skill) (evaluation : Evaluation) (now : Instant) :
    (turn.learned skill evaluation now).report.hand = turn.report.hand :=
  (congrArg (fun draft => draft.report.hand) (turn.draft_learned skill evaluation now)).trans
    (Draft.hand_advance _ _ _ now)

theorem evaluations_learned (skill : Skill) (evaluation : Evaluation) (now : Instant) :
    (turn.learned skill evaluation now).report.evaluations =
      turn.report.evaluations ++ [evaluation] :=
  (congrArg (fun draft => draft.report.evaluations) (turn.draft_learned skill evaluation now)).trans
    (Draft.evaluations_advance _ _ _ now)

/-! ### What an evaluation leaves in the sessions -/

variable (session : String) (live : LiveAction) (spot : Situation) (now : Instant) (skill : String)

theorem hand_judge :
    (turn.judge session live spot now skill).report.hand = turn.report.hand := by
  rcases turn.judge_cases session now live spot skill with
    ⟨-, hjudge⟩ | ⟨definition, -, -, -, hjudge⟩
  · rw [hjudge, note]
  · rw [hjudge]
    exact turn.hand_learned definition _ now

theorem session?_judge_of_ne {other : String} (hother : session ≠ other) :
    (turn.judge session live spot now skill).engine.session? other =
      turn.engine.session? other := by
  rcases turn.judge_cases session now live spot skill with
    ⟨-, hjudge⟩ | ⟨definition, -, -, -, hjudge⟩
  · rw [hjudge, note]
  · rw [hjudge]
    dsimp only
    rw [Engine.session?_remember, if_neg hother, Engine.session?, sessions_learned]
    rfl

end Turn

namespace Engine

variable {σ : Type} [RecordStore σ] (engine : Engine σ)

/-! ### What an operation leaves in the sessions -/

section Decision

variable (session : String) (decision : Decision) (live : LiveAction) (now : Instant)

theorem session?_startTurn (other : String) :
    (engine.startTurn session decision live now).engine.session? other =
      (engine.ensureSession session decision.player now).session? other :=
  congrArg (·[other]?) ((engine.ensureSession session decision.player now).sessions_load
    decision.player now)

theorem session?_decide_of_ne {other : String} (hother : session ≠ other) :
    (engine.decide session decision live now).2.session? other = engine.session? other := by
  have hfold (skills : List String) (turn : Turn σ) :
      (skills.foldl (Turn.judge session live (decision.situation (some live)) now)
        turn).engine.session? other = turn.engine.session? other := by
    induction skills generalizing turn with
    | nil => rfl
    | cons skill rest ih =>
        rw [List.foldl_cons, ih, turn.session?_judge_of_ne session live _ now skill hother]
  calc (engine.decide session decision live now).2.session? other
      = (engine.startTurn session decision live now).engine.session? other := hfold _ _
    _ = engine.session? other := by
        rw [session?_startTurn, session?_ensureSession, if_neg hother]

end Decision

theorem session?_endSession (id other : String) (now : Instant) :
    (engine.endSession id now).2.session? other =
      if id = other then none else engine.session? other := by
  have herase : (engine.sessions.erase id)[other]? =
      if id = other then none else engine.session? other := by
    simp [session?, ExtTreeMap.getElem?_erase]
  unfold endSession
  cases hsession : engine.session? id with
  | none =>
      by_cases hother : id = other
      · rw [if_pos hother, ← hother, hsession]
      · rw [if_neg hother]
  | some session =>
      rw [← herase]
      dsimp only
      split
      · rfl
      · exact congrArg (·[other]?) (sessions_release _ session.owner now)

theorem session?_step_of_ne {session : String} {operation : Operation}
    (hother : operation.session? ≠ some session) (hgoes : operation.restarts? = none) :
    (engine.step operation).session? session = engine.session? session := by
  cases operation with
  | decide other decision live now =>
      exact engine.session?_decide_of_ne other decision live now fun heq =>
        hother (congrArg some heq)
  | onboard player experience now =>
      exact congrArg (·[session]?) (engine.sessions_onboard player experience now)
  | startSession other player now =>
      exact engine.session?_startSession_of_ne (fun heq => hother (congrArg some heq)) player now
  | endSession other now =>
      exact (engine.session?_endSession other session now).trans
        (if_neg fun heq => hother (congrArg some heq))
  | noteSurfaced other skill hand =>
      exact engine.session?_noteSurfaced_of_ne (fun heq => hother (congrArg some heq)) skill hand
  | progress player now => exact congrArg (·[session]?) (engine.sessions_progress player now)
  | coachingMode player skill now =>
      exact congrArg (·[session]?) (engine.sessions_coachingMode player skill now)
  | skillSummaries player now => exact congrArg (·[session]?) (engine.sessions_progress player now)
  | restart course journal => cases hgoes

theorem session?_run_of_ne {session : String} {operations : List Operation}
    (hothers : ∀ operation ∈ operations,
      operation.session? ≠ some session ∧ operation.restarts? = none) :
    (engine.run operations).session? session = engine.session? session := by
  induction operations generalizing engine with
  | nil => rfl
  | cons operation rest ih =>
      obtain ⟨hother, hgoes⟩ := hothers operation List.mem_cons_self
      calc ((engine.step operation).run rest).session? session
          = (engine.step operation).session? session :=
            ih _ fun other hmem => hothers other (List.mem_cons_of_mem operation hmem)
        _ = engine.session? session := engine.session?_step_of_ne hother hgoes

end Engine

end PokerCoach
