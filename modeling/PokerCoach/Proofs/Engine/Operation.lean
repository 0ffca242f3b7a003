import PokerCoach.Engine.Deciding
import PokerCoach.Engine.Loading
import PokerCoach.Engine.Reading

/-!
# Runs of an engine

The operations of an engine as data, each with the time of its call, and runs as lists of them. A
restart throws the engine away and goes on with a new one, which may teach another course, on the
same store. Operations that give an answer and leave the engine as it is are left out.
-/

namespace PokerCoach

open Time

structure Course where
  curriculum : Curriculum := .standard
  rules : RuleBook := .standard
  settings : Settings := .standard

inductive Operation where
  | decide (session : String) (decision : Decision) (live : LiveAction) (now : Instant)
  | onboard (player : String) (experience : Experience) (now : Instant)
  | startSession (session player : String) (now : Instant)
  | endSession (session : String) (now : Instant)
  | noteSurfaced (session skill : String) (hand : UInt32)
  | progress (player : String) (now : Instant)
  | coachingMode (player skill : String) (now : Instant)
  | skillSummaries (player : String) (now : Instant)
  | restart (course : Course) (journal : Option Journal)

namespace Operation

def restarts? : Operation → Option Course
  | restart course _ => some course
  | _ => none

def onboards : Operation → Bool
  | onboard .. => true
  | _ => false

def closes : Operation → Bool
  | endSession .. => true
  | _ => false

/-- The decision of a player that an operation takes in, with the action and the time. -/
def decisionOf? (player : String) : Operation → Option (Decision × LiveAction × Instant)
  | decide _ decision live now =>
      if decision.player = player then some (decision, live, now) else none
  | _ => none

theorem restarts?_eq_some {operation : Operation} {course : Course}
    (hrestarts : operation.restarts? = some course) :
    ∃ journal, operation = .restart course journal := by
  cases operation with
  | restart other journal =>
      cases hrestarts
      exact ⟨journal, rfl⟩
  | _ => cases hrestarts

theorem decisionOf?_eq_some {player : String} {operation : Operation} {decision : Decision}
    {live : LiveAction} {now : Instant}
    (hdecision : operation.decisionOf? player = some (decision, live, now)) :
    ∃ session, operation = .decide session decision live now ∧ decision.player = player := by
  cases operation with
  | decide session other action time =>
      simp only [decisionOf?] at hdecision
      split at hdecision
      · rename_i hplayer
        cases hdecision
        exact ⟨session, rfl, hplayer⟩
      · cases hdecision
  | _ => cases hdecision

end Operation

namespace Engine

variable {σ : Type}

def launch (store : σ) (course : Course) (journal : Option Journal) : Engine σ :=
  { store, journal
    curriculum := course.curriculum
    rules := course.rules
    settings := course.settings }

def course (engine : Engine σ) : Course :=
  { curriculum := engine.curriculum, rules := engine.rules, settings := engine.settings }

variable [RecordStore σ]

def step (engine : Engine σ) : Operation → Engine σ
  | .decide session decision live now => (engine.decide session decision live now).2
  | .onboard player experience now => (engine.onboard player experience now).2
  | .startSession session player now => (engine.startSession session player now).2
  | .endSession session now => (engine.endSession session now).2
  | .noteSurfaced session skill hand => (engine.noteSurfaced session skill hand).2
  | .progress player now => (engine.progress player now).2
  | .coachingMode player skill now => (engine.coachingMode player skill now).2
  | .skillSummaries player now => (engine.skillSummaries player now).2
  | .restart course journal => launch engine.store course journal

def run (engine : Engine σ) (operations : List Operation) : Engine σ :=
  operations.foldl step engine

/-- The report that an operation gives; only decisions are reported. -/
def report? (engine : Engine σ) : Operation → Option DecisionReport
  | .decide session decision live now => some (engine.decide session decision live now).1
  | _ => none

/-- The reports of a run on the decisions of one player. -/
def reportsOf (player : String) (engine : Engine σ) : List Operation → List DecisionReport
  | [] => []
  | operation :: rest =>
      ((engine.report? operation).filter fun report => report.player == player).toList
        ++ reportsOf player (engine.step operation) rest

@[simp]
theorem run_nil (engine : Engine σ) : engine.run [] = engine := rfl

@[simp]
theorem run_cons (engine : Engine σ) (operation : Operation) (rest : List Operation) :
    engine.run (operation :: rest) = (engine.step operation).run rest := rfl

@[simp]
theorem run_append (engine : Engine σ) (first second : List Operation) :
    engine.run (first ++ second) = (engine.run first).run second :=
  List.foldl_append

theorem reportsOf_cons (player : String) (engine : Engine σ) (operation : Operation)
    (rest : List Operation) :
    reportsOf player engine (operation :: rest) =
      reportsOf player engine [operation] ++ reportsOf player (engine.step operation) rest := by
  rw [reportsOf, reportsOf, reportsOf, List.append_nil]

theorem reportsOf_append (player : String) (engine : Engine σ) (first second : List Operation) :
    reportsOf player engine (first ++ second) =
      reportsOf player engine first ++ reportsOf player (engine.run first) second := by
  induction first generalizing engine with
  | nil => rfl
  | cons operation rest ih =>
      rw [List.cons_append, reportsOf, reportsOf, ih, run_cons, List.append_assoc]

end Engine

end PokerCoach
