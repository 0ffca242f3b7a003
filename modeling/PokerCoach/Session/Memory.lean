import PokerCoach.Basic
import PokerCoach.Rule.Basic
import PokerCoach.Time.Instant

/-!
# Session memory

What is remembered of one game session: the evaluations of each hand, and how often coaching for a
skill was shown. It ends with the session.
-/

namespace PokerCoach

open Std Time

structure Cadence where
  /-- Times per skill and session. -/
  maxSurfaces : UInt32 := 3
  /-- Hands from one time to the next. -/
  minHandsBetween : UInt32 := 2
  deriving DecidableEq, Repr, Inhabited

structure SurfaceCount where
  surfaced : UInt32 := 0
  lastHand : Option UInt32 := none
  deriving DecidableEq, Repr, Inhabited

structure Session where
  id : String
  /-- The player who opened the session. -/
  owner : String
  startedAt : Instant
  cadence : Cadence
  hands : ExtTreeMap UInt32 (List Evaluation) := ∅
  surfaces : ExtTreeMap String SurfaceCount := ∅

structure SessionSummary where
  id : String
  owner : String
  hands : Nat
  evaluations : Nat
  correct : Nat
  marginal : Nat
  incorrect : Nat
  bySkill : ExtTreeMap String Nat

namespace Session

def start (id owner : String) (cadence : Cadence) (now : Instant) : Session :=
  { id, owner, startedAt := now, cadence }

/-- Evaluations of a hand in the order in which they were made. -/
def logged (session : Session) (hand : UInt32) : List Evaluation :=
  session.hands[hand]?.getD []

/-- Keeps an evaluation that applies; tells whether it does. -/
def record (session : Session) (hand : UInt32) (evaluation : Evaluation) : Session × Bool :=
  if evaluation.outcome.isApplicable then
    ({ session with hands := session.hands.insert hand (session.logged hand ++ [evaluation]) },
      true)
  else (session, false)

/-- Evaluations of a hand, the worst first and otherwise in the order in which they were made. -/
def review (session : Session) (hand : UInt32) : List Evaluation :=
  (session.logged hand).mergeSort fun a b =>
    decide (a.outcome.reviewRank ≤ b.outcome.reviewRank)

def maySurface (session : Session) (skill : String) (hand : UInt32) : Bool :=
  match session.surfaces[skill]? with
  | none => 0 < session.cadence.maxSurfaces
  | some count =>
      count.surfaced < session.cadence.maxSurfaces &&
        count.lastHand.all fun last =>
          decide (session.cadence.minHandsBetween.toNat ≤ hand.toNat - last.toNat)

def noteSurfaced (session : Session) (skill : String) (hand : UInt32) : Session :=
  let count := session.surfaces[skill]?.getD {}
  { session with
    surfaces := session.surfaces.insert skill
      { surfaced := countUp count.surfaced, lastHand := some hand } }

def evaluations (session : Session) : List Evaluation :=
  session.hands.toList.flatMap Prod.snd

def countBySkill (evaluations : List Evaluation) : ExtTreeMap String Nat :=
  evaluations.foldl
    (fun counts e => counts.insert e.skill (counts[e.skill]?.getD 0 + 1)) ∅

def summary (session : Session) : SessionSummary :=
  let all := session.evaluations
  let count (outcome : Outcome) := all.countP fun e => decide (e.outcome = outcome)
  { id := session.id
    owner := session.owner
    hands := session.hands.size
    evaluations := all.length
    correct := count .correct
    marginal := count .marginal
    incorrect := count .incorrect
    bySkill := countBySkill all }

end Session

end PokerCoach
