import PokerCoach.Session.Memory
import PokerCoach.Hand.Codec
import PokerCoach.Progress.Codec

/-!
# Sessions as data trees
-/

namespace PokerCoach

open Data

instance : ToData Evaluation where
  toData e := .record
    [("skill_id", toData e.skill),
     ("action", toData e.action),
     ("outcome", toData e.outcome),
     ("confidence", toData e.confidence),
     ("reasoning", toData e.reasoning)]

/-- A confidence is taken as it is written. -/
instance : OfData Evaluation where
  ofData dialect v := do
    let fs ← fields ["skill_id", "action", "outcome", "confidence", "reasoning"] dialect v
    pure
      { skill := ← fs.required "skill_id"
        action := ← fs.required "action"
        outcome := ← fs.required "outcome"
        confidence := ← fs.required "confidence"
        reasoning := ← fs.required "reasoning" }

instance : ToData Cadence where
  toData cadence := .record
    [("max_surfaces_per_skill", toData cadence.maxSurfaces),
     ("min_hands_between_surfaces", toData cadence.minHandsBetween)]

instance : OfData Cadence where
  ofData dialect v := do
    let fs ← fields ["max_surfaces_per_skill", "min_hands_between_surfaces"] dialect v
    pure
      { maxSurfaces := ← fs.required "max_surfaces_per_skill"
        minHandsBetween := ← fs.required "min_hands_between_surfaces" }

instance : ToData SurfaceCount where
  toData count := .record
    [("surfaced", toData count.surfaced), ("last_hand", toData count.lastHand)]

instance : OfData SurfaceCount where
  ofData dialect v := do
    let fs ← fields ["surfaced", "last_hand"] dialect v
    pure { surfaced := ← fs.required "surfaced", lastHand := ← fs.optional "last_hand" }

instance : ToData Session where
  toData session := .record
    [("session_id", toData session.id),
     ("player_id", toData session.owner),
     ("started_at", toData session.startedAt),
     ("cadence", toData session.cadence),
     ("hands", toData session.hands),
     ("surfaces", toData session.surfaces)]

instance : OfData Session where
  ofData dialect v := do
    let fs ← fields
      ["session_id", "player_id", "started_at", "cadence", "hands", "surfaces"] dialect v
    pure
      { id := ← fs.required "session_id"
        owner := ← fs.required "player_id"
        startedAt := ← fs.required "started_at"
        cadence := ← fs.required "cadence"
        hands := ← fs.required "hands"
        surfaces := ← fs.required "surfaces" }

instance : ToData SessionSummary where
  toData summary := .record
    [("session_id", toData summary.id),
     ("player_id", toData summary.owner),
     ("hands", toData summary.hands),
     ("evaluations", toData summary.evaluations),
     ("correct", toData summary.correct),
     ("marginal", toData summary.marginal),
     ("incorrect", toData summary.incorrect),
     ("by_skill", toData summary.bySkill)]

end PokerCoach
