import PokerCoach.Data.Decode
import PokerCoach.Progress.Gate
import PokerCoach.Time.Stamp

/-!
# Levels, outcomes and player records as data trees
-/

namespace PokerCoach

open Data

instance : ToData Mastery := ⟨fun m => .text m.name⟩

instance : OfData Mastery := ⟨ofName (Mastery.all.map fun m => (m.name, m))⟩

instance : ToData Outcome := ⟨fun o => .text o.name⟩

instance : OfData Outcome :=
  ⟨ofName <|
    [.correct, .incorrect, .marginal, .notApplicable].map fun (o : Outcome) => (o.name, o)⟩

instance : ToData SkillRow where
  toData row := .record
    [("skill_id", toData row.skill),
     ("state", toData row.level),
     ("window", toData row.window),
     ("opportunities", toData row.opportunities),
     ("created_at", toData row.createdAt),
     ("updated_at", toData row.updatedAt),
     ("last_transition_at", toData row.lastTransitionAt)]

instance : OfData SkillRow where
  ofData dialect v := do
    let fs ← fields
      ["skill_id", "state", "window", "opportunities", "created_at", "updated_at",
        "last_transition_at"] dialect v
    pure
      { skill := ← fs.required "skill_id"
        level := ← fs.required "state"
        window := ← fs.required "window"
        opportunities := ← fs.required "opportunities"
        createdAt := ← fs.required "created_at"
        updatedAt := ← fs.required "updated_at"
        lastTransitionAt := ← fs.defaulted "last_transition_at" none }

instance : ToData GateEntry where
  toData entry := .record
    [("unlocked", toData entry.unlocked), ("unlocked_at", toData entry.unlockedAt)]

instance : OfData GateEntry where
  ofData dialect v := do
    let fs ← fields ["unlocked", "unlocked_at"] dialect v
    pure { unlocked := ← fs.required "unlocked", unlockedAt := ← fs.optional "unlocked_at" }

instance : ToData Experience := ⟨fun e => .text e.name⟩

instance : OfData Experience :=
  ⟨ofName <|
    [.beginner, .intermediate, .advanced].map fun (e : Experience) => (e.name, e)⟩

instance : ToData PlayerRecord where
  toData record := .record
    [("player_id", toData record.player),
     ("skills", toData record.skills),
     ("gates", toData record.gates),
     ("onboarded", toData record.onboarded),
     ("created_at", toData record.createdAt),
     ("updated_at", toData record.updatedAt)]

instance : OfData PlayerRecord where
  ofData dialect v := do
    let fs ← fields
      ["player_id", "skills", "gates", "onboarded", "created_at", "updated_at"] dialect v
    pure
      { player := ← fs.required "player_id"
        skills := ← fs.required "skills"
        gates := ← fs.required "gates"
        onboarded := ← fs.defaulted "onboarded" none
        createdAt := ← fs.required "created_at"
        updatedAt := ← fs.required "updated_at" }

instance : ToData (Transition Float) where
  toData transition := .record
    [("skill_id", toData transition.skill),
     ("from", toData transition.source),
     ("to", toData transition.target),
     ("accuracy", toData transition.accuracy),
     ("opportunities", toData transition.opportunities)]

instance : OfData (Transition Float) where
  ofData dialect v := do
    let fs ← fields ["skill_id", "from", "to", "accuracy", "opportunities"] dialect v
    pure
      { skill := ← fs.required "skill_id"
        source := ← fs.required "from"
        target := ← fs.required "to"
        accuracy := ← fs.required "accuracy"
        opportunities := ← fs.required "opportunities" }

instance : ToData Backfill where
  toData row := .record
    [("skill_id", toData row.skill), ("gate", toData row.gate), ("state", toData row.level)]

instance : OfData Backfill where
  ofData dialect v := do
    let fs ← fields ["skill_id", "gate", "state"] dialect v
    pure
      { skill := ← fs.required "skill_id"
        gate := ← fs.required "gate"
        level := ← fs.required "state" }

instance : ToData CoachingMode := ⟨fun mode => .text mode.name⟩

instance : OfData CoachingMode :=
  ⟨ofName <|
    [.learn, .compete, .silent].map fun (mode : CoachingMode) => (mode.name, mode)⟩

end PokerCoach
