import PokerCoach.Engine.Deciding
import PokerCoach.Engine.Reading
import PokerCoach.Session.Codec

/-!
# Answers of an engine as data trees
-/

namespace PokerCoach

open Data

instance : ToData DecisionReport where
  toData report := .record
    [("player_id", toData report.player),
     ("hand_number", toData report.hand),
     ("triggered", toData report.triggered),
     ("evaluations", toData report.evaluations),
     ("transitions", toData report.transitions),
     ("unlocked_gates", toData report.unlocked),
     ("backfilled", toData report.backfilled),
     ("persisted", toData report.persisted)]

instance : ToData StorageHealth where
  toData health := .record
    [("consecutive_failures", toData health.consecutiveFailures),
     ("total_failures", toData health.totalFailures),
     ("last_error", toData (health.lastError.map Error.message)),
     ("last_failure_at", toData health.lastFailureAt)]

instance : ToData SkillSummary where
  toData summary := .record
    [("skill_id", toData summary.skill),
     ("name", toData summary.name),
     ("gate", toData summary.gate),
     ("state", toData summary.level),
     ("accuracy", toData summary.accuracy),
     ("opportunities", toData summary.opportunities),
     ("window_len", toData summary.windowLength),
     ("mode", toData summary.mode)]

end PokerCoach
