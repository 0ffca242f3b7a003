import PokerCoach.Progress.Codec

/-!
# Progress events

What the journal keeps: each lasting change of a player's progress, with its time.
-/

namespace PokerCoach

open Data Time

inductive Happening where
  /-- A skill moved from one level to another. -/
  | moved (player skill : String) (source target : Mastery) (accuracy : Float)
      (opportunities : UInt32)
  | gateUnlocked (player : String) (gate : UInt32)
  | backfilled (player skill : String) (gate : UInt32) (level : Mastery)
  | onboarded (player : String) (experience : Experience) (skills : UInt32)

structure Event where
  /-- The version of the notation. -/
  version : UInt8 := 1
  time : Instant
  happening : Happening

namespace Happening

def ofTransition (player : String) (transition : Transition Float) : Happening :=
  .moved player transition.skill transition.source transition.target transition.accuracy
    transition.opportunities

def ofBackfill (player : String) (row : Backfill) : Happening :=
  .backfilled player row.skill row.gate row.level

def player : Happening → String
  | .moved player _ _ _ _ _ => player
  | .gateUnlocked player _ => player
  | .backfilled player _ _ _ => player
  | .onboarded player _ _ => player

def kinds : List String :=
  ["skill_transition", "gate_unlocked", "skill_backfilled", "onboarded"]

def kind : Happening → String
  | .moved .. => "skill_transition"
  | .gateUnlocked .. => "gate_unlocked"
  | .backfilled .. => "skill_backfilled"
  | .onboarded .. => "onboarded"

def details : Happening → List (String × Value)
  | .moved player skill source target accuracy opportunities =>
      [("player_id", toData player),
       ("skill_id", toData skill),
       ("from", toData source),
       ("to", toData target),
       ("accuracy", toData accuracy),
       ("opportunities", toData opportunities)]
  | .gateUnlocked player gate => [("player_id", toData player), ("gate", toData gate)]
  | .backfilled player skill gate level =>
      [("player_id", toData player),
       ("skill_id", toData skill),
       ("gate", toData gate),
       ("state", toData level)]
  | .onboarded player experience skills =>
      [("player_id", toData player),
       ("level", toData experience),
       ("skills", toData skills)]

/-- What happened, from the kind and a record that holds its fields. They were kept until the kind
was known. -/
def ofKind (kind : String) (v : Value) : Except Fault Happening :=
  match kind with
  | "skill_transition" => do
      let fs ← fields ["player_id", "skill_id", "from", "to", "accuracy", "opportunities"] .kept v
      pure <| .moved (← fs.required "player_id") (← fs.required "skill_id")
        (← fs.required "from") (← fs.required "to") (← fs.required "accuracy")
        (← fs.required "opportunities")
  | "gate_unlocked" => do
      let fs ← fields ["player_id", "gate"] .kept v
      pure <| .gateUnlocked (← fs.required "player_id") (← fs.required "gate")
  | "skill_backfilled" => do
      let fs ← fields ["player_id", "skill_id", "gate", "state"] .kept v
      pure <| .backfilled (← fs.required "player_id") (← fs.required "skill_id")
        (← fs.required "gate") (← fs.required "state")
  | "onboarded" => do
      let fs ← fields ["player_id", "level", "skills"] .kept v
      pure <| .onboarded (← fs.required "player_id") (← fs.required "level")
        (← fs.required "skills")
  | _ => .error (.unknownName kind)

end Happening

mutual

/-- Whether every part of a tree can be read, with at most `depth` lists and records inside each
other. -/
def isReadable (depth : Nat) : Value → Bool
  | .foreign _ => false
  | .list items =>
      match depth with
      | 0 => false
      | depth + 1 => areReadable depth items
  | .record fields =>
      match depth with
      | 0 => false
      | depth + 1 => areReadableFields depth fields
  | _ => true

def areReadable (depth : Nat) : List Value → Bool
  | [] => true
  | v :: rest => isReadable depth v && areReadable depth rest

def areReadableFields (depth : Nat) : List (FieldName × Value) → Bool
  | [] => true
  | (_, v) :: rest => isReadable depth v && areReadableFields depth rest

end

/-- The kind of an event, by name or by its place among the kinds. -/
def eventKind : Value → Except Fault String
  | .text s => .ok s
  | .integer (.ofNat n) =>
      match Happening.kinds[n]? with
      | some kind => .ok kind
      | none => .error .outOfRange
  | _ => .error (.expected "the kind of an event")

instance : ToData Event where
  toData event := .ofFields <|
    [("v", toData event.version),
     ("ts", toData event.time),
     ("event", toData event.happening.kind)] ++ event.happening.details

/-- The fields of an event are read whatever its kind, so each part of each field has to be
readable. -/
instance : OfData Event where
  ofData
    | dialect, .record entries => do
        if !isReadable 127 (.record entries) then .error (.expected "a readable event")
        else
          let fs ← fields ["v", "ts", "event"] dialect (.record entries)
          let version ← fs.required "v"
          let time ← fs.required "ts"
          match fs.found.lookup "event" with
          | some kind =>
              let happening ← Happening.ofKind (← eventKind kind) (.record entries)
              pure { version, time, happening }
          | none => .error (.missing "event")
    | _, _ => .error (.expected "a record")

end PokerCoach
