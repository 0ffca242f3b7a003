import PokerCoach.Command.Arguments
import PokerCoach.Engine.Codec
import PokerCoach.Json.Reader
import PokerCoach.Settings.Load
import PokerCoach.Text.Basic
import PokerCoach.Decimal.Notation

/-!
# Replays

A file of recorded decisions, run through one session. The file is either one JSON array of records
or has a record on each line.
-/

namespace PokerCoach

open Data Time

structure ReplayRecord where
  decision : Decision
  action : LiveAction

instance : ToData ReplayRecord where
  toData record := .record
    [("decision", toData record.decision), ("action", toData record.action)]

instance : OfData ReplayRecord where
  ofData dialect v := do
    let fs ← fields ["decision", "action"] dialect v
    pure { decision := ← fs.required "decision", action := ← fs.required "action" }

structure HandReplay where
  hand : UInt32
  review : List Evaluation

instance : ToData HandReplay where
  toData replay := .record
    [("hand_number", toData replay.hand), ("review", toData replay.review)]

structure ReplayOutput where
  error : Option Error := none
  session : String
  decisions : Nat := 0
  transitions : List (Transition Float) := []
  unlocked : List UInt32 := []
  backfilled : List Backfill := []
  hands : List HandReplay := []
  summary : Option SessionSummary := none
  unpersisted : Nat := 0

def ReplayOutput.success (output : ReplayOutput) : Bool :=
  output.error.isNone

namespace Replay

/-- The record on a line. -/
def parseLine (number : Nat) (line : List Char) : Except Error ReplayRecord :=
  match Json.decode line with
  | .ok record => .ok record
  | .error fault =>
      .error (.serialization s!"Invalid replay record on line {number}: {fault.message}")

/-- The records of a text: an array if its first character that is not blank is a bracket, lines
otherwise. -/
def parse (text : String) : Except Error (List ReplayRecord) :=
  let cs := Text.trimStart text.toList
  if cs.head? = some '[' then
    match Json.decode cs with
    | .ok records => .ok records
    | .error fault => .error (.serialization s!"Invalid replay file: {fault.message}")
  else (Text.numberedLines text.toList).mapM fun (number, line) => parseLine number line

variable {σ : Type} [RecordStore σ]

/-- Decides records in order, each at one more reading of the clock. -/
def decideAll (engine : Engine σ) (session : String) (clock : Nat → Instant) :
    List ReplayRecord → List DecisionReport × Engine σ
  | [] => ([], engine)
  | record :: rest =>
      let (report, engine) := engine.decide session record.decision record.action (clock 0)
      let (reports, engine) := decideAll engine session (fun reading => clock (reading + 1)) rest
      (report :: reports, engine)

/-- The hands of the reports that have something to review, in the order of their first decision. -/
def reviews (engine : Engine σ) (session : String) (reports : List DecisionReport) :
    List HandReplay :=
  ((reports.map DecisionReport.hand).eraseDups.map fun hand =>
    { hand, review := failOpen [] (engine.handReview session hand) }).filter fun replay =>
      !replay.review.isEmpty

/-- Runs records through a session of their own, which starts with the first decision and ends after
the last one. Nothing happens if the session is open. -/
def runRecords (engine : Engine σ) (records : List ReplayRecord) (session : String)
    (clock : Nat → Instant) : ReplayOutput × Engine σ :=
  match records with
  | [] => ({ session }, engine)
  | first :: _ =>
      match engine.startSession session first.decision.player (clock 0) with
      | (.error error, engine) => ({ error := some error, session }, engine)
      | (.ok (), engine) =>
          let (reports, engine) := decideAll engine session clock records
          let hands := reviews engine session reports
          let (summary, engine) := engine.endSession session (clock records.length)
          ({ session
             decisions := reports.length
             transitions := reports.flatMap DecisionReport.transitions
             unlocked := reports.flatMap DecisionReport.unlocked
             backfilled := reports.flatMap DecisionReport.backfilled
             hands
             summary := summary.toOption
             unpersisted := reports.countP fun report => !report.persisted },
            engine)

def run (engine : Engine σ) (files : Files) (path session : String) (clock : Nat → Instant) :
    ReplayOutput × Engine σ :=
  match files.read path >>= parse with
  | .error error => ({ error := some error, session }, engine)
  | .ok records => runRecords engine records session clock

end Replay

instance : ToData ReplayOutput where
  toData output := .ofFields <|
    [("success", toData output.success),
     ("session_id", toData output.session),
     ("decisions", toData output.decisions),
     ("transitions", toData output.transitions),
     ("unlocked_gates", toData output.unlocked),
     ("backfilled", toData output.backfilled),
     ("hands", toData output.hands)]
    ++ fieldIfSome "summary" output.summary
    ++ [("unpersisted", toData output.unpersisted)]
    ++ fieldIfSome "error" (output.error.map Error.message)

namespace ReplayOutput

def evaluationLine (e : Evaluation) : String :=
  s!"  [{e.outcome.name}] {e.skill} ({e.action.name}): {e.reasoning}"

def handLines (replay : HandReplay) : List String :=
  s!"Hand {replay.hand}" :: replay.review.map evaluationLine

def transitionLine (t : Transition Float) : String :=
  s!"  {t.skill}: {t.source.name} -> {t.target.name} "
    ++ s!"(accuracy {Decimal.fixed 0 (t.accuracy * 100.0)}%, {t.opportunities} opportunities)"

def summaryLine (summary : SessionSummary) : String :=
  s!"  {summary.evaluations} evaluation(s): {summary.correct} correct, "
    ++ s!"{summary.marginal} marginal, {summary.incorrect} incorrect"

def text (output : ReplayOutput) : String :=
  match output.error with
  | some error => s!"Replay failed: {error.message}\n"
  | none =>
      if output.decisions = 0 then "No decisions to replay.\n"
      else
        Text.unlines <|
          [s!"Replayed {output.decisions} decision(s) in session {output.session}"]
          ++ (output.summary.map summaryLine).toList
          ++ (if output.unpersisted = 0 then []
              else [s!"  warning: {output.unpersisted} decision(s) could not be saved"])
          ++ [""]
          ++ output.hands.flatMap handLines
          ++ (if output.transitions.isEmpty then []
              else "" :: "Transitions:" :: output.transitions.map transitionLine)
          ++ (if output.unlocked.isEmpty then []
              else ["", "Gates unlocked: " ++ ", ".intercalate (output.unlocked.map toString)])

end ReplayOutput

end PokerCoach
