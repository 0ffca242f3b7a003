import PokerCoach.Data.Value
import PokerCoach.Json.Printer
import PokerCoach.Progress.Record

/-!
# Command lines

A command, its operands and its options in any order. Every option may be given once; after two
hyphens all is operand.
-/

namespace PokerCoach

open Data

/-! ### Views

A result is shown as text, as JSON, or not at all. -/

structure View where
  json : Bool := false
  quiet : Bool := false
  deriving DecidableEq, Repr, Inhabited

def View.render (view : View) (value : Value) (text : String) : String :=
  if view.quiet then ""
  else if view.json then Json.printPage value
  else text

/-- A field that is written only if it has a value. -/
def fieldIfSome {α : Type} [ToData α] (name : String) : Option α → List (String × Value)
  | some a => [(name, toData a)]
  | none => []

/-! ### Commands -/

inductive Command where
  | replay (file : String) (session : Option String) (dryRun : Bool) (view : View)
  | progress (player : String) (view : View)
  | onboard (player : String) (experience : Experience) (view : View)
  | skills (check : Bool) (view : View)
  deriving DecidableEq, Repr

inductive Request where
  | run (command : Command)
  | help
  | misuse
  deriving DecidableEq, Repr

structure Grammar where
  /-- Long names of options without a value. -/
  flags : List String
  /-- Long names of options with a value, each with the values that it takes. -/
  valued : List (String × (String → Bool)) := []
  operands : Nat
  takesOperand : String → Bool := fun _ => true

structure Given where
  flags : List String := []
  values : List (String × String) := []
  operands : List String := []

namespace Grammar

/-- The long name of a one-letter option. -/
def shortName? : Char → Option String
  | 'j' => some "json"
  | 'q' => some "quiet"
  | _ => none

def addFlag (grammar : Grammar) (name : String) (given : Given) : Option Given :=
  if grammar.flags.contains name ∧ !given.flags.contains name then
    some { given with flags := name :: given.flags }
  else none

def addValue (grammar : Grammar) (name value : String) (given : Given) : Option Given :=
  if (grammar.valued.lookup name).any (fun takes => takes value) ∧
      (given.values.lookup name).isNone then
    some { given with values := (name, value) :: given.values }
  else none

def addOperand (grammar : Grammar) (operand : String) (given : Given) : Option Given :=
  if given.operands.length < grammar.operands ∧ grammar.takesOperand operand then
    some { given with operands := given.operands ++ [operand] }
  else none

/-- Words that are operands or values rather than options. -/
def isPlain (word : String) : Bool :=
  word == "-" || word.toList.head? != some '-'

def isHelp (word : String) : Bool :=
  word == "--help" || word == "-h"

def addLetters (grammar : Grammar) : List Char → Given → Except Request Given
  | [], given => .ok given
  | 'h' :: _, _ => .error .help
  | c :: rest, given =>
      match (shortName? c).bind fun name => grammar.addFlag name given with
      | some given => addLetters grammar rest given
      | none => .error .misuse

/-- The name of a long option and the value after its equals sign. -/
def splitOption (word : List Char) : String × Option String :=
  let name := String.ofList (word.takeWhile (· ≠ '='))
  match word.dropWhile (· ≠ '=') with
  | _ :: value => (name, some (String.ofList value))
  | [] => (name, none)

def addOperands (grammar : Grammar) (words : List String) (given : Given) :
    Except Request Given :=
  match words.foldlM (fun given word => grammar.addOperand word given) given with
  | some given => .ok given
  | none => .error .misuse

def read (grammar : Grammar) : List String → Given → Except Request Given
  | [], given => .ok given
  | word :: rest, given =>
      match word.toList with
      | ['-', '-'] => grammar.addOperands rest given
      | '-' :: '-' :: long =>
          match splitOption long with
          | ("help", none) => .error .help
          | (name, some value) =>
              match grammar.addValue name value given with
              | some given => grammar.read rest given
              | none => .error .misuse
          | (name, none) =>
              if (grammar.valued.lookup name).isSome then
                match rest with
                | [] => .error .misuse
                | value :: rest =>
                    if !isPlain value then .error .misuse
                    else
                      match grammar.addValue name value given with
                      | some given => grammar.read rest given
                      | none => .error .misuse
              else
                match grammar.addFlag name given with
                | some given => grammar.read rest given
                | none => .error .misuse
      | '-' :: c :: letters => do
          let given ← grammar.addLetters (c :: letters) given
          grammar.read rest given
      | _ =>
          match grammar.addOperand word given with
          | some given => grammar.read rest given
          | none => .error .misuse

end Grammar

namespace Given

def view (given : Given) : View :=
  { json := given.flags.contains "json", quiet := given.flags.contains "quiet" }

end Given

namespace Command

/-- The experience that an option names, in lower case only. -/
def experience? (word : String) : Option Experience :=
  [.beginner, .intermediate, .advanced].find? fun (e : Experience) => e.name == word

/-- What a command accepts: any session and any player, but no file without a name. -/
def grammar? : String → Option Grammar
  | "replay" =>
      some
        { flags := ["dry-run", "json", "quiet"]
          valued := [("session-id", fun _ => true)]
          operands := 1
          takesOperand := fun file => !file.isEmpty }
  | "progress" => some { flags := ["json", "quiet"], operands := 1 }
  | "onboard" =>
      some
        { flags := ["json", "quiet"]
          valued := [("level", fun word => (experience? word).isSome)]
          operands := 1 }
  | "skills" => some { flags := ["check", "json", "quiet"], operands := 0 }
  | _ => none

def ofGiven? (name : String) (given : Given) : Option Command :=
  match name, given.operands with
  | "replay", [file] =>
      some (.replay file (given.values.lookup "session-id") (given.flags.contains "dry-run")
        given.view)
  | "progress", [player] => some (.progress player given.view)
  | "onboard", [player] => do
      let experience ← experience? (← given.values.lookup "level")
      pure (.onboard player experience given.view)
  | "skills", [] => some (.skills (given.flags.contains "check") given.view)
  | _, _ => none

def readHelp : List String → Request
  | [] => .help
  | [name] => if (grammar? name).isSome || name == "help" then .help else .misuse
  | _ => .misuse

def parse (words : List String) : Request :=
  match words with
  | [] => .misuse
  | name :: rest =>
      if Grammar.isHelp name || name == "--version" || name == "-V" then .help
      else if name == "help" then readHelp rest
      else
        match grammar? name with
        | none => .misuse
        | some grammar =>
            match grammar.read rest {} with
            | .error request => request
            | .ok given => (ofGiven? name given).elim .misuse .run

end Command

end PokerCoach
