import PokerCoach.Basic
import PokerCoach.Journal.Event
import PokerCoach.Json.Reader
import PokerCoach.Json.Printer
import PokerCoach.Text.Basic

/-!
# Journals

A file to which events are appended, one line for each. It may hold text from before, which has to
be events too when the journal is read.
-/

namespace PokerCoach

open Data

structure Journal where
  path : String
  /-- What the file held at first; none if there was no file. -/
  before : Option String := none
  entries : List Event := []
  /-- Whether a directory is in the place of the file. -/
  blocked : Bool := false

namespace Journal

def line (event : Event) : String :=
  Json.printLine (toData event) ++ "\n"

/-- The text of the file; none if there is no file. -/
def text? (journal : Journal) : Option String :=
  match journal.before, journal.entries with
  | none, [] => none
  | before, entries => some (before.getD "" ++ String.join (entries.map line))

def blockedError (journal : Journal) : Error :=
  .storage journal.path "Is a directory"

def append (journal : Journal) (event : Event) : Except Error Journal :=
  if journal.blocked then .error journal.blockedError
  else .ok { journal with entries := journal.entries ++ [event] }

def overwrite (journal : Journal) (text : String) : Journal :=
  { journal with before := some text, entries := [] }

def parseLine (number : Nat) (line : List Char) : Except Error Event :=
  match Json.decode line with
  | .ok event => .ok event
  | .error fault =>
      .error (.serialization
        s!"Failed to parse progress event on line {number}: {fault.message}")

/-- The events of a text, one on each line that is not blank. -/
def parse (text : String) : Except Error (List Event) :=
  (Text.numberedLines text.toList).mapM fun (number, line) => parseLine number line

def events (journal : Journal) : Except Error (List Event) :=
  if journal.blocked then .error journal.blockedError
  else journal.text?.elim (.ok []) parse

def eventsOf (journal : Journal) (player : String) : Except Error (List Event) :=
  journal.events.map fun events => events.filter fun event => event.happening.player == player

end Journal

end PokerCoach
