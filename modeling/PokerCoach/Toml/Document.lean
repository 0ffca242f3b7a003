import PokerCoach.Data.Value

/-!
# TOML documents

The tables of a document while it is being read. A table may be opened once by a header, tables on
the way to it are only implied; a dotted key opens tables too, or takes over implied ones, and no
header may open those again.
-/

namespace PokerCoach.Toml

open Data

/-- How a table came to be. -/
inductive Origin where
  | header
  | implied
  | dotted
  deriving DecidableEq, Repr

/-- What a key holds. The tables of an array come the latest first. -/
inductive Node where
  | leaf (v : Value)
  | table (origin : Origin) (entries : List (String × Node))
  | tables (items : List (List (String × Node)))

abbrev Entries := List (String × Node)

/-- Sets what a key holds, in its place or, if it is new, at the end. -/
def Entries.set (key : String) (node : Node) : Entries → Entries
  | [] => [(key, node)]
  | (name, old) :: rest =>
      if name = key then (key, node) :: rest else (name, old) :: Entries.set key node rest

def refuse {α : Type} (key : String) : Except Fault α :=
  .error (.repeated key)

/-- Changes the table that a header path leads to, the latest one where it passes an array; tables
that are not there yet are implied. -/
def Entries.at (change : Entries → Except Fault Entries) :
    List String → Entries → Except Fault Entries
  | [], entries => change entries
  | key :: path, entries =>
      match entries.lookup key with
      | none => do
          let inner ← Entries.at change path []
          pure (entries ++ [(key, .table .implied inner)])
      | some (.table origin inner) => do
          let inner ← Entries.at change path inner
          pure (Entries.set key (.table origin inner) entries)
      | some (.tables (latest :: older)) => do
          let latest ← Entries.at change path latest
          pure (Entries.set key (.tables (latest :: older)) entries)
      | some _ => refuse key

/-- Opens a table by its header. -/
def Entries.openTable (key : String) (entries : Entries) : Except Fault Entries :=
  match entries.lookup key with
  | none => .ok (entries ++ [(key, .table .header [])])
  | some (.table .implied inner) => .ok (Entries.set key (.table .header inner) entries)
  | some _ => refuse key

/-- Appends a table to an array of tables. -/
def Entries.appendTable (key : String) (entries : Entries) : Except Fault Entries :=
  match entries.lookup key with
  | none => .ok (entries ++ [(key, .tables [[]])])
  | some (.tables items) => .ok (Entries.set key (.tables ([] :: items)) entries)
  | some _ => refuse key

def Entries.insertNew (key : String) (v : Value) (entries : Entries) : Except Fault Entries :=
  match entries.lookup key with
  | none => .ok (entries ++ [(key, .leaf v)])
  | some _ => refuse key

/-- Sets a dotted key. It opens tables of its own, and those on its way that a header only implied
are from then on its own too. It leads into no table that a header opened, but through the latest
one of an array that it does not end at. -/
def Entries.assign (v : Value) : List String → String → Entries → Except Fault Entries
  | [], key, entries => Entries.insertNew key v entries
  | step :: path, key, entries =>
      match entries.lookup step with
      | none => do
          let inner ← Entries.assign v path key []
          pure (entries ++ [(step, .table .dotted inner)])
      | some (.table origin inner) =>
          if origin = .header then refuse step
          else do
            let inner ← Entries.assign v path key inner
            pure (Entries.set step (.table .dotted inner) entries)
      | some (.tables (latest :: older)) =>
          if path.isEmpty then refuse step
          else do
            let latest ← Entries.assign v path key latest
            pure (Entries.set step (.tables (latest :: older)) entries)
      | some _ => refuse step

mutual

def Node.value : Node → Value
  | .leaf v => v
  | .table _ entries => .record (fieldValues entries)
  | .tables items => .list (tableValues items).reverse

def fieldValues : List (String × Node) → List (FieldName × Value)
  | [] => []
  | (key, node) :: rest => (⟨key, true⟩, node.value) :: fieldValues rest

def tableValues : List (List (String × Node)) → List Value
  | [] => []
  | entries :: rest => .record (fieldValues entries) :: tableValues rest

end

end PokerCoach.Toml
