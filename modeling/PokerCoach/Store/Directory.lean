import PokerCoach.Text.Basic
import PokerCoach.Store.Basic
import PokerCoach.Progress.Codec
import PokerCoach.Json.Reader
import PokerCoach.Json.Printer
import PokerCoach.Files.Tree

/-!
# Records in files

A directory with one JSON file for each player. A record is written to a temporary file, which then
takes the place of the old one. It cannot be written if that file has a longer name than the
directory admits.
-/

namespace PokerCoach

/-! ### File names of players

A player's name becomes a file name by writing every byte but the harmless ones in hexadecimal, so
that different players have different files and no name leads out of the directory. -/

namespace FileName

/-- ASCII letters, digits, hyphens and underscores stay as they are. -/
def isPlain (byte : UInt8) : Bool :=
  (48 ≤ byte && byte ≤ 57) || (65 ≤ byte && byte ≤ 90) || (97 ≤ byte && byte ≤ 122)
    || byte = 45 || byte = 95

def encodeByte (byte : UInt8) : List Char :=
  if isPlain byte then [Char.ofNat byte.toNat]
  else
    ['%', Text.hexDigitUpper (byte.toNat / 16), Text.hexDigitUpper (byte.toNat % 16)]

/-- The name of a player as part of a file name; the empty name is a lone percent sign. -/
def stem (player : String) : List Char :=
  match player.toUTF8.toList.flatMap encodeByte with
  | [] => ['%']
  | cs => cs

def record (player : String) : String :=
  String.ofList (stem player ++ ['.', 'j', 's', 'o', 'n'])

/-- The file that a record is written to before it takes its place. -/
def temporary (player : String) : String :=
  String.ofList ('.' :: stem player ++ ['.', 'j', 's', 'o', 'n', '.', 't', 'm', 'p'])

/-- Names that a listing of records looks at. -/
def isRecord (name : String) : Bool :=
  let cs := name.toList
  cs.head? != some '.' && ['.', 'j', 's', 'o', 'n'].isSuffixOf cs

end FileName

/-! ### The directory -/

open Std Data

structure DirectoryStore where
  path : String
  /-- Texts by file name. -/
  files : ExtTreeMap String String := ∅
  /-- The number of bytes that a file name may have, if there is a limit. -/
  nameLimit : Option Nat := some maxNameSize

namespace DirectoryStore

def parse (text : String) : Except Error PlayerRecord :=
  match Json.decode text.toList with
  | .ok record => .ok record
  | .error fault => .error (.serialization fault.message)

def print (record : PlayerRecord) : String :=
  Json.printPage (toData record)

def find? (store : DirectoryStore) (player : String) : Except Error (Option PlayerRecord) :=
  match store.files[FileName.record player]? with
  | some text => (parse text).map some
  | none => .ok none

def insert (store : DirectoryStore) (record : PlayerRecord) : DirectoryStore :=
  { store with
    files := (store.files.erase (FileName.temporary record.player)).insert
      (FileName.record record.player) (print record) }

/-- Whether the directory admits a file name. -/
def admits (store : DirectoryStore) (name : String) : Bool :=
  store.nameLimit.all (name.utf8ByteSize ≤ ·)

/-- Inserts a record if its temporary file can be written. -/
def put (store : DirectoryStore) (record : PlayerRecord) : Except Error Unit × DirectoryStore :=
  let temporary := FileName.temporary record.player
  if store.admits temporary then (.ok (), store.insert record)
  else (.error (.storage (joinPath store.path temporary) nameTooLong), store)

def erase (store : DirectoryStore) (player : String) : DirectoryStore :=
  { store with
    files := (store.files.erase (FileName.record player)).erase (FileName.temporary player) }

def records (store : DirectoryStore) : List PlayerRecord :=
  store.files.toList.filterMap fun (name, text) =>
    if FileName.isRecord name then (parse text).toOption else none

instance : RecordStore DirectoryStore where
  get store player := (store.find? player, store)
  put := put
  list store limit := (.ok (latestRecords limit store.records), store)
  delete store player := (.ok (), store.erase player)

end DirectoryStore

end PokerCoach
