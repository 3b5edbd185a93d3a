import SceneExchange.Files
import SceneExchange.Json.Reader
import SceneExchange.Text.Lines

/-!
# Finding an installed application

A file lists the applications that are installed; the answer is the location of the first one of the
given name.
-/

namespace SceneExchange.Batch

mutual

def datumOfJson : Json → Datum
  | .null => .null
  | .bool b => .flag b
  | .int n => .int n
  | .real x => .real x
  | .str s => .text s
  | .arr items => .list (dataOfJson items)
  | .obj members => .dict ((Table.ofList (entriesOfJson members)).entries.map fun (k, d) =>
      (.text k, d))

def dataOfJson : List Json → List Datum
  | [] => []
  | j :: rest => datumOfJson j :: dataOfJson rest

def entriesOfJson : List (String × Json) → List (String × Datum)
  | [] => []
  | (k, j) :: rest => (k, datumOfJson j) :: entriesOfJson rest

end

def requiredMember (key : String) (j : Json) : Except Fault Json :=
  match j.member? key with
  | some v => .ok v
  | none => .error (.missingKey (.text key))

def locationIn (name : String) : List Json → Except Fault (Option String)
  | [] => .ok none
  | .obj members :: rest =>
    match Json.member? "AppName" (.obj members) with
    | some (.str s) =>
      if s == name then do
        pure (some (datumOfJson (← requiredMember "InstallLocation" (.obj members))).display)
      else locationIn name rest
    | _ => locationIn name rest
  | j :: _ => .error (.noProperty (datumOfJson j).kindName "get")

def applications : Json → Except Fault (List Json)
  | .obj members => do
    match ← requiredMember "InstallationList" (.obj members) with
    | .arr items => pure items
    | .obj members => pure (members.map fun (k, _) => .str k)
    | .str s => pure (s.toList.map fun c => .str (String.singleton c))
    | j => throw (.wrongKind (Text.quoted (datumOfJson j).kindName ++ " object is not iterable"))
  | .arr _ => .error (.wrongKind "list indices must be integers or slices, not str")
  | .str _ => .error (.wrongKind "string indices must be integers, not 'str'")
  | j => .error (.wrongKind (Text.quoted (datumOfJson j).kindName ++ " object is not subscriptable"))

def findLocation (list name : String) : Except Fault (Option String) := do
  match Json.parse? (String.ofList (Text.unifyLines list.toList)) with
  | some j => locationIn name (← applications j)
  | none => throw (.malformedJson "not a JSON text")

/-! ## The command line -/

inductive Command where
  | help
  | wrong
  | find (file name : String)
  deriving Repr, DecidableEq

def isHelp (word : String) : Bool :=
  word == "-h" || ["--h", "--he", "--hel", "--help"].contains word

def isHelpWithMore (word : String) : Bool :=
  ["--h=", "--he=", "--hel=", "--help="].any (word.startsWith ·) ||
    (word.startsWith "-h" && word ≠ "-h")

def isNegativeNumber (word : String) : Bool :=
  match word.toList with
  | '-' :: cs =>
    let whole := cs.takeWhile Char.isDigit
    match cs.dropWhile Char.isDigit with
    | [] => !whole.isEmpty
    | '.' :: rest => !rest.isEmpty && rest.all Char.isDigit
    | _ => false
  | _ => false

def isOption (word : String) : Bool :=
  word.startsWith "-" && word ≠ "-" && !isNegativeNumber word && !word.contains ' '

/-- Reads a command line of exactly two words that are no options. After the first `--` no word is
taken for an option. -/
def readCommand : (plain : List String) → (stray : Bool) → List String → Command
  | [file, name], false, [] => .find file name
  | _, _, [] => .wrong
  | plain, stray, word :: rest =>
    if word == "--" then
      match plain ++ rest, stray with
      | [file, name], false => .find file name
      | _, _ => .wrong
    else if isHelp word then .help
    else if isHelpWithMore word then .wrong
    else if isOption word then readCommand plain true rest
    else readCommand (plain ++ [word]) stray rest

def Command.ofWords (words : List String) : Command := readCommand [] false words

def helpLines (name : String) : List String :=
  ["usage: " ++ name ++ " [-h] file_path app_id", "", "Find an object in a JSON file by AppID", "",
    "positional arguments:", "  file_path   Path to the JSON file",
    "  app_id      ID of the object to find", "", "options:",
    "  -h, --help  show this help message and exit"]

def runCommand (program : String) (words : List String) (files : Files) :
    List String × Except Fault Unit :=
  match Command.ofWords words with
  | .help => (helpLines program, .error (.exited "0"))
  | .wrong => ([], .error (.exited "2"))
  | .find file name =>
    let answer : Except Fault (Option String) := do
      let bytes ← files.read file
      match String.fromUTF8? ⟨bytes.toArray⟩ with
      | some list => findLocation list name
      | none => throw (.undecodable "invalid utf-8")
    match answer with
    | .ok (some location) => (Text.printedLines location, .ok ())
    | .ok none => ([], .ok ())
    | .error f => ([], .error f)

end SceneExchange.Batch
