import SceneExchange.Datum

/-!
# Faults

A fault names the cause for which a conversion stops; `message` is its text and `kind` the family
it belongs to.
-/

namespace SceneExchange

inductive FaultKind where
  | key | index | value | assertion | kind | property | overflow | fileMissing | fileExists | isFolder
  | notFolder | markup | json | exit | packing | iteration | unicode | other (name : String)
  deriving Repr, DecidableEq

inductive Fault where
  | missingKey (key : Datum)
  | unknownMember (name : String)
  | memberOutOfRange (index : Int) (size : Nat)
  | sequenceOutOfRange (sequence : String)
  | axisOutOfBounds (index size : Int)
  | notAmongChoices
  | substringMissing
  | violated (message : String)
  | wrongKind (message : String)
  | missingProperty (message : String)
  | malformedReal (text : String)
  | malformedInteger (text : String)
  | integerTooLarge
  | tooFewValues (expected got : Nat)
  | tooManyValues (expected : Nat)
  | singularMatrix
  | noSuchFile (path : String)
  | noSuchFiles (source target : String)
  | fileExists (path : String)
  | isFolder (path : String)
  | notFolder (path : String)
  | malformedMarkup (message : String)
  | malformedJson (message : String)
  | exited (code : String)
  | packing (message : String)
  | endOfEvents
  | undecodable (message : String)
  | badValue (message : String)
  | tooDeep
  | raised (name message : String)

namespace Fault

def kind : Fault → FaultKind
  | missingKey _ | unknownMember _ => .key
  | memberOutOfRange _ _ | sequenceOutOfRange _ | axisOutOfBounds _ _ => .index
  | notAmongChoices | substringMissing | malformedReal _ | malformedInteger _ | tooFewValues _ _
  | tooManyValues _ | singularMatrix | badValue _ => .value
  | violated _ => .assertion
  | wrongKind _ => .kind
  | missingProperty _ => .property
  | integerTooLarge => .overflow
  | noSuchFile _ | noSuchFiles _ _ => .fileMissing
  | fileExists _ => .fileExists
  | isFolder _ => .isFolder
  | notFolder _ => .notFolder
  | malformedMarkup _ => .markup
  | malformedJson _ => .json
  | exited _ => .exit
  | packing _ => .packing
  | endOfEvents => .iteration
  | undecodable _ => .unicode
  | tooDeep => .other "RecursionError"
  | raised name _ => .other name

def message : Fault → String
  | missingKey key => key.literal
  | unknownMember name =>
    Text.quoted ("bpy_prop_collection[key]: key \"" ++ name ++ "\" not found")
  | memberOutOfRange index size =>
    "bpy_prop_collection[index]: index " ++ toString index ++ " out of range, size " ++ toString size
  | sequenceOutOfRange sequence => sequence ++ " index out of range"
  | axisOutOfBounds index size =>
    "index " ++ toString index ++ " is out of bounds for axis 0 with size " ++ toString size
  | notAmongChoices => "tuple.index(x): x not in tuple"
  | substringMissing => "substring not found"
  | violated message => message
  | wrongKind message => message
  | missingProperty message => message
  | malformedReal text => "could not convert string to float: " ++ Text.quoted text
  | malformedInteger text => "invalid literal for int() with base 10: " ++ Text.quoted text
  | integerTooLarge => "int too large to convert to float"
  | tooFewValues expected got =>
    "not enough values to unpack (expected " ++ toString expected ++ ", got " ++ toString got ++ ")"
  | tooManyValues expected => "too many values to unpack (expected " ++ toString expected ++ ")"
  | singularMatrix => "Matrix.invert(ed): matrix does not have an inverse"
  | noSuchFile path => "[Errno 2] No such file or directory: " ++ Text.quoted path
  | noSuchFiles source target =>
    "[Errno 2] No such file or directory: " ++ Text.quoted source ++ " -> " ++ Text.quoted target
  | fileExists path => "[Errno 17] File exists: " ++ Text.quoted path
  | isFolder path => "[Errno 21] Is a directory: " ++ Text.quoted path
  | notFolder path => "[Errno 20] Not a directory: " ++ Text.quoted path
  | malformedMarkup message => message
  | malformedJson message => message
  | exited code => code
  | packing message => message
  | endOfEvents => ""
  | undecodable message => message
  | badValue message => message
  | tooDeep => "maximum recursion depth exceeded"
  | raised _ message => message

def propertyOfNothing (name : String) : Fault :=
  missingProperty ("'NoneType' object has no attribute " ++ Text.quoted name)

def noProperty (owner name : String) : Fault :=
  missingProperty (Text.quoted owner ++ " object has no attribute " ++ Text.quoted name)

end Fault

theorem bind_eq_ok {ε α β : Type} {x : Except ε α} {k : α → Except ε β} {b : β} :
    (x >>= k) = .ok b ↔ ∃ a, x = .ok a ∧ k a = .ok b := by
  constructor
  · intro h
    cases x with
    | ok a => exact ⟨a, rfl, h⟩
    | error e => cases h
  · rintro ⟨a, rfl, h⟩
    exact h

theorem eq_ok_of_toOption {ε α : Type} {x : Except ε α} {a : α} (h : x.toOption = some a) : x = .ok a := by
  cases x with
  | ok b => exact congrArg Except.ok (Option.some.inj h)
  | error e => cases h

theorem exists_of_toOption_map {ε α β : Type} {x : Except ε α} {g : α → β} {b : β}
    (h : x.toOption.map g = some b) : ∃ a, x = .ok a ∧ g a = b := by
  cases x with
  | error e => cases h
  | ok a => exact ⟨a, rfl, Option.some.inj h⟩

section Runs

variable {σ α β : Type} {m : ExceptT Fault (StateM σ) α} {k : α → ExceptT Fault (StateM σ) β} {s t : σ}

theorem run_bind_of_ok {a : α} (h : m.run s = (.ok a, t)) : (m >>= k).run s = (k a).run t := by
  change StateT.bind m.run (ExceptT.bindCont k) s = _
  rw [StateT.bind, h]
  rfl

theorem run_bind_of_error {e : Fault} (h : m.run s = (.error e, t)) : (m >>= k).run s = (.error e, t) := by
  change StateT.bind m.run (ExceptT.bindCont k) s = _
  rw [StateT.bind, h]
  rfl

theorem run_bind_iff {b : β} :
    (m >>= k).run s = (.ok b, t) ↔ ∃ a u, m.run s = (.ok a, u) ∧ (k a).run u = (.ok b, t) := by
  constructor
  · intro h
    obtain ⟨r, u, hRun⟩ : ∃ r u, m.run s = (r, u) := ⟨_, _, rfl⟩
    cases r with
    | ok a => exact ⟨a, u, hRun, (run_bind_of_ok hRun).symm.trans h⟩
    | error e => cases (run_bind_of_error hRun).symm.trans h
  · rintro ⟨a, u, hRun, h⟩
    exact (run_bind_of_ok hRun).trans h

end Runs

end SceneExchange
