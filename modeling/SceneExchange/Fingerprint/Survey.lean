import SceneExchange.Bytes.Digest
import SceneExchange.Fault
import SceneExchange.Fingerprint.Value
import SceneExchange.Table

/-!
# Surveys of what functions return

A function is called twice without parameters, and once with each of its sets of parameters. The
survey has a row for each function whose name starts with `bench_`. Functions that cannot be imported
are reported by their error.
-/

namespace SceneExchange.Fingerprint

abbrev Parameters := List (String × Datum × Value)

structure Subject where
  name : String
  raises : Option String
  returns : Value
  calls : List (Parameters × Value)

structure Row where
  type : String
  stable : List String := []
  byParameters : Table String String := .empty
  parameters : List String := []
  timed : List String := []
  deriving Inhabited

variable (o : Value.Omissions)

def of (v : Value) : String := v.fingerprint Bytes.Digest.sha256 o

def tag (p : Parameters) : String :=
  if p.isEmpty then "-"
  else ",".intercalate ((p.mergeSort fun a b => a.1 ≤ b.1).map fun (k, d, _) =>
    k ++ "=" ++ d.display)

def sameParameters (p q : Parameters) : Bool :=
  p.length == q.length && p.all fun (k, _, v) => q.any fun (l, _, w) => k == l && v.same w

def Subject.result (s : Subject) (p : Parameters) : Value :=
  if p.isEmpty then s.returns
  else match s.calls.find? fun c => sameParameters p c.1 with
    | some (_, v) => v
    | none => s.returns

def Subject.row (s : Subject) : Row :=
  match s.raises with
  | some name => { type := "<" ++ name ++ ">" }
  | none =>
    let results := s.calls.map fun (p, _) => (tag p, of o (s.result p))
    let byParameters := Table.ofList results
    { type := s.returns.typeName
      stable := [of o s.returns, of o s.returns]
      byParameters := byParameters
      parameters := s.calls.flatMap fun (p, _) => p.map fun (_, _, v) => of o v
      timed := ("<default>" :: byParameters.keys).mergeSort (· ≤ ·) }

def survey (subjects : List Subject) : List (String × Row) :=
  (subjects.filter (·.name.startsWith "bench_")).map fun s => (s.name, s.row o)

structure Report where
  importError : Option String := none
  rows : List (String × Row) := []
  ends : Except Fault Unit := .ok ()

def report : Except (String × String) (List Subject) → Report
  | .ok subjects => { rows := survey o subjects }
  | .error (kind, message) => { importError := some (kind ++ ": " ++ message), ends := .error (.exited "0") }

end SceneExchange.Fingerprint
