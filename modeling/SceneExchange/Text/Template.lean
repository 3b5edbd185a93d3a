import SceneExchange.Fault
import SceneExchange.Number.Fixed

/-!
# Message templates

A template is a text with holes: `%s` takes the display form of a value, `%r` its literal form,
`%d` a whole number, `%f` a number with six places, and `%%` stands for a percent sign. A tuple
fills the holes in turn and has to be used up; any other value fills a single hole.
-/

namespace SceneExchange.Text.Template

structure Supply where
  values : List Datum
  mayRemain : Bool

def Supply.of : Datum → Supply
  | .tuple items => ⟨items, false⟩
  | d@(.dict _) => ⟨[d], true⟩
  | d@(.list _) => ⟨[d], true⟩
  | d => ⟨[d], false⟩

def wholeText : Datum → Except Fault String
  | .int n => .ok (toString n)
  | .flag b => .ok (if b then "1" else "0")
  | .real x =>
    if x.isNaN then .error (.badValue "cannot convert float NaN to integer")
    else if x.isInf then .error (.raised "OverflowError" "cannot convert float infinity to integer")
    else
      match (Number.decode x) with
      | .finite negative m e =>
        let n := Number.wholePart m e
        .ok ((if negative && n != 0 then "-" else "") ++ toString n)
      | _ => .ok "0"
  | d => .error (.wrongKind ("%d format: a real number is required, not " ++ d.kindName))

def sixText : Datum → Except Fault String
  | .real x => .ok (Number.six x)
  | .flag b => .ok (Number.six (if b then 1.0 else 0.0))
  | .int n =>
    match Number.ofInt? n with
    | some x => .ok (Number.six x)
    | none => .error .integerTooLarge
  | d => .error (.wrongKind ("must be real number, not " ++ d.kindName))

def holeText (kind : Char) (position : Nat) (d : Datum) : Except Fault String :=
  if kind == 's' then .ok d.display
  else if kind == 'r' then .ok d.literal
  else if kind == 'd' || kind == 'i' then wholeText d
  else if kind == 'f' then sixText d
  else .error (.badValue ("unsupported format character '" ++ String.singleton kind ++ "' (0x" ++
    String.ofList (Nat.toDigits 16 kind.toNat) ++ ") at index " ++ toString position))

def fillFrom (position : Nat) (supply : Supply) : List Char → Except Fault (List Char)
  | [] =>
    if supply.values.isEmpty || supply.mayRemain then .ok []
    else .error (.wrongKind "not all arguments converted during string formatting")
  | ['%'] => .error (.badValue "incomplete format")
  | '%' :: '%' :: rest => do pure ('%' :: (← fillFrom (position + 2) supply rest))
  | '%' :: kind :: rest =>
    match supply.values with
    | [] => .error (.wrongKind "not enough arguments for format string")
    | d :: more => do
      let text ← holeText kind (position + 1) d
      pure (text.toList ++ (← fillFrom (position + 2) ⟨more, false⟩ rest))
  | c :: rest => do pure (c :: (← fillFrom (position + 1) supply rest))

def fill (template : String) (value : Datum) : Except Fault String := do
  pure (String.ofList (← fillFrom 0 (.of value) template.toList))

end SceneExchange.Text.Template
