import SceneExchange.Markup.Flaw
import SceneExchange.Markup.Letter

/-!
# Tokens of markup

A token is what stands between an opening angle bracket and the closing one that belongs to it.
Reading a token either answers it with the text after it, or fails: because the text ends inside
the token, or because of a character that cannot stand where it does.
-/

namespace SceneExchange.Markup

inductive Lapse where
  | ended
  | invalid (rest : List Char)
  deriving Repr, DecidableEq

def Lapse.trouble (start : List Char) : Lapse → Trouble
  | ended => ⟨.unclosedToken, start⟩
  | invalid rest => ⟨.invalidToken, rest⟩

/-! ## References -/

inductive Reference where
  | number (c : Option Char)
  | entity (name : String)
  deriving Repr, DecidableEq

namespace Reference

def goesOn : List Char → Char → Bool
  | [], c => c == '#' || isNameStart c
  | ['#'], c => c == 'x' || isDecimal c
  | '#' :: 'x' :: _, c => isHexadecimal c
  | '#' :: _, c => isDecimal c
  | _, c => isNameChar c

def isComplete : List Char → Bool
  | [] | ['#'] | ['#', 'x'] => false
  | _ => true

def digitValue (c : Char) : Nat :=
  if isDecimal c then c.toNat - 48 else if 'a' ≤ c then c.toNat - 87 else c.toNat - 55

def value (base : Nat) (digits : List Char) : Nat :=
  digits.foldl (fun n c => n * base + digitValue c) 0

def charOf? (n : Nat) : Option Char :=
  if h : n.isValidChar then
    let c := Char.ofNatAux n h
    if isLegal c then some c else none
  else none

def ofText : List Char → Reference
  | '#' :: 'x' :: digits => number (charOf? (value 16 digits))
  | '#' :: digits => number (charOf? (value 10 digits))
  | name => entity (String.ofList name)

end Reference

def knownEntity? : String → Option Char
  | "lt" => some '<'
  | "gt" => some '>'
  | "amp" => some '&'
  | "quot" => some Text.doubleQuote
  | "apos" => some Text.singleQuote
  | _ => none

def scanReference : (soFar : List Char) → List Char → Except Lapse (Reference × List Char)
  | _, [] => .error .ended
  | soFar, c :: rest =>
    if c == ';' && Reference.isComplete soFar then .ok (.ofText soFar, rest)
    else if Reference.goesOn soFar c then scanReference (soFar ++ [c]) rest
    else .error (.invalid (c :: rest))

/-! ## Names, values and attributes -/

inductive Piece where
  | char (c : Char)
  | reference (r : Reference) (start : List Char)
  deriving Repr, DecidableEq

def consFirst {α β ε : Type} (a : α) : Except ε (List α × β) → Except ε (List α × β)
  | .ok (as, b) => .ok (a :: as, b)
  | .error e => .error e

/-- An attribute value up to its closing quote. Inside a reference, `pending` holds what has been
read of it and the text from its ampersand on. -/
def scanValue (quote : Char) :
    (pending : Option (List Char × List Char)) → List Char → Except Lapse (List Piece × List Char)
  | _, [] => .error .ended
  | none, c :: rest =>
    if c == quote then .ok ([], rest)
    else if c == '&' then scanValue quote (some ([], c :: rest)) rest
    else if c == '<' || !isLegal c then .error (.invalid (c :: rest))
    else consFirst (.char (if isSpace c then ' ' else c)) (scanValue quote none rest)
  | some (soFar, start), c :: rest =>
    if c == ';' && Reference.isComplete soFar then
      consFirst (.reference (.ofText soFar) start) (scanValue quote none rest)
    else if Reference.goesOn soFar c then scanValue quote (some (soFar ++ [c], start)) rest
    else .error (.invalid (c :: rest))

def scanName : (colon : Bool) → List Char → Except Lapse (List Char × List Char)
  | _, [] => .error .ended
  | colon, c :: rest =>
    if isNameChar c then consFirst c (scanName colon rest)
    else if c == ':' then
      if colon then .error (.invalid (c :: rest))
      else match rest with
        | [] => .error .ended
        | d :: more =>
          if isNameStart d then consFirst c (consFirst d (scanName true more))
          else .error (.invalid (d :: more))
    else .ok ([], c :: rest)

structure RawAttribute where
  name : List Char
  value : List Piece
  start : List Char
  deriving Repr, DecidableEq

def scanAssignment (cs : List Char) : Except Lapse (List Piece × List Char) :=
  match cs.dropWhile isSpace with
  | [] => .error .ended
  | '=' :: rest =>
    match rest.dropWhile isSpace with
    | [] => .error .ended
    | q :: more =>
      if q == Text.doubleQuote || q == Text.singleQuote then scanValue q none more
      else .error (.invalid (q :: more))
  | other => .error (.invalid other)

inductive Token where
  | startTag (name : List Char) (attributes : List RawAttribute) (isEmpty : Bool)
  | endTag (name : List Char)
  | comment
  | instruction
  | declaration (body : List Char)
  | sectionStart
  deriving Repr, DecidableEq

def scanAttributes : (fuel : Nat) → List Char → Except Lapse ((List RawAttribute × Bool) × List Char)
  | 0, _ => .error .ended
  | fuel + 1, cs =>
    match cs with
    | [] => .error .ended
    | '>' :: rest => .ok (([], false), rest)
    | '/' :: rest =>
      match rest with
      | [] => .error .ended
      | '>' :: more => .ok (([], true), more)
      | other => .error (.invalid other)
    | c :: rest =>
      if !isSpace c then .error (.invalid (c :: rest))
      else match rest.dropWhile isSpace with
        | [] => .error .ended
        | d :: more =>
          if isNameStart d then do
            let (name, after) ← scanName false more
            let (value, after) ← scanAssignment after
            let ((others, isEmpty), after) ← scanAttributes fuel after
            pure ((⟨d :: name, value, d :: more⟩ :: others, isEmpty), after)
          else scanAttributes fuel (d :: more)

def scanStartTag (first : Char) (cs : List Char) : Except Lapse (Token × List Char) := do
  let (name, rest) ← scanName false cs
  let ((attributes, isEmpty), rest) ← scanAttributes (rest.length + 1) rest
  pure (.startTag (first :: name) attributes isEmpty, rest)

/-! ## Other tokens -/

def scanEndTag : List Char → Except Lapse (Token × List Char)
  | [] => .error .ended
  | c :: rest =>
    if !isNameStart c then .error (.invalid (c :: rest))
    else
      let inName (d : Char) : Bool := isNameChar d || d == ':'
      match (rest.dropWhile inName).dropWhile isSpace with
      | [] => .error .ended
      | '>' :: more => .ok (.endTag (c :: rest.takeWhile inName), more)
      | other => .error (.invalid other)

def scanComment : List Char → Except Lapse (Token × List Char)
  | [] | ['-'] | ['-', '-'] => .error .ended
  | '-' :: '-' :: '>' :: rest => .ok (.comment, rest)
  | '-' :: '-' :: rest => .error (.invalid rest)
  | c :: rest => if isLegal c then scanComment rest else .error (.invalid (c :: rest))

def scanInstructionBody : List Char → Except Lapse (List Char × List Char)
  | [] | ['?'] => .error .ended
  | '?' :: '>' :: rest => .ok ([], rest)
  | c :: rest =>
    if isLegal c then consFirst c (scanInstructionBody rest) else .error (.invalid (c :: rest))

def lowerCase (c : Char) : Char := if 'A' ≤ c && c ≤ 'Z' then Char.ofNat (c.toNat + 32) else c

/-- An instruction after its question mark. The name of the declaration of a document is kept for
it, whatever the case of its letters. -/
def scanInstruction : List Char → Except Lapse (Token × List Char)
  | [] => .error .ended
  | c :: rest =>
    if !isNameStart c then .error (.invalid (c :: rest))
    else
      let name := c :: rest.takeWhile isNameChar
      let after := rest.dropWhile isNameChar
      let reserved := name.map lowerCase == ['x', 'm', 'l']
      match after with
      | [] => .error .ended
      | d :: more =>
        if (!isSpace d && d ≠ '?') || (reserved && name ≠ ['x', 'm', 'l']) then
          .error (.invalid (d :: more))
        else if d == '?' then
          match more with
          | [] => .error .ended
          | '>' :: end_ => .ok (if reserved then .declaration [] else .instruction, end_)
          | other => .error (.invalid other)
        else do
          let (body, end_) ← scanInstructionBody (d :: more)
          pure (if reserved then .declaration body else .instruction, end_)

def scanSectionStart : (word : List Char) → List Char → Except Lapse (Token × List Char)
  | [], rest => .ok (.sectionStart, rest)
  | _, [] => .error .ended
  | w :: word, c :: rest =>
    if w == c then scanSectionStart word rest else .error (.invalid (c :: rest))

def scanToken : List Char → Except Lapse (Token × List Char)
  | [] => .error .ended
  | '/' :: rest => scanEndTag rest
  | '?' :: rest => scanInstruction rest
  | ['!'] => .error .ended
  | '!' :: '-' :: rest =>
    match rest with
    | [] => .error .ended
    | '-' :: more => scanComment more
    | other => .error (.invalid other)
  | '!' :: '[' :: rest => scanSectionStart ['C', 'D', 'A', 'T', 'A', '['] rest
  | '!' :: rest => .error (.invalid rest)
  | c :: rest => if isNameStart c then scanStartTag c rest else .error (.invalid (c :: rest))

def takeText : List Char → List Char × List Char
  | [] => ([], [])
  | ']' :: ']' :: '>' :: rest => ([], ']' :: ']' :: '>' :: rest)
  | c :: rest =>
    if c == '<' || c == '&' || !isLegal c then ([], c :: rest)
    else
      let (text, after) := takeText rest
      (c :: text, after)

def takeSection : List Char → Except Trouble (List Char × List Char)
  | [] => .error ⟨.unclosedSection, []⟩
  | [']'] => .error ⟨.unclosedSection, [']']⟩
  | [']', ']'] => .error ⟨.unclosedSection, [']', ']']⟩
  | ']' :: ']' :: '>' :: rest => .ok ([], rest)
  | c :: rest =>
    if isLegal c then consFirst c (takeSection rest) else .error ⟨.invalidToken, c :: rest⟩

end SceneExchange.Markup
