import SceneExchange.Markup.Token

/-!
# What stands in front of the root element

Blanks, comments, instructions, the declaration at the very start and one document type. The
contents of a document type are passed over.
-/

namespace SceneExchange.Markup

/-! ## The declaration -/

structure Setting where
  name : List Char
  nameStart : List Char
  value : List Char
  valueStart : List Char

def isSettingChar (c : Char) : Bool :=
  ('a' ≤ c && c ≤ 'z') || ('A' ≤ c && c ≤ 'Z') || isDecimal c || c == '.' || c == '-' || c == '_'

def nextSetting (cs : List Char) : Except (List Char) (Option (Setting × List Char)) :=
  match cs with
  | [] => .ok none
  | c :: _ =>
    if !isSpace c then .error cs
    else
      let start := cs.dropWhile isSpace
      if start.isEmpty then .ok none
      else
        let isWord (c : Char) : Bool := ('a' ≤ c && c ≤ 'z') || ('A' ≤ c && c ≤ 'Z')
        match (start.dropWhile isWord).dropWhile isSpace with
        | '=' :: rest =>
          match rest.dropWhile isSpace with
          | q :: value =>
            if q == Text.doubleQuote || q == Text.singleQuote then
              match value.dropWhile isSettingChar with
              | e :: after =>
                if e == q then
                  .ok (some (⟨start.takeWhile isWord, start, value.takeWhile isSettingChar, value⟩,
                    after))
                else .error (e :: after)
              | [] => .error []
            else .error (q :: value)
          | [] => .error []
        | other => .error other

def standaloneFlaw (s : Setting) (rest : List Char) : Option (List Char) :=
  if s.name ≠ "standalone".toList then some s.nameStart
  else if s.value ≠ "yes".toList && s.value ≠ "no".toList then some s.valueStart
  else
    let after := rest.dropWhile isSpace
    if after.isEmpty then none else some after

/-- Where a declaration breaks its rules: a version comes first, then perhaps an encoding, then
perhaps whether the document stands alone. -/
def declarationFlaw (body : List Char) : Option (List Char) :=
  match nextSetting body with
  | .error rest => some rest
  | .ok none => some []
  | .ok (some (version, rest)) =>
    if version.name ≠ "version".toList then some version.nameStart
    else match nextSetting rest with
      | .error rest => some rest
      | .ok none => none
      | .ok (some (s, rest)) =>
        if s.name ≠ "encoding".toList then standaloneFlaw s rest
        else if !(s.value.head?.any fun c => c.isAlpha) then some s.valueStart
        else match nextSetting rest with
          | .error rest => some rest
          | .ok none => none
          | .ok (some (s, rest)) => standaloneFlaw s rest

/-! ## The document type -/

/-- Where passing over a document type stands: inside a quoted text, a comment, its list of
declarations, or one of those. The latest characters are kept, the last one first. -/
structure Passing where
  quote : Option Char := none
  comment : Bool := false
  listed : Bool := false
  declared : Bool := false
  latest : List Char := []

namespace Passing

def step (p : Passing) (c : Char) : Passing :=
  let latest := (c :: p.latest).take 4
  if p.quote.isSome then
    { p with quote := if p.quote == some c then none else p.quote, latest := latest }
  else if p.comment then
    { p with comment := latest.take 3 ≠ ['>', '-', '-'], latest := latest }
  else if latest == ['-', '-', '!', '<'] then
    { p with comment := true, declared := false, latest := [] }
  else
    { quote := if c == Text.doubleQuote || c == Text.singleQuote then some c else none
      listed := if c == '[' then true else if c == ']' then false else p.listed
      declared := if c == '<' then true else if c == '>' then false else p.declared
      latest := latest }

def ends (p : Passing) (c : Char) : Bool :=
  c == '>' && p.quote.isNone && !p.comment && !p.declared && !p.listed

end Passing

def passType : Passing → List Char → Option (List Char)
  | _, [] => none
  | p, c :: rest => if p.ends c then some rest else passType (p.step c) rest

/-! ## The whole -/

def strayTrouble (cs : List Char) : Trouble :=
  match cs with
  | [] => ⟨.noElement, []⟩
  | c :: rest =>
    if isNameChar c || c == ':' then
      match rest.dropWhile fun d => isNameChar d || d == ':' with
      | [] => ⟨.unexpectedToken, cs⟩
      | d :: more =>
        if isSpace d || ['>', ')', ',', '|', '[', '%', '+', '*', '?'].contains d then
          ⟨.unexpectedToken, cs⟩
        else ⟨.invalidToken, d :: more⟩
    else if c == Text.doubleQuote || c == Text.singleQuote then
      if rest.contains c then ⟨.unexpectedToken, cs⟩ else ⟨.unclosedToken, cs⟩
    else if ['>', ')', '(', ',', '|', '[', ']'].contains c then ⟨.unexpectedToken, cs⟩
    else ⟨.invalidToken, cs⟩

/-- The text from the start tag of the root element on. `first` tells whether nothing has been
passed over yet, `typed` whether the document type has. -/
def skipProlog : (fuel : Nat) → (first typed : Bool) → List Char → Except Trouble (List Char)
  | 0, _, _, cs => .error ⟨.noElement, cs⟩
  | fuel + 1, first, typed, cs =>
    match cs with
    | '<' :: rest =>
      match rest with
      | '!' :: d :: more =>
        if d == '[' then .error ⟨.unexpectedToken, cs⟩
        else if isNameStart d then
          let word := (d :: more).takeWhile isNameStart
          match (d :: more).dropWhile isNameStart with
          | [] => .error ⟨.unclosedToken, cs⟩
          | e :: after =>
            if !isSpace e then .error ⟨.invalidToken, e :: after⟩
            else if typed || word ≠ "DOCTYPE".toList then .error ⟨.unexpectedToken, cs⟩
            else match passType {} after with
              | some after => skipProlog fuel false true after
              | none => .error ⟨.noElement, []⟩
        else match scanToken rest with
          | .ok (_, after) => skipProlog fuel false typed after
          | .error lapse => .error (lapse.trouble cs)
      | '?' :: _ =>
        match scanToken rest with
        | .error lapse => .error (lapse.trouble cs)
        | .ok (.declaration body, after) =>
          if !first then .error ⟨.misplacedDeclaration, cs⟩
          else match declarationFlaw body with
            | none => skipProlog fuel false typed after
            | some bad => .error ⟨.malformedDeclaration, bad ++ ['?', '>'] ++ after⟩
        | .ok (_, after) => skipProlog fuel false typed after
      | [] => .error ⟨.unclosedToken, cs⟩
      | c :: more =>
        if isNameStart c then .ok cs
        else if c == '!' then .error ⟨.unclosedToken, cs⟩
        else .error ⟨.invalidToken, c :: more⟩
    | c :: rest =>
      if isSpace c || (first && c.toNat == 0xFEFF) then
        skipProlog fuel (c.toNat == 0xFEFF) typed rest
      else .error (strayTrouble cs)
    | [] => .error (strayTrouble [])

end SceneExchange.Markup
