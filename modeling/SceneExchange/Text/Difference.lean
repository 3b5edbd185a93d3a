/-!
# Differences of two texts by lines

Two lists of lines are compared by the longest run of lines that they share, then by the parts in
front of it and after it, and so on. In a long second list, lines that occur too often do not start
a run. The differences are written with up to three shared lines around them.
-/

namespace SceneExchange.Text.Difference

structure Run where
  left : Nat
  right : Nat
  size : Nat
  deriving Repr, DecidableEq, Inhabited

structure Span where
  leftStart : Nat
  leftEnd : Nat
  rightStart : Nat
  rightEnd : Nat
  deriving Repr, DecidableEq, Inhabited

def places (b : Array String) (line : String) : List Nat :=
  let all := (List.range b.size).filter fun j => b[j]? == some line
  if 200 ≤ b.size && b.size / 100 + 1 < all.length then [] else all

def runsAt (a b : Array String) (s : Span) (i : Nat) (before : List (Nat × Nat)) :
    List (Nat × Nat) :=
  match a[i]? with
  | none => []
  | some line =>
    ((places b line).filter fun j => s.rightStart ≤ j && j < s.rightEnd).map fun j =>
      (j, (if j = 0 then 0 else (before.lookup (j - 1)).getD 0) + 1)

def longestFrom (a b : Array String) (s : Span) :
    (count i : Nat) → List (Nat × Nat) → Run → Run
  | 0, _, _, best => best
  | count + 1, i, before, best =>
    let runs := runsAt a b s i before
    let best := runs.foldl (fun best (j, k) =>
      if best.size < k then ⟨i + 1 - k, j + 1 - k, k⟩ else best) best
    longestFrom a b s count (i + 1) runs best

def growLeft (a b : Array String) (s : Span) : (fuel : Nat) → Run → Run
  | 0, r => r
  | fuel + 1, r =>
    if s.leftStart < r.left && s.rightStart < r.right && a[r.left - 1]? == b[r.right - 1]? then
      growLeft a b s fuel ⟨r.left - 1, r.right - 1, r.size + 1⟩
    else r

def growRight (a b : Array String) (s : Span) : (fuel : Nat) → Run → Run
  | 0, r => r
  | fuel + 1, r =>
    if r.left + r.size < s.leftEnd && r.right + r.size < s.rightEnd &&
        a[r.left + r.size]? == b[r.right + r.size]? then
      growRight a b s fuel ⟨r.left, r.right, r.size + 1⟩
    else r

def longest (a b : Array String) (s : Span) : Run :=
  let start : Run := ⟨s.leftStart, s.rightStart, 0⟩
  let best := longestFrom a b s (s.leftEnd - s.leftStart) s.leftStart [] start
  growRight a b s a.size (growLeft a b s a.size best)

def runs (a b : Array String) : (fuel : Nat) → Span → List Run
  | 0, _ => []
  | fuel + 1, s =>
    let r := longest a b s
    if r.size = 0 then []
    else
      let front := if s.leftStart < r.left && s.rightStart < r.right then
        runs a b fuel ⟨s.leftStart, r.left, s.rightStart, r.right⟩ else []
      let back := if r.left + r.size < s.leftEnd && r.right + r.size < s.rightEnd then
        runs a b fuel ⟨r.left + r.size, s.leftEnd, r.right + r.size, s.rightEnd⟩ else []
      front ++ r :: back

def joinRuns : List Run → List Run
  | r :: rest =>
    match joinRuns rest with
    | t :: more =>
      if r.left + r.size = t.left && r.right + r.size = t.right then
        ⟨r.left, r.right, r.size + t.size⟩ :: more
      else r :: t :: more
    | [] => [r]
  | [] => []

structure Step where
  shared : Bool
  span : Span
  deriving Repr, DecidableEq, Inhabited

def stepsFrom (i j : Nat) (aEnd bEnd : Nat) : List Run → List Step
  | [] => if i < aEnd || j < bEnd then [⟨false, ⟨i, aEnd, j, bEnd⟩⟩] else []
  | r :: rest =>
    (if i < r.left || j < r.right then [⟨false, ⟨i, r.left, j, r.right⟩⟩] else []) ++
      ⟨true, ⟨r.left, r.left + r.size, r.right, r.right + r.size⟩⟩ ::
        stepsFrom (r.left + r.size) (r.right + r.size) aEnd bEnd rest

def steps (a b : Array String) : List Step :=
  stepsFrom 0 0 a.size b.size (joinRuns (runs a b (a.size + 1) ⟨0, a.size, 0, b.size⟩))

def margin : Nat := 3

def lastLines (s : Span) : Span :=
  { s with
    leftStart := max s.leftStart (s.leftEnd - margin)
    rightStart := max s.rightStart (s.rightEnd - margin) }

def firstLines (s : Span) : Span :=
  { s with
    leftEnd := min s.leftEnd (s.leftStart + margin)
    rightEnd := min s.rightEnd (s.rightStart + margin) }

def trimStart : List Step → List Step
  | s :: rest => (if s.shared then { s with span := lastLines s.span } else s) :: rest
  | [] => []

def trimEnd : List Step → List Step
  | [s] => [if s.shared then { s with span := firstLines s.span } else s]
  | s :: rest => s :: trimEnd rest
  | [] => []

/-- Groups of steps that belong together, divided where more shared lines stand than both margins
take. `group` is the group being built, backwards. -/
def groupsFrom (group : List Step) : List Step → List (List Step)
  | [] =>
    match group with
    | [] => []
    | [s] => if s.shared then [] else [[s]]
    | _ => [group.reverse]
  | s :: rest =>
    if s.shared && 2 * margin < s.span.leftEnd - s.span.leftStart then
      ({ s with span := firstLines s.span } :: group).reverse ::
        groupsFrom [{ s with span := lastLines s.span }] rest
    else groupsFrom (s :: group) rest

def groups (a b : Array String) : List (List Step) := groupsFrom [] (trimEnd (trimStart (steps a b)))

def rangeText (start stop : Nat) : String :=
  if stop - start = 1 then toString (start + 1)
  else toString (if stop - start = 0 then start else start + 1) ++ "," ++ toString (stop - start)

def slice (a : Array String) (start stop : Nat) : List String := (a.extract start stop).toList

def stepText (a b : Array String) (s : Step) : List String :=
  let left := slice a s.span.leftStart s.span.leftEnd
  if s.shared then left.map (" " ++ ·)
  else left.map ("-" ++ ·) ++ (slice b s.span.rightStart s.span.rightEnd).map ("+" ++ ·)

def groupText (a b : Array String) (group : List Step) : List String :=
  match group.head?, group.getLast? with
  | some first, some last =>
    ("@@ -" ++ rangeText first.span.leftStart last.span.leftEnd ++ " +" ++
      rangeText first.span.rightStart last.span.rightEnd ++ " @@\n") ::
      group.flatMap (stepText a b)
  | _, _ => []

def unified (leftName rightName : String) (left right : List String) : List String :=
  let a := left.toArray
  let b := right.toArray
  match groups a b with
  | [] => []
  | all =>
    ("--- " ++ leftName ++ "\n") :: ("+++ " ++ rightName ++ "\n") :: all.flatMap (groupText a b)

end SceneExchange.Text.Difference
