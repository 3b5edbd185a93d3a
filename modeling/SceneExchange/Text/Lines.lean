/-!
# Lines

A text has a line end at each newline, each carriage return and each pair of both.
-/

namespace SceneExchange.Text

def unifyLines : List Char → List Char
  | [] => []
  | '\r' :: '\n' :: rest => '\n' :: unifyLines rest
  | '\r' :: rest => '\n' :: unifyLines rest
  | c :: rest => c :: unifyLines rest

def linesOf : List Char → List (List Char)
  | [] => []
  | c :: rest =>
    if c == '\n' then [c] :: linesOf rest
    else match linesOf rest with
      | [] => [[c]]
      | line :: lines => (c :: line) :: lines

def fileLines (text : String) : List String := (linesOf (unifyLines text.toList)).map String.ofList

def printedLines (text : String) : List String := text.splitOn "\n"

end SceneExchange.Text
