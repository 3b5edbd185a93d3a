import SceneExchange.Markup.Prolog
import SceneExchange.Markup.Scope
import SceneExchange.Text.Lines

/-!
# Documents as events

Reading a document gives the start and the end of each element and the text between them, in the
order of the document, up to the end of the root element. If the text is no document, the events
up to the flaw come with the trouble.
-/

namespace SceneExchange.Markup

structure Tag where
  place : Nat
  name : String
  attributes : List (String × String)
  deriving Repr, DecidableEq, Inhabited

namespace Tag

def attribute? (t : Tag) (key : String) : Option String := t.attributes.lookup key

end Tag

inductive Event where
  | start (tag : Tag)
  | text (s : String)
  | finish (tag : Tag)
  deriving Repr, DecidableEq, Inhabited

structure Frame where
  tag : Tag
  written : List Char
  scope : Scope

abbrev Reading := List Event × Option Trouble

def stopWith (t : Trouble) : Reading := ([], some t)

def after (events : List Event) (r : Reading) : Reading := (events ++ r.1, r.2)

def readContent : (fuel : Nat) → List Frame → (next : Nat) → List Char → Reading
  | 0, _, _, cs => stopWith ⟨.noElement, cs⟩
  | fuel + 1, frames, next, cs =>
    match cs with
    | [] => stopWith ⟨.noElement, []⟩
    | '<' :: rest =>
      match scanToken rest with
      | .error lapse => stopWith (lapse.trouble cs)
      | .ok (.startTag written raw isEmpty, more) =>
        let scope := (frames.head?.map (·.scope)).getD .empty
        match openTag scope cs written raw with
        | .error t => stopWith t
        | .ok (name, attributes, scope) =>
          let tag : Tag := ⟨next, name, attributes⟩
          if isEmpty then
            after [.start tag, .finish tag]
              (if frames.isEmpty then ([], none) else readContent fuel frames (next + 1) more)
          else after [.start tag] (readContent fuel (⟨tag, written, scope⟩ :: frames) (next + 1) more)
      | .ok (.endTag written, more) =>
        match frames with
        | [] => stopWith ⟨.mismatchedTag, rest.drop 1⟩
        | frame :: outer =>
          if written ≠ frame.written then stopWith ⟨.mismatchedTag, rest.drop 1⟩
          else after [.finish frame.tag]
            (if outer.isEmpty then ([], none) else readContent fuel outer next more)
      | .ok (.sectionStart, more) =>
        match takeSection more with
        | .error t => stopWith t
        | .ok (text, more) => after [.text (String.ofList text)] (readContent fuel frames next more)
      | .ok (.declaration _, _) => stopWith ⟨.misplacedDeclaration, cs⟩
      | .ok (_, more) => readContent fuel frames next more
    | '&' :: rest =>
      match scanReference [] rest with
      | .error lapse => stopWith (lapse.trouble cs)
      | .ok (.number none, _) => stopWith ⟨.invalidReference, cs⟩
      | .ok (.number (some c), more) =>
        after [.text (String.singleton c)] (readContent fuel frames next more)
      | .ok (.entity name, more) =>
        match knownEntity? name with
        | some c => after [.text (String.singleton c)] (readContent fuel frames next more)
        | none => stopWith ⟨.undefinedEntity, cs⟩
    | _ =>
      match takeText cs with
      | ([], ']' :: ']' :: bad) => stopWith ⟨.invalidToken, bad⟩
      | ([], bad) => stopWith ⟨.invalidToken, bad⟩
      | (text, more) => after [.text (String.ofList text)] (readContent fuel frames next more)

def read (text : String) : List Event × Option Fault :=
  let cs := Text.unifyLines text.toList
  let (events, trouble) := match skipProlog (cs.length + 1) true false cs with
    | .error t => stopWith t
    | .ok root => readContent (root.length + 1) [] 0 root
  (events, trouble.map (·.fault cs))

/-! ## Trees -/

inductive Tree where
  | text (s : String)
  | element (tag : Tag) (children : List Tree)

namespace Tree

mutual

def events : Tree → List Event
  | .text s => [.text s]
  | .element tag children => .start tag :: (eventsOf children ++ [.finish tag])

def eventsOf : List Tree → List Event
  | [] => []
  | t :: rest => events t ++ eventsOf rest

end

end Tree

end SceneExchange.Markup
