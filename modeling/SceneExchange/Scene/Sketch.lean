import SceneExchange.Fault
import SceneExchange.Scene.Actor

/-!
# Sketches of actors

A sketch is an actor of which parts may be missing. It is written up to the first part that is
missed.
-/

namespace SceneExchange.Scene

inductive Sketch where
  | mk (kind name layer : Option String) (attributes fields : Option (List String))
    (transform : Option String) (children : Option (List Sketch))
    (instances : Option (Table String (List Placed)))

instance : Inhabited Sketch := ⟨.mk none none none none none none none none⟩

structure Written where
  text : String
  fault : Option Fault := none

namespace Written

def andThen (w : Written) (next : Unit → Written) : Written :=
  match w.fault with
  | some _ => w
  | none =>
    let more := next ()
    ⟨w.text ++ more.text, more.fault⟩

def need {α : Type} (part : Option α) (key : String) (next : α → Written) : Written :=
  match part with
  | some a => next a
  | none => ⟨"", some (.missingKey (.text key))⟩

end Written

namespace Sketch

open Actor Written

mutual

def render (indent : String) : Sketch → Written
  | .mk kind name layer attributes fields transform children instances =>
    let tag := kind.getD plainTag
    let write (s : String) : Written := ⟨s, none⟩
    (write (indent ++ "<" ++ tag ++ " name=\"")).andThen fun _ =>
    need name "name" fun name =>
    (write (name ++ layerText layer ++ "\"")).andThen fun _ =>
    need attributes "attrib" fun attributes =>
    (write (String.join attributes ++ ">\n")).andThen fun _ =>
    need fields "fields" fun fields =>
    (write (indented indent fields ++ indent)).andThen fun _ =>
    need transform "transform" fun transform =>
    (write transform).andThen fun _ =>
    match children with
    | none => need (none : Option Unit) "children" fun _ => write ""
    | some children =>
      need instances "instances" fun instances =>
      (if children.isEmpty && instances.isEmpty then write ""
        else (write (indent ++ "\t<children>\n")).andThen fun _ =>
          (renderAll (indent ++ "\t\t") children).andThen fun _ =>
          write (allInstancesText indent name transform instances ++ indent ++ "\t</children>\n")
      ).andThen fun _ =>
      write (indent ++ "</" ++ tag ++ ">\n")

def renderAll (indent : String) : List Sketch → Written
  | [] => ⟨"", none⟩
  | s :: rest => (render indent s).andThen fun _ => renderAll indent rest

end

end Sketch

end SceneExchange.Scene
