import SceneExchange.Table

/-!
# Actors

An actor is what an object becomes in the scene document. Meshes that are instanced below an actor
are listed with it: a single instance of a mesh is written as an actor of its own, several as one
group.
-/

namespace SceneExchange.Scene

/-- An instance of a mesh: where it stands below its parent and in the world, and the materials
that it has of its own, where they were looked up. -/
structure Placed where
  below : String
  world : String
  materials : Option (List String)
  deriving Repr, DecidableEq, Inhabited

structure ActorHead where
  kind : Option String := none
  name : String
  layer : Option String := none
  attributes : List String := []
  fields : List String := []
  transform : String
  instances : Table String (List Placed) := .empty
  deriving Inhabited

inductive Actor where
  | mk (head : ActorHead) (children : List Actor)

instance : Inhabited Actor := ⟨.mk default []⟩

namespace Actor

def plainTag : String := "Actor"

def layerText (layer : Option String) : String :=
  match layer with
  | some l => if l.isEmpty then "" else "\" layer=\"" ++ l
  | none => ""

def openTag (indent tag name : String) (layer : Option String) : String :=
  indent ++ "<" ++ tag ++ " name=\"" ++ name ++ layerText layer ++ "\""

def indented (indent : String) (lines : List String) : String :=
  lines.foldl (fun s l => s ++ indent ++ l) ""

def instanceOpen (indent tag actor mesh : String) : String :=
  indent ++ "\t\t<" ++ tag ++ " name=\"" ++ actor ++ "_" ++ mesh ++ "\">\n" ++
    indent ++ "\t\t\t<mesh name=\"" ++ mesh ++ "\"/>\n"

def singleText (indent actor mesh : String) (p : Placed) : String :=
  instanceOpen indent "ActorMesh" actor mesh ++ indent ++ "\t\t" ++ p.world ++
    indented indent (p.materials.getD []) ++ indent ++ "\t\t</ActorMesh>\n"

def groupText (indent actor transform mesh : String) (ps : List Placed) : String :=
  let tag := "ActorHierarchicalInstancedStaticMesh"
  instanceOpen indent tag actor mesh ++ indent ++ "\t\t\t" ++ transform ++
    indent ++ "\t\t\t<Instances count=\"" ++ toString ps.length ++ "\">\n" ++
    indented indent (ps.map (·.below)) ++ indent ++ "\t\t\t</Instances>\n" ++
    indent ++ "\t\t</" ++ tag ++ ">\n"

def instancesText (indent actor transform mesh : String) : List Placed → String
  | [p] => singleText indent actor mesh p
  | ps => groupText indent actor transform mesh ps

def allInstancesText (indent actor transform : String) (t : Table String (List Placed)) : String :=
  t.entries.foldl (fun s (mesh, ps) => s ++ instancesText indent actor transform mesh ps) ""

mutual

def render (indent : String) : Actor → String
  | .mk h children =>
    let tag := h.kind.getD plainTag
    openTag indent tag h.name h.layer ++ String.join h.attributes ++ ">\n" ++
      indented indent h.fields ++ indent ++ h.transform ++
      (if children.isEmpty && h.instances.isEmpty then ""
        else indent ++ "\t<children>\n" ++ renderAll (indent ++ "\t\t") children ++
          allInstancesText indent h.name h.transform h.instances ++ indent ++ "\t</children>\n") ++
      indent ++ "</" ++ tag ++ ">\n"

def renderAll (indent : String) : List Actor → String
  | [] => ""
  | a :: rest => render indent a ++ renderAll indent rest

end

end Actor

end SceneExchange.Scene
