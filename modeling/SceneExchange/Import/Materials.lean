import SceneExchange.Import.Reading

/-!
# Reading materials
-/

namespace SceneExchange.Import

open Markup (Tag)

namespace Importing

def propertyTypes : List String := ["Bool", "Color", "Texture", "Float"]

def addMaterial (name : String) (m : Material) : Importing Unit :=
  onParts fun p => { p with materials := p.materials.insert name m }

def property (m : Material) (tag : Tag) : Importing Material := do
  close tag
  let name ← attributeOf tag "name"
  let type ← attributeOf tag "type"
  if !propertyTypes.contains type then
    write .error ("unable to find parser for " ++ type)
    throw (.violated "")
  pure (m.set name (.text (← attributeOf tag "val")))

def masterMaterial (tag : Tag) : Importing Unit := do
  let name ← attributeOf tag "name"
  let m ← children tag (.ofTag tag.name name) fun m child => do
    expect (child.name == "KeyValueProperty")
    property m child
  addMaterial name m

def plainMaterial (tag : Tag) : Importing Unit := do
  let name ← attributeOf tag "name"
  children tag () fun _ child => ignore child
  addMaterial name (.ofTag tag.name name)

def input (inputs : Table String Source) (tag : Tag) : Importing (Table String Source) := do
  close tag
  let key ← match tag.name with
    | "Input" => attributeOf tag "Name"
    | "Coordinates" => pure "0"
    | name => pure name
  let expression ← integerAttribute tag "expression"
  let output ← match tag.attribute? "OutputIndex" with
    | some text => integer text
    | none => pure 0
  pure (inputs.insert key ⟨expression, output⟩)

def expressionPart (e : Expression) (tag : Tag) : Importing Expression := do
  match tag.name with
  | "Input" | "Coordinates" => do pure { e with inputs := ← input e.inputs tag }
  | "KeyValueProperty" => do
    close tag
    let type ← attributeOf tag "type"
    let value ← attributeOf tag "val"
    let name ← attributeOf tag "name"
    pure { e with properties := e.properties.insert name (type, value) }
  | name => do
    write .warning ("expression has unrecognized param: " ++ name)
    pure e

def textureObject (tag : Tag) : Importing Expression := do
  let inner ← next
  close inner.tag
  close tag
  pure { tag := "TextureObject", attributes := inner.tag.attributes }

def expression (tag : Tag) : Importing Expression :=
  if tag.name == "TextureObject" then textureObject tag
  else children tag { tag := tag.name, attributes := tag.attributes } expressionPart

def expressions (tag : Tag) : Importing (List Expression) := do
  let es ← children tag #[] fun es child => do pure (es.push (← expression child))
  pure es.toList

def shaderPart (m : Material) (inputs : Table String Source) (tag : Tag) :
    Importing (Material × Table String Source) := do
  match tag.name with
  | "Expressions" => do pure (m.set "expressions" (.expressions (← expressions tag)), inputs)
  | "ShadingModel" => do
    close tag
    pure (m.set tag.name (.text (← attributeOf tag "value")), inputs)
  | "Input" | "BaseColor" | "Roughness" | "Metallic" | "Normal" => do
    pure (m, ← input inputs tag)
  | name => do
    write .error ("pbrmaterial unhandled tag: " ++ name)
    ignore tag
    pure (m, inputs)

def shaderMaterial (tag : Tag) : Importing Unit := do
  let name ← attributeOf tag "name"
  let (m, inputs) ← children tag (Material.ofTag tag.name name, .empty) fun (m, inputs) child =>
    shaderPart m inputs child
  addMaterial name (m.set "inputs" (.inputs inputs))

end Importing

end SceneExchange.Import
