import SceneExchange.Import.Reading

/-!
# Reading and loading textures

A texture is known by its name and by its file, the part of its path after the folder. A later one
of the same name or file takes the place of the earlier. Only the textures known by file are
loaded. Each load makes an image; images that the host has loaded from the same file before are not
looked for here.
-/

namespace SceneExchange.Import

open Markup (Tag)

def afterFirst? (c : Char) (path : List Char) : Option (List Char) :=
  if path.contains c then some ((path.dropWhile (· ≠ c)).drop 1) else none

def fileOfPath? (path : String) : Option String :=
  ((afterFirst? '/' path.toList).or (afterFirst? Text.backslash path.toList)).map String.ofList

def isDataMode (mode : Option String) : Bool := mode == some "1" || mode == some "3"

namespace Parts

def addTexture (p : Parts) (t : Texture) : Parts :=
  let place := p.textures.size
  let names := p.textureNames.insert t.name place
  let files := p.textureFiles.insert t.file place
  { p with textures := p.textures.push t, textureNames := names, textureFiles := files }

def texture (p : Parts) (place : Nat) : Texture := p.textures[place]?.getD default

end Parts

namespace Importing

def texture (tag : Tag) : Importing Unit := do
  let name ← attributeOf tag "name"
  let path ← attributeOf tag "file"
  let file ← match fileOfPath? path with
    | some file => pure file
    | none => do
      write .error ("unable to find path separators in path: " ++ path)
      pure path
  children tag () fun _ child => do
    expect (child.name == "Hash")
    ignore child
  onParts (·.addTexture ⟨name, file, path, tag.attribute? "texturemode", none⟩)

def loadTexture (place : Nat) : Importing Unit := do
  let t := (← get).parts.texture place
  let here ← read
  let path := here.folder ++ "/" ++ t.path
  let image ← match here.files.read path with
    | .ok _ => do
      let index := (← get).stage.images.size
      let image : Stage.Image :=
        ⟨Path.name path, if isDataMode t.mode then "Non-Color" else "sRGB"⟩
      onStage fun s => { s with images := s.images.push image }
      pure (some index)
    | .error _ => do
      write .error ("texture not found: " ++ t.name ++ " " ++ path)
      pure none
  onParts fun p => { p with textures := p.textures.set! place { t with image := some image } }

end Importing

end SceneExchange.Import
