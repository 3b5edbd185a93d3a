import SceneExchange.Bytes.Digest
import SceneExchange.Files
import SceneExchange.Markup.Element
import SceneExchange.Texture.Catalog

/-!
# Saving textures

A texture is saved beside the scene document under its legal name with the extension of its
format: from the bytes that the image carries, else as a copy of its file, else by having the
image saved there.
-/

namespace SceneExchange.Texture

def extension (format : String) : String :=
  if format == "JPEG" then ".jpg"
  else if format == "HDR" then ".hdr"
  else if format == "OPEN_EXR" then ".exr"
  else if format == "TARGA" || format == "TARGA_RAW" then ".tga"
  else ".png"

structure Shelf where
  files : Files
  images : Array Image
  rendering : Option (List UInt8) := none
  deriving Inhabited

abbrev Saving := ExceptT Fault (StateM Shelf)

namespace Saving

def lift {α : Type} (r : Except Fault α) : Saving α :=
  match r with
  | .ok a => pure a
  | .error f => throw f

def write (path : String) (bytes : List UInt8) : Saving Unit := do
  let files ← lift ((← get).files.write path bytes)
  modify fun s => { s with files := files }

def setRaw (image : Nat) (path : String) : Saving Unit :=
  modify fun s => { s with images := s.images.modify image ({ · with raw := path }) }

def savedBytes (image : Image) : Saving (List UInt8) := do
  pure ((← get).rendering.getD (Bytes.ofText ("saved:" ++ image.name)))

def store (index : Nat) (target : String) : Saving Unit := do
  let image := (← get).images[index]?.getD default
  match image.packed with
  | some bytes => write target bytes
  | none =>
    if !image.source.isEmpty && image.source != target then
      let files ← lift ((← get).files.copy image.source target)
      modify fun s => { s with files := files }
    else
      setRaw index target
      write target (← savedBytes image)
      if !image.source.isEmpty then setRaw index image.source

end Saving

def modeAttributes (image : Image) (hint : String) : List (String × Datum) :=
  let attributes (curve : Datum) (srgb mode : String) : List (String × Datum) :=
    [("rgbcurve", curve), ("srgb", .text srgb), ("texturemode", .text mode)]
  if image.format == "HDR" then attributes (.text "1.000000") "1" "5"
  else if hint == "NORMAL" then attributes (.real 0.0) "2" "3"
  else if image.isData then attributes (.real 0.0) "2" "1"
  else attributes (.real 0.0) "1" "0"

/-- Saves a texture below the base folder and describes it. An image without channels is described
only. A skipped texture is not written unless it is there already. -/
def save (entry : Entry) (base folder : String) (skip : Bool) : Saving Markup.Element := do
  let image := (← get).images[entry.image]?.getD default
  let file := (← Saving.lift (Name.legal entry.name)) ++ extension image.format
  let target := Path.join (Path.join base folder) file
  let skipped := skip && !(← get).files.exists? target
  let valid := image.channels != 0
  if valid && !skipped then Saving.store entry.image target
  let attributes := [("name", .text entry.name), ("file", .text (Path.join folder file))] ++
    modeAttributes image entry.hint ++ [("texturefilter", .text "3")]
  if valid then
    let bytes ← Saving.lift ((← get).files.read target)
    pure (.mk "Texture" attributes
      [.element (.leaf "Hash" [("value", .text (Bytes.Digest.sha1 bytes))])])
  else pure (.leaf "Texture" attributes)

end SceneExchange.Texture
