import SceneExchange.Log
import SceneExchange.Name
import SceneExchange.Table
import SceneExchange.Texture.Image

/-!
# The catalog of textures

A texture is an image with the purpose for which it was first met, under the legal form of the
image's name. An image whose legal name is taken shares the entry that is there.
-/

namespace SceneExchange.Texture

structure Entry where
  name : String
  image : Nat
  hint : String
  deriving Inhabited, Repr, DecidableEq

abbrev Catalog := Table String Entry

def defaultHint : String := "SRGB"

def enter (catalog : Catalog) (name : String) (image : Nat) (hint : String) : Catalog × Bool :=
  if catalog.contains name then (catalog, false)
  else (catalog.insert name ⟨name, image, hint⟩, true)

end SceneExchange.Texture
