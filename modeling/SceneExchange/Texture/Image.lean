/-!
# Images
-/

namespace SceneExchange.Texture

structure Image where
  name : String
  format : String
  channels : Int
  isData : Bool
  packed : Option (List UInt8)
  raw : String
  /-- The file that the host finds for a path of this image. -/
  resolve : String → String := id
  deriving Inhabited

def Image.source (x : Image) : String := x.resolve x.raw

end SceneExchange.Texture
