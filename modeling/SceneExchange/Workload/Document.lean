import SceneExchange.Files
import SceneExchange.Mesh.Writer

/-!
# A scene file to import

A document with materials of each kind, one texture, one mesh and a chosen number of actors, and
the files that it refers to.
-/

namespace SceneExchange.Workload.Document

def master : String :=
  "<MasterMaterial name=\"MM0\" label=\"MM0\" Type=\"1\">" ++
  "<KeyValueProperty name=\"Color\" type=\"Color\" val=\"(R=0.5,G=0.4,B=0.3,A=1.0)\"/>" ++
  "<KeyValueProperty name=\"Opacity\" type=\"Float\" val=\"0.8\"/>" ++
  "<KeyValueProperty name=\"Texture\" type=\"Texture\" val=\"tex0.png\"/></MasterMaterial>"

def fed (tag : String) (sources : List Nat) : String :=
  let inputs := sources.zipIdx.map fun (source, i) =>
    "<Input Name=\"" ++ toString i ++ "\" expression=\"" ++ toString source ++ "\"/>"
  "<" ++ tag ++ ">" ++ String.join inputs

def expression (tag : String) (sources : List Nat) : String :=
  if sources.isEmpty then "<" ++ tag ++ "/>" else fed tag sources ++ "</" ++ tag ++ ">"

def call (function : String) (sources : List Nat) : String :=
  fed ("FunctionCall Function=\"/DatasmithBlenderContent/MaterialFunctions/" ++ function ++ "\"")
    sources ++ "</FunctionCall>"

def expressions : String :=
  "<Color Name=\"c\" constant=\"(R=0.1,G=0.2,B=0.3,A=1.0)\"/><Scalar constant=\"0.4\"/>" ++
  "<Texture PathName=\"T0\"><Coordinates expression=\"3\" OutputIndex=\"0\"/></Texture>" ++
  "<TextureCoordinate Index=\"0\"/>" ++ expression "Multiply" [0, 2] ++
  fed "Power" [1] ++ "<KeyValueProperty name=\"ConstExponent\" type=\"Float\" val=\"2\"/></Power>" ++
  expression "LinearInterpolate" [0, 1, 1] ++ expression "Add" [0, 1] ++
  expression "OneMinus" [0] ++ expression "Desaturation" [0, 1] ++ expression "Fresnel" [] ++
  expression "VertexNormalWS" [] ++ expression "AppendVector" [0] ++
  expression "ComponentMask" [0] ++ call "RGB_To_BW" [0] ++ call "NormalStrength" [1, 0] ++
  "<TextureObject><Input name=\"Texture\" type=\"Texture\" val=\"T0\"/></TextureObject>" ++
  "<UnknownExpr/>"

def channel (name : String) (source : Nat) : String :=
  "<" ++ name ++ " expression=\"" ++ toString source ++ "\" OutputIndex=\"0\"/>"

def shaded : String :=
  "<UEPbrMaterial name=\"PBR0\"><Expressions>" ++ expressions ++ "</Expressions>" ++
  channel "BaseColor" 4 ++ channel "Roughness" 5 ++ channel "Metallic" 1 ++ channel "Normal" 15 ++
  "<ShadingModel value=\"ThinTranslucent\"/><OpacityMaskClipValue value=\"0.5\"/></UEPbrMaterial>"

def mesh : String :=
  "<StaticMesh name=\"mesh0\" label=\"mesh0\"><Material id=\"0\" name=\"PBR0\"/>" ++
  "<Material id=\"1\" name=\"MM0\"/><file path=\"scene_Assets/mesh0.udsmesh\"/>" ++
  "<LightmapUV value=\"-1\"/><Hash value=\"abc\"/></StaticMesh>"

def texture : String :=
  "<Texture name=\"T0\" file=\"scene_Assets/tex0.png\" texturemode=\"1\"><Hash value=\"x\"/></Texture>"

def transform : String :=
  "<Transform tx=\"1\" ty=\"2\" tz=\"3\" qw=\"1\" qx=\"0\" qy=\"0\" qz=\"0\" sx=\"1\" sy=\"1\" sz=\"1\"/>"

def value (name v : String) : String := "<" ++ name ++ " value=\"" ++ v ++ "\"/>"

def actor (i : Nat) : String :=
  let n := toString i
  match i % 4 with
  | 0 => "<ActorMesh name=\"A" ++ n ++ "\"><mesh name=\"mesh0\"/><material id=\"0\" name=\"PBR0\"/>" ++
    transform ++ value "tag" "x" ++ "<children><Actor name=\"child_" ++ n ++ "\">" ++ transform ++
    "</Actor></children></ActorMesh>"
  | 1 => "<Light name=\"L" ++ n ++ "\" type=\"PointLight\" enabled=\"1\">" ++
    "<Color usetemp=\"0\" R=\"1\" G=\"1\" B=\"1\"/>" ++ value "SourceSize" "1" ++
    value "Intensity" "10" ++ value "AttenuationRadius" "500" ++ value "IntensityUnits" "Lumens" ++
    transform ++ "</Light>"
  | 2 => "<Camera name=\"C" ++ n ++ "\">" ++ value "SensorWidth" "36" ++
    value "SensorAspectRatio" "1.77" ++ value "FocusDistance" "200" ++ value "FStop" "2.8" ++
    value "FocalLength" "50" ++ transform ++ "</Camera>"
  | _ => "<Actor name=\"E" ++ n ++ "\">" ++ transform ++ "</Actor>"

def text (actors : Nat) : String :=
  "<DatasmithUnrealScene><Version>1.0</Version><Host>Blender</Host>" ++ master ++ shaded ++
  "<Material name=\"Legacy\"><Shader/></Material>" ++ texture ++ mesh ++
  String.join ((List.range actors).map actor) ++ "</DatasmithUnrealScene>"

def pictureMark : List UInt8 := [0x89, 0x50, 0x4e, 0x47, 0x0d, 0x0a, 0x1a, 0x0a]

def rawMesh : Mesh.Raw :=
  let zero : Number.Single := .ofFloat 0.0
  let corners := List.range 18
  { materials := List.replicate 6 0
    smoothing := List.replicate 6 0
    positions := List.replicate 8 ⟨zero, zero, zero⟩
    indices := corners.map fun i => (i % 8).toUInt32
    normals := corners.map fun _ => ⟨zero, zero, .ofFloat 1.0⟩
    uvs := [corners.map fun _ => ⟨zero, zero⟩]
    colors := corners.map fun _ => ⟨0, 0, 0, 0⟩ }

def fileName : String := "scene.udatasmith"

def files (folder : String) (actors : Nat) : Files :=
  ({} : Files).put (Path.join folder fileName) (Bytes.ofText (text actors))
    |>.put (Path.join folder "scene_Assets/mesh0.udsmesh") (Mesh.file "mesh0" rawMesh)
    |>.put (Path.join folder "scene_Assets/tex0.png") pictureMark

end SceneExchange.Workload.Document
