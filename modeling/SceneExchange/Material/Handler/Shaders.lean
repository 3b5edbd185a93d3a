import SceneExchange.Material.Handler.Basic

/-!
# Handlers of shader nodes

A surface node compiles to a bundle of channels. Combining two shaders combines their channels,
and mixing extends the bundle of the first one.
-/

namespace SceneExchange.Material.Handlers

open SceneExchange.Graph Compile

abbrev Channels := List (String × Operand)

def fieldChannel (visit : Visit) (r : NodeRef) (channel field : String) : Compile Channels := do
  pure [(channel, ← visit.named r field)]

def constantChannel (channel : String) (x : Float) : Compile Channels := do
  pure [(channel, ← ref (← emitReal x))]

def inputOr (f : Forest) (r : NodeRef) (first second : String) : Except Fault SocketRef :=
  match f.inputNamed? r first with
  | some p => .ok p
  | none => f.inputNamed r second

def differs (v : SocketValue) (n : Int) : Bool :=
  match v with
  | .single (.int m) => m != n
  | .single (.flag b) => (if b then 1 else 0) != n
  | .single (.real x) => x != Float.ofInt n
  | _ => true

def isInUse (field : SocketRef) (neutral : Int) : Compile Bool := do
  let forest ← read
  pure (forest.isLinked field || differs (forest.inputSocket field).value neutral)

def principledEmission (visit : Visit) (r : NodeRef) : Compile Channels := do
  let color ← lift (inputOr (← read) r "Emission Color" "Emission")
  let strength ← lift ((← read).inputNamed r "Emission Strength")
  if ← isInUse strength 1 then
    let first ← input "0" (← visit color .normal)
    let second ← input "1" (← visit strength .normal)
    pure [("EmissiveColor", ← emitRef (.plain "Multiply" [first, second]))]
  else pure [("EmissiveColor", ← visit color .normal)]

def principledCoat (visit : Visit) (r : NodeRef) : Compile Channels := do
  let coat ← lift (inputOr (← read) r "Coat Weight" "Clearcoat")
  if ← isInUse coat 0 then
    let weight ← visit coat .normal
    let roughness ← visit (← lift (inputOr (← read) r "Coat Roughness" "Clearcoat Roughness")) .normal
    pure [("ClearCoat", weight), ("ClearCoatRoughness", roughness)]
  else pure []

def principled (visit : Visit) (r : NodeRef) : Compile Channels := do
  let color ← fieldChannel visit r "BaseColor" "Base Color"
  let metallic ← fieldChannel visit r "Metallic" "Metallic"
  let roughness ← fieldChannel visit r "Roughness" "Roughness"
  let specular ← visit (← lift (inputOr (← read) r "Specular IOR Level" "Specular")) .normal
  let alpha ← lift ((← read).inputNamed r "Alpha")
  let opacity ← membersIf (← isInUse alpha 1) do pure [("Opacity", ← visit alpha .normal)]
  let emission ← principledEmission visit r
  let coat ← principledCoat visit r
  pure (color ++ metallic ++ roughness ++ [("Specular", specular)] ++ opacity ++ emission ++ coat)

def emission (visit : Visit) (r : NodeRef) : Compile Channels := do
  let parts ← visit.inputs r [("0", "Color"), ("1", "Strength")]
  pure [("EmissiveColor", ← emitRef (.plain "Multiply" parts))]

def holdout : Compile Channels := do
  let color ← ref (← emitTriple 0.0 0.0 0.0)
  let roughness ← constantChannel "Roughness" 1.0
  pure (("BaseColor", color) :: roughness)

inductive ChannelRule where
  | field (channel field : String)
  | number (channel : String) (x : Float)

def ChannelRule.channel : ChannelRule → String
  | .field channel _ => channel
  | .number channel _ => channel

def applyRule (visit : Visit) (r : NodeRef) : ChannelRule → Compile Channels
  | .field channel field => fieldChannel visit r channel field
  | .number channel x => constantChannel channel x

structure SurfaceRule where
  incomplete : Bool
  channels : List ChannelRule

def surfaceRule? : String → Option SurfaceRule
  | "EEVEE_SPECULAR" => some ⟨true, [.field "BaseColor" "Base Color", .field "Roughness" "Roughness"]⟩
  | "BSDF_DIFFUSE" => some ⟨false,
      [.field "BaseColor" "Color", .number "Roughness" 1.0, .number "Metallic" 0.0]⟩
  | "BSDF_TOON" => some ⟨true,
      [.field "BaseColor" "Color", .number "Roughness" 1.0, .number "Metallic" 0.0]⟩
  | "BSDF_GLOSSY" => some ⟨false,
      [.field "BaseColor" "Color", .field "Roughness" "Roughness", .number "Metallic" 1.0]⟩
  | "BSDF_VELVET" => some ⟨true, [.field "BaseColor" "Color", .number "Roughness" 1.0]⟩
  | "BSDF_TRANSPARENT" => some ⟨true,
      [.field "BaseColor" "Color", .number "Refraction" 1.0, .number "Opacity" 0.0]⟩
  | "BSDF_TRANSLUCENT" => some ⟨true, [.field "BaseColor" "Color"]⟩
  | "BSDF_GLASS" => some ⟨true,
      [.field "BaseColor" "Color", .number "Metallic" 1.0, .field "Roughness" "Roughness",
        .field "Refraction" "IOR", .number "Opacity" 0.5]⟩
  | "BSDF_HAIR" => some ⟨true, [.field "BaseColor" "Color", .number "Roughness" 0.5]⟩
  | "SUBSURFACE_SCATTERING" => some ⟨true, [.field "BaseColor" "Color"]⟩
  | "BSDF_REFRACTION" => some ⟨true,
      [.field "BaseColor" "Color", .field "Roughness" "Roughness", .field "Refraction" "IOR",
        .number "Opacity" 0.5]⟩
  | "BSDF_ANISOTROPIC" => some ⟨true,
      [.field "BaseColor" "Color", .field "Roughness" "Roughness"]⟩
  | _ => none

def ruledSurface (visit : Visit) (r : NodeRef) (kind : String) (rule : SurfaceRule) :
    Compile Channels := do
  onlyIf rule.incomplete (warnOnce (kind ++ " incomplete implementation"))
  pure (← rule.channels.mapM (applyRule visit r)).flatten

def surface? (kind : String) : Option (Visit → NodeRef → Compile Channels) :=
  match kind with
  | "BSDF_PRINCIPLED" => some principled
  | "EMISSION" => some emission
  | "HOLDOUT" => some fun _ _ => holdout
  | _ => (surfaceRule? kind).map fun rule visit r => ruledSurface visit r kind rule

def linkedNormal (visit : Visit) (r : NodeRef) : Compile Channels := do
  let forest ← read
  match forest.inputNamed? r "Normal" with
  | some p => membersIf (forest.isLinked p) do pure [("Normal", ← visit p .normal)]
  | none => pure []

def surface (channels : Visit → NodeRef → Compile Channels) : Handler := fun visit out => do
  let node := nodeOf out
  let entries ← channels visit node
  require (((← read).outputSocket out).kind == .shader) ""
  let normal ← linkedNormal visit node
  newBundle (entries ++ normal)

def shaderBundle (o : Operand) (fault : Fault) : Compile Nat :=
  match o with
  | .bundle id => pure id
  | _ => fail fault

def requiredShader (visit : Visit) (r : NodeRef) (i : Nat) : Compile Operand := do
  let o ← visit.nth r i
  require (← present o) ""
  pure o

/-- The channel of a sum: colors add, others meet half way, and an opacity of one side only is
mixed with full opacity. -/
def addChannel (name : String) (a b : Operand) : Compile Operand := do
  if (← present a) && (← present b) then
    let adds := name == "BaseColor" || name == "EmissiveColor"
    let first ← input "0" a
    let second ← input "1" b
    let third ← membersIf (!adds) do pure [directInput "2" (← emitReal 0.5) 0]
    emitRef (.plain (if adds then "Add" else "LinearInterpolate") ([first, second] ++ third))
  else
    let only ← presentOr a (pure b)
    if name == "Opacity" then
      let first ← input "0" only
      let one ← emitReal 1.0
      let half ← emitReal 0.5
      emitRef (.plain "LinearInterpolate" [first, directInput "1" one 0, directInput "2" half 0])
    else pure only

def addShaders : Handler := fun visit out => do
  warnOnce ("'Add Shader' is only an approximation, as Unreal's deferred rendering doesn't " ++
    "support this workflow.")
  let node := nodeOf out
  let first ← requiredShader visit node 0
  let second ← requiredShader visit node 1
  let fault := Fault.noProperty "int" "keys"
  let a ← bundle (← shaderBundle first fault)
  let b ← bundle (← shaderBundle second fault)
  let names := ((a.keys ++ b.keys).eraseDups).mergeSort fun x y => x ≤ y
  let entries ← names.mapM fun name => do
    let o ← addChannel name ((a.get? name).getD .none) ((b.get? name).getD .none)
    onlyIf (name != "Normal") do require (← present o) ""
    pure (name, o)
  newBundle entries

def fillOpacity (id : Nat) : Compile Unit := do
  let b ← bundle id
  if !b.contains "Opacity" then
    let full ← ref (← emitReal 1.0)
    setEntry id "Opacity" full

def fillOpacities (a b : Nat) : Compile Unit := do
  if (← bundle a).contains "Opacity" || (← bundle b).contains "Opacity" then
    fillOpacity a
    fillOpacity b

def mixChannel (id : Nat) (factor : Operand) (name : String) (o : Operand) : Compile Unit := do
  match (← bundle id).get? name with
  | some mine =>
    let first ← input "0" mine
    let second ← input "1" o
    let third ← input "2" factor
    let mixed ← emitRef (.plain "LinearInterpolate" [first, second, third])
    setEntry id name mixed
  | none => setEntry id name o

def mixShaders : Handler := fun visit out => do
  warnOnce ("'Mix Shader' is only an approximation, as Unreal's deferred rendering doesn't " ++
    "support this workflow.")
  let node := nodeOf out
  let first ← requiredShader visit node 1
  let second ← requiredShader visit node 2
  let fault := Fault.wrongKind "argument of type 'int' is not iterable"
  let a ← shaderBundle first fault
  let b ← shaderBundle second fault
  fillOpacities a b
  let factor ← visit.named node "Fac"
  (← bundle b).entries.forM fun (name, o) => mixChannel a factor name o
  pure (.bundle a)

def shaderHandler? (kind : String) : Option Handler :=
  match surface? kind with
  | some channels => some (surface channels)
  | none =>
    match kind with
    | "ADD_SHADER" => some addShaders
    | "MIX_SHADER" => some mixShaders
    | _ => none

end SceneExchange.Material.Handlers
