import SceneExchange.Proofs.Handling

/-!
# The handlers of value nodes, side by side

In every handling each handler of a node that gives values agrees with itself, given that the
visits of fields agree. The proofs follow the handlers step by step; what a step needs of earlier
results is found among the facts that these left.
-/

namespace SceneExchange.Material.Handling

open SceneExchange.Graph Compile Material.Frame List Handlers Material Fact Option Markup
open Markup (Clean clean_append)

variable (H : Handling) {P : H.Fact}

def Answers (handler : Handler) : Prop :=
  ∀ out, handler? (H.forest.node (nodeOf out)).kind = some handler → H.HandlesAt handler out

/-- A handler that makes a station handles its nodes if the stations of agreeing visits agree. -/
theorem answers_stationed {body : Visit → SocketRef → Compile Station}
    (hSame : ∀ visit t n i j, body visit ⟨t, n, i⟩ = body visit ⟨t, n, j⟩)
    (hBody : ∀ {out visit visit'} {Q : H.Fact} [Entails Q (H.newNode (nodeOf out))], H.Visits visit visit' →
      Agree Q (body visit out) (body visit' out) H.station) : H.Answers (stationed body) := by
  intro out hAny visit visit' hVisit hShares P hOut _ _
  exact hShares.station (stationed_of_handler? hAny hSame) hOut @fun Q _ => hBody hVisit

theorem handlesOf {handler : Handler} (h : ∀ {out visit visit'} {P : H.Fact} [Entails P (H.newNode (nodeOf out))],
    H.Visits visit visit' → Agree P (handler visit out) (handler visit' out) H.value) : H.Handles handler := by
  intro out visit visit' hVisit _ P _ _ _
  exact h hVisit

section Colors

variable {out : SocketRef}

theorem handles_brightContrast : H.Handles brightContrast :=
  H.handlesOf fun hVisit => hVisit.inputs.seq <| H.emitRef (ordinary_content (by decide))

theorem handles_gamma : H.Handles gamma :=
  H.handlesOf fun hVisit => hVisit.inputs.seq <| H.emitRef (ordinary_plain (by decide))

theorem handles_hueSaturation : H.Handles hueSaturation := by
  refine H.handlesOf fun hVisit => ?_
  refine hVisit.inputs.seq ?_
  exact (H.emit (ordinary_content (by decide))).seq <| H.refOutput

theorem handles_invert : H.Handles invert := by
  refine H.handlesOf fun hVisit => ?_
  refine hVisit.named.seq <| H.input.seq ?_
  refine (H.emit (ordinary_plain (by decide))).seq <| hVisit.named.seq ?_
  refine H.input.seq <| H.input.seq ?_
  exact H.emitRef (ordinary_plain (by decide))

theorem handles_lightFalloff (hKind : (H.forest.node (nodeOf out)).kind = "LIGHT_FALLOFF") :
    H.HandlesAt lightFalloff out := by
  intro visit visit' hVisit _ P _ hAdmits _
  refine H.warnOnce.seq <| hVisit.named.seq ?_
  exact H.wrap (hKind ▸ hAdmits)

theorem saturate {e : Int} [Entails P (H.position e)] : Agrees P (saturate e) H.position :=
  H.emit (ordinary_plain (by decide))

theorem saturateIf {c : Bool} {e : Int} [Entails P (H.position e)] : Agrees P (saturateIf c e) H.position :=
  .ite (fun _ => H.saturate) fun _ => .pure

theorem isPath_blends : ∀ x ∈ Function.blends, IsPath x.2 := by
  repeat refine isPath_cons (by decide) ?_
  exact forall_mem_nil _

theorem handles_mixColors : H.Handles mixColors := by
  refine H.handlesOf fun hVisit => ?_
  refine hVisit.named.seq <| H.optionalInput.seq ?_
  refine (H.emit (ordinary_plain (by decide))).seq ?_
  refine hVisit.named.seq <| hVisit.named.seq ?_
  refine .bindSteady fun blend => .bindChoose fun x hx => ?_
  refine H.optionalInput.seq <| H.optionalInput.seq ?_
  refine (H.emit (ordinary_call (isPath_blends x hx))).seq <| .bindSteady fun clamp => ?_
  exact H.saturateIf.seq <| H.refOutput

theorem enterCurves {c : Slot (List Curve)} : Frame.Numbers P (enterCurves c) H.curve := by
  cases c with
  | absent => exact .fail
  | empty => exact .fail
  | given cs => exact H.addCurve (.curves cs)

theorem enterRamp {r : Slot Ramp} : Frame.Numbers P (enterRamp r) H.curve := by
  cases r with
  | absent => exact .fail
  | empty => exact H.addBlankCurve
  | given r => exact H.addCurve (.ramp r)

theorem handles_curves : H.Handles curves := by
  refine H.handlesOf fun hVisit => ?_
  refine .bindSteady fun node => H.enterCurves.bind fun n n' => ?_
  refine hVisit.named.seq <| hVisit.named.seq ?_
  refine (H.lookUp (by decide)).seq ?_
  refine H.input.seq <| H.input.seq ?_
  exact (H.emit (ordinary_plain (by decide))).seq <| H.refOutput

theorem handles_ramp : H.Handles ramp := by
  refine H.handlesOf fun hVisit => ?_
  refine .bindSteady fun node => H.enterRamp.bind fun n n' => ?_
  refine hVisit.named.seq ?_
  exact (H.lookUp (by decide)).seq <| H.refOutput

theorem handles_of_colorHandler? {handler : Handler}
    (h : colorHandler? (H.forest.node (nodeOf out)).kind = some handler) : H.HandlesAt handler out := by
  unfold colorHandler? at h
  split at h <;> cases h
  · exact H.handles_brightContrast out
  · exact H.handles_gamma out
  · exact H.handles_hueSaturation out
  · exact H.handles_invert out
  · exact H.handles_lightFalloff ‹_›
  · exact H.handles_mixColors out
  · exact H.handles_curves out
  · exact H.handles_ramp out

end Colors

section Converters

variable {out : SocketRef} {d : Datum}

theorem handles_blackbody : H.Handles blackbody :=
  H.handlesOf fun hVisit => hVisit.firstInputs.seq <| H.emitRef (ordinary_plain (by decide))

theorem handles_clamp : H.Handles clamp := by
  refine H.handlesOf fun hVisit => ?_
  refine .bindSteady fun clampType => hVisit.named.seq ?_
  refine hVisit.named.seq <| hVisit.named.seq ?_
  refine .ite (fun _ => ?_) fun _ => .ite (fun _ => ?_) fun _ => ?_
  · refine H.input.seq <| H.input.seq ?_
    exact H.input.seq <| H.emitRef (ordinary_plain (by decide))
  · refine H.input.seq <| H.input.seq ?_
    refine H.input.seq <| H.input.seq ?_
    refine H.input.seq ?_
    refine (H.emit (ordinary_plain (by decide))).seq ?_
    refine (H.emit (ordinary_plain (by decide))).seq ?_
    exact H.emitRef (ordinary_plain (by decide))
  · exact H.write.seq <| H.emitRef (ordinary_plain (by decide))

theorem handles_combineXyz : H.Handles combineXyz :=
  H.handlesOf fun hVisit => hVisit.firstInputs.seq <| H.emitRef (ordinary_call isPath_makeFloat3)

theorem handles_combineRgb : H.Handles combineRgb :=
  H.handlesOf fun hVisit => hVisit.firstInputs.seq <| H.emitRef (ordinary_content (by decide))

theorem handles_combineHsv : H.Handles combineHsv :=
  H.handlesOf fun hVisit => hVisit.firstOptionalInputs.seq <| H.emitRef (ordinary_content (by decide))

theorem handles_combineColor : H.Handles combineColor := by
  refine H.handlesOf fun hVisit => ?_
  refine .bindSteady fun mode => .bindChoose fun x hx => ?_
  refine hVisit.firstOptionalInputs.bind fun _ => ?_
  have hPath := isPath_cons (by decide) (isPath_cons (by decide) (forall_mem_nil _)) x hx
  exact H.emitRef (ordinary_call hPath)

theorem handles_separateXyz : H.Answers separateXyz := by
  refine H.answers_stationed (fun _ _ _ _ _ => rfl) fun hVisit => ?_
  refine hVisit.firstInputs.seq ?_
  exact (H.emit (ordinary_call isPath_breakFloat3)).seq .pure

theorem handles_separateRgb : H.Answers separateRgb := by
  refine H.answers_stationed (fun _ _ _ _ _ => rfl) fun hVisit => ?_
  refine hVisit.firstInputs.seq ?_
  exact (H.emit (ordinary_content (by decide))).seq .pure

theorem handles_separateHsv : H.Answers separateHsv := by
  refine H.answers_stationed (fun _ _ _ _ _ => rfl) fun hVisit => ?_
  refine hVisit.firstOptionalInputs.seq ?_
  exact (H.emit (ordinary_content (by decide))).seq .pure

theorem handles_separateColor : H.Answers separateColor := by
  refine H.answers_stationed (fun _ _ _ _ _ => rfl) fun hVisit => ?_
  refine .bindSteady fun mode => .bindChoose fun x hx => ?_
  refine hVisit.firstOptionalInputs.bind fun _ => ?_
  have hPath : IsPath x.2 := by
    obtain rfl | hx := mem_cons.mp hx
    · exact isPath_breakFloat3
    · exact isPath_cons (by decide) (forall_mem_nil _) x hx
  exact (H.emit (ordinary_call hPath)).seq .pure

theorem handles_grayscale : H.Handles grayscale :=
  H.handlesOf fun hVisit => hVisit.firstOptionalInputs.seq <| H.emitRef (ordinary_content (by decide))

theorem interpolationName : Agrees P (interpolationName out d) fun name => .pure (Clean name) := by
  have hName {Q : H.Fact} {name : String} (h : Clean name) : Agrees Q (pure name) fun name => .pure (Clean name) :=
    fun w _ _ _ hRelated => .done (H.returns_refl w) hRelated h
  refine .ite (fun _ => .bindSteady fun clamp => hName ?_) fun _ =>
    .ite (fun _ => .bindSteady fun clamp => hName ?_) fun _ =>
    .ite (fun _ => hName (by decide)) fun _ => .ite (fun _ => hName (by decide)) fun _ => .fail
  · split <;> decide
  · split <;> decide

theorem handles_mapRange : H.Handles mapRange := by
  refine H.handlesOf fun hVisit => ?_
  refine .bindSteady fun interpolation => ?_
  refine H.interpolationName.bind fun suffix => .given (p := Clean suffix) fun hSuffix => ?_
  refine .bind (.mapM fun name _ => hVisit.named) fun _ => H.numberedInputs.seq ?_
  refine (H.membersIf hVisit.inputs).bind fun _ => ?_
  have hClean : Clean ("MapRange_" ++ suffix) := clean_append (by decide) hSuffix
  exact H.emitRef (ordinary_of_head 'M' (head?_append (by decide)) hClean (by decide))

def expression (e : Expression) : H.Fact := (pure (Ordinary H.forest e.tag e.attributes)).and (H.parts e.parts)

/-- A tag of an expression that is made before it is emitted. -/
class ComposedTag (tag : String) : Prop where
  mem : tag ∈ expressionTags

instance : ComposedTag "Multiply" := ⟨by decide⟩
instance : ComposedTag "Divide" := ⟨by decide⟩
instance : ComposedTag "If" := ⟨by decide⟩

instance {tag : String} {ps : List Part} [hTag : ComposedTag tag] [h : Entails P (H.parts ps)] :
    Entails P (H.expression (.plain tag ps)) :=
  ⟨fun hP => ⟨ordinary_plain hTag.mem, h.entails hP⟩⟩

theorem emitRefOf {e : Expression} [h : Entails P (H.expression e)] : Agrees P (emitRef e) H.value := by
  have : Entails P (.pure (Ordinary H.forest e.tag e.attributes)) := ⟨fun hP => (h.entails hP).1⟩
  have : Entails P (H.parts e.parts) := ⟨fun hP => (h.entails hP).2⟩
  exact .given H.emitRef

theorem compareOperation {first second : Operand} {greater equal less : Float}
    [Entails P (H.value first)] [Entails P (H.value second)] :
    Agrees P (compareOperation first second greater equal less) H.expression := by
  refine H.emitReal.bind fun one => H.emitReal.bind fun zero => ?_
  have hBranch (slot : String) [InputName slot] (x : Float) : Entails ((P.and (H.position one)).and (H.position zero))
        (H.part (directInput slot (if x == 1.0 then one else zero) 0)) := by
    split <;> infer_instance
  refine H.input.seq <| H.input.seq ?_
  exact .pure

theorem composedMath {visit visit' : Visit} (hVisit : H.Visits visit visit') {r : NodeRef} {op : String}
    [Entails P (H.inside r)] :
    Agree P (composedMath visit r op) (composedMath visit' r op) H.expression := by
  refine hVisit.nth.bind fun _ => ?_
  split
  · refine H.input.seq ?_
    exact H.emitReal.seq .pure
  · refine H.input.seq ?_
    exact H.emitReal.seq .pure
  · refine hVisit.nth.bind fun _ => ?_
    split
    · refine H.input.seq <| (H.emit (ordinary_plain (by decide))).seq ?_
      refine H.input.seq <| (H.emit (ordinary_plain (by decide))).seq ?_
      exact .pure
    · exact H.compareOperation
    · exact H.compareOperation

theorem mem_of_choice? {α : Type} {choices : List (String × α)} {a : α} (h : choice? choices d = some a) :
    ∃ k, (k, a) ∈ choices := by
  unfold choice? at h
  split at h
  · exact ⟨_, Table.mem_of_lookup h⟩
  · cases h

theorem ordinary_of_choice? {f : Forest} {choices : Function.Choices} {tag : String}
    (h : choice? choices d = some tag) (hTags : ∀ x ∈ choices, x.2 ∈ expressionTags) : Ordinary f tag [] := by
  obtain ⟨key, hMem⟩ := mem_of_choice? h
  exact ordinary_plain (hTags _ hMem)

theorem isPath_called_cons {key name : String} {count : Nat} {rest : List (String × Nat × String)}
    (h : name ∉ lookUpNames ∧ Clean name) (hRest : ∀ x ∈ rest, IsPath x.2.2) :
    ∀ x ∈ (key, count, Function.content name) :: rest, IsPath x.2.2 :=
  forall_mem_cons.mpr ⟨isPath_content h, hRest⟩

theorem isPath_calledMath : ∀ x ∈ Function.calledMath, IsPath x.2.2 := by
  repeat refine isPath_called_cons (by decide) ?_
  exact forall_mem_nil _

theorem isPath_calledVectorMath : ∀ x ∈ Function.calledVectorMath, IsPath x.2.2 := by
  repeat refine isPath_called_cons (by decide) ?_
  exact forall_mem_nil _

theorem mathResult {visit visit' : Visit} (hVisit : H.Visits visit visit') {r : NodeRef} {op : Datum}
    [Entails P (H.inside r)] :
    Agree P (Handlers.mathResult visit r op) (Handlers.mathResult visit' r op) H.value := by
  unfold Handlers.mathResult
  split
  · rename_i hChoice
    exact hVisit.sliceInputs.seq <| H.emitRef (ordinary_of_choice? hChoice (by decide))
  · split
    · rename_i hChoice
      exact hVisit.sliceInputs.seq <| H.emitRef (ordinary_of_choice? hChoice (by decide))
    · split
      · rename_i hChoice
        obtain ⟨op, hMem⟩ := mem_of_choice? hChoice
        have hPath := ordinary_call (f := H.forest) (isPath_calledMath _ hMem)
        exact hVisit.sliceInputs.seq <| H.emitRef hPath
      · refine .ite (fun _ => ?_) fun _ => .fail
        exact (H.composedMath hVisit).seq <| H.emitRefOf

theorem handles_math : H.Handles math := by
  refine H.handlesOf fun hVisit => ?_
  refine .bindSteady fun op => (H.mathResult hVisit).seq ?_
  refine .bindSteady fun node => .ite (fun _ => ?_) fun _ => .pure
  exact H.input.seq <| H.emitRef (ordinary_plain (by decide))

theorem handles_vectorMath : H.Handles vectorMath := by
  intro out visit visit' hVisit hShares P hOut hAdmits _
  refine .bindSteady fun op => .ite (fun _ => H.handles_math out hVisit hShares hOut hAdmits) fun _ => ?_
  split
  · rename_i hChoice
    obtain ⟨op, hMem⟩ := mem_of_choice? hChoice
    have hTags : ∀ x ∈ Function.vectorMath, x.2.2 ∈ expressionTags := by decide
    have hTag := ordinary_plain (f := H.forest) (hTags _ hMem)
    exact hVisit.sliceInputs.seq <| H.emitRef hTag
  · split
    · rename_i hChoice
      obtain ⟨op, hMem⟩ := mem_of_choice? hChoice
      have hPath := ordinary_call (f := H.forest) (isPath_calledVectorMath _ hMem)
      exact hVisit.sliceInputs.seq <| H.emitRef hPath
    · refine .ite (fun _ => ?_) fun _ => .ite (fun _ => ?_) fun _ => ?_
      · refine .bindRead (.bindLift fun vector hVector => .bindLift fun factor hFactor => ?_)
        have hVector := nodeOf_inputAt hVector
        have hFactor := nodeOf_inputAt hFactor
        refine (hVisit.at_field hVector).seq <| H.input.seq ?_
        refine (hVisit.at_field hFactor).seq <| H.input.seq ?_
        exact H.emitRef (ordinary_plain (by decide))
      · refine hVisit.nth.seq <| H.input.seq ?_
        exact H.emitTriple.seq <| H.emitRef (ordinary_plain (by decide))
      · exact H.write.seq .pure

theorem channel? {o : Operand} {name : String} [Entails P (H.value o)] (hName : name ∈ channelNames) :
    Agrees P (channel? o name) H.value := by
  cases o with
  | none => exact .fail
  | index => exact .fail
  | bundle => exact H.entry hName

theorem handles_shaderToRgb : H.Handles shaderToRgb := by
  refine H.handlesOf fun hVisit => ?_
  refine H.warnOnce.seq <| hVisit.nth.seq ?_
  refine (H.channel? (by decide)).seq ?_
  refine (H.channel? (by decide)).seq ?_
  refine H.present.bind fun hasColor => H.present.bind fun hasEmissive => ?_
  cases hasColor <;> cases hasEmissive
  · exact .pure
  · exact .pure
  · exact .pure
  · refine H.input.seq <| H.input.seq ?_
    exact H.emitRef (ordinary_plain (by decide))

instance (out : SocketRef) (d : Datum) : Steady (mixesByAxis out d) := by
  unfold mixesByAxis
  infer_instance

theorem saturateOperand {c : Bool} {o : Operand} [Entails P (H.value o)] : Agrees P (saturateOperand c o) H.value := by
  refine .ite (fun _ => ?_) fun _ => .pure
  exact H.optionalInput.seq <| (H.emit (ordinary_plain (by decide))).seq .pure

section Mix

variable {a b factor : Operand} [Entails P (H.value a)] [Entails P (H.value b)] [Entails P (H.value factor)]

theorem interpolate : Agrees P (interpolate a b factor) H.value := by
  refine H.optionalInput.seq <| H.optionalInput.seq ?_
  exact H.optionalInput.seq <| (H.emit (ordinary_plain (by decide))).seq .pure

theorem blend {out : SocketRef} : Agrees P (blend out a b factor) H.value := by
  refine .bindSteady fun way => .bindChoose fun x hx => ?_
  refine H.optionalInput.seq <| H.optionalInput.seq ?_
  refine H.optionalInput.seq <| (H.emit (ordinary_call (isPath_blends x hx))).seq ?_
  exact .bindSteady fun clamp => H.saturateIf.seq .pure

end Mix

theorem handles_mix : H.Handles mix := by
  refine H.handlesOf fun hVisit => ?_
  refine .bindSteady fun dataType => .bindSteady fun byAxis => ?_
  refine hVisit.nth.seq <| .bindSteady fun clamp => ?_
  refine H.saturateOperand.seq ?_
  refine .ite (fun _ => ?_) fun _ => .ite (fun _ => ?_) fun _ => .ite (fun _ => ?_) fun _ => .fail
  · exact hVisit.nth.seq <| hVisit.nth.seq <| H.interpolate
  · exact hVisit.nthForced.seq <| hVisit.nthForced.seq <| H.interpolate
  · exact hVisit.nth.seq <| hVisit.nth.seq <| H.blend

theorem handles_of_converterHandler? {handler : Handler}
    (hAny : handler? (H.forest.node (nodeOf out)).kind = some handler)
    (h : converterHandler? (H.forest.node (nodeOf out)).kind = some handler) : H.HandlesAt handler out := by
  unfold converterHandler? at h
  split at h <;> cases h
  · exact H.handles_blackbody out
  · exact H.handles_clamp out
  · exact H.handles_combineXyz out
  · exact H.handles_combineRgb out
  · exact H.handles_combineHsv out
  · exact H.handles_combineColor out
  · exact H.handles_separateXyz out hAny
  · exact H.handles_separateRgb out hAny
  · exact H.handles_separateHsv out hAny
  · exact H.handles_separateColor out hAny
  · exact H.handles_grayscale out
  · exact H.handles_mapRange out
  · exact H.handles_math out
  · exact H.handles_vectorMath out
  · exact H.handles_shaderToRgb out
  · exact H.handles_mix out

end Converters

section Inputs

variable {out : SocketRef}

theorem handles_ambientOcclusion : H.Handles ambientOcclusion := by
  refine H.handlesOf fun hVisit => ?_
  refine .bindSteady fun name => ?_
  split
  · exact H.write.seq <| hVisit.named
  · exact H.write.seq <| H.emitReal.seq <| H.ref
  · exact H.write.seq .pure

theorem appendAlpha {e : Int} [Entails P (H.position e)] : Agrees P (appendAlpha e) H.position :=
  H.emit (ordinary_plain (by decide))

theorem handles_meshAttribute : H.Handles meshAttribute := by
  refine H.handlesOf fun _ => ?_
  refine (H.emit (ordinary_plain (by decide))).seq <| .bindSteady fun name => ?_
  split
  · exact H.emitTriple.seq <| H.emitRef (ordinary_plain (by decide))
  · exact H.ref
  · exact H.appendAlpha.seq <| H.ref

theorem handles_vertexColor : H.Handles vertexColor := by
  refine H.handlesOf fun _ => ?_
  refine (H.emit (ordinary_plain (by decide))).seq <| .bindSteady fun name => ?_
  split
  · exact H.appendAlpha.seq <| H.refOutput
  · exact H.refOutput
  · exact .pure

theorem handles_bevel : H.Handles bevel := by
  refine H.handlesOf fun hVisit => ?_
  refine H.warnOnce.seq <| hVisit.named.seq ?_
  refine H.present.seq <| .ite (fun _ => .pure) fun _ => ?_
  exact H.emitTriple.seq <| H.ref

theorem handles_fresnel : H.Handles fresnel :=
  H.handlesOf fun hVisit => hVisit.inputs.seq <| H.emitRef (ordinary_content (by decide))

theorem handles_geometry : H.Handles geometry := by
  refine H.handlesOf fun _ => ?_
  refine .bindSteady fun name => ?_
  split
  · exact H.emitRef (ordinary_content (by decide))
  · exact H.emitRef (ordinary_plain (by decide))
  · exact H.emitRef (ordinary_plain (by decide))
  · exact H.emitRef (ordinary_content (by decide))
  · exact H.emitRef (ordinary_content (by decide))
  · exact H.showBothSides.seq <| H.emitRef (ordinary_content (by decide))
  · exact H.warnOnce.seq <| H.emitReal.seq <| H.ref
  · exact H.warnOnce.seq <| H.emitReal.seq <| H.ref
  · exact H.warnOnce.seq <| H.emitReal.seq <| H.ref
  · exact .pure

theorem layerWeightExpression {visit visit' : Visit} (hVisit : H.Visits visit visit') {r : NodeRef}
    [Entails P (H.inside r)] : Agree P (layerWeightExpression visit r) (layerWeightExpression visit' r) H.position := by
  refine hVisit.named.seq <| H.input.seq ?_
  refine hVisit.namedSilent.seq <| H.present.bind fun b => ?_
  refine (H.membersIf (A := H.part) (H.input.seq .pure)).seq ?_
  exact H.emit (ordinary_content (by decide))

def layerOutput (out : SocketRef) (e : Int) : Compile Operand := do
  match ← outputName out with
  | "Fresnel" => refOutput e 0
  | "Facing" => refOutput e 1
  | _ =>
    write .error "LAYER_WEIGHT node from unknown socket"
    refOutput e 0

theorem agree_layerOutput {e : Int} [Entails P (H.position e)] : Agrees P (layerOutput out e) H.value := by
  refine .bindSteady fun name => ?_
  split
  · exact H.refOutput
  · exact H.refOutput
  · exact H.write.seq <| H.refOutput

theorem handles_layerWeight (hKind : (H.forest.node (nodeOf out)).kind = "LAYER_WEIGHT") :
    H.HandlesAt layerWeight out := by
  intro visit visit' hVisit hShares P _ _ _
  exact (hShares.node hKind @fun Q _ => H.layerWeightExpression hVisit).seq <| H.agree_layerOutput

theorem handles_lightPath : H.Handles lightPath := by
  refine H.handlesOf fun _ => ?_
  refine .bindSteady fun name => H.warnOnce.seq ?_
  exact H.emitReal.seq <| H.ref

theorem handles_particleInfo : H.Handles particleInfo := by
  refine H.handlesOf fun _ => ?_
  refine .bindSteady fun name => H.warnOnce.seq ?_
  exact H.emitReal.seq <| H.refOutput

theorem handles_rgb (hKind : (H.forest.node (nodeOf out)).kind = "RGB") : H.HandlesAt rgb out := by
  intro visit visit' hVisit _ P _ _ _
  refine .bindRead (.bindNode ?_)
  have hLabel (hHolds : (Datum.text (H.forest.node (nodeOf out)).label).holds) : IsLabel H.forest _ :=
    ⟨nodeOf out, by simp [labelledKinds, hKind], rfl, hHolds⟩
  exact (H.emitColorValue hLabel).seq .pure

theorem firstLayer : Agrees P firstLayer H.value :=
  H.layerCoordinates (by decide +kernel) (by decide +kernel) (by decide +kernel)

theorem handles_coordinates : H.Handles coordinates := by
  refine H.handlesOf fun _ => ?_
  refine .bindSteady fun name => ?_
  split
  · exact H.generated
  · exact H.emitRef (ordinary_plain (by decide))
  · exact H.firstLayer
  · exact H.emitRef (ordinary_content (by decide))
  · exact H.emitRef (ordinary_content (by decide))
  · exact H.emitRef (ordinary_content (by decide))
  · exact H.emitRef (ordinary_plain (by decide))
  · exact .pure

theorem handles_layer : H.Handles layer :=
  H.handlesOf fun _ => H.isOwned.seq <| .ite (fun _ => H.firstLayer) fun _ => .fail

theorem handles_number (hKind : (H.forest.node (nodeOf out)).kind = "VALUE") : H.HandlesAt number out := by
  intro visit visit' hVisit _ P _ _ _
  refine .bindRead (.bindLift fun text hText => .bindNode ?_)
  have hOrdinary : Ordinary H.forest "Scalar" ([("constant", .text text)] ++
      if (H.forest.node (nodeOf out)).label.isEmpty then [] else [("Name", .text (H.forest.node (nodeOf out)).label)]) := by
    split
    · exact ordinary_constant (by decide) (clean_of_scalarText hText)
    · rename_i hLabel
      have hHolds : (Datum.text (H.forest.node (nodeOf out)).label).holds := by simpa [Datum.holds] using hLabel
      exact ordinary_named (by decide) (clean_of_scalarText hText) ⟨nodeOf out, by simp [labelledKinds, hKind], rfl, hHolds⟩
  exact H.emitRef hOrdinary

theorem handles_wireframe : H.Handles wireframe :=
  H.handlesOf fun _ => H.warnOnce.seq <| H.emitReal.seq <| H.ref

theorem handles_objectInfo : H.Handles objectInfo := by
  refine H.handlesOf fun _ => ?_
  refine .bindSteady fun name => ?_
  split
  · exact H.warnOnce.seq <| (H.emit (ordinary_content (by decide))).seq <| H.refOutput
  · exact H.warnOnce.seq <| H.emitTriple.seq <| H.refOutput
  · exact H.warnOnce.seq <| H.emitReal.seq <| H.refOutput
  · exact H.warnOnce.seq <| (H.emit (ordinary_plain (by decide))).seq <| H.refOutput
  · exact H.warnOnce.seq <| H.emitReal.seq <| H.refOutput
  · exact H.warnOnce.seq <| (H.emit (ordinary_plain (by decide))).seq <| H.refOutput
  · exact H.errorOnce.seq <| H.refOutput

theorem handles_of_inputHandler? {handler : Handler}
    (h : inputHandler? (H.forest.node (nodeOf out)).kind = some handler) : H.HandlesAt handler out := by
  unfold inputHandler? at h
  split at h <;> cases h
  · exact H.handles_ambientOcclusion out
  · exact H.handles_meshAttribute out
  · exact H.handles_vertexColor out
  · exact H.handles_bevel out
  · exact H.handles_fresnel out
  · exact H.handles_geometry out
  · exact H.handles_layerWeight ‹_›
  · exact H.handles_lightPath out
  · exact H.handles_objectInfo out
  · exact H.handles_particleInfo out
  · exact H.handles_rgb ‹_›
  · exact H.handles_coordinates out
  · exact H.handles_layer out
  · exact H.handles_number ‹_›
  · exact H.handles_wireframe out

end Inputs

section Vectors

variable {out : SocketRef}

theorem handles_bump : H.Handles bump := by
  refine H.handlesOf fun hVisit => ?_
  refine .bindSteady fun invert => H.emitReal.seq ?_
  refine (H.within (.inr rfl) hVisit.optionalInputs).seq ?_
  refine hVisit.namedSilent.seq <| H.optionalInput.seq ?_
  exact H.emitRef (ordinary_content (by decide))

theorem handles_mapping : H.Handles mapping := by
  refine H.handlesOf fun hVisit => ?_
  refine .bindSteady fun vectorType => .bindChoose fun x hx => hVisit.named.seq ?_
  refine hVisit.named.seq <| hVisit.named.seq ?_
  refine H.input.seq <| (H.membersIf hVisit.inputs).seq ?_
  refine H.input.seq <| H.input.seq ?_
  exact H.emitRef (ordinary_call (isPath_mappings x hx))

theorem handles_normal : H.Answers normal := by
  refine H.answers_stationed (fun _ _ _ _ _ => rfl) fun hVisit => ?_
  refine .bindRead (H.emitVectorValue.seq <| ?_)
  refine hVisit.nth.seq <| H.optionalInput.seq ?_
  exact (H.emit (ordinary_content (by decide))).seq .pure

theorem handles_normalMap : H.Handles normalMap := by
  refine H.handlesOf fun hVisit => ?_
  refine hVisit.named.seq <| .bindRead (.bindLift fun p hp => ?_)
  refine (H.within (.inl rfl) (hVisit.at_field (nodeOf_inputNamed hp))).seq ?_
  refine H.optionalInput.seq <| H.optionalInput.seq ?_
  exact H.emitRef (ordinary_content (by decide))

theorem bindPosition {choices : List String} {d : Datum} {β : Type} {k k' : Int → Compile β} {A : β → H.Fact}
    (h : ∀ n [OutputNumber n], Agree P (k n) (k' n) A) :
    Agree P (position choices d >>= k) (position choices d >>= k') A := by
  unfold position
  split
  · split
    · exact h _
    · exact .fail
  · exact .fail

theorem handles_vectorTransform : H.Handles vectorTransform := by
  refine H.handlesOf fun hVisit => ?_
  refine hVisit.nth.seq <| .bindSteady fun origin => .bindSteady fun target => ?_
  refine .ite (fun _ => .pure) fun _ => .bindChoose fun origin hOrigin => .bindChoose fun target hTarget => ?_
  refine H.optionalInput.seq <| .bindSteady fun vectorType => ?_
  refine H.bindPosition fun output _ => (H.onlyIf H.warnOnce).bind fun _ => ?_
  have hName : ("VectorTransform" ++ origin.2 ++ "To" ++ target.2).toList.head? = some 'V' :=
    head?_append (head?_append (head?_append (by decide)))
  have hSpaces : ∀ x ∈ Function.spaces, Clean x.2 := by decide
  have hClean : Clean ("VectorTransform" ++ origin.2 ++ "To" ++ target.2) :=
    clean_append (clean_append (clean_append (by decide) (hSpaces _ hOrigin)) (by decide)) (hSpaces _ hTarget)
  exact (H.emit (ordinary_of_head 'V' hName hClean (by decide))).seq <| H.refOutput

theorem rotationAxis {visit visit' : Visit} (hVisit : H.Visits visit visit') {r : NodeRef} {d : Datum}
    [Entails P (H.inside r)] :
    Agree P (rotationAxis visit r d) (rotationAxis visit' r d) H.parts := by
  refine .ite (fun _ => ?_) fun _ => .ite (fun _ => ?_) fun _ => .ite (fun _ => ?_) fun _ => ?_
  · exact H.emitTriple.seq .pure
  · exact H.emitTriple.seq .pure
  · exact H.emitTriple.seq .pure
  · exact hVisit.namedForced.seq <| H.optionalInput

theorem handles_vectorRotate : H.Handles vectorRotate := by
  refine H.handlesOf fun hVisit => ?_
  refine .bindSteady fun rotationType => .bindSteady fun invert => H.emitReal.seq ?_
  refine hVisit.named.seq <| H.optionalInput.seq ?_
  refine hVisit.namedForced.seq <| H.optionalInput.seq ?_
  refine .ite (fun _ => ?_) fun _ => ?_
  · refine hVisit.named.seq <| H.optionalInput.seq ?_
    exact H.emitRef (ordinary_content (by decide))
  · refine (H.rotationAxis hVisit).seq ?_
    refine hVisit.named.seq <| H.optionalInput.seq ?_
    exact H.emitRef (ordinary_content (by decide))

theorem handles_of_vectorHandler? {handler : Handler} (hAny : handler? (H.forest.node (nodeOf out)).kind = some handler)
    (h : vectorHandler? (H.forest.node (nodeOf out)).kind = some handler) : H.HandlesAt handler out := by
  unfold vectorHandler? at h
  split at h <;> cases h
  · exact H.handles_bump out
  · exact H.handles_mapping out
  · exact H.handles_normal out hAny
  · exact H.handles_normalMap out
  · exact H.handles_vectorTransform out
  · exact H.handles_vectorRotate out

end Vectors

section Textures

variable {visit visit' : Visit} {r : NodeRef} {out : SocketRef} {names : List String}

theorem turnCoordinates {axes : List Datum} {o : Operand} {generate : Compile Operand}
    [Entails P (H.value o)] (hGenerate : Agrees P generate H.value) :
    Agrees P (turnCoordinates axes o generate) H.value :=
  .ite (fun _ => .pure) fun _ => (H.presentOr hGenerate).seq <| H.exchangeAxes

def Generates (generate : Compile Operand) : Prop := ∀ P : H.Fact, Agrees P generate H.value

theorem mappedCoordinates (hVisit : H.Visits visit visit') {p : SocketRef} (hNode : nodeOf p = r)
    {generate : Compile Operand} {always : Bool} (hGenerate : H.Generates generate) [Entails P (H.inside r)] :
    Agree P (mappedCoordinates visit p generate always) (mappedCoordinates visit' p generate always) H.value := by
  refine .bindRead (.iteBind (fun _ => hVisit.at_field hNode) (fun _ => .pure) fun o => ?_)
  refine .iteBind (fun _ => hGenerate _) (fun _ => .pure) fun _ => ?_
  refine (H.turnCoordinates (hGenerate _)).seq <| .ite (fun _ => .pure) fun _ => ?_
  exact (H.presentOr (hGenerate _)).seq <| H.placeCoordinates

theorem proceduralCoordinates (hVisit : H.Visits visit visit') {always : Bool}
    [Entails P (H.inside (nodeOf out))] : Agree P (Handlers.proceduralCoordinates visit out always)
      (Handlers.proceduralCoordinates visit' out always) H.value :=
  .bindRead (.bindLift fun _ hp => H.mappedCoordinates hVisit (nodeOf_inputNamed hp) fun _ => H.generated)

theorem handles_brick : H.Answers brick := by
  refine H.answers_stationed (fun _ _ _ _ _ => rfl) fun hVisit => ?_
  refine (H.proceduralCoordinates hVisit).seq <| H.optionalInput.seq ?_
  refine hVisit.optionalInputs.seq ?_
  refine .bindSteady fun d => H.emitScalar.seq ?_
  refine .bindSteady fun d => H.emitScalar.seq ?_
  refine .bindSteady fun d => H.emitScalar.seq ?_
  refine .bindSteady fun d => H.emitScalar.seq ?_
  exact (H.emit (ordinary_content (by decide))).seq .pure

theorem handles_checker : H.Answers checker := by
  refine H.answers_stationed (fun _ _ _ _ _ => rfl) fun hVisit => ?_
  refine (H.proceduralCoordinates hVisit).seq <| H.optionalInput.seq ?_
  refine hVisit.optionalInputs.seq ?_
  exact (H.emit (ordinary_content (by decide))).seq .pure

theorem isPath_gradients : ∀ x ∈ Function.gradients, IsPath x.2 := by
  repeat refine isPath_cons (by decide) ?_
  exact forall_mem_nil _

theorem handles_gradient : H.Answers gradient := by
  refine H.answers_stationed (fun _ _ _ _ _ => rfl) fun hVisit => ?_
  refine .bindSteady fun way => .bindChoose fun x hx => ?_
  refine (H.proceduralCoordinates hVisit).seq <| H.optionalInput.seq ?_
  exact (H.emit (ordinary_call (isPath_gradients x hx))).seq .pure

theorem emitProjection {d : Datum} {project : List Part → Expression}
    (h : projection? d = some project) {ps : List Part} [Entails P (H.parts ps)] :
    Agrees P (emit (project ps)) H.position := by
  unfold projection? at h
  split_ifs at h <;> cases h
  · exact H.emit (ordinary_plain (by decide))
  · exact H.emit (ordinary_content (by decide))
  · exact H.emit (ordinary_content (by decide))
  · exact H.emit (ordinary_content (by decide))

theorem imageCoordinates {o : Operand} [Entails P (H.value o)] : Agrees P (imageCoordinates out o) H.parts := by
  refine H.present.seq <| .ite (fun _ => ?_) fun _ => .pure
  refine .bindSteady fun d => ?_
  split
  · exact H.write.seq .fail
  · rename_i project hProject
    refine H.optionalInput.seq ?_
    refine (H.emitProjection hProject).seq ?_
    exact (H.emit (ordinary_content (by decide))).seq .pure

theorem decodeNormal {c : Bool} {e : Int} [Entails P (H.position e)] : Agrees P (decodeNormal c e) H.position :=
  .ite (fun _ => H.emit (ordinary_content (by decide))) fun _ => .pure

theorem imageStation (hVisit : H.Visits visit visit') {image : Nat} [Entails P (H.inside (nodeOf out))] :
    Agree P (Handlers.imageStation image visit out) (Handlers.imageStation image visit' out) H.station := by
  refine H.context.bind fun current => H.enterTexture.bind fun name => ?_
  refine .bindRead (.bindLift fun p hp => ?_)
  refine (H.mappedCoordinates hVisit (nodeOf_inputNamed hp) fun _ => H.firstLayer).seq <|
    H.imageCoordinates.seq ?_
  refine H.emitTexture.seq <| H.decodeNormal.seq ?_
  exact (H.onlyIf H.rememberHeight).seq .pure

theorem stationed_image {f : Forest} (hAny : handler? (f.node r).kind = some Handlers.image) {image : Nat}
    (hImage : (f.node r).image = .given image) : Stationed f r (Handlers.imageStation image) := by
  refine stationed_of_outcome hAny (fun visit out s hNode => ?_) fun _ _ _ _ _ => rfl
  subst hNode
  rw [Handlers.image, outcome_bind_ok (outcome_theNode out), hImage]

theorem handles_image (hAny : handler? (H.forest.node (nodeOf out)).kind = some Handlers.image) :
    H.HandlesAt Handlers.image out := by
  intro visit visit' hVisit hShares P hOut _ _
  refine .bindNode ?_
  split
  · exact .fail
  · exact H.emitReal.seq <| H.ref
  · exact hShares.station (stationed_image hAny ‹_›) hOut @fun Q _ => H.imageStation hVisit

theorem handles_magic : H.Answers magic := by
  refine H.answers_stationed (fun _ _ _ _ _ => rfl) fun hVisit => ?_
  refine (H.proceduralCoordinates hVisit).seq <| H.optionalInput.seq ?_
  refine hVisit.optionalInputs.seq ?_
  refine .bindSteady fun d => H.emitScalar.seq ?_
  exact (H.emit (ordinary_content (by decide))).seq .pure

class Prose (s : String) : Prop where
  chars : ∀ c ∈ s.toList, isProse c
  clean : Clean s

instance {s t : String} [h : Prose s] [h' : Prose t] : Prose (s ++ t) := by
  refine ⟨fun c hc => ?_, clean_append h.clean h'.clean⟩
  obtain hc | hc := mem_append.mp (String.toList_append ▸ hc)
  · exact h.chars c hc
  · exact h'.chars c hc

instance : Prose "0" := ⟨by decide, by decide⟩
instance : Prose "Vector" := ⟨by decide, by decide⟩
instance : Prose "W" := ⟨by decide, by decide⟩
instance : Prose "Scale" := ⟨by decide, by decide⟩
instance : Prose "Detail" := ⟨by decide, by decide⟩
instance : Prose "Dimension" := ⟨by decide, by decide⟩
instance : Prose "Lacunarity" := ⟨by decide, by decide⟩
instance : Prose "Offset" := ⟨by decide, by decide⟩
instance : Prose "Gain" := ⟨by decide, by decide⟩

def argument (a : Handlers.Argument) : H.Fact :=
  (pure (Prose a.name)).and (.option (.pure True) H.value a.operand)

instance {name : String} [hName : Prose name] {o : Operand} [h : Entails P (H.value o)] :
    Entails P (H.argument ⟨name, some o⟩) :=
  ⟨fun hP => ⟨hName, h.entails hP⟩⟩

instance : Entails P (H.argument ⟨"0", none⟩) := ⟨fun _ => ⟨inferInstanceAs (Prose "0"), trivial⟩⟩

theorem argumentStep (hVisit : H.Visits visit visit') {name : String} [Prose name] {used : Bool}
    [Entails P (H.inside r)] :
    Agree P (Handlers.argument visit r name used) (Handlers.argument visit' r name used) H.argument := by
  refine .ite (fun _ => ?_) fun _ => .pure
  exact hVisit.named.seq <| H.present.seq <| .bindSteady fun _ => .pure

theorem vectorArgument (hVisit : H.Visits visit visit') {dimensions : String} [Entails P (H.inside (nodeOf out))] :
    Agree P (vectorArgument visit out dimensions) (vectorArgument visit' out dimensions)
      fun x => (H.parts x.1).and (H.argument x.2) :=
  .ite (fun _ => (H.proceduralCoordinates hVisit).seq <| H.optionalInput.seq .pure) fun _ => .pure

theorem fedArguments_hold {w : H.World} {as : List Handlers.Argument} (h : (each H.argument as).holds w) :
    ∀ x ∈ fedArguments as, Prose x.1 ∧ (H.value x.2).holds w := by
  intro x hx
  obtain ⟨a, ha, hSome⟩ := mem_filterMap.mp hx
  obtain ⟨o, hOperand, rfl⟩ := map_eq_some_iff.mp hSome
  obtain ⟨hName, hValue⟩ := h a ha
  rw [hOperand] at hValue
  exact ⟨hName, hValue⟩

theorem entails_declarations (hNames : ∀ name ∈ names, Prose name) : Entails P (H.parts (declarations names)) := by
  refine ⟨fun _ p hp => ?_⟩
  obtain ⟨⟨name, i⟩, hMem, rfl⟩ := mem_map.mp hp
  exact .element (.argument i (hNames name (mem_of_getElem? (mem_zipIdx_iff_getElem?.mp hMem))).clean)

theorem prose_callingCode {function : String} [hFunction : Prose function] (hNames : ∀ name ∈ names, Prose name) :
    ∀ c ∈ (callingCode function names).toList, isProse c := by
  have hComma : Prose ", " := ⟨by decide, by decide⟩
  have hJoined : Prose (", ".intercalate names) := by
    induction names with
    | nil => exact ⟨by simp, by decide⟩
    | cons name names ih =>
      obtain ⟨hName, hNames⟩ := forall_mem_cons.mp hNames
      cases names with
      | nil => rwa [String.intercalate_singleton]
      | cons other names =>
        have := ih hNames
        rw [String.intercalate_cons_cons]
        infer_instance
  have : Prose "float r; " := ⟨by decide, by decide⟩
  have : Prose "(" := ⟨by decide, by decide⟩
  have : Prose ", r); return r;" := ⟨by decide, by decide⟩
  have hCode : Prose ("float r; " ++ function ++ "(" ++ ", ".intercalate names ++ ", r); return r;") := inferInstance
  exact hCode.chars

theorem entails_customParts (function : String) [Prose function] (hNames : ∀ name ∈ names, Prose name)
    {declared : List String} (hDeclared : ∀ name ∈ declared, Prose name) (head inputs : List Part)
    [Entails P (H.parts head)] [Entails P (H.parts inputs)] :
    Entails P (H.parts (customParts function names declared head inputs)) := by
  have hOpening : Entails P (H.part (.element (.leaf "Include"
      [("path", .text "/Plugin/DatasmithBlenderContent/BlenderMaterialTexMusgrave.ush")]))) :=
    ⟨fun _ => .element (.opening (by decide +kernel))⟩
  have hCode : Entails P (H.part (.element (.mk "Code" [] [.datum (.text (callingCode function names))]))) :=
    ⟨fun _ => .element (.code (prose_callingCode hNames))⟩
  have := H.entails_declarations (P := P) hDeclared
  exact .cons

theorem emitCustom {function : String} [hFunction : Prose function] {head : List Part} {as : List Handlers.Argument}
    [Entails P (H.parts head)] [h : Entails P (.each H.argument as)] :
    Agrees P (emitCustom function head as) H.value := by
  have hFed {w : H.World} (hP : P.holds w) := H.fedArguments_hold (h.entails hP)
  have : Entails P (.pure (∀ name ∈ as.map (·.name), Prose name)) :=
    ⟨fun hP => forall_mem_map.mpr fun a ha => (h.entails hP a ha).1⟩
  have : Entails P (.pure (∀ name ∈ (fedArguments as).map Prod.fst, Prose name)) :=
    ⟨fun hP => forall_mem_map.mpr fun x hx => (hFed hP x hx).1⟩
  have : Entails P (.each H.value ((fedArguments as).map Prod.snd)) :=
    ⟨fun hP => forall_mem_map.mpr fun x hx => (hFed hP x hx).2⟩
  refine .given (p := ∀ name ∈ as.map (·.name), Prose name) fun hNames => ?_
  refine .given (p := ∀ name ∈ (fedArguments as).map Prod.fst, Prose name) fun hDeclared => ?_
  refine H.numberedInputs.bind fun inputs => ?_
  have := H.entails_customParts (P := P.and (H.parts inputs)) function hNames hDeclared head inputs
  have hOrdinary : Ordinary H.forest "Custom" [("Description", .text function), ("OutputType", .text "1")] :=
    ordinary_of_keys (by decide) (by simp [attributeKeys]) (by simp)
      (by simpa using ⟨plain_text (by decide) hFunction.clean, plain_text (by decide) (by decide)⟩)
  exact H.emitRef hOrdinary

theorem handles_musgrave : H.Handles Handlers.musgrave := by
  refine H.handlesOf fun hVisit => ?_
  refine .bindSteady fun d => .bindChoose fun variety hVariety => .bindSteady fun d => ?_
  refine .bindChoose fun dimensions hDimensions => ?_
  have hVarieties : ∀ x ∈ Function.musgraves, (∀ c ∈ x.2.toList, isProse c) ∧ Clean x.2 := by decide
  have hAll : ∀ x ∈ Function.dimensions, (∀ c ∈ x.2.toList, isProse c) ∧ Clean x.2 := by decide
  have : Prose variety.2 := ⟨(hVarieties variety hVariety).1, (hVarieties variety hVariety).2⟩
  have : Prose dimensions.2 := ⟨(hAll dimensions hDimensions).1, (hAll dimensions hDimensions).2⟩
  have : Prose "node_tex_musgrave_" := ⟨by decide, by decide⟩
  have : Prose "_" := ⟨by decide, by decide⟩
  refine (H.vectorArgument hVisit).seq ?_
  refine (H.argumentStep hVisit).seq <| (H.argumentStep hVisit).seq ?_
  refine (H.argumentStep hVisit).seq ?_
  refine (H.argumentStep hVisit).seq ?_
  refine (H.argumentStep hVisit).seq ?_
  refine (H.argumentStep hVisit).seq <| (H.argumentStep hVisit).seq ?_
  exact H.emitCustom

theorem clean_dimensions : ∀ x ∈ Function.dimensions, Clean x.2 := by decide

theorem requiredInputs (hVisit : H.Visits visit visit') {start : Nat} [Entails P (H.inside r)] :
    Agree P (requiredInputs visit r start names) (requiredInputs visit' r start names) H.parts := by
  refine .bind (A := .each H.parts) (.mapM fun x _ => ?_) fun _ => .pure
  exact hVisit.namedSilent.seq <| H.present.seq <| .bindSteady fun _ => H.optionalInput

theorem dimensionCoordinates (hVisit : H.Visits visit visit') {c : Bool} [Entails P (H.inside (nodeOf out))] :
    Agree P (membersIf c do optionalInput "0" (← Handlers.proceduralCoordinates visit out true))
      (membersIf c do optionalInput "0" (← Handlers.proceduralCoordinates visit' out true)) H.parts :=
  H.membersIf ((H.proceduralCoordinates hVisit).seq <| H.optionalInput)

theorem handles_noise : H.Answers noise := by
  refine H.answers_stationed (fun _ _ _ _ _ => rfl) fun hVisit => ?_
  refine .bindSteady fun d => .bindChoose fun dimensions hDimensions => ?_
  refine (H.dimensionCoordinates hVisit).seq ?_
  refine (H.requiredInputs hVisit).bind fun _ => ?_
  have hClean : Clean ("TexNoise_" ++ dimensions.2) := clean_append (by decide) (clean_dimensions _ hDimensions)
  exact (H.emit (ordinary_of_head 'T' (head?_append (by decide)) hClean (by decide))).seq .pure

theorem handles_sky : H.Handles sky :=
  H.handlesOf fun _ => H.warnOnce.seq <| H.emitReal.seq <| H.ref

theorem handles_voronoi : H.Answers voronoi := by
  refine H.answers_stationed (fun _ _ _ _ _ => rfl) fun hVisit => ?_
  refine .bindSteady fun d => .bindChoose fun dimensions hDimensions => ?_
  refine .bindSteady fun feature => .bindChoose fun variety hVariety => ?_
  refine (H.dimensionCoordinates hVisit).seq ?_
  refine (H.requiredInputs hVisit).seq <| .bindSteady fun metric => ?_
  refine (H.membersIf (H.requiredInputs hVisit)).seq ?_
  refine (H.requiredInputs hVisit).seq ?_
  refine (H.membersIf (A := H.part) (.bindSteady fun number => ?_)).bind fun _ => ?_
  · exact H.emitReal.seq .pure
  · have hName : ("TexVoronoi_" ++ variety.2 ++ "_" ++ dimensions.2).toList.head? = some 'T' :=
      head?_append (head?_append (head?_append (by decide)))
    have hVarieties : ∀ x ∈ Function.voronois, Clean x.2 := by decide
    have hClean : Clean ("TexVoronoi_" ++ variety.2 ++ "_" ++ dimensions.2) :=
      clean_append (clean_append (clean_append (by decide) (hVarieties _ hVariety)) (by decide))
        (clean_dimensions _ hDimensions)
    exact (H.emit (ordinary_of_head 'T' hName hClean (by decide))).seq .pure

instance (out : SocketRef) : Steady (waveNumbers out) := by
  unfold waveNumbers
  infer_instance

theorem handles_wave : H.Answers wave := by
  refine H.answers_stationed (fun _ _ _ _ _ => rfl) fun hVisit => ?_
  refine .bindSteady fun numbers => .bindSteady fun d => .bindSteady fun profile => ?_
  refine (H.proceduralCoordinates hVisit).seq <| H.optionalInput.seq ?_
  refine hVisit.optionalInputs.seq <| H.emitReal.seq ?_
  refine H.emitScalar.seq <| H.emitScalar.seq ?_
  exact (H.emit (ordinary_content (by decide))).seq .pure

theorem handles_whiteNoise : H.Answers whiteNoise := by
  refine H.answers_stationed (fun _ _ _ _ _ => rfl) fun hVisit => ?_
  refine .bindSteady fun d => .bindChoose fun dimensions hDimensions => ?_
  refine (H.membersIf (hVisit.namedSilent.seq <| H.optionalInput)).bind fun _ => ?_
  have : InputName (if dimensions.2 == "1d" then "0" else "1") := by split <;> infer_instance
  refine (H.membersIf (hVisit.namedSilent.seq <| H.optionalInput)).bind fun _ => ?_
  have hClean : Clean ("TexWhiteNoise_" ++ dimensions.2) := clean_append (by decide) (clean_dimensions _ hDimensions)
  exact (H.emit (ordinary_of_head 'T' (head?_append (by decide)) hClean (by decide))).seq .pure

theorem handles_of_textureHandler? {handler : Handler}
    (hAny : handler? (H.forest.node (nodeOf out)).kind = some handler)
    (h : textureHandler? (H.forest.node (nodeOf out)).kind = some handler) : H.HandlesAt handler out := by
  unfold textureHandler? at h
  split at h <;> cases h
  · exact H.handles_brick out hAny
  · exact H.handles_checker out hAny
  · exact H.handles_gradient out hAny
  · exact H.handles_image hAny
  · exact H.handles_magic out hAny
  · exact H.handles_musgrave out
  · exact H.handles_noise out hAny
  · exact H.handles_sky out
  · exact H.handles_voronoi out hAny
  · exact H.handles_wave out hAny
  · exact H.handles_whiteNoise out hAny

end Textures

theorem handles_of_valueHandler? {out : SocketRef} {handler : Handler}
    (hAny : handler? (H.forest.node (nodeOf out)).kind = some handler)
    (h : valueHandler? (H.forest.node (nodeOf out)).kind = some handler) : H.HandlesAt handler out := by
  simp only [valueHandler?, orElse_eq_orElse, orElse_eq_or, or_eq_some_iff] at h
  obtain h | ⟨-, h | ⟨-, h | ⟨-, h | ⟨-, h⟩⟩⟩⟩ := h
  · exact H.handles_of_inputHandler? h
  · exact H.handles_of_textureHandler? hAny h
  · exact H.handles_of_colorHandler? h
  · exact H.handles_of_vectorHandler? hAny h
  · exact H.handles_of_converterHandler? hAny h

end SceneExchange.Material.Handling
