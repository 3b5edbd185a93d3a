import SceneExchange.Proofs.Handlers

/-!
# Compilation of a forest, side by side

The handlers of shaders agree with themselves as those of values do, and so does every step from an
output to a field. A compilation adds the tables and the groups to a handling. By induction on the
fuel, compiling a field from related sessions gives the same operand in every compilation.
-/

namespace SceneExchange.Material

open SceneExchange.Graph Compile Material.Frame List Handlers Material Option Forest

namespace Handling

variable (H : Handling) {P : H.Fact}
variable {kind : String} {visit visit' : Visit} {r : NodeRef} {out : SocketRef}

section Surfaces

variable {visit visit' : Visit} (hVisit : H.Visits visit visit') {r : NodeRef}

theorem inputNamed?_node {f : Forest} {name : String} {p : SocketRef} (h : f.inputNamed? r name = some p) :
    nodeOf p = r := by
  obtain ⟨i, -, rfl⟩ := map_eq_some_iff.mp h
  rfl

theorem inputOr_node {f : Forest} {first second : String} {p : SocketRef}
    (h : inputOr f r first second = .ok p) : nodeOf p = r := by
  unfold inputOr at h
  split at h
  · cases h
    exact inputNamed?_node ‹_›
  · exact nodeOf_inputNamed h

instance (p : SocketRef) (n : Int) : Steady (isInUse p n) := by
  unfold isInUse
  infer_instance

theorem constantChannel {channel : String} {x : Float} (hChannel : channel ∈ channelNames) :
    Agrees P (constantChannel channel x) H.channels := by
  have : KnownChannel channel := ⟨hChannel⟩
  exact H.emitReal.seq <| H.ref.seq .pure

theorem holdout : Agrees P holdout H.channels := by
  refine H.emitTriple.seq <| H.ref.seq ?_
  exact (H.constantChannel (by decide)).seq .pure

include hVisit
variable [Entails P (H.inside r)]

theorem fieldChannel {channel field : String} (hChannel : channel ∈ channelNames) :
    Agree P (fieldChannel visit r channel field) (fieldChannel visit' r channel field) H.channels := by
  have : KnownChannel channel := ⟨hChannel⟩
  exact hVisit.named.seq .pure

theorem principledEmission : Agree P (principledEmission visit r) (principledEmission visit' r) H.channels := by
  refine .bindRead (.bindLift fun color hColor => .bindRead (.bindLift fun strength hStrength => ?_))
  refine .bindSteady fun isUsed => .ite (fun _ => ?_) fun _ => ?_
  · refine (hVisit.at_field (inputOr_node hColor)).seq <| H.input.seq ?_
    refine (hVisit.at_field (nodeOf_inputNamed hStrength)).seq ?_
    exact H.input.seq <| (H.emitRef (ordinary_plain (by decide))).seq .pure
  · exact (hVisit.at_field (inputOr_node hColor)).seq .pure

theorem principledCoat : Agree P (principledCoat visit r) (principledCoat visit' r) H.channels := by
  refine .bindRead (.bindLift fun coat hCoat => ?_)
  refine .bindSteady fun isUsed => .ite (fun _ => ?_) fun _ => .pure
  refine (hVisit.at_field (inputOr_node hCoat)).seq ?_
  refine .bindRead (.bindLift fun p hp => ?_)
  exact (hVisit.at_field (inputOr_node hp)).seq .pure

theorem principled : Agree P (principled visit r) (principled visit' r) H.channels := by
  refine (H.fieldChannel hVisit (by decide)).seq ?_
  refine (H.fieldChannel hVisit (by decide)).seq ?_
  refine (H.fieldChannel hVisit (by decide)).seq ?_
  refine .bindRead (.bindLift fun p hp => ?_)
  refine (hVisit.at_field (inputOr_node hp)).seq ?_
  refine .bindRead (.bindLift fun alpha hAlpha => .bindSteady fun isUsed => ?_)
  have hAlpha := nodeOf_inputNamed hAlpha
  refine (H.membersIf (A := H.channel) ((hVisit.at_field hAlpha).seq .pure)).seq ?_
  refine (H.principledEmission hVisit).seq ?_
  exact (H.principledCoat hVisit).seq .pure

theorem emission : Agree P (emission visit r) (emission visit' r) H.channels :=
  hVisit.inputs.seq <| (H.emitRef (ordinary_plain (by decide))).seq .pure

theorem linkedNormal : Agree P (linkedNormal visit r) (linkedNormal visit' r) H.channels := by
  refine .bindRead ?_
  split
  · rename_i p hp
    exact H.membersIf ((hVisit.at_field (inputNamed?_node hp)).seq .pure)
  · exact .pure

theorem applyRule {rule : Handlers.ChannelRule} (hRule : rule.channel ∈ channelNames) :
    Agree P (applyRule visit r rule) (applyRule visit' r rule) H.channels := by
  cases rule with
  | field channel field => exact H.fieldChannel hVisit hRule
  | number channel x => exact H.constantChannel hRule

theorem ruledSurface {kind : String} {rule : Handlers.SurfaceRule}
    (hRule : ∀ c ∈ rule.channels, c.channel ∈ channelNames) :
    Agree P (ruledSurface visit r kind rule) (ruledSurface visit' r kind rule) H.channels := by
  refine (H.onlyIf H.warnOnce).seq ?_
  refine .bind (A := .each H.channels) (.mapM fun c hc => ?_) fun _ => .pure
  exact H.applyRule hVisit (hRule c hc)

end Surfaces

theorem channel_mem_of_surfaceRule? {rule : Handlers.SurfaceRule} (h : surfaceRule? kind = some rule) :
    ∀ c ∈ rule.channels, c.channel ∈ channelNames := by
  unfold surfaceRule? at h
  split at h <;> cases h <;> simp [Handlers.ChannelRule.channel, channelNames]

theorem channels_of_surface? {channels : Visit → NodeRef → Compile Handlers.Channels}
    (h : surface? kind = some channels) (hVisit : H.Visits visit visit') [Entails P (H.inside r)] :
    Agree P (channels visit r) (channels visit' r) H.channels := by
  unfold surface? at h
  split at h
  · cases h
    exact H.principled hVisit
  · cases h
    exact H.emission hVisit
  · cases h
    exact H.holdout
  · obtain ⟨rule, hRule, rfl⟩ := map_eq_some_iff.mp h
    exact H.ruledSurface hVisit (channel_mem_of_surfaceRule? hRule)

def Shades (handler : Handler) (out : SocketRef) : Prop :=
  ∀ {visit visit' : Visit}, H.Visits visit visit' → ∀ {P : H.Fact} [Entails P (H.inside (nodeOf out))],
    H.admits (H.forest.node (nodeOf out)).kind →
      Agree P (handler visit out) (handler visit' out) fun o => (H.value o).and (H.shader o)

theorem shades_surface {channels : Visit → NodeRef → Compile Handlers.Channels}
    (h : surface? kind = some channels) (out : SocketRef) :
    H.Shades (surface channels) out := by
  intro visit visit' hVisit P _ _
  refine (H.channels_of_surface? h hVisit).seq ?_
  refine .bindRead (.bindSteady fun _ => (H.linkedNormal hVisit).seq <| ?_)
  exact H.newShader

theorem nthShader (hVisit : H.Visits visit visit') {i : Nat}
    (hKind : H.forest.Typed → ∀ s ∈ (H.forest.node r).inputs[i]?, s.kind = .shader)
    [hInside : Entails P (H.inside r)] : Agree P (visit.nth r i) (visit'.nth r i)
      fun o => (H.value o).and (H.shader o) := by
  refine .bindRead (.bindLift fun p hp => ?_)
  obtain ⟨rfl, hSocket⟩ := inputAt_eq_ok hp
  have (o : Operand) : Entails (H.operand (H.forest.inputSocket ⟨r.tree, r.node, i⟩).kind o) (H.operand .shader o) :=
    H.entails_operand o fun hTyped _ => hKind hTyped _ hSocket
  have (o : Operand) : Entails (H.operand (H.forest.inputSocket ⟨r.tree, r.node, i⟩).kind o) (H.shader o) :=
    ⟨fun h => ((this o).entails h).2 rfl⟩
  have : Entails P (H.inside (nodeOf ⟨r.tree, r.node, i⟩)) := hInside
  exact (hVisit _ _).mono

theorem requiredShader (hVisit : H.Visits visit visit') {i : Nat}
    (hKind : H.forest.Typed → ∀ s ∈ (H.forest.node r).inputs[i]?, s.kind = .shader) [Entails P (H.inside r)] :
    Agree P (requiredShader visit r i) (requiredShader visit' r i) fun o => (H.value o).and (H.shader o) := by
  refine (H.nthShader hVisit hKind).seq ?_
  exact .bind H.present fun b => .bindSteady fun _ => .pure

theorem shaderBundle {o : Operand} {fault : Fault} [Entails P (H.value o)] [hShader : Entails P (H.shader o)] :
    Agrees P (shaderBundle o fault) fun i =>
      (H.value (.bundle i)).and (H.shader (.bundle i)) := by
  cases o with
  | none => exact .fail
  | index => exact .fail
  | bundle i => exact .pure

theorem channel_of_keys (b : Bundle) : Entails (H.channels b.entries) (.pure (∀ name ∈ b.keys, H.Channel name)) :=
  ⟨fun h => forall_mem_map.mpr fun x hx => (h x hx).1⟩

theorem shades_addShaders (hKind : (H.forest.node (nodeOf out)).kind = "ADD_SHADER") : H.Shades addShaders out := by
  intro visit visit' hVisit P _ _
  refine H.warnOnce.seq ?_
  refine (H.requiredShader hVisit (·.sum_input hKind (by decide))).seq ?_
  refine (H.requiredShader hVisit (·.sum_input hKind (by decide))).seq ?_
  refine H.shaderBundle.seq <| H.bundle.bind fun a => ?_
  refine H.shaderBundle.seq <| H.bundle.bind fun b => ?_
  have := H.channel_of_keys a
  have := H.channel_of_keys b
  refine .given (p := ∀ name ∈ a.keys, H.Channel name) fun ha => ?_
  refine .given (p := ∀ name ∈ b.keys, H.Channel name) fun hb => ?_
  refine .bind (A := H.channels) (.mapM fun name hName => ?_) fun _ => H.newShader
  have hChannel : H.Channel name := by
    have hMem : name ∈ a.keys ++ b.keys := mem_eraseDups.mp (mem_mergeSort.mp hName)
    obtain hMem | hMem := mem_append.mp hMem
    · exact ha name hMem
    · exact hb name hMem
  refine H.addChannel.bind fun o => ?_
  refine (H.onlyIf (.bind H.present fun c => .steady)).bind fun _ => ?_
  have : Entails (H.value o) (H.channel (name, o)) := ⟨fun h => ⟨hChannel, h⟩⟩
  exact .pure

theorem shades_mixShaders (hKind : (H.forest.node (nodeOf out)).kind = "MIX_SHADER") : H.Shades mixShaders out := by
  intro visit visit' hVisit P _ hAdmits
  refine H.warnOnce.seq ?_
  refine (H.requiredShader hVisit (·.mix_input (i := 0) hKind (by decide))).seq ?_
  refine (H.requiredShader hVisit (·.mix_input (i := 1) hKind (by decide))).seq ?_
  refine H.shaderBundle.seq <| H.shaderBundle.bind fun _ => ?_
  have hAlters := H.alters_of_mix (hKind ▸ hAdmits)
  refine (H.fillOpacities hAlters).seq <| hVisit.named.seq ?_
  refine H.bundle.bind fun b => (Agree.forM fun x hx => ?_).seq .pure
  obtain ⟨name, o⟩ := x
  have : Entails (H.channels b.entries) (.pure (H.Channel name)) := ⟨fun h => (h _ hx).1⟩
  have : Entails (H.channels b.entries) (H.value o) := ⟨fun h => (h _ hx).2⟩
  exact .given fun hName => H.mixChannel hAlters hName

theorem shades_of_shaderHandler? {handler : Handler}
    (h : shaderHandler? (H.forest.node (nodeOf out)).kind = some handler) :
    H.Shades handler out := by
  unfold shaderHandler? at h
  split at h
  · rename_i hSurface
    cases h
    exact H.shades_surface hSurface out
  · split at h <;> cases h
    · exact H.shades_addShaders ‹_›
    · exact H.shades_mixShaders ‹_›

section Steps

variable {out : SocketRef}

theorem unhandled {kind : String} (hKind : ¬Handled (H.forest.node (nodeOf out)).kind) :
    Agrees P (unhandled kind out) (H.givenAt out) := by
  refine .bindSteady fun name => H.write.seq <| H.emitReal.bind fun _ => ?_
  have (o : Operand) : Entails ((H.value o).and (H.rough o)) (H.givenAt out o) :=
    ⟨fun h => ⟨h.1, fun _ => ⟨h.2, fun hHandled => absurd hHandled hKind⟩⟩⟩
  exact H.roughRef.mono

variable {visit visit' : Visit} (hVisit : H.Visits visit visit')
include hVisit

theorem reroute (hKind : (H.forest.node (nodeOf out)).kind = "REROUTE") [hInside : Entails P (H.inside (nodeOf out))] :
    Agree P (visit.named (nodeOf out) "Input") (visit'.named (nodeOf out) "Input")
      (H.operand (H.forest.outputSocket out).kind) := by
  refine .bindRead (.bindLift fun p hp => ?_)
  obtain ⟨-, -, hName, hMem⟩ := inputNamed_eq_ok hp
  have hShader (hTyped : H.forest.Typed) (hOut : (H.forest.outputSocket out).kind = .shader) :
      (H.forest.inputSocket p).kind = .shader :=
    (hTyped.node (nodeOf out)).reroutes hKind _ (outputSocket_mem hOut) hOut _ hMem hName
  have (o : Operand) := H.entails_operand o hShader
  rw [← nodeOf_inputNamed hp] at hInside
  exact (hVisit p .normal).mono

theorem handled (hShares : H.Shares visit visit' out) {handler : Handler}
    (h : handler? (H.forest.node (nodeOf out)).kind = some handler) [Entails P (H.newNode (nodeOf out))] :
    Agree P (handler visit out) (handler visit' out) (H.givenAt out) := by
  refine H.admitted (r := nodeOf out) fun hAdmits => ?_
  have hAny := h
  simp only [handler?, orElse_eq_orElse, orElse_eq_or, or_eq_some_iff] at h
  obtain hShader | ⟨-, hValue⟩ := h
  · exact H.givenOf (H.shades_of_shaderHandler? hShader hVisit hAdmits).mono
  · have hOut : HasValues H.forest (nodeOf out) := isSome_of_eq_some hValue
    exact H.asGiven hOut.output_ne_shader (H.handles_of_valueHandler? hAny hValue hVisit hShares hOut hAdmits)

theorem captureInputs {r : NodeRef} [hInside : Entails P (H.inside r)] :
    Agree P (captureInputs visit r) (captureInputs visit' r) (H.captured (H.forest.node r)) := by
  refine .bindRead (.bind (A := .each (H.capture (H.forest.node r))) (.mapM fun x hx => ?_) fun captured => ?_)
  · obtain ⟨socket, i⟩ := x
    have hSocket : (H.forest.node r).inputs[i]? = some socket := mem_zipIdx_iff_getElem?.mp hx
    have hKind : H.forest.inputSocket ⟨r.tree, r.node, i⟩ = socket := by
      rw [inputSocket, hSocket, getD_some]
    have : Entails P (H.inside (nodeOf ⟨r.tree, r.node, i⟩)) := hInside
    refine (hVisit _ _).bind fun o => ?_
    rw [hKind]
    have (l : Bool) : Entails (H.operand socket.kind o) (H.capture (H.forest.node r) (socket.identifier, o, l)) :=
      ⟨fun h => ⟨socket, mem_of_getElem? hSocket, rfl, h⟩⟩
    exact .pure
  · have : Entails (.each (H.capture (H.forest.node r)) captured)
        (H.captured (H.forest.node r) (Table.ofList captured)) :=
      ⟨fun h x hx => h x (Table.mem_ofList hx)⟩
    exact .pure

theorem innerOutput (hWide : H.Wide) (hKind : (H.forest.node (nodeOf out)).kind = "GROUP") :
    Agree ((H.forest.node (nodeOf out)).innerTree?.elim (.pure True) fun t => H.inside ⟨t, 0⟩)
      (innerOutput visit out (H.forest.node (nodeOf out)).innerTree?)
      (innerOutput visit' out (H.forest.node (nodeOf out)).innerTree?)
      (H.operand (H.forest.outputSocket out).kind) := by
  cases hTree : (H.forest.node (nodeOf out)).innerTree? with
  | none => exact .fail
  | some t =>
    refine .bindRead (.bindLift fun found hFound => ?_)
    cases found with
    | none => exact H.write.seq .fail
    | some i =>
      dsimp only
      split
      · exact .fail
      · rename_i j hInput
        have (o : Operand) := H.entails_operand o fun hTyped hOut =>
          hTyped.inner_kind hKind hTree hFound hInput hOut
        have : Entails ((some t).elim (.pure True) fun t => H.inside ⟨t, 0⟩) (H.inside (nodeOf ⟨t, i, j⟩)) :=
          ⟨hWide rfl⟩
        exact (hVisit _ _).mono

omit hVisit in
theorem sharesOf (hStation : ∀ {Q : H.Fact} {t : Station} [Entails Q (H.inside (nodeOf out))] [Entails Q (H.station t)]
      [Entails Q (H.free (nodeOf out))], HasValues H.forest (nodeOf out) →
      Agrees Q (rememberStation (nodeOf out) t) fun _ => .pure True)
    (hRecalled : ∀ {Q : H.Fact}, Agrees Q (recalledNode (nodeOf out)) (.option (.pure True) H.position))
    (hNode : ∀ {Q : H.Fact} {e : Int} [Entails Q (H.inside (nodeOf out))] [Entails Q (H.position e)],
      Agrees Q (rememberNode (nodeOf out) e) fun _ => .pure True) :
    H.Shares visit visit' out where
  station {P body} _ _ hOut hBody := by
    refine hBody.seq ?_
    exact (hStation hOut).seq <| .bindSteady fun name => H.stationRef
  node {P} _ _ hBody := by
    exact hRecalled.bindOption (hBody.seq <| hNode.seq .pure) fun _ => .pure

theorem dispatchOther {field : SocketRef} (hShares : H.Shares visit visit' out)
    (hGroup : (H.forest.node (nodeOf out)).kind ≠ "GROUP")
    (hInput : (H.forest.node (nodeOf out)).kind ≠ "GROUP_INPUT")
    [Entails P (H.newNode (nodeOf out))] :
    Agree P (dispatch visit out field) (dispatch visit' out field) (H.givenAt out) := by
  refine .bindNode ?_
  dsimp only
  split
  · exact absurd ‹_› hGroup
  · exact absurd ‹_› hInput
  · exact H.givenOf (H.reroute hVisit ‹_›)
  · rename_i hReroute
    split
    · exact H.handled hVisit hShares ‹_›
    · rename_i hNone
      refine H.unhandled ?_
      simpa [Handled, hGroup, hInput, hNone] using hReroute

end Steps

section Fields

theorem adaptPresent {source field : SocketRef} {o : Operand} : Agrees (H.operand (H.forest.outputSocket source).kind o)
      (do if ← present o then
            adapt (H.forest.inputSocket field).kind (H.forest.outputSocket source).kind o
          else pure o) (H.operand (H.forest.inputSocket field).kind) := by
  refine .bind H.present fun b => .ite (fun _ => H.adapt) fun hAbsent => ?_
  have : Entails (H.absent b o) (H.shader o) := ⟨fun h => h (Bool.eq_false_iff.mpr hAbsent)⟩
  exact .pure

variable {output output' : SocketRef → SocketRef → Compile Operand}

theorem linkedOperand {A : Operand → H.Fact} {source field : SocketRef}
    (hOutput : Agree P (output source field) (output' source field) A)
    (hRemember : ∀ o, Agrees (P.and (A o)) (remember source o) fun _ => .pure True)
    [∀ o, Entails (A o) (H.operand (H.forest.outputSocket source).kind o)] :
    Agree P (Material.linkedOperand output source field) (Material.linkedOperand output' source field)
      (H.operand (H.forest.inputSocket field).kind) := by
  refine .bindRead ((H.nested hOutput).bind fun o => (hRemember o).seq <| ?_)
  exact H.adaptPresent.of_entails

theorem fieldStepOf {field : SocketRef} {mode : FieldMode} (hLinked : ∀ source, H.forest.source? field = some source →
      Agree P (Material.linkedOperand output source field) (Material.linkedOperand output' source field)
        (H.operand (H.forest.inputSocket field).kind)) :
    Agree P (Material.fieldStep output field mode) (Material.fieldStep output' field mode)
      (H.operand (H.forest.inputSocket field).kind) := by
  refine .bindRead (H.announce.seq <| ?_)
  split
  · exact H.defaultOperand
  · rename_i source hSource
    exact .ite (fun _ => (hLinked source hSource).of_entails) fun _ => H.defaultOperand

end Fields

end Handling

structure Compilation extends Handling where
  inside_tree : toHandling.Wide
  /-- Operands of an output; more than of others may be known of those of the inputs of a group. -/
  output : SocketRef → Operand → toFrame.Fact
  operand_of_output : ∀ {w out o}, (output out o).holds w →
    (toVocabulary.operand (forest.outputSocket out).kind o).holds w
  vacant : SocketRef → toFrame.Fact
  output_of_given : ∀ {w out o}, (forest.node (nodeOf out)).kind ≠ "GROUP_INPUT" →
    (vacant out).holds w → (toHandling.givenAt out o).holds w → (output out o).holds w
  stands : NodeRef → Prop
  output_of_station : ∀ {w out o}, stands (nodeOf out) → (vacant out).holds w → (value o).holds w →
    (output out o).holds w
  recalled : ∀ {P out}, toFrame.Agrees P (recalled out) (.option (vacant out) (output out))
  remember : ∀ {P out o} [Entails P (inside (nodeOf out))] [Entails P (output out o)],
    toFrame.Agrees P (remember out o) fun _ => .pure True
  recalledNode : ∀ {P r}, toFrame.Agrees P (recalledNode r) (.option (.pure True) position)
  rememberNode : ∀ {P r e} [Entails P (inside r)] [Entails P (position e)],
    toFrame.Agrees P (rememberNode r e) fun _ => .pure True
  station? : ∀ {P r}, toFrame.Agrees P (station? r)
    (.option (free r) fun t => (toVocabulary.station t).and (.pure (stands r)))
  rememberStation : ∀ {P r t} [Entails P (inside r)] [Entails P (toVocabulary.station t)] [Entails P (free r)],
    HasValues forest r → toFrame.Agrees P (rememberStation r t) fun _ => .pure True
  insideGroup : ∀ {P r c kind} {m m' : Compile Operand}
    [Entails P (toVocabulary.captured (forest.node r) c)], (forest.node r).kind = "GROUP" →
      toFrame.Agree ((forest.node r).innerTree?.elim (.pure True) fun t => inside ⟨t, 0⟩) m m'
        (toVocabulary.operand kind) →
      toFrame.Agree P (insideGroup c m) (insideGroup c m') (toVocabulary.operand kind)
  groupInput : ∀ {P out field} [Entails P (inside (nodeOf out))] [Entails P (vacant out)],
    (forest.node (nodeOf out)).kind = "GROUP_INPUT" → forest.source? field = some out →
      toFrame.Agrees P (groupInput out field) (output out)

namespace Compilation

variable (C : Compilation) {P : C.Fact}

instance {out : SocketRef} {o : Operand} : Entails (C.output out o) (C.operand (C.forest.outputSocket out).kind o) :=
  ⟨C.operand_of_output⟩

theorem asOutput {out : SocketRef} (hKind : (C.forest.node (nodeOf out)).kind ≠ "GROUP_INPUT")
    [hVacant : Entails P (C.vacant out)] {m m' : Compile Operand}
    (h : Agree P m m' (C.givenAt out)) : Agree P m m' (C.output out) :=
  fun w s s' hP r => (h w s s' hP r).imp fun hLater hGiven =>
    C.output_of_given hKind ((C.vacant out).stable hLater (hVacant.entails hP)) hGiven

theorem ofStation {out : SocketRef} (hStands : C.stands (nodeOf out)) [hVacant : Entails P (C.vacant out)]
    {m m' : Compile Operand} (h : Agree P m m' C.value) : Agree P m m' (C.output out) :=
  fun w s s' hP r => (h w s s' hP r).imp fun hLater hValue =>
    C.output_of_station hStands ((C.vacant out).stable hLater (hVacant.entails hP)) hValue

theorem shares (visit visit' : Visit) (out : SocketRef) : C.Shares visit visit' out :=
  C.sharesOf (@fun _ _ _ _ _ => C.rememberStation) (@fun _ => C.recalledNode) @fun _ _ _ _ => C.rememberNode

section Groups

variable {visit visit' : Visit} (hVisit : C.Visits visit visit')
include hVisit

theorem group {out : SocketRef} (hKind : (C.forest.node (nodeOf out)).kind = "GROUP")
    [Entails P (C.inside (nodeOf out))] :
    Agree P (group visit out) (group visit' out) (C.operand (C.forest.outputSocket out).kind) := by
  refine .bindNode (.bindLift fun tree hTree => ?_)
  rw [groupTree_eq_ok hTree]
  refine (C.captureInputs hVisit).seq ?_
  exact C.insideGroup hKind (C.innerOutput hVisit C.inside_tree hKind)

end Groups

section Steps

variable {visit visit' : Visit} (hVisit : C.Visits visit visit')
include hVisit

theorem dispatch {out field : SocketRef} (hSource : C.forest.source? field = some out)
    [Entails P (C.newNode (nodeOf out))] [Entails P (C.vacant out)] :
    Agree P (dispatch visit out field) (dispatch visit' out field) (C.output out) := by
  by_cases hGroup : (C.forest.node (nodeOf out)).kind = "GROUP"
  · refine C.asOutput (by rw [hGroup]; decide) (C.givenOf (.bindNode ?_))
    dsimp only
    rw [hGroup]
    exact C.group hVisit hGroup
  · by_cases hInput : (C.forest.node (nodeOf out)).kind = "GROUP_INPUT"
    · refine .bindNode ?_
      dsimp only
      rw [hInput]
      exact C.groupInput hInput hSource
    · exact C.asOutput hInput (C.dispatchOther hVisit (C.shares visit visit' out) hGroup hInput)

omit hVisit in
def Outputs (output output' : SocketRef → SocketRef → Compile Operand) : Prop :=
  ∀ {P : C.Fact} {out field : SocketRef} [Entails P (C.inside (nodeOf out))],
    C.forest.source? field = some out → Agree P (output out field) (output' out field) (C.output out)

omit hVisit in
/-- What the tables answer is answered in agreement, so it matters only what else is computed. -/
theorem answered {out : SocketRef} {m m' : Compile Operand}
    (hm : Agree ((P.and (C.vacant out)).and (C.free (nodeOf out))) m m' (C.output out)) :
    Agree P (answered out m) (answered out m') (C.output out) := by
  refine C.recalled.bindOption (C.station?.bindOption hm fun t => ?_) fun o => .pure
  exact .given fun hStands => .bindSteady fun name => C.ofStation hStands C.stationRef

theorem outputs_outputStep : C.Outputs (outputStep visit) (outputStep visit') := by
  intro P out field hInside hSource
  have : Entails ((P.and (C.vacant out)).and (C.free (nodeOf out))) (C.newNode (nodeOf out)) :=
    ⟨fun h => ⟨hInside.entails h.1.1, h.2⟩⟩
  exact C.answered (C.dispatch hVisit hSource)

end Steps

section Fields

variable {output output' : SocketRef → SocketRef → Compile Operand} (hOutput : C.Outputs output output')
include hOutput

theorem fieldStep : C.Visits (Material.fieldStep output) (Material.fieldStep output') := by
  intro P field mode hInside
  refine C.fieldStepOf fun source hSource => ?_
  obtain ⟨link, -, rfl⟩ := map_eq_some_iff.mp hSource
  have : Entails P (C.inside (nodeOf ⟨field.tree, link.fromNode, link.fromOutput⟩)) :=
    ⟨fun hP => C.inside_tree (r := nodeOf field) rfl (hInside.entails hP)⟩
  exact C.linkedOperand (hOutput hSource) fun _ => C.remember

end Fields

theorem visits_compileWith (fuel : Nat) : C.Visits (compileWith fuel) (compileWith fuel) := by
  induction fuel with
  | zero => exact fun _ _ _ => .fail
  | succ fuel ih => exact C.fieldStep (C.outputs_outputStep ih)

theorem compileField {field : SocketRef} [Entails P (C.inside (nodeOf field))] : Agrees P (compileField field)
      (C.operand (C.forest.inputSocket field).kind) :=
  .bindRead (C.visits_compileWith _ field .normal)

end Compilation

end SceneExchange.Material
