import SceneExchange.Proofs.Emission

/-!
# What follows the expressions of a material, side by side

The entries of a document name channels and positions. In every emission the steps that make them
agree with themselves: those of materials without nodes, and those that finish a surface.
-/

namespace SceneExchange.Material

open SceneExchange.Graph Compile Material.Frame Material

def settingText (name key value : String) : String := "\n\t\t<" ++ name ++ " " ++ key ++ "=\"" ++ value ++ "\"/>"

def settingKeys : List (String × String) :=
  [("Blendmode", "value"), ("OpacityMaskClipValue", "value"), ("ShadingModel", "value"), ("TwoSided", "enabled")]

class Setting (text : String) : Prop where
  form : ∃ name key value, text = settingText name key value ∧ (name, key) ∈ settingKeys ∧
    Markup.Clean value ∧ (name = "ShadingModel" → value = "ClearCoat")

instance : Setting "\n\t\t<Blendmode value=\"1\"/>" := ⟨"Blendmode", "value", "1", by decide⟩
instance : Setting "\n\t\t<Blendmode value=\"2\"/>" := ⟨"Blendmode", "value", "2", by decide⟩
instance : Setting "\n\t\t<OpacityMaskClipValue value=\"0.5\"/>" := ⟨"OpacityMaskClipValue", "value", "0.5", by decide⟩
instance : Setting "\n\t\t<ShadingModel value=\"ClearCoat\"/>" := ⟨"ShadingModel", "value", "ClearCoat", by decide⟩
instance : Setting "\n\t\t<TwoSided enabled=\"True\"/>" := ⟨"TwoSided", "enabled", "True", by decide⟩

theorem setting_clip {d : Datum} {text : String} (h : sixPlaces d = .ok text) :
    Setting ("\n\t\t<OpacityMaskClipValue value=\"" ++ text ++ "\"/>") := by
  refine ⟨"OpacityMaskClipValue", "value", text, rfl, by decide, clean_of_sixPlaces h, fun hOther => ?_⟩
  exact absurd hOther (by decide)

namespace Vocabulary

variable (V : Vocabulary)

inductive EntryHolds (w : V.World) : Entry → Prop
  | channel {name : String} (hName : V.Channel name) {s : Source} (h : (V.source s).holds w) :
      EntryHolds w (.channel name s)
  | element {name : String} (hName : name ∈ channelNames) {e : Int} (h : (V.position e).holds w) :
      EntryHolds w (.element name e)
  | text {t : String} (h : Setting t) : EntryHolds w (.text t)

def entry (x : Entry) : V.Fact where
  holds w := V.EntryHolds w x
  stable hw h := by
    cases h with
    | channel hName h => exact .channel hName ((V.source _).stable hw h)
    | element hName h => exact .element hName ((V.position _).stable hw h)
    | text h => exact .text h

abbrev entries (xs : List Entry) : V.Fact := .each V.entry xs

end Vocabulary

namespace Emission

variable (E : Emission) {P : E.Fact}

section Entailment

variable {E}

instance {name : String} {e : Int} [hName : KnownChannel name] [h : Entails P (E.position e)] :
    Entails P (E.toVocabulary.entry (.element name e)) :=
  ⟨fun hP => .element hName.mem (h.entails hP)⟩

instance {t : String} [h : Setting t] : Entails P (E.toVocabulary.entry (.text t)) := ⟨fun _ => .text h⟩

end Entailment

theorem defaultEntries : Agrees P defaultEntries E.entries :=
  (E.emitColor (absurd · (by decide))).seq <| E.emitReal.seq .pure

theorem basicEntries {m : Definition} : Agrees P (basicEntries m) E.entries := by
  refine (E.emitColorValue (absurd · (by decide))).seq <| E.emitScalar.seq ?_
  refine E.emitScalar.seq <| E.emitScalar.seq ?_
  exact .pure

section Surface

variable {o : Operand} [Entails P (E.value o)] [Entails P (E.shader o)]

theorem channelsOf {fault : String → Fault} :
    Agrees P (channels o fault) fun i => (E.value (.bundle i)).and (E.shader (.bundle i)) := by
  cases o with
  | none => exact .fail
  | index => exact .fail
  | bundle i => exact .pure

theorem tieColor (hAlters : E.alters) {start : Int} [Entails P (E.position start)] :
    Agrees P (tieColor o start) fun _ => .pure True := by
  refine E.channelsOf.seq <| E.bundle.bind fun b => ?_
  split
  · exact .fail
  · have := E.value_of_get? ‹_›
    refine E.optionalInput.seq <| (E.emitRef (ordinary_content (by decide))).seq ?_
    exact E.setEntry hAlters E.channel_of_known

theorem ditherOpacity (hAlters : E.alters) {i : Nat} [Entails P (E.value (.bundle i))]
    [Entails P (E.shader (.bundle i))] : Agrees P (ditherOpacity i) fun _ => .pure True := by
  refine (E.entry (by decide)).seq <| E.present.seq <| .ite (fun _ => ?_) fun _ => .pure
  refine E.optionalInput.seq <| (E.emit (ordinary_call isPath_ditherTemporal)).seq ?_
  exact E.setEntry hAlters E.channel_of_known

theorem blendEntries (hAlters : E.alters) {m : Definition} : Agrees P (blendEntries m o) fun x => E.entries x.1 := by
  refine .ite (fun _ => ?_) fun _ => .ite (fun _ => ?_) fun _ => .ite (fun _ => .pure) fun _ => ?_
  · refine .bindLift fun least _ => .bindLift fun text hText => ?_
    have := setting_clip hText
    exact .pure
  · exact E.channelsOf.seq <| (E.ditherOpacity hAlters).seq .pure
  · exact E.channelsOf.seq <| E.bundle.seq .pure

theorem channelEntries : Agrees P (channelEntries o) E.entries := by
  refine E.channelsOf.seq <| E.bundle.seq <| .bind (A := E.entries) (.mapEach (R := E.channel) fun x => ?_) fun _ => ?_
  · obtain ⟨name, p⟩ := x
    refine .given (p := E.Channel name) fun hName => E.sourceStep.bind fun s => ?_
    have : Entails (E.source s) (E.toVocabulary.entry (.channel name s)) := ⟨.channel hName⟩
    exact .pure
  · refine E.bundle.bind fun c => ?_
    split <;> exact .pure

theorem surfaceEntries (hAlters : E.alters) {m : Definition} {alwaysTwoSided : Bool}
    (hSides : ∀ (Q : E.Fact) (culls wanted : Bool), Agrees Q (decideSides culls wanted) fun _ => .pure True) :
    Agrees P (surfaceEntries m o alwaysTwoSided) E.entries := by
  refine (E.blendEntries hAlters).seq <| E.channelEntries.seq <| (hSides _ _ _).bind fun twoSided => ?_
  split <;> exact .pure

end Surface

end Emission

/-- The session in which the surface of a material is compiled. -/
def Session.collecting (s : Session) (m : Definition) : Session :=
  { s with stations := [], log := s.log.push ⟨.info, "Collecting material: " ++ m.name⟩, twoSided := false }

/-- The session in which a field is compiled anew. -/
def Session.anew (s : Session) : Session := { s with heightTextures := [], memo := [], nodeMemo := [] }

section Runs

variable {f : Forest} {s t : Session} {m : Definition} {o : Operand} {d : Document}

theorem nodeDocument_ok {alwaysTwoSided : Bool} (h : outcome (nodeDocument m alwaysTwoSided) f s = (.ok d, t)) :
    ∃ name, Name.legal m.name = .ok name ∧ (f.outputNode? m.tree = none ∧ d = ⟨name, none, []⟩ ∨ ∃ output o u,
      f.outputNode? m.tree = some output ∧ outcome (surfaceOperand m output) f (s.collecting m) = (.ok o, u) ∧
      outcome (surfaceDocument m name o alwaysTwoSided) f u = (.ok d, t)) := by
  obtain ⟨_, _, ⟨⟩, h⟩ := outcome_bind_eq_ok h
  obtain ⟨_, _, ⟨⟩, h⟩ := outcome_bind_eq_ok h
  obtain ⟨name, hName, h⟩ := outcome_lift_bind h
  refine ⟨name, hName, ?_⟩
  obtain ⟨_, _, ⟨⟩, h⟩ := outcome_bind_eq_ok h
  split at h
  · obtain ⟨_, _, -, ⟨⟩⟩ := outcome_bind_eq_ok h
    exact .inl ⟨‹_›, rfl⟩
  · obtain ⟨_, _, ⟨⟩, h⟩ := outcome_bind_eq_ok h
    obtain ⟨o, u, hOperand, h⟩ := outcome_bind_eq_ok h
    exact .inr ⟨_, o, u, ‹_›, hOperand, h⟩

theorem surfaceOperand_ok {output : NodeRef} (h : outcome (surfaceOperand m output) f s = (.ok o, t)) :
    ∃ surface volume, f.inputNamed output "Surface" = .ok surface ∧ f.inputNamed output "Volume" = .ok volume ∧
      if f.isLinked volume && !f.isLinked surface then outcome (volumeOperand m) f s = (.ok o, t)
      else outcome (compileField surface) f s.anew = (.ok o, t) := by
  obtain ⟨_, _, ⟨⟩, h⟩ := outcome_bind_eq_ok h
  obtain ⟨surface, hSurface, h⟩ := outcome_lift_bind h
  obtain ⟨volume, hVolume, h⟩ := outcome_lift_bind h
  refine ⟨surface, volume, hSurface, hVolume, ?_⟩
  split at h
  · rw [if_pos ‹_›]
    exact h
  · rw [if_neg ‹_›]
    exact h

end Runs

end SceneExchange.Material
