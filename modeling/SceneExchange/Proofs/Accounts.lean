import SceneExchange.Proofs.Compilation

/-!
# Accounts of one run

Where a run is compared with itself, nothing needs to be known of its operands. What is left to say
is what holds of the sessions at every point of the run. An account needs to be carried on only over
the steps that add to what it tells of: the steps of handlers are made of these.
-/

namespace SceneExchange.Material

open SceneExchange.Graph Compile Material.Frame Vocabulary

structure Account extends Frame where
  oneRun : toFrame.OneRun
  alters : Prop
  emit : ∀ {w s} (e : Expression), Related w s s → toFrame.Arrives w { s with expressions := s.expressions.push e }
  newBundle : ∀ {w s} (es : List (String × Operand)), Related w s s →
    toFrame.Arrives w { s with bundles := s.bundles.push (.ofList es) }
  setEntry : ∀ {w s} (i : Nat) (name : String) (o : Operand), alters → Related w s s →
    toFrame.Arrives w { s with bundles := s.bundles.setIfInBounds i ((s.bundles[i]?.getD .empty).insert name o) }
  rememberHeight : ∀ {w s} (e : Int), Related w s s →
    toFrame.Arrives w { s with heightTextures := s.heightTextures ++ [e] }
  within : ∀ {P : toFrame.Fact} {d} {α : Type} {m m' : Compile α} {A}, toFrame.Agree P m m' A →
    toFrame.Agree P (Compile.within d m) (Compile.within d m') A
  nested : ∀ {P : toFrame.Fact} {α : Type} {m m' : Compile α} {A}, toFrame.Agree P m m' A →
    toFrame.Agree P (nested m) (nested m') A

namespace Account

variable (A : Account)

def vocabulary : Vocabulary where
  toFrame := A.toFrame
  position _ := .pure True
  value _ := .pure True
  shader _ := .pure True
  rough _ := .pure True
  source _ := .pure True
  texture _ := .pure True
  Channel _ := True

instance : A.toFrame.OneRun := A.oneRun

instance : A.vocabulary.OneRun := A.oneRun

theorem newBundle_agree {P : A.Fact} {es : List (String × Operand)} : Agrees P (Compile.newBundle es) fun _ => .pure True :=
  agree_of_arrives (A.newBundle es)

def emission : Emission where
  toVocabulary := A.vocabulary
  position_nothing := trivial
  rough_of_shader := id
  value_none := trivial
  value_index := id
  source_position _ := trivial
  channel_of_mem _ _ := trivial
  write := @fun _ _ _ => aside_write.agree
  warnOnceAs := @fun _ _ _ => aside_warnOnceAs.agree
  errorOnce := @fun _ _ => aside_errorOnce.agree
  emit := @fun _ _ _ _ _ _ => agree_of_arrives (A.emit _)
  emitTexture := @fun _ _ _ _ _ => agree_of_arrives (A.emit _)
  textureObject := @fun _ _ _ => agree_of_arrives (A.emit _)
  roughRef := @fun _ _ _ => A.newBundle_agree.imp fun _ => ⟨trivial, trivial⟩
  refOutput := @fun _ _ _ _ _ => A.newBundle_agree
  newShader := @fun _ _ _ => A.newBundle_agree.imp fun _ => ⟨trivial, trivial⟩
  sourceStep := @fun _ _ _ _ _ => aside_source.agree
  present := @fun _ o _ => (Aside.agree (by cases o <;> exact fun _ s => .refl s)).imp fun _ _ => trivial
  bundle := @fun _ i _ => (Aside.agree (m := Compile.bundle i) fun _ s => .refl s).imp fun _ _ _ => ⟨trivial, trivial⟩
  entry := @fun _ _ _ _ _ => Aside.agree fun _ s => .refl s
  alters := A.alters
  setEntry := @fun _ i name o _ _ hAlters _ => agree_of_arrives (A.setEntry i name o hAlters)

instance : A.emission.OneRun := A.oneRun

/-- The handling of those nodes that may be compiled. -/
def handling (inside free : NodeRef → A.Fact) (admits : String → Prop)
    (hAdmits : ∀ {w r}, (inside r).holds w → admits (A.forest.node r).kind)
    (hAlters : admits "MIX_SHADER" → A.alters) : Handling where
  toEmission := A.emission
  inside := inside
  free := free
  admits := admits
  admits_of_inside := hAdmits
  curve n n' := (Fact.pure (n = n')).and (.pure True)
  typed := .inr id
  wrap := @fun _ _ _ _ => A.newBundle_agree
  context := @fun _ => Aside.agree fun _ s => .refl s
  within := fun _ => A.within
  nested := A.nested
  announce := @fun _ _ _ => Aside.agree fun _ _ => .of_eq rfl rfl rfl rfl
  rememberHeight := @fun _ e _ => agree_of_arrives (A.rememberHeight e)
  showBothSides := @fun _ => Aside.agree fun _ _ => .of_eq rfl rfl rfl rfl
  isOwned := @fun _ => Aside.agree fun _ s => .refl s
  enterTexture := @fun _ _ _ => aside_enterTexture.agree
  addCurve := fun _ => aside_addCurve.agree.numbers
  addBlankCurve := aside_addBlankCurve.agree.numbers
  lookUp := by
    intro P path o n n' hValue hCurve _
    have : Entails (.pure True) (A.emission.texture curvesName) := ⟨id⟩
    exact A.emission.lookUpSame hCurve @fun _ _ _ => agree_of_arrives (A.emit _)
  alters_of_mix := hAlters

end Account

end SceneExchange.Material
