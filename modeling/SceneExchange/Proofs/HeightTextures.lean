import SceneExchange.Proofs.ChannelTags
import SceneExchange.Proofs.FirstUse
import SceneExchange.Proofs.Documents

/-!
# Textures that are read as heights

Nothing in a material may refer to a texture that was read as a height. So the color is passed through
calls that refer to all of them: they are met when one follows the references from the color, and what was
the color before is met too.

A second run that takes notes tells which textures are made as heights. It is like the first in all else,
and whatever it notes is among the heights that the first one knows of.
-/

namespace SceneExchange.Material

open SceneExchange.Graph Compile Material.Frame Handlers References

/-- Whether compiling an output makes the texture of an image that is read as a height. -/
def makesHeight (f : Forest) (s : Session) (out : SocketRef) : Bool :=
  (s.memo.lookup out).isNone && (s.stations.lookup (nodeOf out)).isNone &&
    (f.node (nodeOf out)).kind == "TEX_IMAGE" && inContext (s.contexts.head?.getD .null) "BUMP"

namespace Session

def noted (s : Session) (notes : List Nat) : Session := { s with notes := notes }

/-- The place of the expression that stands for the node of an output. -/
def placeOf (s : Session) (out : SocketRef) : List Nat :=
  (s.stations.lookup (nodeOf out)).toList.map (·.expression.toNat)

end Session

/-- Compiles an output, and notes where the texture of a height stands that is made for it. -/
def noting (output : SocketRef → SocketRef → Compile Operand) (out field : SocketRef) : Compile Operand := do
  let f ← read
  let s ← get
  let o ← output out field
  onlyIf (makesHeight f s out) (modify fun t => t.noted (t.notes ++ t.placeOf out))
  pure o

def compileNoting : Nat → Visit
  | 0 => fun _ _ => fail .tooDeep
  | fuel + 1 => fieldStep (noting (outputStep (compileNoting fuel)))

/-- What is noted are heights. -/
def Noted (heights : List Int) (_ notes : List Nat) : Prop := ∀ n ∈ notes, (n : Int) ∈ heights

section Runs

variable {f : Forest} {s t : Session} {o : Operand} {out field : SocketRef} {visit : Visit}

theorem mem_heights_of_outputStep (hMakes : makesHeight f s out)
    (hRun : outcome (outputStep visit out field) f s = (.ok o, t)) :
    ∀ n ∈ t.placeOf out, (n : Int) ∈ t.heightTextures := by
  simp only [makesHeight, Bool.and_eq_true, Option.isNone_iff_eq_none, beq_iff_eq] at hMakes
  obtain ⟨⟨⟨hMemo, hStation⟩, hKind⟩, hContext⟩ := hMakes
  rw [outcome_outputStep, hMemo, hStation, outcome_dispatch_image _ hKind] at hRun
  cases hImage : (f.node (nodeOf out)).image with
  | given image =>
    obtain ⟨name, parts, x, -, hKnown, hReads, hHeight, -⟩ := reads_of_image hImage hRun
    intro n hn
    obtain rfl : n = _ := by simpa [Session.placeOf, hKnown] using hn
    obtain ⟨k, hPlace⟩ : ∃ k : Nat, x.expression = k := by
      generalize normals s.contexts = normal at hReads
      cases hReads <;> exact ⟨_, rfl⟩
    rw [hPlace, Int.toNat_natCast, ← hPlace]
    exact hHeight hContext
  | absent =>
    rw [Handlers.image, outcome_bind_ok (outcome_theNode out), hImage] at hRun
    cases hRun
  | empty =>
    rw [Handlers.image, outcome_bind_ok (outcome_theNode out), hImage] at hRun
    cases hRun
    simp [Session.placeOf, hStation]

theorem outcome_noting {output : SocketRef → SocketRef → Compile Operand} (h : outcome (output out field) f s = (.ok o, t)) :
    outcome (noting output out field) f s =
      (.ok o, if makesHeight f s out then t.noted (t.notes ++ t.placeOf out) else t) := by
  change outcome (output out field >>= _) f s = _
  rw [outcome_bind_ok h]
  split
  · simp [*]
    rfl
  · simp [*]
    rfl

/-- The compilation of a second run that takes notes. -/
def noteTaking (f : Forest) (δ : Shift) : Compilation :=
  Likeness.compilation f δ (K := Noted) fun _ h n hn => List.mem_append_left _ (h n hn)

variable {δ : Shift}

theorem outputs_noting {output output' : SocketRef → SocketRef → Compile Operand}
    (hHeights : ∀ {s t o out field}, makesHeight f s out → outcome (output' out field) f s = (.ok o, t) →
      ∀ n ∈ t.placeOf out, (n : Int) ∈ t.heightTextures)
    (h : (noteTaking f δ).Outputs output output') : (noteTaking f δ).Outputs output (noting output') := by
  intro P out field hInside hSource w s s' hP hLike
  have hJoint : Joint (F := (noteTaking f δ).toFrame) w _ (outcome (output out field) f s)
      (outcome (output' out field) f s') := h hSource w s s' hP hLike
  refine hJoint.around id (outcome_bind_error) ?_
  rintro _ o t t' rfl related fact hRun hRun'
  rw [hRun, outcome_noting hRun']
  refine .done rfl ?_ fact
  split
  · have hSame := congrArg (fun l : Ledger => { l with notes := t'.notes ++ t'.placeOf out }) related.ledgers.same
    refine related.relate related.core rfl rfl ⟨hSame, fun n hn => ?_⟩ related.yields
    obtain hOld | hNew := List.mem_append.mp hn
    · exact related.ledgers.notes n hOld
    · rw [(congrArg Ledger.heightTextures hSame :)]
      exact hHeights ‹_› hRun' n hNew
  · exact related

theorem visits_compileNoting (fuel : Nat) : (noteTaking f δ).Visits (compileWith fuel) (compileNoting fuel) := by
  induction fuel with
  | zero => exact fun _ _ _ => .fail
  | succ fuel ih =>
    exact (noteTaking f δ).fieldStep (outputs_noting mem_heights_of_outputStep ((noteTaking f δ).outputs_outputStep ih))

theorem noted_of_compileNoting (hNew : s.expressions = #[]) (hRun : outcome (compileField field) f s = (.ok o, t)) :
    Noted t.heightTextures [] (outcome (compileNoting (f.nodeCount + 2) field .normal) f (s.noted [])).2.notes := by
  rw [compileField, outcome_bind_ok outcome_read] at hRun
  generalize f.nodeCount + 2 = fuel at hRun
  let δ := unshifted s.contexts (@Stores.lasting_true s.images)
  have hYields : Shifted δ s.yield (s.noted []).yield := by
    refine ⟨?_, rfl, rfl, trivial⟩
    change Raised 0 s.expressions.toList s.expressions.toList
    rw [hNew]
    exact .nil
  have hLike : Like δ (Likeness.Kin Noted) ⟨s.around, s.contexts⟩ s (s.noted []) :=
    ⟨rfl, ⟨rfl, List.forall_mem_nil _⟩, hYields, rfl, rfl, rfl, rfl, [], List.forall_mem_nil _, rfl⟩
  have hJoint : Joint (F := (noteTaking f δ).toFrame) _ _ (outcome (compileWith fuel field .normal) f s)
      (outcome (compileNoting fuel field .normal) f (s.noted [])) :=
    visits_compileNoting (P := (noteTaking f δ).inside (nodeOf field)) _ field .normal _ _ _ trivial hLike
  rw [hRun] at hJoint
  generalize outcome (compileNoting fuel field .normal) f _ = x at hJoint
  cases hJoint with
  | done _ related _ => exact related.ledgers.notes

end Runs

/-- The session in which the nodes of a material are collected. -/
def Session.started (s : Session) (m : Definition) (owned : Bool) : Session :=
  { s with
    reportedWarnings := []
    reportedErrors := []
    owned := owned
    expressions := #[]
    bundles := if s.groupInputs.isEmpty then #[] else s.bundles
    log := s.log.push ⟨.debug, "creating material " ++ m.name ++ " with node_tree "⟩ }.collecting m

/-- Where the textures stand that are made as heights when the surface of a material is compiled. -/
def heightsMade (f : Forest) (s : Session) (m : Definition) : List Nat :=
  match (f.outputNode? m.tree).map fun output => (f.inputNamed output "Surface", f.inputNamed output "Volume") with
  | some (.ok surface, .ok volume) =>
    if f.isLinked volume && !f.isLinked surface then []
    else (outcome (compileNoting (f.nodeCount + 2) surface .normal) f (s.anew.noted [])).2.notes
  | _ => []

/-- An expression is met when one follows the references from an output. -/
def Document.Reaches (d : Document) (channel : String) (k : Nat) : Prop :=
  ∃ source, ∃ i : Nat, .channel channel source ∈ d.entries ∧ source.expression = .int i ∧ Relation.ReflTransGen d.Refers i k

section Bundles

variable {f : Forest} {s t : Session} {i j : Nat} {name n : String} {o : Operand}

theorem lt_of_get?_eq_some {bundles : Array Bundle} (h : (bundles[i]?.getD .empty).get? name = some o) :
    i < bundles.size := by
  by_contra hOut
  rw [Array.getElem?_eq_none (Nat.not_lt.mp hOut)] at h
  cases h

theorem get?_redefined_of_ne {e : Expression} (h : n ≠ name) : ((s.redefined i name e o).bundles[j]?.getD .empty).get? n =
    (s.bundles[j]?.getD .empty).get? n := by
  rw [Session.redefined, Array.getElem?_setIfInBounds]
  split
  · subst i
    split
    · exact Table.get?_insert_of_ne _ h _
    · rw [Array.getElem?_eq_none (Nat.not_lt.mp ‹_›)]
  · rfl

theorem get?_redefined_self {e : Expression} (h : i < s.bundles.size) :
    ((s.redefined i name e o).bundles[i]?.getD .empty).get? name = some o := by
  rw [Session.redefined, Array.getElem?_setIfInBounds_self_of_lt h]
  exact Table.get?_insert_self ..

/-- The number of the expression that an operand stands for. -/
def Session.place? (s : Session) : Operand → Option Int
  | .none => some (-1)
  | .index n => some n
  | .bundle i => ((s.bundles[i]?.getD .empty).get? "expression").bind Operand.position?

theorem place?_of_source {k : Int} {x : Source} (h : outcome (source o k) f s = (.ok x, t)) (n : Int) :
    x.expression = .int n ↔ s.place? o = some n := by
  cases o with
  | none =>
    cases h
    simp [Session.place?, Source.nothing]
  | index m =>
    cases h
    simp [Session.place?]
  | bundle i =>
    rw [outcome_source_bundle] at h
    split at h <;> cases h
    rename_i o hGet
    rw [Session.place?, hGet, Option.bind_some]
    constructor
    · intro h
      rw [datum_eq_int h]
      rfl
    · intro h
      cases o with
      | index m =>
        cases h
        exact datum_index n
      | none => cases h
      | bundle i => cases h

theorem Dithers.get? (h : Dithers i s t) (hName : name ≠ "Opacity") :
    (t.bundles[j]?.getD .empty).get? name = (s.bundles[j]?.getD .empty).get? name := by
  cases h with
  | same => rfl
  | redefined => exact get?_redefined_of_ne hName

theorem Dithers.place? (h : Dithers i s t) (o : Operand) : t.place? o = s.place? o := by
  cases o with
  | bundle j =>
    have hGet : (t.bundles[j]?.getD .empty).get? "expression" = _ := h.get? (by decide)
    rw [Session.place?, Session.place?, hGet]
  | _ => rfl

theorem Dithers.expressions (h : Dithers i s t) : s.expressions.toList <+: t.expressions.toList := by
  cases h with
  | same => exact List.prefix_rfl
  | redefined =>
    rw [Session.redefined, Array.toList_push]
    exact List.prefix_append _ _

end Bundles

section Heights

variable {f : Forest} {s t : Session} {o : Operand} {d : Document}

theorem refers_of_input {i k : Nat} {path name : String} {ps : List Part} {x : Source}
    (h : d.body[i]? = some (.call path ps)) (hp : .input name x ∈ ps) (hx : x.expression = .int k) : d.Refers i k :=
  ⟨_, h, List.mem_flatMap.mpr ⟨_, hp, mem_int?.mpr hx⟩⟩

theorem reaches_of_heightChain {before : List Expression} {heights : List Int}
    (hPrefix : before ++ heightChain before.length heights <+: d.body) {k : Nat} (hk : (k : Int) ∈ heights) :
    Relation.ReflTransGen d.Refers before.length k := by
  induction heights generalizing before with
  | nil => cases hk
  | cons e rest ih =>
    obtain ⟨tail, hBody⟩ := hPrefix
    cases rest with
    | nil =>
      have hFirst : d.body[before.length]? = some (.call Function.passthrough [directInput "0" e 0]) := by
        simp [← hBody, heightChain]
      obtain rfl := List.mem_singleton.mp hk
      exact .single (refers_of_input hFirst (List.mem_singleton_self _) rfl)
    | cons e' rest =>
      have hFirst : d.body[before.length]? = some (.call Function.passthrough [directInput "0" e 0,
          directInput "1" (before.length + 1 : Nat) 0]) := by
        simp [← hBody, heightChain]
      obtain rfl | hk := List.mem_cons.mp hk
      · exact .single (refers_of_input hFirst List.mem_cons_self rfl)
      · refine .head (refers_of_input hFirst (List.mem_cons_of_mem _ (List.mem_singleton_self _)) rfl) ?_
        have hNext := @ih (before ++ [.call Function.passthrough [directInput "0" e 0,
          directInput "1" (before.length + 1 : Nat) 0]]) ⟨tail, by simp [← hBody, heightChain]⟩ hk
        rwa [List.length_append] at hNext

theorem tied_of_tieHeights (h : outcome (tieHeights o) f s = (.ok (), t)) :
    s.heightTextures = [] ∧ t = s.tied ∨ ∃ i color first, o = .bundle i ∧
      (s.bundles[i]?.getD .empty).get? "BaseColor" = some color ∧
      outcome (optionalInput "0" color) f s.tied = (.ok first, s.tied) ∧
      t = { s.tied with bundles := s.bundles.push (.ofList [("expression", .index s.tied.expressions.size)]) }.redefined i
        "BaseColor" (.call Function.passthrough (first ++ [directInput "1" s.expressions.size 0]))
          (.bundle s.bundles.size) := by
  obtain ⟨start, _, ⟨⟩, h⟩ := outcome_bind_eq_ok h
  cases hEmpty : (heightChain s.expressions.size s.heightTextures).isEmpty with
  | true =>
    rw [hEmpty] at h
    cases h
    have hLength := length_heightChain s.expressions.size s.heightTextures
    rw [List.isEmpty_iff.mp hEmpty] at hLength
    exact .inl ⟨List.length_eq_zero_iff.mp hLength.symm, rfl⟩
  | false =>
    rw [hEmpty] at h
    obtain ⟨i, _, hChannels, h⟩ := outcome_bind_eq_ok h
    cases o with
    | none => cases hChannels
    | index n => cases hChannels
    | bundle i =>
      cases hChannels
      obtain ⟨_, _, ⟨⟩, h⟩ := outcome_bind_eq_ok h
      split at h
      · cases h
      · rename_i color hColor
        obtain ⟨first, u, hFirst, hRest⟩ := outcome_bind_eq_ok h
        obtain rfl := optionalInput_same hFirst
        cases hRest
        exact .inr ⟨i, color, first, rfl, hColor, hFirst, rfl⟩

theorem exists_input_of_place? {name : String} {ps : List Part} {k : Nat}
    (h : outcome (optionalInput name o) f s = (.ok ps, t)) (hPlace : s.place? o = some k) :
    ∃ x, .input name x ∈ ps ∧ x.expression = .int k := by
  cases o with
  | none => cases hPlace
  | _ =>
    obtain ⟨x, u, hSource, ⟨⟩⟩ := outcome_bind_eq_ok h
    exact ⟨x, List.mem_singleton_self _, (place?_of_source hSource k).mpr hPlace⟩

/-- The heights of the session and the color of the surface are reached from the color of the document. -/
theorem reached_of_surfaceDocument {m : Definition} {name : String} {alwaysTwoSided : Bool}
    (h : outcome (surfaceDocument m name o alwaysTwoSided) f s = (.ok d, t)) :
    (∀ k : Nat, (k : Int) ∈ s.heightTextures → d.Reaches "BaseColor" k) ∧
      ∀ i color (k : Nat), o = .bundle i → (s.bundles[i]?.getD .empty).get? "BaseColor" = some color →
        s.place? color = some k → d.Reaches "BaseColor" k := by
  obtain ⟨u, v, i, hTie, rfl, hDithers, hExpressions, -, hWrites⟩ := writes_of_surfaceDocument h
  have hBody : u.expressions.toList <+: d.body := by
    rw [Document.body, hExpressions]
    exact hDithers.expressions
  have hWritten {color : Operand} {n : Int} (hGet : (u.bundles[i]?.getD .empty).get? "BaseColor" = some color)
      (hPlace : u.place? color = some n) : ∃ y, .channel "BaseColor" y ∈ d.entries ∧ y.expression = .int n := by
    rw [← hDithers.get? (by decide)] at hGet
    obtain ⟨y, hSource, hMem⟩ := hWrites.sources _ (Table.mem_of_lookup hGet)
    exact ⟨y, hMem, (place?_of_source hSource n).mpr (hDithers.place? color ▸ hPlace)⟩
  have hTied : s.tied.expressions.toList = s.expressions.toList ++ heightChain s.expressions.size s.heightTextures := by
    simp [Session.tied]
  obtain ⟨hNone, rfl⟩ | ⟨_, color, first, ⟨⟩, hColor, hFirst, rfl⟩ := tied_of_tieHeights hTie
  · refine ⟨fun k hk => ?_, ?_⟩
    · rw [hNone] at hk
      cases hk
    · rintro _ color k ⟨⟩ hColor hPlace
      obtain ⟨y, hMem, hy⟩ := hWritten hColor hPlace
      exact ⟨y, k, hMem, hy, .refl⟩
  · have hPrefix : s.tied.expressions.toList <+: d.body := by
      refine .trans ?_ hBody
      rw [Session.redefined, Array.toList_push]
      exact List.prefix_append _ _
    have hLt := lt_of_get?_eq_some hColor
    obtain ⟨y, hMem, hy⟩ := hWritten
      (get?_redefined_self (by rw [Array.size_push]; omega)) (by
        rw [Session.place?, get?_redefined_of_ne (by decide), Array.getElem?_push_size]
        rfl)
    have hReaches {k : Nat} (hk : Relation.ReflTransGen d.Refers s.tied.expressions.size k) : d.Reaches "BaseColor" k :=
      ⟨y, _, hMem, hy, hk⟩
    have hCall : d.body[s.tied.expressions.size]? =
        some (.call Function.passthrough (first ++ [directInput "1" s.expressions.size 0])) := by
      obtain ⟨rest, hRest⟩ := hBody
      rw [← hRest]
      simp [Session.redefined]
    refine ⟨fun k hk => ?_, ?_⟩
    · rw [hTied, ← Array.length_toList] at hPrefix
      exact hReaches (.head (refers_of_input hCall (List.mem_append_right _ (List.mem_singleton_self _)) rfl)
        (reaches_of_heightChain hPrefix hk))
    · rintro _ color' k ⟨⟩ hColor' hPlace
      obtain rfl := Option.some.inj (hColor.symm.trans hColor')
      obtain ⟨x, hx, hk⟩ := exists_input_of_place? hFirst hPlace
      exact hReaches (.single (refers_of_input hCall (List.mem_append_left _ hx) hk))

end Heights

/-- The textures that a material makes as heights are reached from its color, and so is the expression that
was the color before they were tied to it. -/
theorem heights_reached_from_color {f : Forest} {s t : Session} {m : Definition} {owned alwaysTwoSided : Bool}
    {d : Document} (hNodes : m.useNodes = true)
    (hRun : outcome (document (some m) owned alwaysTwoSided) f s = (.ok d, t)) :
    (∀ n ∈ heightsMade f (s.started m owned) m, d.Reaches "BaseColor" n) ∧
      ∀ output i u color x, ∀ k : Nat, f.outputNode? m.tree = some output →
        outcome (surfaceOperand m output) f (s.started m owned) = (.ok (.bundle i), u) →
        (u.bundles[i]?.getD .empty).get? "BaseColor" = some color →
        outcome (source color 0) f u = (.ok x, u) → x.expression = .int k → d.Reaches "BaseColor" k := by
  obtain ⟨_, _, ⟨⟩, hRun⟩ := outcome_bind_eq_ok hRun
  dsimp only at hRun
  rw [hNodes, if_pos rfl] at hRun
  obtain ⟨_, _, ⟨⟩, hRun⟩ := outcome_bind_eq_ok hRun
  obtain ⟨_, -, ⟨hNone, -⟩ | ⟨output, o, u, hOutput, hOperand, hDocument⟩⟩ := nodeDocument_ok hRun
  · rw [heightsMade, hNone]
    exact ⟨List.forall_mem_nil _, nofun⟩
  obtain ⟨hHeights, hColor⟩ := reached_of_surfaceDocument hDocument
  constructor
  · obtain ⟨surface, volume, hSurface, hVolume, hOperand⟩ := surfaceOperand_ok hOperand
    simp only [heightsMade, hOutput, Option.map_some, hSurface, hVolume]
    split
    · exact List.forall_mem_nil _
    · rw [if_neg ‹_›] at hOperand
      exact fun n hn => hHeights n (noted_of_compileNoting rfl hOperand n hn)
  · intro output' i u' color x k hOutput' hOperand' hGet hSource hk
    obtain rfl := Option.some.inj (hOutput.symm.trans hOutput')
    obtain ⟨⟨⟩, rfl⟩ := Prod.mk.inj (hOperand.symm.trans hOperand')
    exact hColor i color k rfl hGet ((place?_of_source hSource k).mp hk)

theorem heights_reached_in_relief : ∃ d t,
    outcome (document (some (nodeMaterial 0)) true false) reliefForest reliefSession = (.ok d, t) ∧
    [3, 8].map (fun n => d.body[n]?.map (·.tag)) = [some "Texture", some "Texture"] ∧
    heightsMade reliefForest (reliefSession.started (nodeMaterial 0) true) (nodeMaterial 0) = [3, 8] ∧
    d.Reaches "BaseColor" 3 ∧ d.Reaches "BaseColor" 8 := by
  obtain ⟨d, t, hRun, hTags⟩ := exists_of_map (g := fun d => [3, 8].map fun n => d.body[n]?.map (·.tag))
    (x := outcome (document (some (nodeMaterial 0)) true false) reliefForest reliefSession)
    (b := [some "Texture", some "Texture"]) (by decide +kernel)
  have hMade : heightsMade reliefForest (reliefSession.started (nodeMaterial 0) true) (nodeMaterial 0) = [3, 8] := by
    decide +kernel
  obtain ⟨hReaches, -⟩ := heights_reached_from_color rfl hRun
  refine ⟨d, t, hRun, hTags, hMade, hReaches 3 ?_, hReaches 8 ?_⟩ <;> rw [hMade] <;> decide

end SceneExchange.Material
