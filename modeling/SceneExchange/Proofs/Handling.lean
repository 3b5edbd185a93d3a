import SceneExchange.Proofs.Emission
import SceneExchange.Proofs.Typing

/-!
# Steps that read fields, side by side

A handling adds to an emission the steps with contexts, curves and textures. Given that the visits
of fields agree, so do the steps that handlers make of them. What a handler keeps for the other
outputs of its node is left to later modules, with the tables and the groups.

A handler needs more than values where it reads shaders. That they are shaders is known in a typed
forest; a handling in which every operand may serve as a shader needs no types.
-/

open List

namespace SceneExchange.Texture

/-- Every texture is listed once, under its own name. -/
structure Catalog.Listed (c : Catalog) : Prop where
  nodup : c.keys.Nodup
  named : ∀ e ∈ c.entries, e.2.name = e.1 ∧ e.1 ≠ ""

variable {c : Catalog} {name : String}

theorem Catalog.Listed.enter (h : c.Listed) (hName : name ≠ "") {image : Nat} {hint : String} :
    (enter c name image hint).1.Listed := by
  unfold Texture.enter
  split
  · exact h
  · refine ⟨Table.nodup_keys_insert h.nodup name _, fun e he => ?_⟩
    obtain rfl | he := Table.mem_insertEntry he
    · exact ⟨rfl, hName⟩
    · exact h.named e he

theorem contains_iff : c.contains name ↔ name ∈ c.keys := by
  simp [Table.contains, Table.keys]

theorem mem_keys_enter (c : Catalog) (name : String) (image : Nat) (hint : String) :
    name ∈ (enter c name image hint).1.keys := by
  unfold enter
  split
  · exact contains_iff.mp ‹_›
  · exact mem_map.mpr ⟨_, Table.mem_of_lookup (Table.get?_insert_self c name _), rfl⟩

theorem get?_enter {key : String} {image : Nat} {hint : String} : (enter c name image hint).1.get? key =
    (c.get? key).or (if key = name then some ⟨name, image, hint⟩ else none) := by
  unfold enter
  by_cases hKey : key = name
  · subst hKey
    rw [if_pos rfl]
    split
    · rename_i hContains
      obtain ⟨e, hMem, hSame⟩ := any_eq_true.mp hContains
      obtain ⟨x, hx⟩ := Option.isSome_iff_exists.mp (lookup_isSome_iff.mpr ⟨e, hMem, beq_iff_eq.mpr (eq_of_beq hSame).symm⟩)
      change c.entries.lookup key = (c.entries.lookup key).or _
      rw [hx]
      rfl
    · rename_i hContains
      have hNone : c.get? key = none := by
        simp only [Table.contains, any_eq_true, beq_iff_eq, not_exists, not_and] at hContains
        simpa [Table.get?] using fun e v he h => hContains _ he h.symm
      rw [hNone]
      exact Table.get?_insert_self ..
  · rw [if_neg hKey, Option.or_none]
    split
    · rfl
    · exact Table.get?_insert_of_ne c hKey _

theorem keys_subset_enter (c : Catalog) (name : String) (image : Nat) (hint : String) :
    c.keys ⊆ (enter c name image hint).1.keys := by
  unfold enter
  split
  · exact List.Subset.refl _
  · exact Table.keys_subset_insert c name _

end SceneExchange.Texture

namespace SceneExchange.Material

open SceneExchange.Graph Compile Material.Frame

variable {f : Forest} {r : NodeRef}

namespace Vocabulary

variable (V : Vocabulary)

def station (t : Station) : V.Fact := V.position t.expression

def capture (n : Node) (e : String × Operand × Bool) : V.Fact where
  holds w := ∃ s ∈ n.inputs, s.identifier = e.1 ∧ (V.operand s.kind e.2.1).holds w
  stable hw h := by
    obtain ⟨s, hs, hIdentifier, hOperand⟩ := h
    exact ⟨s, hs, hIdentifier, (V.operand s.kind _).stable hw hOperand⟩

abbrev captured (n : Node) (c : Table String (Operand × Bool)) : V.Fact := .each (V.capture n) c.entries

end Vocabulary

namespace Session

/-- The session in which the inside of a group is compiled. -/
def entered (s : Session) (captured : Table String (Operand × Bool)) : Session :=
  { s with groupInputs := captured, memo := [], nodeMemo := [], stations := [] }

/-- The session after a group was left for what surrounds it. -/
def restored (s outer : Session) : Session :=
  { s with
    groupInputs := outer.groupInputs
    memo := outer.memo
    nodeMemo := outer.nodeMemo
    stations := outer.stations }

end Session

section Outcomes

variable {α : Type} {m : Compile α} {f : Forest} {s t : Session} {c : Table String (Operand × Bool)}

theorem outcome_insideGroup_ok {a : α} (h : outcome m f (s.entered c) = (.ok a, t)) :
    outcome (Handlers.insideGroup c m) f s = (.ok a, t.restored s) := by
  change outcome (m >>= fun a => _) f (s.entered c) = _
  rw [outcome_bind_ok h]
  rfl

theorem outcome_insideGroup_error {e : Fault} (h : outcome m f (s.entered c) = (.error e, t)) :
    outcome (Handlers.insideGroup c m) f s = (.error e, t) := by
  change outcome (m >>= fun a => _) f (s.entered c) = _
  rw [outcome_bind_error h]

theorem outcome_theNode (out : SocketRef) : outcome (theNode out) f s = (.ok (f.node (nodeOf out)), s) := rfl

theorem outcome_groupInput (out field : SocketRef) : outcome (Handlers.groupInput out field) f s =
    match s.groupInputs.get? (f.outputSocket out).identifier with
    | none => (.error (.missingKey (.text (f.outputSocket out).identifier)), s)
    | some (o, linked) => (.ok (if (f.inputSocket field).plainVector &&
        (f.inputSocket field).value.isArray && !linked then .none else o), s) := by
  change outcome (match s.groupInputs.get? (f.outputSocket out).identifier with
    | none => fail (.missingKey (.text (f.outputSocket out).identifier))
    | some (o, linked) => if (f.inputSocket field).plainVector &&
        (f.inputSocket field).value.isArray && !linked then pure .none else pure o) f s = _
  split
  · rfl
  · split <;> rfl

theorem outcome_nested_ok {a : α} (h : outcome m f { s with depth := s.depth + 1 } = (.ok a, t)) :
    outcome (nested m) f s = (.ok a, { t with depth := s.depth }) := by
  change outcome (m >>= fun a => _) f { s with depth := s.depth + 1 } = _
  rw [outcome_bind_ok h]
  rfl

theorem outcome_nested_error {e : Fault} (h : outcome m f { s with depth := s.depth + 1 } = (.error e, t)) :
    outcome (nested m) f s = (.error e, t) := by
  change outcome (m >>= fun a => _) f { s with depth := s.depth + 1 } = _
  rw [outcome_bind_error h]

theorem outcome_within_ok {a : α} {c d : Datum} {rest : List Datum}
    (h : outcome m f { s with contexts := d :: s.contexts } = (.ok a, t)) (hContexts : t.contexts = c :: rest) :
    outcome (within d m) f s = (.ok a, { t with contexts := rest }) := by
  change outcome (m >>= fun a => popContext >>= fun _ => pure a) f { s with contexts := d :: s.contexts } = _
  rw [outcome_bind_ok h]
  have hPop : outcome popContext f t = (.ok (), { t with contexts := rest }) := by
    rw [popContext, outcome_get, hContexts]
    rfl
  rw [outcome_bind_ok hPop]
  rfl

theorem outcome_within_error {d : Datum} {e : Fault}
    (h : outcome m f { s with contexts := d :: s.contexts } = (.error e, t)) :
    outcome (within d m) f s = (.error e, t) := by
  change outcome (m >>= fun a => popContext >>= fun _ => pure a) f { s with contexts := d :: s.contexts } = _
  exact outcome_bind_error h

/-- An output that a computation gives, unless the tables answer it. -/
def answered (out : SocketRef) (m : Compile Operand) : Compile Operand := do
  match ← recalled out with
  | some o => pure o
  | none =>
    match ← station? (nodeOf out) with
    | some station => stationRef station (← outputName out)
    | none => m

theorem outcome_answered (out : SocketRef) (m : Compile Operand) : outcome (answered out m) f s =
    match s.memo.lookup out, s.stations.lookup (nodeOf out) with
    | some o, _ => (.ok o, s)
    | none, some x => outcome (stationRef x (f.outputSocket out).name) f s
    | none, none => outcome m f s := by
  have hRecalled : outcome (recalled out) f s = (.ok (s.memo.lookup out), s) := rfl
  have hStation : outcome (station? (nodeOf out)) f s = (.ok (s.stations.lookup (nodeOf out)), s) := rfl
  rw [answered, outcome_bind_ok hRecalled]
  cases s.memo.lookup out with
  | some o => rfl
  | none =>
    dsimp only
    rw [outcome_bind_ok hStation]
    cases s.stations.lookup (nodeOf out) <;> rfl

theorem outcome_outputStep (visit : Visit) (out field : SocketRef) : outcome (outputStep visit out field) f s =
    match s.memo.lookup out, s.stations.lookup (nodeOf out) with
    | some o, _ => (.ok o, s)
    | none, some x => outcome (stationRef x (f.outputSocket out).name) f s
    | none, none => outcome (dispatch visit out field) f s :=
  outcome_answered out (dispatch visit out field)

theorem outcome_fieldStep_linked (output : SocketRef → SocketRef → Compile Operand)
    (mode : FieldMode) {field source : SocketRef} (hSource : f.source? field = some source)
    (hEnabled : (f.outputSocket source).enabled = true) :
    ∃ log, outcome (fieldStep output field mode) f s =
      outcome (linkedOperand output source field) f { s with log := log } := by
  let announcing := announce (f.node ⟨field.tree, field.node⟩) (f.inputSocket field)
  have hAnnounced : outcome announcing f s = (.ok (), (outcome announcing f s).2) := rfl
  refine ⟨(outcome announcing f s).2.log, ?_⟩
  rw [fieldStep, outcome_bind_ok outcome_read]
  dsimp only
  rw [outcome_bind_ok hAnnounced, hSource]
  dsimp only
  rw [hEnabled]
  rfl

theorem outcome_linkedOperand_shader (output : SocketRef → SocketRef → Compile Operand) {field source : SocketRef}
    (hField : (f.inputSocket field).kind = .shader) (hSource : (f.outputSocket source).kind = .shader) :
    outcome (linkedOperand output source field) f s = outcome (do
      let o ← nested (output source field)
      remember source o
      pure o) f s := by
  rw [linkedOperand, outcome_bind_ok outcome_read, hField, hSource]
  refine outcome_bind_congr fun o t => outcome_bind_congr fun _ u => ?_
  cases o with
  | none => rfl
  | index n =>
    change outcome (if n != 0 then _ else _) f u = _
    split <;> rfl
  | bundle i =>
    change outcome (if !(u.bundles[i]?.getD .empty).isEmpty then _ else _) f u = _
    split <;> rfl

theorem outcome_value_bundle (f : Forest) (s : Session) (i : Nat) : outcome (value (.bundle i)) f s =
    (.ok (.record ((s.bundles[i]?.getD .empty).entries.map fun (name, o) =>
      (name, o.datum s.bundles s.bundles.size [i]))), s) := by
  change (Except.ok (Operand.datum s.bundles (s.bundles.size + 1) [] (.bundle i)), s) = _
  rw [Operand.datum, contains_nil, if_neg Bool.false_ne_true]

theorem findText_record {α : Type} (es : List (String × α)) (name : String) (g : α → Datum) :
    ((es.map fun x => (x.1, g x.2)).map fun x => (Datum.text x.1, x.2)).findSome? (fun
      | (.text k, v) => if k == name then some v else none
      | _ => none) = (es.lookup name).map g := by
  induction es with
  | nil => rfl
  | cons x es ih =>
    rw [map_cons, map_cons, findSome?_cons, lookup_cons, ih, BEq.comm]
    dsimp only
    cases x.1 == name <;> rfl

/-- The source of a bundle is read from its entries. -/
theorem outcome_source_bundle (f : Forest) (s : Session) (i : Nat) (k : Int) : outcome (source (.bundle i) k) f s =
    match (s.bundles[i]?.getD .empty).get? "expression" with
    | some o => (.ok ⟨o.datum s.bundles s.bundles.size [i], (((s.bundles[i]?.getD .empty).get? "OutputIndex").map
        (Operand.datum s.bundles s.bundles.size [i])).getD (.int 0)⟩, s)
    | none => (.error (.missingKey (.text "expression")), { s with
        log := s.log.push ⟨.error, ((Operand.bundle i).datum s.bundles (s.bundles.size + 1) []).display⟩ }) := by
  rw [source, outcome_bind_ok (outcome_value_bundle f s i), Datum.record, sourceOf]
  dsimp only
  generalize hFound : findSome? _ _ = found
  generalize hOutput : findSome? _ _ = output
  obtain rfl := hFound.symm.trans (findText_record _ "expression" _)
  obtain rfl := hOutput.symm.trans (findText_record _ "OutputIndex" _)
  rw [Table.get?]
  cases (s.bundles[i]?.getD .empty).entries.lookup "expression" <;> rfl

def Session.entering (s : Session) (name : String) (image : Nat) (hint : String) : Session :=
  { s with
    textures := (Texture.enter s.textures name image hint).1
    log := if s.textures.contains name then s.log else s.log.push ⟨.debug, "collecting texture:" ++ name⟩ }

theorem outcome_enterTexture (image : Nat) (hint : String) (s : Session) :
    outcome (enterTexture image hint) f s = match Name.legal (s.images[image]?.getD default).name with
      | .error e => (.error e, s)
      | .ok name => (.ok name, s.entering name image hint) := by
  change outcome (lift (Name.legal (s.images[image]?.getD default).name) >>= fun name => _) f s = _
  cases hName : Name.legal (s.images[image]?.getD default).name with
  | error e => rfl
  | ok name =>
    change outcome (do
      onlyIf (Texture.enter s.textures name image hint).2 do
        write .debug ("collecting texture:" ++ name)
        modify fun u => { u with textures := (Texture.enter s.textures name image hint).1 }
      pure name) f s = (.ok name, s.entering name image hint)
    unfold Session.entering Texture.enter
    split <;> rfl

end Outcomes

def Session.footing (s : Session) : Array Expression × Array Bundle × Table String (Operand × Bool) ×
    List (SocketRef × Operand) × List (NodeRef × Int) × List (NodeRef × Station) × List Int × Array Texture.Image :=
  (s.expressions, s.bundles, s.groupInputs, s.memo, s.nodeMemo, s.stations, s.heightTextures, s.images)

/-- The names of textures that a run may refer to: those entered, and that of the curves once there is one. -/
def Session.promised (s : Session) : List String :=
  s.textures.keys ++ if s.curveCount = 0 then [] else [curvesName]

/-- A later session with the same footing and in the same contexts, which promises no less. -/
structure Session.Beside (s t : Session) : Prop where
  footing : t.footing = s.footing
  contexts : t.contexts = s.contexts
  depth : t.depth = s.depth
  promised : s.promised ⊆ t.promised
  catalog : s.textures.Listed → t.textures.Listed

namespace Session.Beside

variable {s t u : Session}

protected theorem refl (s : Session) : s.Beside s := ⟨rfl, rfl, rfl, List.Subset.refl _, id⟩

theorem eq (h : s.Beside t) : t = { t with
    expressions := s.expressions, bundles := s.bundles, groupInputs := s.groupInputs, memo := s.memo,
    nodeMemo := s.nodeMemo, stations := s.stations, heightTextures := s.heightTextures, images := s.images,
    contexts := s.contexts, depth := s.depth } := by
  obtain ⟨hFooting, hContexts, hDepth, -, -⟩ := h
  simp only [Session.footing, Prod.mk.injEq] at hFooting
  simp only [← hFooting, ← hContexts, ← hDepth]

theorem trans (h : s.Beside t) (h' : t.Beside u) : s.Beside u :=
  ⟨h'.footing.trans h.footing, h'.contexts.trans h.contexts, h'.depth.trans h.depth,
    List.Subset.trans h.promised h'.promised, h'.catalog ∘ h.catalog⟩

theorem of_curve (hFooting : t.footing = s.footing) (hLevel : (t.contexts, t.depth) = (s.contexts, s.depth))
    (hTextures : t.textures = s.textures) (hCount : s.curveCount ≠ 0 → t.curveCount ≠ 0) : s.Beside t := by
  obtain ⟨hContexts, hDepth⟩ := Prod.mk.inj hLevel
  refine ⟨hFooting, hContexts, hDepth, ?_, fun h => hTextures ▸ h⟩
  rw [Session.promised, Session.promised, hTextures]
  apply append_subset.mpr
  constructor
  · exact subset_append_left _ _
  · split <;> simp_all

theorem of_eq (hFooting : t.footing = s.footing) (hLevel : (t.contexts, t.depth) = (s.contexts, s.depth))
    (hTextures : t.textures = s.textures) (hCount : t.curveCount = s.curveCount) : s.Beside t :=
  of_curve hFooting hLevel hTextures hCount.trans_ne

end Session.Beside

def Aside {α : Type} (m : Compile α) : Prop := ∀ (f : Forest) (s : Session), s.Beside (outcome m f s).2

section Aside

variable {α β : Type}

theorem Aside.bind {m : Compile α} {k : α → Compile β} (hm : Aside m) (hk : ∀ a, Aside (k a)) : Aside (m >>= k) := by
  intro f s
  generalize hRun : outcome m f s = x
  obtain ⟨r, t⟩ := x
  have hBeside : s.Beside t := by simpa [hRun] using hm f s
  cases r with
  | ok a =>
    rw [outcome_bind_ok hRun]
    exact hBeside.trans (hk a f t)
  | error e =>
    rw [outcome_bind_error hRun]
    exact hBeside

theorem Aside.ofGet {k : Session → Compile α} (h : ∀ (f : Forest) (s : Session), s.Beside (outcome (k s) f s).2) :
    Aside (get >>= k) :=
  h

theorem Aside.lift {r : Except Fault α} : Aside (lift r) := by
  intro f s
  rw [outcome_lift]
  exact .refl s

theorem aside_write {level : LogLevel} {message : String} : Aside (write level message) :=
  fun _ _ => .of_eq rfl rfl rfl rfl

theorem aside_warnOnceAs {template message : String} : Aside (warnOnceAs template message) :=
  .ofGet fun f s => by split <;> exact .of_eq rfl rfl rfl rfl

theorem aside_errorOnce {message : String} : Aside (errorOnce message) :=
  .ofGet fun f s => by split <;> exact .of_eq rfl rfl rfl rfl

theorem aside_nextCurve : Aside nextCurve := by
  refine Aside.bind (fun _ s => .refl s) fun number => Aside.bind
    (fun _ _ => .of_curve rfl rfl rfl fun _ => Nat.succ_ne_zero _) fun _ => ?_
  exact aside_write.bind fun _ => Aside.lift.bind fun _ _ s => .refl s

theorem aside_addCurve {row : CurveRow} : Aside (addCurve row) := by
  refine aside_nextCurve.bind fun x f s => ?_
  dsimp only
  split <;> exact .of_eq rfl rfl rfl rfl

theorem aside_enterTexture {image : Nat} {hint : String} : Aside (enterTexture image hint) := by
  intro f s
  rw [outcome_enterTexture]
  split
  · exact .refl s
  · rename_i name hName
    refine ⟨rfl, rfl, rfl, ?_, fun h => h.enter (Name.ne_empty_of_legal hName)⟩
    apply append_subset.mpr
    constructor
    · exact List.Subset.trans (Texture.keys_subset_enter _ _ _ _) (subset_append_left _ _)
    · exact subset_append_right _ _

theorem aside_addBlankCurve : Aside addBlankCurve := aside_nextCurve.bind fun _ _ s => .refl s

theorem aside_source {o : Operand} {k : Int} : Aside (source o k) := by
  intro f s
  cases o with
  | none => exact .refl s
  | index n => exact .refl s
  | bundle i =>
    rw [outcome_source_bundle]
    split
    · exact .refl s
    · exact .of_eq rfl rfl rfl rfl

theorem aside_decideSides {culls wanted : Bool} : Aside (decideSides culls wanted) := by
  intro f s
  cases culls <;> cases wanted <;> exact .of_eq rfl rfl rfl rfl

end Aside

/-- A run by itself comes from a point to a session. -/
def Frame.Arrives (F : Frame) (w : F.World) (t : Session) : Prop := ∃ w', F.Returns w w' ∧ F.Related w' t t

/-- A frame in which a run is compared with itself. What its points tell is not lost on the side. -/
class Frame.OneRun (F : Frame) : Prop where
  eq_of_related : ∀ {w s s'}, F.Related w s s' → s = s'
  beside : ∀ {w s t}, F.Related w s s → s.Beside t → F.Arrives w t

section OneRun

variable {F : Frame} {P : F.Fact} {α β : Type}

/-- Of a run by itself it is enough to say at which point it ends, and what its answer is there. -/
theorem agree_of_run [F.OneRun] {m : Compile α} {A : α → F.Fact} (h : ∀ {w s}, P.holds w → F.Related w s s →
    ∃ w', F.Returns w w' ∧ F.Related w' (outcome m F.forest s).2 (outcome m F.forest s).2 ∧
      ∀ a, (outcome m F.forest s).1 = .ok a → (A a).holds w') : Agrees P m A := by
  intro w s s' hP hRelated
  obtain rfl := Frame.OneRun.eq_of_related hRelated
  obtain ⟨w', hReturns, hNext, hAnswer⟩ := h hP hRelated
  generalize outcome m F.forest s = x at hNext hAnswer
  obtain ⟨_ | a, t⟩ := x
  · exact .failed hNext
  · exact .done hReturns hNext (hAnswer a rfl)

theorem agree_of_arrives [F.OneRun] {m : Compile α}
    (h : ∀ {w s}, F.Related w s s → F.Arrives w (outcome m F.forest s).2) : Agrees P m fun _ => .pure True := by
  refine agree_of_run fun _ hRelated => ?_
  obtain ⟨w', hReturns, hNext⟩ := h hRelated
  exact ⟨w', hReturns, hNext, fun _ _ => trivial⟩

theorem Aside.agree [F.OneRun] {m : Compile α} (h : Aside m) : Agrees P m fun _ => .pure True :=
  agree_of_arrives fun hRelated => Frame.OneRun.beside hRelated (h F.forest _)

/-- Frames that do not tell how deep a run is, nor in which contexts. -/
class Frame.Flat (F : Frame) : Prop extends F.OneRun where
  level : ∀ {w s} (contexts : List Datum) (depth : Nat), F.Related w s s →
    F.Arrives w { s with contexts := contexts, depth := depth }

variable [F.Flat]

theorem agree_of_level {m : Compile α} (h : ∀ (f : Forest) (s : Session), ∃ contexts depth,
    (outcome m f s).2 = { s with contexts := contexts, depth := depth }) : Agrees P m fun _ => .pure True := by
  refine agree_of_arrives fun {w s} hRelated => ?_
  obtain ⟨contexts, depth, hLevel⟩ := h F.forest s
  exact hLevel ▸ Frame.Flat.level contexts depth hRelated

variable {m m' : Compile α} {A : α → F.Fact} (hm : Agree P m m' A)
include hm

theorem Frame.Agree.within {d : Datum} : Agree P (within d m) (within d m') A := by
  refine (agree_of_level fun _ s => ⟨d :: s.contexts, s.depth, rfl⟩).seq <| hm.of_entails.seq ?_
  refine (agree_of_level fun f s => ?_).seq .pure
  rw [popContext, outcome_get]
  split <;> exact ⟨_, _, rfl⟩

theorem Frame.Agree.nested : Agree P (nested m) (nested m') A := by
  refine (Aside.agree (m := get) fun _ s => .refl s).seq ?_
  refine (agree_of_level fun _ s => ⟨s.contexts, _, rfl⟩).seq <| hm.of_entails.seq ?_
  exact (agree_of_level fun _ t => ⟨t.contexts, _, rfl⟩).seq .pure

end OneRun

/-- A kind of node whose outputs are not made up for want of a handler. -/
def Handled (kind : String) : Prop := kind ∈ ["GROUP", "GROUP_INPUT", "REROUTE"] ∨ (handler? kind).isSome

instance (kind : String) : Decidable (Handled kind) := inferInstanceAs (Decidable (_ ∨ _))

/-- A node that gives values and not shaders. -/
def HasValues (f : Forest) (r : NodeRef) : Prop := (valueHandler? (f.node r).kind).isSome

theorem HasValues.kind_ne (h : HasValues f r) : (f.node r).kind ≠ "GROUP_INPUT" := by
  intro hKind
  rw [HasValues, hKind] at h
  cases h

theorem HasValues.output_ne_shader {out : SocketRef} (h : HasValues f (nodeOf out)) (hTyped : f.Typed) :
    (f.outputSocket out).kind ≠ .shader :=
  fun hKind => (hTyped.node (nodeOf out)).values h _ (Forest.outputSocket_mem hKind) hKind

theorem nodeOf_inputNamed {name : String} {p : SocketRef} (h : f.inputNamed r name = .ok p) : nodeOf p = r := by
  obtain ⟨hTree, hNode, -⟩ := Forest.inputNamed_eq_ok h
  rw [nodeOf, hTree, hNode]

theorem nodeOf_inputAt {i : Nat} {p : SocketRef} (h : f.inputAt r i = .ok p) : nodeOf p = r := by
  rw [(Forest.inputAt_eq_ok h).1, nodeOf]

structure Stationed (f : Forest) (r : NodeRef) (body : Visit → SocketRef → Compile Station) : Prop where
  dispatch : ∀ visit out field s, nodeOf out = r →
    outcome (dispatch visit out field) f s = outcome (stationed body visit out) f s
  same : ∀ visit out out', nodeOf out = r → nodeOf out' = r → body visit out = body visit out'

theorem outcome_dispatch_of_handler? {out : SocketRef} {handler : Handler}
    (h : handler? (f.node (nodeOf out)).kind = some handler) (visit : Visit) (field : SocketRef) (s : Session) :
    outcome (dispatch visit out field) f s = outcome (handler visit out) f s := by
  rw [dispatch, outcome_bind_ok (outcome_theNode out)]
  dsimp only
  split
  · rename_i hKind
    rw [hKind] at h
    cases h
  · rename_i hKind
    rw [hKind] at h
    cases h
  · rename_i hKind
    rw [hKind] at h
    cases h
  · rw [h]

theorem stationed_of_outcome {handler : Handler} {body : Visit → SocketRef → Compile Station}
    (h : handler? (f.node r).kind = some handler)
    (hBody : ∀ visit out s, nodeOf out = r → outcome (handler visit out) f s = outcome (stationed body visit out) f s)
    (hSame : ∀ visit t n i j, body visit ⟨t, n, i⟩ = body visit ⟨t, n, j⟩) : Stationed f r body where
  dispatch visit out field s hNode := by
    subst hNode
    rw [outcome_dispatch_of_handler? h, hBody visit out s rfl]
  same visit out out' hNode hNode' := by
    obtain ⟨t, n, i⟩ := out
    obtain ⟨t', n', j⟩ := out'
    cases hNode.trans hNode'.symm
    exact hSame visit t n i j

theorem stationed_of_handler? {body : Visit → SocketRef → Compile Station}
    (h : handler? (f.node r).kind = some (stationed body))
    (hSame : ∀ visit t n i j, body visit ⟨t, n, i⟩ = body visit ⟨t, n, j⟩) : Stationed f r body :=
  stationed_of_outcome h (fun _ _ _ _ => rfl) hSame

structure Handling extends Emission where
  inside : NodeRef → toFrame.Fact
  free : NodeRef → toFrame.Fact
  admits : String → Prop
  admits_of_inside : ∀ {w r}, (inside r).holds w → admits (forest.node r).kind
  curve : Int → Int → toFrame.Fact
  typed : forest.Typed ∨ ∀ {w o}, (value o).holds w → (shader o).holds w
  wrap : ∀ {P o} [Entails P (value o)], admits "LIGHT_FALLOFF" → toFrame.Agrees P (newBundle [("expression", o)]) value
  context : ∀ {P}, toFrame.Agrees P context fun _ => .pure True
  within : ∀ {P : toFrame.Fact} {d} {α : Type} {m m' : Compile α} {A}, d = normalContext ∨ d = bumpContext →
    toFrame.Agree P m m' A → toFrame.Agree P (within d m) (within d m') A
  nested : ∀ {P : toFrame.Fact} {α : Type} {m m' : Compile α} {A},
    toFrame.Agree P m m' A → toFrame.Agree P (nested m) (nested m') A
  announce : ∀ {P node socket}, toFrame.Agrees P (Material.announce node socket) fun _ => .pure True
  rememberHeight : ∀ {P e} [Entails P (position e)], toFrame.Agrees P (rememberHeight e) fun _ => .pure True
  showBothSides : ∀ {P}, toFrame.Agrees P showBothSides fun _ => .pure True
  isOwned : ∀ {P}, toFrame.Agrees P isOwned fun _ => .pure True
  enterTexture : ∀ {P image hint}, toFrame.Agrees P (enterTexture image hint) texture
  addCurve : ∀ {P} (row : CurveRow), toFrame.Numbers P (addCurve row) curve
  addBlankCurve : ∀ {P}, toFrame.Numbers P addBlankCurve curve
  lookUp : ∀ {P path o n n'} [Entails P (value o)] [Entails P (curve n n')], path ∈ lookUps →
    toFrame.Agree P (Handlers.lookUp path o n) (Handlers.lookUp path o n') position
  alters_of_mix : admits "MIX_SHADER" → alters

namespace Handling

variable (H : Handling) {P : H.Fact}

/-- What may be compiled depends on the tree only: the inputs of the group at hand are those of it. -/
abbrev Wide : Prop := ∀ {w r r'}, r'.tree = r.tree → (H.inside r).holds w → (H.inside r').holds w

def Visits (visit visit' : Visit) : Prop :=
  ∀ {P : H.Fact} (p : SocketRef) (mode : FieldMode) [Entails P (H.inside (nodeOf p))],
    Agree P (visit p mode) (visit' p mode) (H.operand (H.forest.inputSocket p).kind)

theorem entails_operand {kind kind' : SocketKind} (o : Operand)
    (hKind : H.forest.Typed → kind' = .shader → kind = .shader) : Entails (H.operand kind o) (H.operand kind' o) := by
  obtain hTyped | hAny := H.typed
  · exact ⟨fun h => ⟨h.1, fun hShader => h.2 (hKind hTyped hShader)⟩⟩
  · exact ⟨fun h => ⟨h.1, fun _ => hAny h.1⟩⟩

abbrev givenAt (out : SocketRef) : Operand → H.Fact :=
  H.given (Handled (H.forest.node (nodeOf out)).kind) (H.forest.outputSocket out).kind

theorem asGiven {out : SocketRef} (hKind : H.forest.Typed → (H.forest.outputSocket out).kind ≠ .shader)
    {m m' : Compile Operand} (h : Agree P m m' H.value) : Agree P m m' (H.givenAt out) := by
  obtain hTyped | hAny := H.typed
  · exact h.imp fun hValue => ⟨hValue, fun hShader => absurd hShader (hKind hTyped)⟩
  · refine h.imp fun hValue => ⟨hValue, fun _ => ?_⟩
    exact ⟨H.rough_of_shader (hAny hValue), fun _ => hAny hValue⟩

theorem givenOf {out : SocketRef} {m m' : Compile Operand}
    (h : Agree P m m' (H.operand (H.forest.outputSocket out).kind)) : Agree P m m' (H.givenAt out) :=
  h.imp H.given_of_operand

def newNode (r : NodeRef) : H.Fact := (H.inside r).and (H.free r)

instance {r : NodeRef} [h : Entails P (H.newNode r)] : Entails P (H.inside r) :=
  ⟨fun hP => (h.entails hP).1⟩

instance {r : NodeRef} [h : Entails P (H.newNode r)] : Entails P (H.free r) :=
  ⟨fun hP => (h.entails hP).2⟩

theorem admitted {r : NodeRef} [h : Entails P (H.inside r)] {α : Type} {m m' : Compile α} {A : α → H.Fact}
    (hm : H.admits (H.forest.node r).kind → Agree P m m' A) : Agree P m m' A :=
  fun w s s' hP => hm (H.admits_of_inside (h.entails hP)) w s s' hP

namespace Visits

variable {H} {visit visit' : Visit} {r : NodeRef} (hVisit : H.Visits visit visit')
variable {name : String} {count : Nat}
include hVisit

theorem at_field {p : SocketRef} {mode : FieldMode} (hNode : nodeOf p = r)
    [h : Entails P (H.inside r)] : Agree P (visit p mode) (visit' p mode) H.value := by
  rw [← hNode] at h
  exact (hVisit p mode).mono

variable [Entails P (H.inside r)]

theorem named : Agree P (visit.named r name) (visit'.named r name) H.value :=
  .bindRead (.bindLift fun _ hp => hVisit.at_field (nodeOf_inputNamed hp))

theorem namedForced : Agree P (visit.namedForced r name) (visit'.namedForced r name) H.value :=
  .bindRead (.bindLift fun _ hp => hVisit.at_field (nodeOf_inputNamed hp))

theorem namedSilent : Agree P (visit.namedSilent r name) (visit'.namedSilent r name) H.value :=
  .bindRead (.bindLift fun _ hp => hVisit.at_field (nodeOf_inputNamed hp))

theorem nth {i : Nat} : Agree P (visit.nth r i) (visit'.nth r i) H.value :=
  .bindRead (.bindLift fun _ hp => hVisit.at_field (nodeOf_inputAt hp))

theorem nthForced {i : Nat} : Agree P (visit.nthForced r i) (visit'.nthForced r i) H.value :=
  .bindRead (.bindLift fun _ hp => hVisit.at_field (nodeOf_inputAt hp))

theorem inputs {names : List (String × String)} [hNames : InputNames names] :
    Agree P (visit.inputs r names) (visit'.inputs r names) H.parts := by
  refine .mapM fun x hx => ?_
  have := hNames.names x hx
  exact hVisit.named.seq <| H.input

theorem firstInputs : Agree P (visit.firstInputs r count) (visit'.firstInputs r count) H.parts :=
  .mapM fun _ _ => hVisit.nth.seq <| H.input

theorem optionalInputs {names : List (String × String)} [hNames : InputNames names] :
    Agree P (visit.optionalInputs r names) (visit'.optionalInputs r names) H.parts := by
  refine .bind (A := .each H.parts) (.mapM fun x hx => ?_) fun _ => .pure
  have := hNames.names x hx
  exact hVisit.named.seq <| H.optionalInput

theorem firstOptionalInputs :
    Agree P (visit.firstOptionalInputs r count) (visit'.firstOptionalInputs r count) H.parts := by
  exact .bind (.mapM fun x _ => hVisit.nth.seq <| H.optionalInput) fun _ => .pure

theorem sliceInputs {mode : FieldMode} :
    Agree P (Material.sliceInputs visit r count mode) (Material.sliceInputs visit' r count mode) H.parts := by
  refine .bindRead (.mapM fun i _ => ?_)
  exact (hVisit.at_field (r := r) rfl).seq <| H.input

end Visits

/-- What handlers keep for all outputs of a node is kept in agreement. -/
structure Shares (visit visit' : Visit) (out : SocketRef) : Prop where
  station : ∀ {P : H.Fact} {body : Visit → SocketRef → Compile Station} [Entails P (H.newNode (nodeOf out))],
    Stationed H.forest (nodeOf out) body → HasValues H.forest (nodeOf out) →
    (∀ {Q : H.Fact} [Entails Q (H.newNode (nodeOf out))], Agree Q (body visit out) (body visit' out) H.station) →
    Agree P (stationed body visit out) (stationed body visit' out) H.value
  node : ∀ {P : H.Fact} [Entails P (H.newNode (nodeOf out))], (H.forest.node (nodeOf out)).kind = "LAYER_WEIGHT" →
    (∀ {Q : H.Fact} [Entails Q (H.newNode (nodeOf out))], Agree Q (Handlers.layerWeightExpression visit (nodeOf out))
        (Handlers.layerWeightExpression visit' (nodeOf out)) H.position) →
    Agree P (onceFor (nodeOf out) (Handlers.layerWeightExpression visit (nodeOf out)))
      (onceFor (nodeOf out) (Handlers.layerWeightExpression visit' (nodeOf out))) H.position

/-- A handler of value nodes gives related operands of an output, given that the visits of fields agree. -/
def HandlesAt (handler : Handler) (out : SocketRef) : Prop :=
  ∀ {visit visit' : Visit}, H.Visits visit visit' → H.Shares visit visit' out →
    ∀ {P : H.Fact}, HasValues H.forest (nodeOf out) → H.admits (H.forest.node (nodeOf out)).kind →
    ∀ [Entails P (H.newNode (nodeOf out))], Agree P (handler visit out) (handler visit' out) H.value

def Handles (handler : Handler) : Prop := ∀ out, H.HandlesAt handler out

instance {e : Int} {outputs : List Datum} [h : Entails P (H.position e)] : Entails P (H.station ⟨e, outputs⟩) := h

omit H in
theorem outputNumber_of_station {outputs : List Datum} {name : String} {k : Int}
    (h : stationOutput outputs name = .ok k) : OutputNumber k := by
  unfold stationOutput at h
  dsimp only at h
  split at h
  · cases h
    infer_instance
  · cases h

theorem stationRef {t : Station} {name : String} [h : Entails P (H.station t)] :
    Agrees P (Material.stationRef t name) H.value := by
  have : Entails P (H.position t.expression) := h
  exact .bindLift fun k hk => have := outputNumber_of_station hk; H.refOutput

theorem colorInContext {v : SocketValue} : Agrees P (Material.colorInContext v) fun _ => .pure True := by
  refine H.context.seq <| .ite (fun _ => ?_) fun _ => .pure
  cases signedColor v with
  | ok c => exact .pure
  | error e => exact .fail

theorem withoutDefault {node : Node} {socket : Socket} {mode : FieldMode} :
    Agrees P (Material.withoutDefault node socket mode) H.value :=
  (H.onlyIf H.write).seq .pure

theorem defaultOperand {node : Node} {socket : Socket} {mode : FieldMode} :
    Agrees P (Material.defaultOperand node socket mode) (H.operand socket.kind) := by
  unfold Material.defaultOperand
  split <;> rename_i hKind <;> rw [hKind]
  · refine H.asOperand (by decide) ?_
    exact H.emitScalarValue.seq <| H.refOutput
  · refine H.asOperand (by decide) (H.colorInContext.seq ?_)
    exact (H.emitColorValue (absurd · (by decide))).seq <| H.refOutput
  · refine H.asOperand (by decide) (.ite (fun _ => ?_) fun _ => H.withoutDefault)
    exact H.emitVectorValue.seq <| H.refOutput
  · exact H.darkShader.mono
  · exact H.asOperand (by simp) H.withoutDefault

end Handling

end SceneExchange.Material
