import SceneExchange.Proofs.Accounts
import SceneExchange.Workload.Materials

/-!
# What later steps leave as it was

A computation that returns has added to the session: an output keeps the operand that was compiled
for it, a node keeps its station, and expressions stay in their places. Bundles are shared, and a
mixed shader enters its channels into the bundle of its first input, where all who share that
bundle find them. Without such nodes all bundles stay as they were.

Of the inputs of a group an output is remembered too, although what it gives depends on the field
that asks. Where all fields that are linked to such an output would be given the same, what is
remembered is what each of them would be given.
-/

namespace SceneExchange.Material

open SceneExchange.Graph Compile Material.Frame List Handlers

/-- Whether shaders are mixed. -/
def Mixes (f : Forest) : Prop := ∃ r, (f.node r).kind = "MIX_SHADER"

/-- What a later session still has of an earlier one. -/
structure Session.Keeps (f : Forest) (s t : Session) : Prop where
  memo : ∀ out o, s.memo.lookup out = some o → t.memo.lookup out = some o
  stations : ∀ r x, s.stations.lookup r = some x → t.stations.lookup r = some x
  expressions : s.expressions.toList <+: t.expressions.toList
  bundles : ∀ (i : Nat) (b : Bundle), s.bundles[i]? = some b → ∃ b' : Bundle, t.bundles[i]? = some b' ∧
    (∀ name, (b.get? name).isSome → (b'.get? name).isSome) ∧ (¬Mixes f → b' = b)

theorem Session.Keeps.trans {f : Forest} {s t u : Session} (h : s.Keeps f t) (h' : t.Keeps f u) : s.Keeps f u where
  memo out o hGet := h'.memo out o (h.memo out o hGet)
  stations r x hGet := h'.stations r x (h.stations r x hGet)
  expressions := h.expressions.trans h'.expressions
  bundles i b hGet := by
    obtain ⟨b₁, hGet₁, hNames₁, hSame₁⟩ := h.bundles i b hGet
    obtain ⟨b₂, hGet₂, hNames₂, hSame₂⟩ := h'.bundles i b₁ hGet₁
    exact ⟨b₂, hGet₂, fun name hName => hNames₂ name (hNames₁ name hName),
      fun hNone => (hSame₂ hNone).trans (hSame₁ hNone)⟩

theorem Session.Keeps.refl (f : Forest) (s : Session) : s.Keeps f s where
  memo _ _ h := h
  stations _ _ h := h
  expressions := prefix_rfl
  bundles _ b h := ⟨b, h, fun _ h => h, fun _ => rfl⟩

/-- Whether a field takes no default of a group: a plain vector with computed coordinates. -/
def refusesDefault (f : Forest) (field : SocketRef) : Bool :=
  (f.inputSocket field).plainVector && (f.inputSocket field).value.isArray

/-- What an input of a group gives to a field. -/
def groupOperand (f : Forest) (inputs : Table String (Operand × Bool)) (out field : SocketRef) : Except Fault Operand :=
  match inputs.get? (f.outputSocket out).identifier with
  | none => .error (.missingKey (.text (f.outputSocket out).identifier))
  | some (o, linked) => .ok (if refusesDefault f field && !linked then .none else o)

theorem outcome_groupInput_eq (f : Forest) (s : Session) (out field : SocketRef) :
    outcome (groupInput out field) f s = (groupOperand f s.groupInputs out field, s) := by
  rw [outcome_groupInput, groupOperand]
  cases s.groupInputs.get? (f.outputSocket out).identifier <;> rfl

/-- Fields that are linked to one output of the inputs of a group take its default alike. -/
def Uniform (f : Forest) : Prop :=
  ∀ out, (f.node (nodeOf out)).kind = "GROUP_INPUT" → ∀ field field', f.source? field = some out →
    f.source? field' = some out → refusesDefault f field = refusesDefault f field'

def Serves (f : Forest) (inputs : Table String (Operand × Bool)) (out : SocketRef) (o : Operand) : Prop :=
  ∀ field, f.source? field = some out → groupOperand f inputs out field = .ok o

theorem Uniform.serves {f : Forest} (h : Uniform f) {inputs : Table String (Operand × Bool)}
    {out field : SocketRef} {o : Operand} (hKind : (f.node (nodeOf out)).kind = "GROUP_INPUT")
    (hSource : f.source? field = some out) (hOperand : groupOperand f inputs out field = .ok o) :
    Serves f inputs out o := by
  intro field' hSource'
  rw [← hOperand, groupOperand, groupOperand, h out hKind field' field hSource' hSource]

/-- A table with all keys of another one, and else with keys of some kind only. -/
structure Widens {κ ν : Type} (new : κ → Prop) (l l' : List (κ × ν)) : Prop where
  kept : l.map Prod.fst ⊆ l'.map Prod.fst
  added : ∀ k ∈ l'.map Prod.fst, k ∈ l.map Prod.fst ∨ new k

namespace Widens

variable {κ ν : Type} {new : κ → Prop} {l l' : List (κ × ν)}

protected theorem refl (l : List (κ × ν)) : Widens new l l := ⟨List.Subset.refl _, fun _ => .inl⟩

theorem cons (h : Widens new l l') {k : κ} (hk : new k) (v : ν) : Widens new l ((k, v) :: l') where
  kept := List.Subset.trans h.kept (subset_cons_self _ _)
  added := forall_mem_cons.mpr ⟨.inr hk, h.added⟩

end Widens

/-- No table of a session has lost a key, and all keys that are new belong to the given tree. -/
structure Session.Widens (tree : Nat) (s t : Session) : Prop where
  memo : Material.Widens (fun k => k.tree = tree) s.memo t.memo
  nodeMemo : Material.Widens (fun k => k.tree = tree) s.nodeMemo t.nodeMemo
  stations : Material.Widens (fun k => k.tree = tree) s.stations t.stations

protected theorem Session.Widens.refl (tree : Nat) (s : Session) : s.Widens tree s := ⟨.refl _, .refl _, .refl _⟩

/-- The session that a run started from, in the contexts that the run is in, and the tree that it compiles. -/
structure Point where
  start : Session
  tree : Nat

def Point.level (w : Point) (contexts : List Datum) (depth : Nat) : Point :=
  { w with start := { w.start with contexts := contexts, depth := depth } }

/-- Sessions that keep what a point has. Their stations may be known to be those of values, and inputs of
groups to be served to every field alike. -/
structure Retains (f : Forest) (valued uniform : Prop) (w : Point) (s : Session) : Prop where
  keeps : w.start.Keeps f s
  inputs : s.groupInputs = w.start.groupInputs
  contexts : s.contexts = w.start.contexts
  depth : s.depth = w.start.depth
  widens : w.start.Widens w.tree s
  valued : valued → ∀ x ∈ s.stations, HasValues f x.1
  served : uniform → ∀ x ∈ s.memo, (f.node (nodeOf x.1)).kind = "GROUP_INPUT" → Serves f w.start.groupInputs x.1 x.2

namespace Retains

variable {f : Forest} {valued uniform : Prop} {w : Point} {s t : Session}

theorem of_beside (h : Retains f valued uniform w s) (hBeside : s.Beside t) : Retains f valued uniform w t := by
  rw [hBeside.eq]
  exact { h with keeps := { h.keeps with }, widens := { h.widens with } }

theorem level (h : Retains f valued uniform w s) (contexts : List Datum) (depth : Nat) :
    Retains f valued uniform (w.level contexts depth) { s with contexts := contexts, depth := depth } :=
  { h with keeps := { h.keeps with }, contexts := rfl, depth := rfl, widens := { h.widens with } }

theorem back {contexts contexts' : List Datum} {depth depth' : Nat}
    (h : Retains f valued uniform (w.level contexts depth) s) (hContexts : contexts' = w.start.contexts)
    (hDepth : depth' = w.start.depth) :
    Retains f valued uniform w { s with contexts := contexts', depth := depth' } :=
  { h with keeps := { h.keeps with }, contexts := hContexts, depth := hDepth, widens := { h.widens with } }

theorem emit (h : Retains f valued uniform w s) (e : Expression) :
    Retains f valued uniform w { s with expressions := s.expressions.push e } := by
  refine { h with keeps := { h.keeps with expressions := ?_ }, widens := { h.widens with } }
  rw [Array.toList_push]
  exact h.keeps.expressions.trans (prefix_append _ _)

theorem rebundle (h : Retains f valued uniform w s) {bundles : Array Bundle}
    (hKept : ∀ (i : Nat) (b : Bundle), s.bundles[i]? = some b → ∃ b' : Bundle, bundles[i]? = some b' ∧
      (∀ name, (b.get? name).isSome → (b'.get? name).isSome) ∧ (¬Mixes f → b' = b)) :
    Retains f valued uniform w { s with bundles := bundles } := by
  have hNext : s.Keeps f { s with bundles := bundles } :=
    ⟨fun _ _ h => h, fun _ _ h => h, prefix_rfl, hKept⟩
  exact { h with keeps := h.keeps.trans hNext, widens := { h.widens with } }

theorem newBundle (h : Retains f valued uniform w s) (b : Bundle) :
    Retains f valued uniform w { s with bundles := s.bundles.push b } := by
  exact h.rebundle fun i b' hGet => ⟨b', getElem?_push_of_some hGet b, fun _ h => h, fun _ => rfl⟩

theorem setEntry (h : Retains f valued uniform w s) (hMixes : Mixes f) (i : Nat) (name : String) (o : Operand) :
    Retains f valued uniform w { s with
      bundles := s.bundles.setIfInBounds i ((s.bundles[i]?.getD .empty).insert name o) } := by
  refine h.rebundle fun j b hGet => ?_
  by_cases hSame : i = j
  · subst hSame
    have hLt : i < s.bundles.size := (Array.getElem?_eq_some_iff.mp hGet).1
    refine ⟨b.insert name o, ?_, fun n hn => ?_, fun hNone => absurd hMixes hNone⟩
    · rw [hGet, Option.getD_some, Array.getElem?_setIfInBounds_self_of_lt hLt]
    · by_cases hName : n = name
      · rw [hName, Table.get?_insert_self]
        rfl
      · rwa [Table.get?_insert_of_ne _ hName]
  · refine ⟨b, ?_, fun _ h => h, fun hNone => absurd hMixes hNone⟩
    rwa [Array.getElem?_setIfInBounds_ne hSame]

theorem lookup_cons {κ ν : Type} [BEq κ] [LawfulBEq κ] {kept l : List (κ × ν)} {k : κ} {v : ν}
    (h : ∀ j x, kept.lookup j = some x → l.lookup j = some x) (hk : ∀ x, kept.lookup k = some x → v = x) :
    ∀ j x, kept.lookup j = some x → ((k, v) :: l).lookup j = some x := by
  intro j x hj
  rw [List.lookup_cons]
  cases hSame : j == k with
  | true =>
    obtain rfl := eq_of_beq hSame
    exact congrArg some (hk x hj)
  | false => exact h j x hj

theorem remember (h : Retains f valued uniform w s) {out : SocketRef} {o : Operand} (hTree : out.tree = w.tree)
    (hKnown : ∀ p, w.start.memo.lookup out = some p → o = p)
    (hServes : uniform → (f.node (nodeOf out)).kind = "GROUP_INPUT" → Serves f w.start.groupInputs out o) :
    Retains f valued uniform w { s with memo := (out, o) :: s.memo } :=
  { h with
    keeps := { h.keeps with memo := lookup_cons h.keeps.memo hKnown }
    widens := { h.widens with memo := h.widens.memo.cons hTree o }
    served := fun hUniform => forall_mem_cons.mpr ⟨hServes hUniform, h.served hUniform⟩ }

theorem rememberNode (h : Retains f valued uniform w s) {r : NodeRef} (hTree : r.tree = w.tree) (e : Int) :
    Retains f valued uniform w { s with nodeMemo := (r, e) :: s.nodeMemo } :=
  { h with
    keeps := { h.keeps with }
    widens := { h.widens with nodeMemo := h.widens.nodeMemo.cons hTree e } }

theorem rememberStation (h : Retains f valued uniform w s) {r : NodeRef} {x : Station} (hTree : r.tree = w.tree)
    (hFree : w.start.stations.lookup r = none) (hValues : HasValues f r) :
    Retains f valued uniform w { s with stations := (r, x) :: s.stations } := by
  have hNone (y : Station) (hy : w.start.stations.lookup r = some y) : x = y := nomatch hFree.symm.trans hy
  exact { h with
    keeps := { h.keeps with stations := lookup_cons h.keeps.stations hNone }
    widens := { h.widens with stations := h.widens.stations.cons hTree x }
    valued := fun hValued => forall_mem_cons.mpr ⟨hValues, h.valued hValued⟩ }

theorem entered (h : Retains f valued uniform w s) (c : Table String (Operand × Bool)) (tree : Nat) :
    Retains f valued uniform ⟨w.start.entered c, tree⟩ (s.entered c) where
  keeps := by
    refine ⟨fun _ _ h => ?_, fun _ _ h => ?_, h.keeps.expressions, h.keeps.bundles⟩
    · cases h
    · cases h
  inputs := rfl
  contexts := h.contexts
  depth := h.depth
  widens := ⟨.refl _, .refl _, .refl _⟩
  valued _ := forall_mem_nil _
  served _ := forall_mem_nil _

theorem restored (h : Retains f valued uniform w s) {c : Table String (Operand × Bool)} {tree : Nat}
    (hInner : Retains f valued uniform ⟨w.start.entered c, tree⟩ t) : Retains f valued uniform w (t.restored s) :=
  { h with
    keeps := { h.keeps with expressions := hInner.keeps.expressions, bundles := hInner.keeps.bundles }
    contexts := hInner.contexts
    depth := hInner.depth
    widens := { h.widens with } }

end Retains

namespace Retention

variable (f : Forest) (valued uniform : Prop)

def account : Account where
  forest := f
  lenient _ := False
  World := Point
  Related w s s' := s = s' ∧ Retains f valued uniform w s
  Later w w' := ∃ contexts depth, w' = w.level contexts depth
  Returns := Eq
  later_of_returns h := h ▸ ⟨_, _, rfl⟩
  returns_refl _ := rfl
  returns_trans := .trans
  oneRun := ⟨And.left, fun h hBeside => ⟨_, rfl, rfl, h.2.of_beside hBeside⟩⟩
  alters := Mixes f
  emit e h := ⟨_, rfl, rfl, h.2.emit e⟩
  newBundle _ h := ⟨_, rfl, rfl, h.2.newBundle _⟩
  setEntry i name o hMixes h := ⟨_, rfl, rfl, h.2.setEntry hMixes i name o⟩
  rememberHeight _ h := ⟨_, rfl, rfl, { h.2 with keeps := { h.2.keeps with }, widens := { h.2.widens with } }⟩
  within {P d _ m m' A} hm := by
    rintro w s _ hP ⟨rfl, h⟩
    let inner := w.level (d :: s.contexts) s.depth
    have hInner : Retains f valued uniform inner { s with contexts := d :: s.contexts } := h.level _ _
    have hBack : ∃ contexts depth, w = inner.level contexts depth := ⟨w.start.contexts, w.start.depth, rfl⟩
    refine (hm _ _ _ (P.stable ⟨_, _, rfl⟩ hP) ⟨rfl, hInner⟩).around outcome_within_error outcome_within_error ?_
    rintro _ a u _ rfl ⟨rfl, hNext⟩ fact hRun hRun'
    rw [outcome_within_ok hRun hNext.contexts, outcome_within_ok hRun' hNext.contexts]
    exact .done rfl ⟨rfl, hNext.back h.contexts (hNext.depth.trans h.depth)⟩ ((A _).stable hBack fact)
  nested {P _ m m' A} hm := by
    rintro w s _ hP ⟨rfl, h⟩
    let inner := w.level s.contexts (s.depth + 1)
    have hInner : Retains f valued uniform inner { s with depth := s.depth + 1 } := h.level _ _
    have hBack : ∃ contexts depth, w = inner.level contexts depth := ⟨w.start.contexts, w.start.depth, rfl⟩
    refine (hm _ _ _ (P.stable ⟨_, _, rfl⟩ hP) ⟨rfl, hInner⟩).around outcome_nested_error outcome_nested_error ?_
    rintro _ a u _ rfl ⟨rfl, hNext⟩ fact hRun hRun'
    rw [outcome_nested_ok hRun, outcome_nested_ok hRun']
    exact .done rfl ⟨rfl, hNext.back (hNext.contexts.trans h.contexts) h.depth⟩ ((A _).stable hBack fact)

abbrev frame : Frame := (account f valued uniform).toFrame

def output (out : SocketRef) (o : Operand) : (frame f valued uniform).Fact where
  holds w := (∀ p, w.start.memo.lookup out = some p → o = p) ∧
    (uniform → (f.node (nodeOf out)).kind = "GROUP_INPUT" → Serves f w.start.groupInputs out o)
  stable hw h := by
    obtain ⟨_, _, rfl⟩ := hw
    exact h

def inside (r : NodeRef) : (frame f valued uniform).Fact where
  holds w := r.tree = w.tree
  stable hw h := by
    obtain ⟨_, _, rfl⟩ := hw
    exact h

def vacant (out : SocketRef) : (frame f valued uniform).Fact where
  holds w := w.start.memo.lookup out = none
  stable hw h := by
    obtain ⟨_, _, rfl⟩ := hw
    exact h

def free (r : NodeRef) : (frame f valued uniform).Fact where
  holds w := w.start.stations.lookup r = none
  stable hw h := by
    obtain ⟨_, _, rfl⟩ := hw
    exact h

section Tables

variable {f valued uniform} {P : (frame f valued uniform).Fact} {w : Point} {s : Session}

theorem lookup_eq_none {κ ν : Type} [BEq κ] {kept l : List (κ × ν)} {k : κ}
    (h : ∀ j x, kept.lookup j = some x → l.lookup j = some x) (hNone : l.lookup k = none) :
    kept.lookup k = none := by
  cases hKept : kept.lookup k with
  | none => rfl
  | some x =>
    rw [h k x hKept] at hNone
    cases hNone

theorem output_of_vacant {out : SocketRef} {o : Operand} (hVacant : (vacant f valued uniform out).holds w)
    (hServes : uniform → (f.node (nodeOf out)).kind = "GROUP_INPUT" → Serves f w.start.groupInputs out o) :
    (output f valued uniform out o).holds w := by
  refine ⟨fun p hp => ?_, hServes⟩
  rw [show w.start.memo.lookup out = none from hVacant] at hp
  cases hp

theorem inside_of_innerTree {n : Node} (s : Session) : Fact.holds
    (n.innerTree?.elim (.pure True) fun t => inside f valued uniform ⟨t, 0⟩) ⟨s, n.innerTree?.getD 0⟩ := by
  cases n.innerTree? with
  | none => trivial
  | some t => rfl

theorem recalled_agree (out : SocketRef) : Agrees P (recalled out)
    (.option (vacant f valued uniform out) (output f valued uniform out)) := by
  rintro w s _ hP ⟨rfl, h⟩
  change Joint w _ (.ok (s.memo.lookup out), s) (.ok (s.memo.lookup out), s)
  refine .done rfl ⟨rfl, h⟩ ?_
  cases hLookup : s.memo.lookup out with
  | none => exact lookup_eq_none h.keeps.memo hLookup
  | some o =>
    refine ⟨fun p hp => ?_, fun hUniform => h.served hUniform _ (Table.mem_of_lookup hLookup)⟩
    exact Option.some.inj (hLookup.symm.trans (h.keeps.memo out p hp))

theorem station?_agree (r : NodeRef) : Agrees P (station? r) (.option (free f valued uniform r) fun t =>
      ((account f valued uniform).vocabulary.station t).and (.pure (valued → HasValues f r))) := by
  rintro w s _ hP ⟨rfl, h⟩
  change Joint w _ (.ok (s.stations.lookup r), s) (.ok (s.stations.lookup r), s)
  refine .done rfl ⟨rfl, h⟩ ?_
  cases hLookup : s.stations.lookup r with
  | none => exact lookup_eq_none h.keeps.stations hLookup
  | some t => exact ⟨trivial, fun hValued => h.valued hValued (r, t) (Table.mem_of_lookup hLookup)⟩

theorem insideGroup_agree (c : Table String (Operand × Bool)) (tree : Nat) {Q : (frame f valued uniform).Fact}
    {m n : Compile Operand} {A : Operand → (frame f valued uniform).Fact}
    (hQ : ∀ s : Session, Q.holds ⟨s.entered c, tree⟩) (hBack : ∀ {w w' o}, (A o).holds w → (A o).holds w')
    (hm : Agree Q m n A) : Agree P (insideGroup c m) (insideGroup c n) A := by
  rintro w s _ hP ⟨rfl, h⟩
  have hJoint : Joint (⟨w.start.entered c, tree⟩ : Point) A (outcome m f (s.entered c))
      (outcome n f (s.entered c)) := hm _ _ _ (hQ w.start) ⟨rfl, h.entered c tree⟩
  refine hJoint.around outcome_insideGroup_error outcome_insideGroup_error ?_
  rintro _ a u _ rfl ⟨rfl, hInner⟩ fact hRun hRun'
  rw [outcome_insideGroup_ok hRun, outcome_insideGroup_ok hRun']
  exact .done rfl ⟨rfl, h.restored hInner⟩ (hBack fact)

theorem groupInput_agree (hUniform : uniform → Uniform f) {out field : SocketRef}
    (hVacant : Entails P (vacant f valued uniform out)) (hKind : (f.node (nodeOf out)).kind = "GROUP_INPUT")
    (hSource : f.source? field = some out) :
    Agrees P (groupInput out field) (output f valued uniform out) := by
  rintro w s _ hP ⟨rfl, h⟩
  change Joint w _ (outcome _ f s) (outcome _ f s)
  rw [outcome_groupInput_eq, h.inputs]
  cases hOperand : groupOperand f w.start.groupInputs out field with
  | error e => exact .failed (show (frame f valued uniform).Related w s s from ⟨rfl, h⟩)
  | ok o =>
    exact .done rfl ⟨rfl, h⟩ (output_of_vacant (hVacant.entails hP) fun hu _ => (hUniform hu).serves hKind hSource hOperand)

end Tables

def compilation (hUniform : uniform → valued ∧ Uniform f) : Compilation where
  toHandling := (account f valued uniform).handling (inside f valued uniform) (free f valued uniform)
    (fun kind => ∃ r, (f.node r).kind = kind) (fun _ => ⟨_, rfl⟩) id
  inside_tree hTree h := hTree.trans h
  output := output f valued uniform
  operand_of_output _ := ⟨trivial, fun _ => trivial⟩
  vacant := vacant f valued uniform
  output_of_given hKind hVacant _ := output_of_vacant hVacant fun _ hInput => absurd hInput hKind
  stands r := valued → HasValues f r
  output_of_station hValues hVacant _ :=
    output_of_vacant hVacant fun hu hInput => absurd hInput (hValues (hUniform hu).1).kind_ne
  recalled := @fun _ out => recalled_agree out
  remember := by
    rintro P out o hInside hOutput w s _ hP ⟨rfl, h⟩
    obtain ⟨hKnown, hServes⟩ := hOutput.entails hP
    exact .done rfl ⟨rfl, h.remember (hInside.entails hP) hKnown hServes⟩ trivial
  recalledNode := by
    rintro P r w s _ hP ⟨rfl, h⟩
    refine .done rfl ⟨rfl, h⟩ ?_
    cases s.nodeMemo.lookup r <;> trivial
  rememberNode := by
    rintro P r e hInside _ w s _ hP ⟨rfl, h⟩
    exact .done rfl ⟨rfl, h.rememberNode (hInside.entails hP) e⟩ trivial
  station? := @fun _ r => station?_agree r
  rememberStation := by
    rintro P r t hInside _ hFree hValues w s _ hP ⟨rfl, h⟩
    exact .done rfl ⟨rfl, h.rememberStation (hInside.entails hP) (hFree.entails hP) hValues⟩ trivial
  insideGroup := @fun _ _ c _ _ _ _ _ hm => insideGroup_agree c _ (fun s => inside_of_innerTree _) (fun h => h) hm
  groupInput := @fun _ _ _ _ hVacant hKind hSource => groupInput_agree (fun hu => (hUniform hu).2) hVacant hKind hSource

end Retention

section Runs

open Retention

variable {f : Forest} {s t : Session} {fuel : Nat} {field : SocketRef} {mode : FieldMode} {o : Operand}

theorem Retains.refl {valued uniform : Prop} (tree : Nat) (hValued : valued → ∀ x ∈ s.stations, HasValues f x.1)
    (hServed : uniform → ∀ x ∈ s.memo, (f.node (nodeOf x.1)).kind = "GROUP_INPUT" →
      Serves f s.groupInputs x.1 x.2) : Retains f valued uniform ⟨s, tree⟩ s :=
  ⟨.refl f s, rfl, rfl, rfl, .refl tree s, hValued, hServed⟩

theorem retains_of_agree {α : Type} {m : Compile α} {valued uniform : Prop} {P : (frame f valued uniform).Fact}
    {A : α → (frame f valued uniform).Fact} {w : Point} {a : α} (hm : Agrees P m A)
    (h : Retains f valued uniform w s) (hP : P.holds w) (hRun : outcome m f s = (.ok a, t)) :
      Retains f valued uniform w t := by
  have hJoint : Joint w A (outcome m f s) (outcome m f s) := hm _ _ _ hP ⟨rfl, h⟩
  rw [hRun] at hJoint
  cases hJoint with
  | done returns related _ =>
    obtain rfl := returns
    exact related.2

theorem retains_of_compile (valued : Prop) (hValued : valued → ∀ x ∈ s.stations, HasValues f x.1)
    (hRun : outcome (compileWith fuel field mode) f s = (.ok o, t)) :
    Retains f valued False ⟨s, field.tree⟩ t := by
  let H := compilation f valued False False.elim
  have hVisits := H.visits_compileWith (P := H.inside (nodeOf field)) fuel field mode
  exact retains_of_agree hVisits (.refl _ hValued False.elim) rfl hRun

theorem exists_output_of_compile {out : SocketRef} (hValued : ∀ x ∈ s.stations, HasValues f x.1)
    (hSource : f.source? field = some out) (hEnabled : (f.outputSocket out).enabled = true)
    (hRun : outcome (compileWith (fuel + 1) field mode) f s = (.ok o, t)) : ∃ log p v,
      outcome (outputStep (compileWith fuel) out field) f { s with log := log, depth := s.depth + 1 } =
        (.ok p, v) ∧ Retains f True False ⟨{ v with depth := s.depth, memo := (out, p) :: v.memo }, out.tree⟩ t := by
  let H := compilation f True False False.elim
  obtain ⟨log, hStep⟩ := outcome_fieldStep_linked (outputStep (compileWith fuel)) mode hSource hEnabled
  let u : Session := { s with log := log, depth := s.depth + 1 }
  have hLinked : outcome (nested (outputStep (compileWith fuel) out field) >>= fun p => do
      remember out p
      if ← present p then adapt (f.inputSocket field).kind (f.outputSocket out).kind p else pure p) f
        { s with log := log } = (.ok o, t) := hStep.symm.trans hRun
  obtain ⟨p, v, hNested, hRest⟩ := outcome_bind_eq_ok hLinked
  generalize hOutput : outcome (outputStep (compileWith fuel) out field) f u = x
  obtain ⟨r, v'⟩ := x
  cases r with
  | error e =>
    rw [outcome_nested_error hOutput] at hNested
    cases hNested
  | ok p' =>
    rw [outcome_nested_ok hOutput] at hNested
    cases hNested
    refine ⟨log, p, v', hOutput, ?_⟩
    have hStep := H.outputs_outputStep (H.visits_compileWith fuel) (P := H.inside (nodeOf out)) hSource
    have hStart : Retains f True False ⟨u, out.tree⟩ u := .refl _ (fun _ => hValued) False.elim
    have hValued' := (retains_of_agree hStep hStart rfl hOutput).valued
    exact retains_of_agree H.adaptPresent (.refl _ hValued' False.elim) ⟨trivial, fun _ => trivial⟩ hRest

/-- Sessions to which a run may come from the given one. -/
structure Session.Follows (f : Forest) (s t : Session) : Prop where
  keeps : s.Keeps f t
  valued : ∀ x ∈ t.stations, HasValues f x.1

theorem Session.Follows.compile {u : Session} (h : s.Follows f t)
    (hRun : outcome (compileWith fuel field mode) f t = (.ok o, u)) : s.Follows f u := by
  have hNext := retains_of_compile True (fun _ => h.valued) hRun
  exact ⟨h.keeps.trans hNext.keeps, hNext.valued trivial⟩

theorem Session.Follows.inContexts (h : s.Follows f t) (contexts : List Datum) :
    s.Follows f { t with contexts := contexts } :=
  ⟨{ h.keeps with }, h.valued⟩

/-- Compiling a field leaves the operands of all outputs that were compiled before. A bundle loses
no channel, and where no shaders are mixed it stays as it was. -/
theorem operands_kept_of_compile (hValued : ∀ x ∈ s.stations, HasValues f x.1)
    (hRun : outcome (compileWith fuel field mode) f s = (.ok o, t)) :
    (∀ x ∈ t.stations, HasValues f x.1) ∧
    (∀ out p, s.memo.lookup out = some p → t.memo.lookup out = some p) ∧
    ∀ (i : Nat) (b : Bundle), s.bundles[i]? = some b → ∃ b' : Bundle, t.bundles[i]? = some b' ∧
      (∀ name, (b.get? name).isSome → (b'.get? name).isSome) ∧
      ((∀ r, (f.node r).kind ≠ "MIX_SHADER") → b' = b) := by
  have h := retains_of_compile True (fun _ => hValued) hRun
  refine ⟨h.valued trivial, h.keeps.memo, fun i b hGet => ?_⟩
  obtain ⟨b', hGet', hNames, hSame⟩ := h.keeps.bundles i b hGet
  exact ⟨b', hGet', hNames, fun hNone => hSame fun ⟨r, hKind⟩ => hNone r hKind⟩

end Runs

section Sample

open SceneExchange.Workload

def sharedForest : Forest where
  trees := #[tree [outputNode, node "EMISSION" [sand "Color", half "Strength"] [shader "Emission"],
      node "SHADERTORGB" [shader "Shader"] [sand "Color", half "Alpha"],
      node "BSDF_DIFFUSE" [sand "Color", half "Roughness", computed "Normal"] [shader "BSDF"]]
    [⟨1, 0, 0, 0⟩, ⟨2, 0, 1, 0⟩, ⟨3, 0, 2, 0⟩]]

theorem kind_ne_of_tree {t : Tree} {kind : String} (hKind : kind ≠ "")
    (h : ∀ n ∈ t.nodes.toList, n.kind ≠ kind) (r : NodeRef) : ((⟨#[t]⟩ : Forest).node r).kind ≠ kind := by
  intro hSame
  have hMem := Forest.node_mem (by rwa [hSame])
  generalize Forest.node _ r = n at hMem hSame
  cases hTree : r.tree with
  | zero =>
    rw [hTree] at hMem
    exact h n hMem hSame
  | succ i =>
    rw [hTree] at hMem
    cases hMem

/-- The surface is asked for alone and then again for the light. -/
theorem operands_kept_of_shared : ∃ o s p t, ∃ b : Bundle,
    outcome (compileWith 5 ⟨0, 2, 0⟩ .normal) sharedForest {} = (.ok o, s) ∧
    s.memo.lookup ⟨0, 3, 0⟩ = some (.bundle 3) ∧ s.bundles[3]? = some b ∧
    b.get? "BaseColor" = some (.bundle 0) ∧
    outcome (compileWith 5 ⟨0, 0, 0⟩ .normal) sharedForest s = (.ok p, t) ∧
    t.memo.lookup ⟨0, 3, 0⟩ = some (.bundle 3) ∧ t.bundles[3]? = some b := by
  let first := outcome (compileWith 5 ⟨0, 2, 0⟩ .normal) sharedForest {}
  let second := outcome (compileWith 5 ⟨0, 0, 0⟩ .normal) sharedForest first.2
  have hRuns : (first.1.isOk, second.1.isOk) = (true, true) := by decide +kernel
  have hFirst : (first.2.memo.lookup ⟨0, 3, 0⟩, first.2.stations.length,
      first.2.bundles[3]?.bind fun b : Bundle => b.get? "BaseColor") =
        (some (.bundle 3), 0, some (.bundle 0)) := by decide +kernel
  simp only [Prod.mk.injEq] at hRuns hFirst
  obtain ⟨hOk, hOk'⟩ := hRuns
  obtain ⟨hMemo, hStations, hColor⟩ := hFirst
  obtain ⟨o, hFirst⟩ := exists_ok_of_isOk hOk
  obtain ⟨p, hSecond⟩ := exists_ok_of_isOk hOk'
  obtain ⟨b, hBundle, hColor⟩ := Option.bind_eq_some_iff.mp hColor
  have hValued : ∀ x ∈ first.2.stations, HasValues sharedForest x.1 := by
    rw [length_eq_zero_iff.mp hStations]
    exact forall_mem_nil _
  obtain ⟨-, hKept, hBundles⟩ := operands_kept_of_compile hValued hSecond
  obtain ⟨b', hBundle', -, hSame⟩ := hBundles 3 b hBundle
  obtain rfl := hSame (kind_ne_of_tree (by decide) (by decide))
  exact ⟨o, first.2, p, second.2, b', hFirst, hMemo, hBundle, hColor, hSecond, hKept _ _ hMemo, hBundle'⟩

end Sample

end SceneExchange.Material
