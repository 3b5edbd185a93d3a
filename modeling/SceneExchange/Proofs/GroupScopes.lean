import SceneExchange.Proofs.Balance
import SceneExchange.Proofs.Resolution

/-!
# Groups that are compiled apart

The inside of a group is compiled from empty tables and from the operands of the inputs of its own
node, and afterwards the tables of its surroundings are there again. So the inputs that are read in a
tree are those of the node that the tree is compiled for: compiling agrees with a compilation to
which they are given. And what is emitted inside refers to what was emitted inside, or to what those
operands reach; two nodes with one tree have no other expression of it in common.
-/

namespace SceneExchange.Material

open SceneExchange.Graph Compile Material.Frame List Handlers Retention

/-- No group stands in its own tree. -/
def Nested (f : Forest) : Prop :=
  ∀ r tree, (f.node r).kind = "GROUP" → (f.node r).innerTree? = some tree → tree ≠ r.tree

theorem nested_of_forall {f : Forest}
    (h : ∀ r ∈ nodeRefs f, (f.node r).kind = "GROUP" → (f.node r).innerTree? ≠ some r.tree) : Nested f := by
  rintro r _ hKind hTree rfl
  exact h r (mem_nodeRefs (by rw [hKind]; decide)) hKind hTree

/-- All keys of the tables belong to the given tree. -/
structure Bearings.TablesOf (tree : Nat) (b : Bearings) : Prop where
  memo : ∀ k ∈ b.memo.map Prod.fst, k.tree = tree
  nodeMemo : ∀ k ∈ b.nodeMemo.map Prod.fst, k.tree = tree
  stations : ∀ k ∈ b.stations.map Prod.fst, k.tree = tree

def Session.knows (s : Session) (tree : Nat) : Bool :=
  s.memo.any (·.1.tree == tree) || s.nodeMemo.any (·.1.tree == tree) || s.stations.any (·.1.tree == tree)

section Tables

variable {tree : Nat} {s t : Session}

theorem Bearings.tablesOf_entered (tree : Nat) (s : Session) (c : Table String (Operand × Bool)) :
    (s.entered c).bearings.TablesOf tree :=
  ⟨forall_mem_nil _, forall_mem_nil _, forall_mem_nil _⟩

theorem Widens.forall_keys {κ ν : Type} {new : κ → Prop} {l l' : List (κ × ν)} (h : Widens new l l')
    (hOld : ∀ k ∈ l.map Prod.fst, new k) : ∀ k ∈ l'.map Prod.fst, new k :=
  fun k hk => (h.added k hk).elim (hOld k) id

theorem Session.Widens.tablesOf (h : s.Widens tree t) (hOld : s.bearings.TablesOf tree) : t.bearings.TablesOf tree :=
  ⟨h.memo.forall_keys hOld.memo, h.nodeMemo.forall_keys hOld.nodeMemo, h.stations.forall_keys hOld.stations⟩

theorem Bearings.Extends.tablesOf (h : s.bearings.Extends tree t.bearings) :
    s.bearings.TablesOf tree → t.bearings.TablesOf tree :=
  Session.Widens.tablesOf ⟨h.memo, h.nodeMemo, h.stations⟩

theorem Bearings.TablesOf.not_knows (h : s.bearings.TablesOf tree) {other : Nat} (hOther : other ≠ tree) :
    s.knows other = false := by
  have hMemo (x : SocketRef × Operand) (hx : x ∈ s.memo) : x.1.tree ≠ other :=
    fun hTree => hOther (hTree ▸ h.memo _ (mem_map_of_mem hx))
  have hNodes (x : NodeRef × Int) (hx : x ∈ s.nodeMemo) : x.1.tree ≠ other :=
    fun hTree => hOther (hTree ▸ h.nodeMemo _ (mem_map_of_mem hx))
  have hStations (x : NodeRef × Station) (hx : x ∈ s.stations) : x.1.tree ≠ other :=
    fun hTree => hOther (hTree ▸ h.stations _ (mem_map_of_mem hx))
  simp only [Session.knows, Bool.or_eq_false_iff, any_eq_false, beq_iff_eq]
  exact ⟨⟨hMemo, hNodes⟩, hStations⟩

end Tables

/-! ## Inputs by place -/

/-- Compiles an output in a group with the given inputs. It fails where the tables know the tree of a
group that was left. -/
def scopedDispatch (visit : Table String (Operand × Bool) → Visit) (inputs : Table String (Operand × Bool))
    (out field : SocketRef) : Compile Operand := do
  match (← theNode out).kind with
  | "GROUP" =>
    let tree ← lift (groupTree (← theNode out).tree)
    let captured ← captureInputs (visit inputs) (nodeOf out)
    let o ← insideGroup captured (innerOutput (visit captured) out tree)
    if tree.any (← get).knows then fail (.violated "tree of a group is known outside") else pure o
  | "GROUP_INPUT" => lift (groupOperand (← read) inputs out field)
  | _ => dispatch (visit inputs) out field

theorem outcome_scopedDispatch {f : Forest} {s : Session} (visit : Table String (Operand × Bool) → Visit)
    (inputs : Table String (Operand × Bool)) {out : SocketRef} (field : SocketRef)
    (hGroup : (f.node (nodeOf out)).kind ≠ "GROUP") (hInput : (f.node (nodeOf out)).kind ≠ "GROUP_INPUT") :
    outcome (scopedDispatch visit inputs out field) f s = outcome (dispatch (visit inputs) out field) f s := by
  rw [scopedDispatch, outcome_bind_ok (outcome_theNode out)]
  split
  · exact absurd ‹_› hGroup
  · exact absurd ‹_› hInput
  · rfl

/-- Compiles a field in a group with the given inputs, whatever inputs the session has. -/
def compileScoped : Nat → Table String (Operand × Bool) → Visit
  | 0, _ => fun _ _ => fail .tooDeep
  | fuel + 1, inputs => fieldStep fun out field => answered out (scopedDispatch (compileScoped fuel) inputs out field)

namespace Retention

variable {f : Forest} {c : Table String (Operand × Bool)}

/-- A node of the tree that is compiled and whose tables these are, in a group with the given inputs. -/
def insideOf (f : Forest) (c : Table String (Operand × Bool)) (r : NodeRef) : (frame f False False).Fact where
  holds w := r.tree = w.tree ∧ w.start.groupInputs = c ∧ w.start.bearings.TablesOf w.tree
  stable hLater h := by
    obtain ⟨contexts, depth, rfl⟩ := hLater
    exact ⟨h.1, h.2.1, h.2.2.memo, h.2.2.nodeMemo, h.2.2.stations⟩

def bare (f : Forest) : Compilation := compilation f False False False.elim

theorem inside_of_insideOf {r : NodeRef} {P : (frame f False False).Fact} (h : Entails P (insideOf f c r)) :
    Entails P (inside f False False r) :=
  ⟨fun hP => (h.entails hP).1⟩

def handling (f : Forest) (c : Table String (Operand × Bool)) : Handling :=
  { (bare f).toHandling with
    inside := insideOf f c
    admits_of_inside := fun _ => ⟨_, rfl⟩ }

theorem wide_handling : (handling f c).Wide := fun hTree h => ⟨hTree.trans h.1, h.2⟩

section Steps

variable {visit : Visit} {visit' : Table String (Operand × Bool) → Visit} {out field : SocketRef}
  {P : (handling f c).Fact}

theorem shares_scoped : (handling f c).Shares visit (visit' c) out :=
  (handling f c).sharesOf (@fun Q t hInside hStation hFree hValues =>
      @Compilation.rememberStation (bare f) Q _ t (inside_of_insideOf hInside) hStation hFree hValues)
    (@fun _ => (bare f).recalledNode)
    (@fun Q e hInside hPosition =>
      @Compilation.rememberNode (bare f) Q _ e (inside_of_insideOf hInside) hPosition)

theorem groupInput_scoped [hInside : Entails P ((handling f c).inside (nodeOf out))] :
    Agree P (groupInput out field) (lift (groupOperand f c out field)) fun _ => .pure True := by
  rintro w s _ hP ⟨rfl, h⟩
  obtain ⟨-, hInputs, -⟩ := hInside.entails hP
  change Joint w _ (outcome _ f s) (outcome _ f s)
  rw [outcome_groupInput_eq, outcome_lift, show s.groupInputs = c from h.inputs.trans hInputs]
  have hRelated : (handling f c).Related w s s := ⟨rfl, h⟩
  cases groupOperand f c out field with
  | ok o => exact .done rfl hRelated trivial
  | error e => exact .failed hRelated

theorem unknown_scoped {o : Operand} {tree : Option Nat} (hTree : ∀ t ∈ tree, t ≠ out.tree)
    [hInside : Entails P ((handling f c).inside (nodeOf out))] {e : Fault} :
    Agree P (pure o) (do if tree.any (← get).knows then fail e else pure o) fun _ => .pure True := by
  rintro w s _ hP ⟨rfl, h⟩
  obtain ⟨hSame, -, hTables⟩ := hInside.entails hP
  have hUnknown : ¬tree.any s.knows := by
    rw [Option.any_eq_true]
    rintro ⟨t, ht, hKnows⟩
    rw [(h.widens.tablesOf hTables).not_knows (hSame ▸ hTree t ht)] at hKnows
    cases hKnows
  change Joint w _ (outcome _ f s) (outcome _ f s)
  rw [outcome_get, if_neg hUnknown]
  exact .done rfl ⟨rfl, h⟩ trivial

variable (hVisit : ∀ c, (handling f c).Visits visit (visit' c))
include hVisit

theorem group_scoped (hNested : Nested f) (hKind : (f.node (nodeOf out)).kind = "GROUP") {e : Fault}
    [hInside : Entails P ((handling f c).inside (nodeOf out))] :
    Agree P (group visit out) (do
      let tree ← lift (groupTree (← theNode out).tree)
      let captured ← captureInputs (visit' c) (nodeOf out)
      let o ← insideGroup captured (innerOutput (visit' captured) out tree)
      if tree.any (← get).knows then fail e else pure o) fun _ => .pure True := by
  refine .bindNode (.bindLift fun tree hTree => ?_)
  refine ((handling f c).captureInputs (hVisit c)).bind fun captured => ?_
  obtain rfl : tree = (f.node (nodeOf out)).innerTree? := groupTree_eq_ok hTree
  let inner : (handling f c).Fact :=
    (f.node (nodeOf out)).innerTree?.elim (.pure True) fun t => insideOf f captured ⟨t, 0⟩
  have hInner : Agree inner (innerOutput visit out (f.node (nodeOf out)).innerTree?)
      (innerOutput (visit' captured) out (f.node (nodeOf out)).innerTree?) fun _ => .pure True :=
    fun w s s' hP r => ((handling f captured).innerOutput (hVisit captured) wide_handling hKind _ _ _ hP r).imp
      fun _ _ => trivial
  have hStart (s : Session) : inner.holds ⟨s.entered captured, (f.node (nodeOf out)).innerTree?.getD 0⟩ := by
    unfold inner
    cases (f.node (nodeOf out)).innerTree? with
    | none => trivial
    | some t => exact ⟨rfl, rfl, Bearings.tablesOf_entered t s captured⟩
  rw [← bind_pure (insideGroup captured (innerOutput visit out _))]
  have hGroup : Agree P (insideGroup captured (innerOutput visit out _))
      (insideGroup captured (innerOutput (visit' captured) out _)) fun _ => .pure True :=
    insideGroup_agree captured _ hStart (fun h => h) hInner
  refine hGroup.of_entails.bind fun o => ?_
  exact unknown_scoped fun t ht => hNested (nodeOf out) t hKind ht

theorem dispatch_scoped (hNested : Nested f) [hInside : Entails P ((handling f c).newNode (nodeOf out))] :
    Agree P (dispatch visit out field) (scopedDispatch visit' c out field) fun _ => .pure True := by
  by_cases hGroup : ((handling f c).forest.node (nodeOf out)).kind = "GROUP"
  · refine .bindNode ?_
    dsimp only
    rw [hGroup]
    exact group_scoped hVisit hNested hGroup
  · by_cases hInput : ((handling f c).forest.node (nodeOf out)).kind = "GROUP_INPUT"
    · refine .bindNode ?_
      dsimp only
      rw [hInput]
      exact groupInput_scoped
    · intro w s s' hP r
      rw [outcome_scopedDispatch visit' c field hGroup hInput]
      exact ((handling f c).dispatchOther (hVisit c) shares_scoped hGroup hInput _ _ _ hP r).imp fun _ _ => trivial

theorem answered_scoped (hNested : Nested f) [hInside : Entails P ((handling f c).inside (nodeOf out))] :
    Agree P (outputStep visit out field) (answered out (scopedDispatch visit' c out field)) ((bare f).output out) := by
  have : Entails ((P.and ((bare f).vacant out)).and ((bare f).free (nodeOf out))) ((handling f c).newNode (nodeOf out)) :=
    ⟨fun h => ⟨hInside.entails h.1.1, h.2⟩⟩
  have hDispatch : Agree ((P.and ((bare f).vacant out)).and ((bare f).free (nodeOf out))) (dispatch visit out field)
      (scopedDispatch visit' c out field) fun _ => .pure True := dispatch_scoped hVisit hNested
  refine (bare f).answered fun w s s' hP r => (hDispatch _ _ _ hP r).imp fun hLater _ => ?_
  exact output_of_vacant (((bare f).vacant out).stable hLater hP.1.2) False.elim

end Steps

theorem visits_compileScoped (hNested : Nested f) (fuel : Nat) (c : Table String (Operand × Bool)) :
    (handling f c).Visits (compileWith fuel) (compileScoped fuel c) := by
  induction fuel generalizing c with
  | zero => exact fun _ _ _ => .fail
  | succ fuel ih =>
    intro P field mode hInside
    refine (handling f c).fieldStepOf fun source hSource => ?_
    obtain ⟨link, -, hLink⟩ := Option.map_eq_some_iff.mp hSource
    have hSource : Entails P ((handling f c).inside (nodeOf source)) :=
      ⟨fun hP => wide_handling (hLink ▸ rfl) (hInside.entails hP)⟩
    have (o : Operand) : Entails (F := (handling f c).toFrame) ((bare f).output source o)
        ((handling f c).operand ((handling f c).forest.outputSocket source).kind o) :=
      ⟨(bare f).operand_of_output⟩
    refine (handling f c).linkedOperand (answered_scoped ih hNested) fun o => ?_
    have hTree : Entails (P.and ((bare f).output source o)) ((bare f).inside (nodeOf source)) :=
      ⟨fun h => (hSource.entails h.1).1⟩
    exact @Compilation.remember (bare f) _ source o hTree ⟨And.right⟩

end Retention

/-- Compiling agrees with compiling by place: in a group the inputs of its own node are read, and no
table outside knows the tree of a group. -/
theorem outcome_compileScoped {f : Forest} (hNested : Nested f) {s : Session} (fuel : Nat) {field : SocketRef}
    (hTables : s.bearings.TablesOf field.tree) (mode : FieldMode) :
    outcome (compileWith fuel field mode) f s = outcome (compileScoped fuel s.groupInputs field mode) f s := by
  let H := handling f s.groupInputs
  have hInside : (H.inside (nodeOf field)).holds ⟨s, field.tree⟩ := ⟨rfl, rfl, hTables⟩
  have hRelated : (frame f False False).Related ⟨s, field.tree⟩ s s := ⟨rfl, .refl _ False.elim False.elim⟩
  have hJoint := visits_compileScoped hNested fuel s.groupInputs field mode
    _ _ _ hInside hRelated
  change Joint _ _ (outcome _ f s) (outcome _ f s) at hJoint
  generalize outcome (compileWith fuel field mode) f s = x at hJoint
  generalize outcome (compileScoped fuel s.groupInputs field mode) f s = x' at hJoint
  cases hJoint with
  | done _ related => rw [related.1]
  | failed related => rw [related.1]
  | lost lenient => exact lenient.elim

/-! ## Expressions by place -/

/-- What an operand leads to through the entries of bundles. -/
inductive Session.Reaches (s : Session) (o : Operand) : Operand → Prop
  | self : s.Reaches o o
  | entry {i : Nat} {e : String × Operand} (reaches : s.Reaches o (.bundle i))
      (mem : e ∈ (s.bundles[i]?.getD .empty).entries) (name : e.1 ≠ "OutputIndex") : s.Reaches o e.2

/-- Positions that the tables lead to, or that an expression from a given one on refers to. -/
inductive Session.Uses (s : Session) (first : Nat) : Int → Prop
  | memo {x : SocketRef × Operand} {n : Int} (mem : x ∈ s.memo) (reaches : s.Reaches x.2 (.index n)) : s.Uses first n
  | node {x : NodeRef × Int} (mem : x ∈ s.nodeMemo) : s.Uses first x.2
  | station {x : NodeRef × Station} (mem : x ∈ s.stations) : s.Uses first x.2.expression
  | expression {i : Nat} {e : Expression} {n : Int} (later : first ≤ i) (emitted : s.expressions[i]? = some e)
      (refers : n ∈ e.references) : s.Uses first n

/-- A position that an input of a group leads to. -/
def Session.Lends (s : Session) (inputs : Table String (Operand × Bool)) (n : Int) : Prop :=
  ∃ x ∈ inputs.entries, s.Reaches x.2.1 (.index n)

def groupScope (s : Session) (inputs : Table String (Operand × Bool)) : Scope where
  base := s.expressions.size
  floor := s.bundles.size
  position := s.Lends inputs
  bundle i := ∃ x ∈ inputs.entries, s.Reaches x.2.1 (.bundle i)
  care := ⟨False, False⟩

/-- A session in the middle of a compilation in a tree: its operands name what exists. -/
def Session.Sane (s : Session) (f : Forest) (tree : Nat) : Prop :=
  ∃ floor, Sound f (.whole ⟨False, False⟩ 0 floor) True s ∧
    (References.inside f (.whole ⟨False, False⟩ 0 floor) True tree).holds s

section Scopes

open References

variable {f : Forest} {c : Scope} {compiling : Prop} {s : Session} {inputs : Table String (Operand × Bool)}

theorem Sound.fine_of_reaches (h : Sound f c compiling s) {o p : Operand} (hFine : o.Fine c s) (hReaches : s.Reaches o p) :
    p.Fine c s := by
  induction hReaches with
  | self => exact hFine
  | entry _ mem name ih => exact (h.bundles _ ih.1 _ mem).fine name

theorem Sound.names_of_uses (h : Sound f c True s) {n : Int} (hUses : s.Uses c.base n) : c.Names n := by
  cases hUses with
  | memo mem reaches => exact (h.fine_of_reaches ((h.tables trivial).memo _ mem).1 reaches).2
  | node mem => exact ((h.tables trivial).nodes _ mem).2
  | station mem => exact ((h.tables trivial).stations _ mem).1.2
  | expression later emitted refers => exact (h.expressions _ _ later emitted _ refers).2

theorem fine_in_group (h : Sound f c compiling s) {x : String × Operand × Bool} (hx : x ∈ inputs.entries)
    (hFine : x.2.1.Fine c s) {p : Operand} (hReaches : s.Reaches x.2.1 p) : p.Fine (groupScope s inputs) s := by
  have hOuter := h.fine_of_reaches hFine hReaches
  cases p with
  | none => trivial
  | index n => exact ⟨hOuter.1, .inr (.inr ⟨x, hx, hReaches⟩)⟩
  | bundle i => exact ⟨.inr ⟨x, hx, hReaches⟩, hOuter.2⟩

theorem sound_in_group (h : Sound f c True s) (hInputs : ∀ x ∈ inputs.entries, x.2.1.Fine c s) :
    Sound f (groupScope s inputs) True (s.entered inputs) where
  base_le := Nat.le_refl _
  floor_le := Nat.le_refl _
  expressions i e hi hGet := by
    rw [show (s.entered inputs).expressions[i]? = none from Array.getElem?_eq_none hi] at hGet
    cases hGet
  numbered := fun h => h.1.elim
  bundles i hi e he := by
    obtain hNew | ⟨x, hx, hReaches⟩ := hi
    · rw [show (s.entered inputs).bundles[i]? = none from Array.getElem?_eq_none hNew] at he
      cases he
    · obtain ⟨hHolds, -⟩ := h.fine_of_reaches (hInputs x hx) hReaches
      refine ⟨(h.bundles i hHolds e he).output, fun hName => ?_, fun h => h.1.elim⟩
      exact fine_in_group h hx (hInputs x hx) (hReaches.entry he hName)
  tables _ := ⟨forall_mem_nil _, forall_mem_nil _, forall_mem_nil _, (h.tables trivial).heights⟩

theorem inside_group (h : Sound f c True s) (hInputs : ∀ x ∈ inputs.entries, x.2.1.Fine c s) {tree : Nat}
    (hInside : (inside f c True tree).holds (s.entered inputs)) :
    (inside f (groupScope s inputs) True tree).holds (s.entered inputs) := by
  intro out hTree hKind o linked hGet
  have hMem := Table.mem_of_lookup hGet
  have hFine := fine_in_group h hMem (hInputs _ hMem) .self
  refine ⟨hFine, fun hShader => ?_⟩
  have hShading := (hInside out hTree hKind o linked hGet).2 hShader
  cases o with
  | none => trivial
  | index n => trivial
  | bundle i => exact ⟨hFine.1, hFine.2, fun e he => ⟨(hShading.2.2 e he).1, False.elim⟩⟩

theorem Session.Sane.of_agree {α : Type} {m : Compile α} {tree : Nat} (h : s.Sane f tree)
    (hm : ∀ floor, ∃ A, Agree (inside f (.whole ⟨False, False⟩ 0 floor) True tree) m m A) {a : α} {t : Session}
    (hRun : outcome m f s = (.ok a, t)) : t.Sane f tree := by
  obtain ⟨floor, hSound, hInside⟩ := h
  obtain ⟨A, hAgree⟩ := hm floor
  obtain ⟨hGrows, hNext, -⟩ := run_ok hAgree hInside hSound hRun
  exact ⟨floor, hNext, (inside f (.whole ⟨False, False⟩ 0 floor) True tree).stable hGrows hInside⟩

theorem Session.Sane.compiled (hTyped : f.Typed) {fuel : Nat} {field : SocketRef} {mode : FieldMode} {o : Operand}
    {t : Session} (h : s.Sane f field.tree) (hRun : outcome (compileWith fuel field mode) f s = (.ok o, t)) :
    t.Sane f field.tree := by
  refine h.of_agree (fun floor => ?_) hRun
  let C := compilation f (.whole ⟨False, False⟩ 0 floor) hTyped ⟨False.elim, False.elim⟩
  exact ⟨_, C.visits_compileWith fuel (P := C.inside (nodeOf field)) field mode⟩

theorem Session.Sane.grouped (hTyped : f.Typed) {fuel : Nat} {out : SocketRef} {o : Operand} {t : Session}
    (hKind : (f.node (nodeOf out)).kind = "GROUP") (h : s.Sane f out.tree)
    (hRun : outcome (group (compileWith fuel) out) f s = (.ok o, t)) : t.Sane f out.tree := by
  refine h.of_agree (fun floor => ?_) hRun
  let C := compilation f (.whole ⟨False, False⟩ 0 floor) hTyped ⟨False.elim, False.elim⟩
  exact ⟨_, C.group (P := C.inside (nodeOf out)) (C.visits_compileWith fuel) hKind⟩

theorem sane_empty (f : Forest) (tree : Nat) : Session.Sane {} f tree := by
  refine ⟨0, ⟨Nat.le_refl _, Nat.le_refl _, ?_, (·.1.elim), ?_, ?_⟩, ?_⟩
  · intro i e _ hGet
    cases hGet
  · intro i _ e he
    cases he
  · exact fun _ => ⟨forall_mem_nil _, forall_mem_nil _, forall_mem_nil _, forall_mem_nil _⟩
  · intro out _ _ o linked hGet
    cases hGet

end Scopes

/-- How a group is compiled: its inputs first, then its output from tables of its own. -/
structure GroupRun (f : Forest) (fuel : Nat) (out : SocketRef) (tree : Nat) (s : Session)
    (inputs : Table String (Operand × Bool)) (v w : Session) (o : Operand) (u : Session) : Prop where
  captures : outcome (captureInputs (compileWith fuel) (nodeOf out)) f s = (.ok inputs, v)
  inner : outcome (innerOutput (compileWith fuel) out (some tree)) f (v.entered inputs) = (.ok o, w)
  leaves : u = w.restored v

section Runs

variable {f : Forest} {fuel : Nat} {out : SocketRef} {tree : Nat} {s u : Session} {o : Operand}
  {v w : Session} {inputs : Table String (Operand × Bool)}

theorem exists_groupRun (hTree : (f.node (nodeOf out)).innerTree? = some tree)
    (hRun : outcome (group (compileWith fuel) out) f s = (.ok o, u)) :
    ∃ inputs v w, GroupRun f fuel out tree s inputs v w o u := by
  rw [group, outcome_bind_ok (outcome_theNode out)] at hRun
  obtain ⟨found, hOk, hRun⟩ := outcome_lift_bind hRun
  obtain rfl := (groupTree_eq_ok hOk).trans hTree
  obtain ⟨inputs, v, hCaptures, hRun⟩ := outcome_bind_eq_ok hRun
  generalize hInner : outcome (innerOutput (compileWith fuel) out (some tree)) f (v.entered inputs) = x
  obtain ⟨r, w⟩ := x
  cases r with
  | error e =>
    rw [outcome_insideGroup_error hInner] at hRun
    cases hRun
  | ok p =>
    rw [outcome_insideGroup_ok hInner] at hRun
    cases hRun
    exact ⟨inputs, v, w, hCaptures, hInner, rfl⟩

namespace GroupRun

variable (h : GroupRun f fuel out tree s inputs v w o u)
include h

theorem extends_captured : s.bearings.Extends out.tree v.bearings := by
  let C := bare f
  have hCapture := C.captureInputs (P := C.inside (nodeOf out)) (C.visits_compileWith fuel) (r := nodeOf out)
  have hStart : Retains f False False ⟨s, out.tree⟩ s := .refl _ False.elim False.elim
  exact (retains_of_agree hCapture hStart rfl h.captures).extends

variable (hKind : (f.node (nodeOf out)).kind = "GROUP") (hTree : (f.node (nodeOf out)).innerTree? = some tree)
include hKind hTree

theorem extends_inner : (v.entered inputs).bearings.Extends tree w.bearings := by
  let C := bare f
  have hInner := C.innerOutput (C.visits_compileWith fuel) C.inside_tree hKind
  have hStart : Retains f False False ⟨v.entered inputs, tree⟩ (v.entered inputs) := .refl _ False.elim False.elim
  rw [show (C.forest.node (nodeOf out)).innerTree? = some tree from hTree] at hInner
  exact (retains_of_agree hInner hStart rfl h.inner).extends

theorem extends_left : s.bearings.Extends out.tree u.bearings := by
  rw [h.leaves]
  exact h.extends_captured.restored (h.extends_inner hKind hTree)

section Scope

open References

variable (hTyped : f.Typed) (hSane : s.Sane f out.tree)
include hTyped hSane

/-- The inside of a group names what is made inside, and what the inputs lead to. -/
theorem sound_inner : Sound f (groupScope v inputs) True w ∧ (v.entered inputs).Sane f tree := by
  obtain ⟨floor, hSound, hInside⟩ := hSane
  let C := compilation f (.whole ⟨False, False⟩ 0 floor) hTyped ⟨False.elim, False.elim⟩
  obtain ⟨-, hCaller, hCaptured⟩ := run_ok (P := C.inside (nodeOf out))
    (C.captureInputs (C.visits_compileWith fuel)) hInside hSound h.captures
  have hInputs (x : String × Operand × Bool) (hx : x ∈ inputs.entries) : x.2.1.Fine (.whole ⟨False, False⟩ 0 floor) v := by
    obtain ⟨_, -, -, hOperand⟩ := hCaptured x hx
    exact hOperand.1
  have hInner := inside_of_captured hTyped hCaptured hKind
  rw [hTree] at hInner
  refine ⟨?_, floor, sound_entered hCaller inputs, hInner⟩
  let G := compilation f (groupScope v inputs) hTyped ⟨False.elim, False.elim⟩
  have hRun := h.inner
  rw [← hTree] at hRun
  refine (run_ok (G.innerOutput (G.visits_compileWith fuel) G.inside_tree hKind) ?_
    (sound_in_group hCaller hInputs) hRun).2.1
  rw [show (G.forest.node (nodeOf out)).innerTree? = some tree from hTree]
  exact inside_group hCaller hInputs hInner

theorem uses_inner {n : Int} (hUses : w.Uses v.expressions.size n) :
    n = -1 ∨ v.expressions.size ≤ n ∨ v.Lends inputs n :=
  (h.sound_inner hKind hTree hTyped hSane).1.names_of_uses hUses

end Scope

end GroupRun

end Runs

/-- In a forest whose groups do not stand in their own trees:

- Compiling agrees with compiling by place, so at every depth the inputs of a group are read as its
  own node gives them, and no table knows the tree of a group that was left.
- Tables that belong to a tree do so after compiling in it.
- A group that returns has compiled its inside from empty tables and with its own inputs. What
  surrounds it has its tables again, and these know no key of its tree.
- Inside of a group no expression that was emitted before is used, not even one of another group with
  the same tree, but those that its inputs lead to. -/
theorem group_instances_isolated (f : Forest) (hNested : Nested f) :
    (∀ (fuel : Nat) (field : SocketRef) (mode : FieldMode) (s : Session), s.bearings.TablesOf field.tree →
      outcome (compileWith fuel field mode) f s = outcome (compileScoped fuel s.groupInputs field mode) f s) ∧
    (∀ (fuel : Nat) (field : SocketRef) (mode : FieldMode) (s t : Session) (o : Operand),
      outcome (compileWith fuel field mode) f s = (.ok o, t) →
      (s.bearings.TablesOf field.tree → t.bearings.TablesOf field.tree) ∧
      (f.Typed → s.Sane f field.tree → t.Sane f field.tree)) ∧
    (∀ (fuel : Nat) (out : SocketRef) (tree : Nat) (s u : Session) (o : Operand),
      (f.node (nodeOf out)).kind = "GROUP" → (f.node (nodeOf out)).innerTree? = some tree →
      s.bearings.TablesOf out.tree → outcome (group (compileWith fuel) out) f s = (.ok o, u) →
      ∃ inputs v w, GroupRun f fuel out tree s inputs v w o u ∧
        s.bearings.Extends out.tree u.bearings ∧ u.bearings.TablesOf out.tree ∧ u.knows tree = false ∧
        w.groupInputs = inputs ∧ w.bearings.TablesOf tree ∧
        (f.Typed → s.Sane f out.tree → u.Sane f out.tree ∧ (v.entered inputs).Sane f tree ∧
          ∀ n, w.Uses v.expressions.size n → n = -1 ∨ v.expressions.size ≤ n ∨ v.Lends inputs n)) ∧
    (∀ (fuel fuel' : Nat) (out out' : SocketRef) (tree : Nat) (s s' v v' w w' u u' : Session) (o o' : Operand)
      (inputs inputs' : Table String (Operand × Bool)),
      (f.node (nodeOf out')).kind = "GROUP" → (f.node (nodeOf out')).innerTree? = some tree →
      GroupRun f fuel out tree s inputs v w o u → GroupRun f fuel' out' tree s' inputs' v' w' o' u' →
      u.expressions.size ≤ v'.expressions.size → f.Typed → s'.Sane f out'.tree →
      ∀ i : Nat, v.expressions.size ≤ i → i < w.expressions.size → w'.Uses v'.expressions.size i →
        v'.Lends inputs' i) := by
  refine ⟨fun fuel field mode s hTables => outcome_compileScoped hNested fuel hTables mode, ?_, ?_, ?_⟩
  · intro fuel field mode s t o hRun
    exact ⟨(extends_of_compile hRun).tablesOf, fun hTyped hSane => hSane.compiled hTyped hRun⟩
  · intro fuel out tree s u o hKind hTree hTables hRun
    obtain ⟨inputs, v, w, hGroup⟩ := exists_groupRun hTree hRun
    have hInner := hGroup.extends_inner hKind hTree
    have hLeft := hGroup.extends_left hKind hTree
    have hOuter := hLeft.tablesOf hTables
    refine ⟨inputs, v, w, hGroup, hLeft, hOuter, hOuter.not_knows (hNested _ tree hKind hTree), hInner.inputs,
      hInner.tablesOf (Bearings.tablesOf_entered tree v inputs), fun hTyped hSane => ?_⟩
    exact ⟨hSane.grouped hTyped hKind hRun, (hGroup.sound_inner hKind hTree hTyped hSane).2,
      fun n => hGroup.uses_inner hKind hTree hTyped hSane⟩
  · intro fuel fuel' out out' tree s s' v v' w w' u u' o o' inputs inputs' hKind hTree hFirst hSecond hAfter hTyped
      hSane i _ hEmitted hUses
    have hSize : u.expressions.size = w.expressions.size := by rw [hFirst.leaves]; rfl
    obtain hNone | hOwn | hLent := hSecond.uses_inner hKind hTree hTyped hSane hUses
    · omega
    · omega
    · exact hLent

/-- Of two groups with one tree the second one uses none of the expressions from 3 to 6, which were
emitted inside of the first one, unless its inputs lead to them. -/
theorem group_instances_isolated_twins : Nested twinForest ∧ twinForest.Typed ∧
    ∃ o u o' u', outcome (group (compileWith 9) ⟨0, 2, 0⟩) twinForest {} = (.ok o, u) ∧
      outcome (group (compileWith 9) ⟨0, 3, 0⟩) twinForest u = (.ok o', u') ∧
      u.knows 1 = false ∧ u'.knows 1 = false ∧
    ∃ inputs v w inputs' v' w', GroupRun twinForest 9 ⟨0, 2, 0⟩ 1 {} inputs v w o u ∧
      GroupRun twinForest 9 ⟨0, 3, 0⟩ 1 u inputs' v' w' o' u' ∧
      v.expressions.size = 3 ∧ w.expressions.size = 7 ∧ v'.expressions.size = 10 ∧
      ∀ i : Nat, 3 ≤ i → i < 7 → w'.Uses 10 i → v'.Lends inputs' i := by
  have hNested : Nested twinForest := nested_of_forall (by decide)
  have hTyped : twinForest.Typed := by decide +kernel
  obtain ⟨-, -, hGroup, hTwo⟩ := group_instances_isolated twinForest hNested
  let run := outcome (group (compileWith 9) ⟨0, 2, 0⟩) twinForest {}
  let run' := outcome (group (compileWith 9) ⟨0, 3, 0⟩) twinForest run.2
  let captured := outcome (captureInputs (compileWith 9) ⟨0, 2⟩) twinForest {}
  let captured' := outcome (captureInputs (compileWith 9) ⟨0, 3⟩) twinForest run.2
  have hRuns : (run.1.isOk, run'.1.isOk) = (true, true) := by decide +kernel
  have hSizes : (captured.2.expressions.size, run.2.expressions.size, captured'.2.expressions.size) = (3, 7, 10) := by
    decide +kernel
  simp only [Prod.mk.injEq] at hRuns hSizes
  obtain ⟨o, hRun⟩ := exists_ok_of_isOk hRuns.1
  obtain ⟨o', hRun'⟩ := exists_ok_of_isOk hRuns.2
  have hEmpty : (Session.bearings {}).TablesOf 0 := Bearings.tablesOf_entered 0 {} .empty
  obtain ⟨inputs, v, w, hFirst, -, hTables, hUnknown, -, -, hSane⟩ :=
    hGroup 9 ⟨0, 2, 0⟩ 1 {} run.2 o rfl rfl hEmpty hRun
  obtain ⟨inputs', v', w', hSecond, -, -, hUnknown', -⟩ := hGroup 9 ⟨0, 3, 0⟩ 1 run.2 run'.2 o' rfl rfl hTables hRun'
  have hBefore : v = captured.2 := congrArg Prod.snd hFirst.captures.symm
  have hBefore' : v' = captured'.2 := congrArg Prod.snd hSecond.captures.symm
  have hLeft : run.2.expressions.size = w.expressions.size := congrArg (·.expressions.size) hFirst.leaves
  have hTwins := hTwo 9 9 ⟨0, 2, 0⟩ ⟨0, 3, 0⟩ 1 {} run.2 v v' w w' run.2 run'.2 o o' inputs inputs' rfl rfl hFirst
    hSecond (by rw [hBefore', hSizes.2.1, hSizes.2.2]; decide) hTyped (hSane hTyped (sane_empty twinForest 0)).1
  rw [hBefore, hBefore', ← hLeft, hSizes.1, hSizes.2.1, hSizes.2.2] at hTwins
  exact ⟨hNested, hTyped, o, run.2, o', run'.2, hRun, hRun', hUnknown, hUnknown', inputs, v, w, inputs', v', w',
    hFirst, hSecond, hBefore ▸ hSizes.1, hLeft ▸ hSizes.2.1, hBefore' ▸ hSizes.2.2, hBefore' ▸ hTwins⟩

end SceneExchange.Material
