import SceneExchange.Proofs.Balance
import SceneExchange.Proofs.Ranks

/-!
# Compilations that end

Compiling a field asks for the output that is linked to it. A handler asks for fields of its own node,
and a group also for those of the output of its tree. So where neither links nor groups lead back to
where they started, the questions go down a ranking of the nodes, and no more of them are open at one
time than there are nodes, whatever the tables know.
-/

namespace SceneExchange.Material

open SceneExchange.Graph Compile Material.Frame Handlers

/-! ## Computations that cannot be told apart -/

/-- Two computations do the same in a forest, from every session. -/
def Same {α : Type} (f : Forest) (m m' : Compile α) : Prop := ∀ s, outcome m f s = outcome m' f s

protected theorem Same.refl {α : Type} {f : Forest} (m : Compile α) : Same f m m := fun _ => rfl

def sameFrame (f : Forest) : Frame where
  forest := f
  lenient _ := False
  World := Unit
  Related _ s s' := s = s'
  Later _ _ := True
  Returns _ _ := True
  later_of_returns _ := trivial
  returns_refl _ := trivial
  returns_trans _ _ := trivial

instance (f : Forest) : (sameFrame f).Flat where
  eq_of_related := id
  beside _ _ := ⟨(), trivial, rfl⟩
  level _ _ _ := ⟨(), trivial, rfl⟩

def sameAccount (f : Forest) : Account where
  toFrame := sameFrame f
  oneRun := inferInstance
  alters := True
  emit _ _ := ⟨(), trivial, rfl⟩
  newBundle _ _ := ⟨(), trivial, rfl⟩
  setEntry _ _ _ _ _ := ⟨(), trivial, rfl⟩
  rememberHeight _ _ := ⟨(), trivial, rfl⟩
  within h := h.within
  nested h := h.nested

theorem Same.agree {α : Type} {f : Forest} {P : (sameFrame f).Fact} {m m' : Compile α} (h : Same f m m') :
    Agree P m m' fun _ => .pure True := by
  rintro w s _ - rfl
  change Joint w _ (outcome m f s) (outcome m' f s)
  rw [h s]
  generalize outcome m' f s = x
  obtain ⟨_ | a, t⟩ := x <;> have hSame : (sameFrame f).Related w t t := rfl
  · exact .failed hSame
  · exact .done trivial hSame trivial

theorem same_of_agree {α : Type} {f : Forest} {P : (sameFrame f).Fact} {A : α → (sameFrame f).Fact} {m m' : Compile α}
    (h : Agree P m m' A) (hP : P.holds ()) : Same f m m' := by
  intro s
  have hJoint := h () s s hP rfl
  change Joint (F := sameFrame f) () _ (outcome m f s) (outcome m' f s) at hJoint
  generalize outcome m f s = x at hJoint
  generalize outcome m' f s = x' at hJoint
  cases hJoint with
  | done _ related => rw [show _ = _ from related]
  | failed related => rw [show _ = _ from related]
  | lost lenient => exact lenient.elim

/-- The handling of nodes of which it is known that visits of their fields do the same. -/
def sameHandling (f : Forest) (inside : NodeRef → Prop) : Handling :=
  (sameAccount f).handling (fun r => .pure (inside r)) (fun _ => .pure True) (fun _ => True) (fun _ => trivial) id

section Dispatch

variable {f : Forest} {visit visit' : Visit} {out : SocketRef}

theorem visits_same {inside : NodeRef → Prop}
    (h : ∀ p mode, inside (nodeOf p) → Same f (visit p mode) (visit' p mode)) :
    (sameHandling f inside).Visits visit visit' := by
  intro P p mode hInside w s s' hP hRelated
  refine ((h p mode (hInside.entails hP)).agree w s s' hP hRelated).imp fun _ _ => ?_
  exact ⟨trivial, fun _ => trivial⟩

theorem shares_same {inside : NodeRef → Prop} : (sameHandling f inside).Shares visit visit' out := by
  refine (sameHandling f inside).sharesOf (@fun _ _ _ _ _ _ => (Same.refl _).agree) (@fun _ => ?_)
    @fun _ _ _ _ => (Same.refl _).agree
  refine (Same.refl _).agree.imp @fun _ known _ => ?_
  cases known <;> trivial

/-- A field that the handler of a node may ask for. -/
def Asks (f : Forest) (r : NodeRef) (p : SocketRef) : Prop :=
  (f.node r).kind ≠ "" ∧ nodeOf p = r ∨ (f.node r).kind = "GROUP" ∧ (f.node r).innerTree? = some p.tree

theorem Same.insideGroup {c : Table String (Operand × Bool)} {m m' : Compile Operand} (h : Same f m m') :
    Same f (insideGroup c m) (insideGroup c m') := by
  intro s
  generalize hRun : outcome m f (s.entered c) = x
  obtain ⟨r, t⟩ := x
  have hRun' := (h _).symm.trans hRun
  cases r with
  | ok a => rw [outcome_insideGroup_ok hRun, outcome_insideGroup_ok hRun']
  | error e => rw [outcome_insideGroup_error hRun, outcome_insideGroup_error hRun']

theorem Same.nested {m m' : Compile Operand} (h : Same f m m') : Same f (nested m) (nested m') :=
  same_of_agree (P := .pure True) h.agree.nested trivial

section Asked

variable (h : ∀ p mode, Asks f (nodeOf out) p → Same f (visit p mode) (visit' p mode))
include h

theorem visits_own (hKind : (f.node (nodeOf out)).kind ≠ "") : (sameHandling f (· = nodeOf out)).Visits visit visit' :=
  visits_same fun p mode hp => h p mode (.inl ⟨hKind, hp⟩)

theorem innerOutput_same (hKind : (f.node (nodeOf out)).kind = "GROUP") :
    Same f (innerOutput visit out (f.node (nodeOf out)).innerTree?)
      (innerOutput visit' out (f.node (nodeOf out)).innerTree?) := by
  let H := sameHandling f fun r => (f.node (nodeOf out)).innerTree? = some r.tree
  have hVisit : H.Visits visit visit' := visits_same fun p mode hp => h p mode (.inr ⟨hKind, hp⟩)
  have hWide : H.Wide := fun hTree hInside => hInside.trans (congrArg some hTree.symm)
  refine same_of_agree (H.innerOutput hVisit hWide hKind) ?_
  generalize hTree : Node.innerTree? _ = tree
  cases tree with
  | none => trivial
  | some t => exact hTree

theorem group_same (hKind : (f.node (nodeOf out)).kind = "GROUP") : Same f (group visit out) (group visit' out) := by
  let H := sameHandling f (· = nodeOf out)
  have hInside : Entails (.pure True) (H.inside (nodeOf out)) := ⟨fun _ => rfl⟩
  have hCaptured := H.captureInputs (P := .pure True) (r := nodeOf out) (visits_own h (by rw [hKind]; decide))
  refine same_of_agree (A := fun _ => .pure True) (.bindNode (.bindLift fun tree hTree => hCaptured.bind fun c => ?_))
    trivial
  obtain rfl := groupTree_eq_ok hTree
  exact (innerOutput_same h hKind).insideGroup.agree

omit h in
theorem outcome_dispatch_unasked {s : Session} {field : SocketRef} (visit : Visit)
    (hKind : (f.node (nodeOf out)).kind = "") :
    outcome (dispatch visit out field) f s = outcome (unhandled "" out) f s := by
  have hNone : handler? "" = none := Option.isNone_iff_eq_none.mp (by decide)
  rw [dispatch, outcome_bind_ok (outcome_theNode out), hKind]
  dsimp only
  rw [hNone]
  rfl

theorem dispatch_same (field : SocketRef) : Same f (dispatch visit out field) (dispatch visit' out field) := by
  intro s
  by_cases hGroup : (f.node (nodeOf out)).kind = "GROUP"
  · rw [dispatch, dispatch, outcome_bind_ok (outcome_theNode out), outcome_bind_ok (outcome_theNode out), hGroup]
    exact group_same h hGroup s
  by_cases hInput : (f.node (nodeOf out)).kind = "GROUP_INPUT"
  · rw [dispatch, dispatch, outcome_bind_ok (outcome_theNode out), outcome_bind_ok (outcome_theNode out), hInput]
    exact Eq.refl (outcome (groupInput out field) f s)
  by_cases hNone : (f.node (nodeOf out)).kind = ""
  · rw [outcome_dispatch_unasked visit hNone, outcome_dispatch_unasked visit' hNone]
  · let H := sameHandling f (· = nodeOf out)
    have hNew : Entails (.pure True) (H.newNode (nodeOf out)) := ⟨fun _ => ⟨rfl, trivial⟩⟩
    exact same_of_agree (H.dispatchOther (P := .pure True) (visits_own h hNone) shares_same hGroup hInput) trivial s

end Asked

theorem outputStep_same {field : SocketRef} (h : Same f (dispatch visit out field) (dispatch visit' out field)) :
    Same f (outputStep visit out field) (outputStep visit' out field) := by
  intro s
  rw [outcome_outputStep, outcome_outputStep, h s]

theorem fieldStep_same {output output' : SocketRef → SocketRef → Compile Operand} {field : SocketRef} {mode : FieldMode}
    (h : ∀ source, f.source? field = some source → Same f (output source field) (output' source field)) :
    Same f (fieldStep output field mode) (fieldStep output' field mode) := by
  refine same_of_agree (P := .pure True) (A := fun _ => .pure True)
    (.bindRead (.bind (Same.refl _).agree fun _ => ?_)) trivial
  split
  · exact (Same.refl _).agree
  · rename_i source hSource
    refine .ite (fun _ => ?_) fun _ => (Same.refl _).agree
    exact .bindRead ((h source hSource).nested.agree.bind fun _ => (Same.refl _).agree)

end Dispatch

/-! ## Ways through a forest -/

def IsLinked (f : Forest) (t a b : Nat) : Prop := ∃ l ∈ (f.tree t).links, l.fromNode = a ∧ l.toNode = b

/-- The first tree is that of a group in the second. -/
def IsInner (f : Forest) (t u : Nat) : Prop :=
  ∃ r, r.tree = u ∧ (f.node r).kind = "GROUP" ∧ (f.node r).innerTree? = some t

/-- No links lead back to the node they come from, and no tree stands in itself, however deep. -/
structure Acyclic (f : Forest) : Prop where
  links : ∀ t a, ¬Relation.TransGen (IsLinked f t) a a
  groups : ∀ t, ¬Relation.TransGen (IsInner f) t t

/-- Compiling the second node may ask for an output of the first. -/
inductive Supplies (f : Forest) : NodeRef → NodeRef → Prop
  | link {a b : NodeRef} (exists_node : (f.node b).kind ≠ "") (tree : a.tree = b.tree)
      (linked : IsLinked f b.tree a.node b.node) : Supplies f a b
  | group {a b : NodeRef} (kind : (f.node b).kind = "GROUP") (inner : (f.node b).innerTree? = some a.tree) : Supplies f a b

section Ranking

variable {f : Forest}

/-- A way stays in one tree, or it leads out of the trees of groups. -/
theorem way_cases {a b : NodeRef} (h : Relation.TransGen (Supplies f) a b) :
    a.tree = b.tree ∧ Relation.TransGen (IsLinked f b.tree) a.node b.node ∨ Relation.TransGen (IsInner f) a.tree b.tree := by
  induction h with
  | single hab =>
    cases hab with
    | link _ tree linked => exact .inl ⟨tree, .single linked⟩
    | group kind inner => exact .inr (.single ⟨_, rfl, kind, inner⟩)
  | tail _ hbc ih =>
    cases hbc with
    | link _ tree linked =>
      rw [tree] at ih
      exact ih.imp (fun way => ⟨way.1, way.2.tail linked⟩) id
    | group kind inner =>
      refine .inr ?_
      obtain ⟨tree, -⟩ | hOut := ih
      · exact .single ⟨_, rfl, kind, tree ▸ inner⟩
      · exact hOut.tail ⟨_, rfl, kind, inner⟩

theorem Acyclic.supplies (h : Acyclic f) (a : NodeRef) : ¬Relation.TransGen (Supplies f) a a := fun hCycle =>
  (way_cases hCycle).elim (fun way => h.links _ _ way.2) (h.groups _)

theorem length_nodeRefs (f : Forest) : (nodeRefs f).length = f.nodeCount := by
  have hSum (l : List Tree) (k n : Nat) : l.foldl (fun n t => n + t.nodes.size) n =
      n + ((l.zipIdx k).flatMap fun x => (List.range x.1.nodes.size).map (NodeRef.mk x.2)).length := by
    induction l generalizing k n with
    | nil => rfl
    | cons t l ih => simp [ih (k + 1), Nat.add_assoc]
  rw [Forest.nodeCount, ← Array.foldl_toList, hSum _ 0, nodeRefs, Nat.zero_add]

theorem Acyclic.exists_rank (h : Acyclic f) : ∃ rank : NodeRef → Nat,
    (∀ a b, Supplies f a b → rank a < rank b) ∧ ∀ a, rank a ≤ f.nodeCount := by
  have hIn (a b : NodeRef) (hab : Supplies f a b) : b ∈ (nodeRefs f).toFinset := by
    refine List.mem_toFinset.mpr (mem_nodeRefs ?_)
    cases hab with
    | link exists_node => exact exists_node
    | group kind =>
      rw [kind]
      decide
  obtain ⟨rank, hRank, hBound⟩ := SceneExchange.exists_rank (nodeRefs f).toFinset hIn h.supplies
  refine ⟨rank, hRank, fun a => Nat.le_trans (hBound a) ?_⟩
  rw [← length_nodeRefs]
  exact List.toFinset_card_le _

end Ranking

/-! ## Depth -/

/-- Compiles a field by what is asked for of other fields. -/
def compileStep (visit : Visit) : Visit := fieldStep (outputStep visit)

theorem compileWith_eq_iterate (n : Nat) : compileWith n = compileStep^[n] fun _ _ => fail .tooDeep := by
  induction n with
  | zero => rfl
  | succ n ih => rw [Function.iterate_succ_apply', ← ih]; rfl

section Depth

variable {f : Forest} {rank : NodeRef → Nat} (hRank : ∀ a b, Supplies f a b → rank a < rank b)

theorem feeds_of_source {p source : SocketRef} (h : f.source? p = some source) {r : NodeRef} (hAsks : Asks f r p) :
    Supplies f (nodeOf source) r := by
  obtain ⟨link, hLink, rfl⟩ := Option.map_eq_some_iff.mp h
  have hMem := List.mem_filter.mp (List.mem_of_mem_head? hLink)
  obtain ⟨hKind, rfl⟩ | ⟨hKind, hInner⟩ := hAsks
  · refine .link hKind rfl ⟨link, hMem.1, rfl, ?_⟩
    exact beq_iff_eq.mp (Bool.and_eq_true_iff.mp hMem.2).1
  · exact .group hKind hInner

include hRank

/-- Where as many steps are left as the linked output has nodes before it, it does not matter what comes below. -/
theorem iterate_same (below below' : Visit) (n : Nat) {field : SocketRef} {mode : FieldMode}
    (hField : ∀ source, f.source? field = some source → rank (nodeOf source) < n) :
    Same f (compileStep^[n + 1] below field mode) (compileStep^[n + 1] below' field mode) := by
  induction n generalizing field mode with
  | zero => exact fieldStep_same fun source hSource => absurd (hField source hSource) (Nat.not_lt_zero _)
  | succ n ih =>
    rw [Function.iterate_succ_apply', Function.iterate_succ_apply' _ _ below']
    refine fieldStep_same fun source hSource => outputStep_same (dispatch_same (fun p mode hAsks => ih ?_) field)
    intro next hNext
    exact Nat.lt_of_lt_of_le (hRank _ _ (feeds_of_source hNext hAsks)) (Nat.le_of_lt_succ (hField source hSource))

theorem iterate_add_same {bound : Nat} (hBound : ∀ r, rank r ≤ bound) (below : Visit) {n : Nat} (hn : bound + 2 ≤ n)
    (field : SocketRef) (mode : FieldMode) :
    Same f (compileStep^[n] below field mode) (compileWith (bound + 2) field mode) := by
  obtain ⟨k, rfl⟩ := Nat.exists_eq_add_of_le hn
  rw [Function.iterate_add_apply, compileWith_eq_iterate]
  exact iterate_same hRank _ _ (bound + 1) fun source _ => Nat.lt_succ_of_le (hBound _)

omit hRank in
theorem same_iterate {visit : Visit} (h : ∀ p mode, Same f (visit p mode) (compileStep visit p mode)) (n : Nat)
    (p : SocketRef) (mode : FieldMode) : Same f (visit p mode) (compileStep^[n] visit p mode) := by
  induction n generalizing p mode with
  | zero => exact .refl _
  | succ n ih =>
    rw [Function.iterate_succ_apply']
    intro s
    rw [h p mode s]
    exact fieldStep_same (fun source _ => outputStep_same (dispatch_same (fun p mode _ => ih p mode) p)) s

end Depth

theorem outcome_compileField (f : Forest) (s : Session) (field : SocketRef) :
    outcome (compileField field) f s = outcome (compileWith (f.nodeCount + 2) field .normal) f s := by
  rw [compileField, outcome_bind_ok outcome_read]

/-- In a forest without cycles a compilation ends, whatever its tables know: no more fields than there
are nodes, and two more, are being compiled at one time, so that what is done below that depth does not
matter, and there is one way only to compile each field by the others. -/
theorem compile_ends_without_cycles {f : Forest} (hAcyclic : Acyclic f) (field : SocketRef) (mode : FieldMode)
    (s : Session) :
    (∀ (below : Visit) (n : Nat), f.nodeCount + 2 ≤ n →
      outcome (compileStep^[n] below field mode) f s = outcome (compileWith (f.nodeCount + 2) field mode) f s) ∧
    ∀ visit : Visit, (∀ p mode t, outcome (visit p mode) f t = outcome (compileStep visit p mode) f t) →
      outcome (visit field mode) f s = outcome (compileWith (f.nodeCount + 2) field mode) f s ∧
      outcome (visit field .normal) f s = outcome (compileField field) f s := by
  obtain ⟨rank, hRank, hBound⟩ := hAcyclic.exists_rank
  rw [outcome_compileField]
  have hDeep := fun below n hn mode => iterate_add_same hRank hBound below (n := n) hn field mode s
  have hOnly (visit : Visit) (h : ∀ p mode, Same f (visit p mode) (compileStep visit p mode)) (mode : FieldMode) :=
    (same_iterate h (f.nodeCount + 2) field mode s).trans (hDeep visit _ (Nat.le_refl _) mode)
  exact ⟨fun below n hn => hDeep below n hn mode, fun visit h => ⟨hOnly visit h mode, hOnly visit h .normal⟩⟩

theorem acyclic_twinForest : Acyclic twinForest where
  links t := by
    refine acyclic_of_rank (fun a => if t = 1 then [2, 0, 1].getD a 0 else 3 - a) ?_
    rintro _ _ ⟨l, hl, rfl, rfl⟩
    match t with
    | 0 => exact (by decide : ∀ l ∈ (twinForest.tree 0).links, 3 - l.fromNode < 3 - l.toNode) l hl
    | 1 => exact (by decide : ∀ l ∈ (twinForest.tree 1).links, [2, 0, 1].getD l.fromNode 0 < [2, 0, 1].getD l.toNode 0) l hl
    | t + 2 => cases hl
  groups := by
    refine acyclic_of_rank (fun t => 1 - t) ?_
    rintro t _ ⟨r, rfl, hKind, hInner⟩
    have hGroups : ∀ r ∈ nodeRefs twinForest, (twinForest.node r).kind = "GROUP" →
        (twinForest.node r).innerTree? = some 1 ∧ r.tree = 0 := by decide
    obtain ⟨hTree, hOuter⟩ := hGroups r (mem_nodeRefs (by rw [hKind]; decide)) hKind
    cases hInner.symm.trans hTree
    rw [hOuter]
    decide

theorem compile_ends_without_cycles_twins : Acyclic twinForest ∧
    (∀ below : Visit, outcome (compileStep^[9] below ⟨0, 0, 0⟩ .normal) twinForest busySession =
      outcome (compileField ⟨0, 0, 0⟩) twinForest busySession) ∧
    (outcome (compileField ⟨0, 0, 0⟩) twinForest busySession).1.isOk = true := by
  refine ⟨acyclic_twinForest, fun below => ?_, by decide +kernel⟩
  rw [outcome_compileField]
  exact (compile_ends_without_cycles acyclic_twinForest ⟨0, 0, 0⟩ .normal busySession).1 below 9 (by decide)

end SceneExchange.Material
