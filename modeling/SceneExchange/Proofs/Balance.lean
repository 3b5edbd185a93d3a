import SceneExchange.Proofs.Retention

/-!
# What a compilation leaves behind

A computation that returns has left every context and every level that it entered, and has the inputs
of the group at hand again. What was emitted before it stands where it stood, with the new
expressions behind it. The tables lose no key, and all keys that are new belong to the tree that was
compiled: what is known of the inside of a group is forgotten with the group.
-/

namespace SceneExchange.Material

open SceneExchange.Graph Compile Material.Frame

/-- What a computation finds around it, what it adds to, and what it answers from. -/
structure Bearings where
  contexts : List Datum
  depth : Nat
  inputs : Table String (Operand × Bool)
  expressions : Array Expression
  memo : List (SocketRef × Operand)
  nodeMemo : List (NodeRef × Int)
  stations : List (NodeRef × Station)

def Session.bearings (s : Session) : Bearings :=
  ⟨s.contexts, s.depth, s.groupInputs, s.expressions, s.memo, s.nodeMemo, s.stations⟩

structure Bearings.Extends (tree : Nat) (b b' : Bearings) : Prop where
  contexts : b'.contexts = b.contexts
  depth : b'.depth = b.depth
  inputs : b'.inputs = b.inputs
  expressions : b.expressions.toList <+: b'.expressions.toList
  memo : Widens (fun k => k.tree = tree) b.memo b'.memo
  nodeMemo : Widens (fun k => k.tree = tree) b.nodeMemo b'.nodeMemo
  stations : Widens (fun k => k.tree = tree) b.stations b'.stations

theorem Retains.extends {f : Forest} {valued uniform : Prop} {tree : Nat} {s t : Session}
    (h : Retains f valued uniform ⟨s, tree⟩ t) : s.bearings.Extends tree t.bearings :=
  ⟨h.contexts, h.depth, h.inputs, h.keeps.expressions, h.widens.memo, h.widens.nodeMemo, h.widens.stations⟩

theorem Bearings.Extends.restored {b : Bearings} {tree inner : Nat} {s t : Session} {c : Table String (Operand × Bool)}
    (h : b.Extends tree s.bearings) (hInner : (s.entered c).bearings.Extends inner t.bearings) :
    b.Extends tree (t.restored s).bearings :=
  ⟨hInner.contexts.trans h.contexts, hInner.depth.trans h.depth, h.inputs, h.expressions.trans hInner.expressions,
    h.memo, h.nodeMemo, h.stations⟩

section Runs

variable {f : Forest} {s t : Session} {fuel : Nat} {field : SocketRef} {mode : FieldMode} {o : Operand}

theorem extends_of_compile (h : outcome (compileWith fuel field mode) f s = (.ok o, t)) :
    s.bearings.Extends field.tree t.bearings :=
  (retains_of_compile False False.elim h).extends

/-- Compiling a field from any session, if it returns, gives back the contexts, the inputs of the group
at hand and the depth. It appends to the expressions, and no table loses a key. -/
theorem compile_appends_and_balances (f : Forest) (s t : Session) (fuel : Nat) (field : SocketRef) (mode : FieldMode)
    (o : Operand) (h : outcome (compileWith fuel field mode) f s = (.ok o, t)) :
    t.contexts = s.contexts ∧ t.groupInputs = s.groupInputs ∧ t.depth = s.depth ∧
    (∃ new, t.expressions.toList = s.expressions.toList ++ new) ∧
    s.memo.map Prod.fst ⊆ t.memo.map Prod.fst ∧ s.nodeMemo.map Prod.fst ⊆ t.nodeMemo.map Prod.fst ∧
    s.stations.map Prod.fst ⊆ t.stations.map Prod.fst := by
  have hExtends := extends_of_compile h
  obtain ⟨new, hNew⟩ := hExtends.expressions
  exact ⟨hExtends.contexts, hExtends.inputs, hExtends.depth, ⟨new, hNew.symm⟩, hExtends.memo.kept,
    hExtends.nodeMemo.kept, hExtends.stations.kept⟩

end Runs

section Sample

open SceneExchange.Workload

def shadeGroup : Node := { node "GROUP" [sand "Tint"] [sand "Shade"] with tree := .given 1 }

/-- A light that takes its color and its strength from two groups with one tree, in which the tint
is read as a normal. -/
def twinForest : Forest where
  trees := #[
    tree [outputNode, node "EMISSION" [sand "Color", half "Strength"] [shader "Emission"], shadeGroup, shadeGroup]
      [⟨1, 0, 0, 0⟩, ⟨2, 0, 1, 0⟩, ⟨3, 0, 1, 1⟩],
    tree [withSettings [("is_active_output", .flag true)] (node "GROUP_OUTPUT" [sand "Shade"] []),
        node "GROUP_INPUT" [] [sand "Tint"],
        node "NORMAL_MAP" [half "Strength", sand "Color"] [computed "Normal"]]
      [⟨2, 0, 0, 0⟩, ⟨1, 0, 2, 1⟩]]

def busySession : Session :=
  { expressions := #[⟨"Multiply", [], []⟩]
    memo := [(⟨0, 7, 0⟩, .index 0)]
    nodeMemo := [(⟨0, 8⟩, 0)]
    stations := [(⟨0, 9⟩, ⟨0, []⟩)]
    contexts := [bumpContext]
    depth := 3
    groupInputs := .ofList [("Tint", .index 0, true)] }

theorem compile_appends_and_balances_twins : ∃ o t,
    outcome (compileWith 9 ⟨0, 0, 0⟩ .normal) twinForest busySession = (.ok o, t) ∧ t.expressions.size = 17 ∧
    t.contexts = [bumpContext] ∧ t.groupInputs = .ofList [("Tint", .index 0, true)] ∧ t.depth = 3 ∧
    (∃ new, t.expressions.toList = ⟨"Multiply", [], []⟩ :: new) ∧ ⟨0, 7, 0⟩ ∈ t.memo.map Prod.fst ∧
    ⟨0, 8⟩ ∈ t.nodeMemo.map Prod.fst ∧ ⟨0, 9⟩ ∈ t.stations.map Prod.fst := by
  let run := outcome (compileWith 9 ⟨0, 0, 0⟩ .normal) twinForest busySession
  have hRun : (run.1.isOk, run.2.expressions.size) = (true, 17) := by decide +kernel
  obtain ⟨hOk, hSize⟩ := Prod.mk.inj hRun
  obtain ⟨o, hRun⟩ := exists_ok_of_isOk hOk
  obtain ⟨hContexts, hInputs, hDepth, hExpressions, hMemo, hNodes, hStations⟩ :=
    compile_appends_and_balances twinForest busySession run.2 9 ⟨0, 0, 0⟩ .normal o hRun
  exact ⟨o, run.2, hRun, hSize, hContexts, hInputs, hDepth, hExpressions, hMemo (by decide), hNodes (by decide),
    hStations (by decide)⟩

end Sample

end SceneExchange.Material
