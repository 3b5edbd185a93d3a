import SceneExchange.Material.Compile
import Mathlib.Tactic.MkIffOfInductiveProp

/-!
# Sockets that carry shaders

In a typed forest a shader socket is fed by shader sockets only: nodes that compute values have no
shader outputs, nodes that combine shaders read shader sockets, and a shader keeps its kind on its
way through reroutes and through the inputs and outputs of groups.
-/

open List Option

namespace SceneExchange.Graph

open SceneExchange.Material

namespace Node

def innerTree? (n : Node) : Option Nat :=
  match n.tree with
  | .given t => some t
  | _ => none

@[mk_iff] structure Typed (f : Forest) (n : Node) : Prop where
  values : (valueHandler? n.kind).isSome → ∀ s ∈ n.outputs, s.kind ≠ .shader
  sums : n.kind = "ADD_SHADER" → ∀ s ∈ n.inputs.take 2, s.kind = .shader
  mixes : n.kind = "MIX_SHADER" → ∀ s ∈ (n.inputs.drop 1).take 2, s.kind = .shader
  reroutes : n.kind = "REROUTE" → ∀ s ∈ n.outputs, s.kind = .shader →
    ∀ p ∈ n.inputs, p.name = "Input" → p.kind = .shader
  groupOutputs : n.kind = "GROUP" → ∀ t ∈ n.innerTree?, ∀ s ∈ n.outputs, s.kind = .shader →
    ∀ inner ∈ (f.tree t).nodes.toList, inner.kind = "GROUP_OUTPUT" →
      ∀ p ∈ inner.inputs, p.identifier = s.identifier → p.kind = .shader
  groupInputs : n.kind = "GROUP" → ∀ t ∈ n.innerTree?, ∀ inner ∈ (f.tree t).nodes.toList,
    inner.kind = "GROUP_INPUT" → ∀ s ∈ inner.outputs, s.kind = .shader →
      ∀ p ∈ n.inputs, p.identifier = s.identifier → p.kind = .shader

set_option synthInstance.maxSize 400 in
instance (f : Forest) (n : Node) : Decidable (n.Typed f) := decidable_of_iff _ (typed_iff f n).symm

theorem typed_default (f : Forest) : (default : Node).Typed f where
  values _ s hs := by cases hs
  sums h := absurd h (by decide)
  mixes h := absurd h (by decide)
  reroutes h := absurd h (by decide)
  groupOutputs h := absurd h (by decide)
  groupInputs h := absurd h (by decide)

end Node

namespace Forest

variable {f : Forest} {p : SocketRef} {r : NodeRef}

@[mk_iff] structure Typed (f : Forest) : Prop where
  nodes : ∀ t ∈ f.trees.toList, ∀ n ∈ t.nodes.toList, n.Typed f
  surfaces : ∀ t ∈ f.trees.toList, ∀ i ∈ t.outputs.values, ∀ n ∈ t.nodes[i]?,
    ∀ p ∈ n.inputs, p.name = "Surface" → p.kind = .shader

instance (f : Forest) : Decidable f.Typed := decidable_of_iff _ (typed_iff f).symm

theorem forall_node {p : Node → Prop} (hDefault : p default)
    (h : ∀ t ∈ f.trees.toList, ∀ n ∈ t.nodes.toList, p n) (r : NodeRef) : p (f.node r) := by
  unfold Forest.node Forest.tree
  cases hTree : f.trees[r.tree]? with
  | none => exact hDefault
  | some t =>
    cases hNode : t.nodes[r.node]? with
    | none => simpa [hNode] using hDefault
    | some n =>
      simp only [getD_some, hNode]
      exact h t (Array.mem_toList_iff.mpr (Array.mem_of_getElem? hTree)) n
        (Array.mem_toList_iff.mpr (Array.mem_of_getElem? hNode))

theorem Typed.node (h : f.Typed) (r : NodeRef) : (f.node r).Typed f :=
  forall_node (Node.typed_default f) h.nodes r

theorem Typed.sum_input (h : f.Typed) {i : Nat} (hKind : (f.node r).kind = "ADD_SHADER") (hi : i < 2) :
    ∀ s ∈ (f.node r).inputs[i]?, s.kind = .shader := by
  intro s hs
  refine (h.node r).sums hKind s (mem_of_getElem? (i := i) ?_)
  rw [getElem?_take, if_pos hi]
  exact hs

theorem Typed.mix_input (h : f.Typed) {i : Nat} (hKind : (f.node r).kind = "MIX_SHADER") (hi : i < 2) :
    ∀ s ∈ (f.node r).inputs[1 + i]?, s.kind = .shader := by
  intro s hs
  refine (h.node r).mixes hKind s (mem_of_getElem? (i := i) ?_)
  rw [getElem?_take, if_pos hi, getElem?_drop]
  exact hs

theorem inputNamed_eq_ok {name : String} (h : f.inputNamed r name = .ok p) : p.tree = r.tree ∧ p.node = r.node ∧
      (f.inputSocket p).name = name ∧ f.inputSocket p ∈ (f.node r).inputs := by
  unfold Forest.inputNamed Forest.inputNamed? at h
  cases hIndex : (f.node r).inputs.findIdx? (·.name == name) with
  | none => simp [hIndex] at h
  | some i =>
    rw [hIndex] at h
    cases h
    obtain ⟨hLt, hName, -⟩ := findIdx?_eq_some_iff_getElem.mp hIndex
    have hSocket : f.inputSocket ⟨r.tree, r.node, i⟩ = (f.node r).inputs[i] := by
      rw [Forest.inputSocket, List.getElem?_eq_getElem hLt, getD_some]
    refine ⟨rfl, rfl, ?_, ?_⟩
    · rw [hSocket]
      exact eq_of_beq hName
    · rw [hSocket]
      exact getElem_mem hLt

theorem inputAt_eq_ok {i : Nat} (h : f.inputAt r i = .ok p) :
    p = ⟨r.tree, r.node, i⟩ ∧ (f.node r).inputs[i]? = some (f.inputSocket p) := by
  unfold Forest.inputAt at h
  by_cases hLt : i < (f.node r).inputs.length
  · rw [if_pos hLt] at h
    cases h
    refine ⟨rfl, ?_⟩
    rw [Forest.inputSocket, List.getElem?_eq_getElem hLt, getD_some]
  · rw [if_neg hLt] at h
    cases h

theorem outputSocket_mem {out : SocketRef} (h : (f.outputSocket out).kind = .shader) :
    f.outputSocket out ∈ (f.node (nodeOf out)).outputs := by
  unfold Forest.outputSocket at h ⊢
  cases hSocket : (f.node ⟨out.tree, out.node⟩).outputs[out.socket]? with
  | none =>
    rw [hSocket] at h
    exact absurd h (by decide)
  | some s =>
    rw [getD_some]
    exact mem_of_getElem? hSocket

theorem node_mem (h : (f.node r).kind ≠ "") : f.node r ∈ (f.tree r.tree).nodes.toList := by
  unfold Forest.node at h ⊢
  cases hNode : (f.tree r.tree).nodes[r.node]? with
  | none =>
    rw [hNode] at h
    exact absurd rfl h
  | some n =>
    rw [getD_some]
    exact Array.mem_toList_iff.mpr (Array.mem_of_getElem? hNode)

theorem outputNode?_eq_some {t : Nat} (h : f.outputNode? t = some r) :
    r.tree = t ∧ r.node ∈ (f.tree t).outputs.values := by
  have hPick {target : String} (hMap : ((f.tree t).outputs.get? target).map (NodeRef.mk t) = some r) :
      r.tree = t ∧ r.node ∈ (f.tree t).outputs.values := by
    obtain ⟨n, hGet, rfl⟩ := map_eq_some_iff.mp hMap
    exact ⟨rfl, mem_map_of_mem (Table.mem_of_lookup hGet)⟩
  simp only [outputNode?, orElse_eq_orElse, orElse_eq_or, or_eq_some_iff] at h
  obtain hEevee | ⟨-, hAll | ⟨-, hCycles⟩⟩ := h
  · exact hPick hEevee
  · exact hPick hAll
  · exact hPick hCycles

theorem Typed.surface (h : f.Typed) {t : Nat} (hOutput : f.outputNode? t = some r)
    (hSurface : f.inputNamed r "Surface" = .ok p) : p.tree = t ∧ (f.inputSocket p).kind = .shader := by
  obtain ⟨rfl, hNode⟩ := outputNode?_eq_some hOutput
  obtain ⟨hTree, -, hName, hMem⟩ := inputNamed_eq_ok hSurface
  refine ⟨hTree, ?_⟩
  unfold Forest.node at hMem
  unfold Forest.tree at hMem hNode
  cases hGet : f.trees[r.tree]? with
  | none =>
    rw [hGet] at hNode
    cases hNode
  | some t =>
    rw [hGet, getD_some] at hMem hNode
    cases hInner : t.nodes[r.node]? with
    | none =>
      rw [hInner] at hMem
      cases hMem
    | some n =>
      rw [hInner, getD_some] at hMem
      exact h.surfaces t (Array.mem_toList_iff.mpr (Array.mem_of_getElem? hGet)) r.node hNode n hInner _ hMem hName

end Forest

def nodeRefs (f : Forest) : List NodeRef :=
  f.trees.toList.zipIdx.flatMap fun x => (List.range x.1.nodes.size).map (NodeRef.mk x.2)

theorem mem_nodeRefs {f : Forest} {r : NodeRef} (h : (f.node r).kind ≠ "") : r ∈ nodeRefs f := by
  unfold Forest.node at h
  cases hTree : f.trees[r.tree]? with
  | none =>
    rw [Forest.tree, hTree] at h
    exact absurd rfl h
  | some t =>
    rw [Forest.tree, hTree, getD_some] at h
    have hNode : r.node < t.nodes.size := Nat.lt_of_not_le fun hOut => h (by rw [Array.getElem?_eq_none hOut]; rfl)
    refine mem_flatMap.mpr ⟨(t, r.tree), mem_zipIdx_iff_getElem?.mpr (by simpa using hTree), ?_⟩
    exact mem_map.mpr ⟨r.node, mem_range.mpr hNode, rfl⟩

end SceneExchange.Graph

namespace SceneExchange.Material.Handlers

open SceneExchange.Graph

theorem nextOutput_eq_ok {found next : Option Nat} {x : Node × Nat} (h : nextOutput found x = .ok next) :
    next = found ∨ next = some x.2 ∧ x.1.kind = "GROUP_OUTPUT" := by
  obtain ⟨n, i⟩ := x
  simp only [nextOutput] at h
  by_cases hKind : (n.kind == "GROUP_OUTPUT") = true
  · rw [if_pos hKind] at h
    split at h <;> cases h
    split
    · exact .inr ⟨rfl, eq_of_beq hKind⟩
    · exact .inl rfl
  · rw [if_neg hKind] at h
    cases h
    exact .inl rfl

theorem foldlM_nextOutput {l : List (Node × Nat)} {found : Option Nat} {i : Nat}
    (h : l.foldlM nextOutput found = .ok (some i)) :
    found = some i ∨ ∃ n, (n, i) ∈ l ∧ n.kind = "GROUP_OUTPUT" := by
  induction l generalizing found with
  | nil =>
    cases h
    exact .inl rfl
  | cons x l ih =>
    rw [foldlM_cons] at h
    obtain ⟨next, hNext, h⟩ := bind_eq_ok.mp h
    obtain rfl | ⟨n, hMem, hKind⟩ := ih h
    · obtain hFound | ⟨hIndex, hKind⟩ := nextOutput_eq_ok hNext
      · exact .inl hFound.symm
      · cases hIndex
        exact .inr ⟨x.1, mem_cons_self, hKind⟩
    · exact .inr ⟨n, mem_cons_of_mem x hMem, hKind⟩

theorem groupOutput_eq_some {nodes : List Node} {i : Nat} (h : groupOutput nodes = .ok (some i)) :
    ∃ n, nodes[i]? = some n ∧ n.kind = "GROUP_OUTPUT" := by
  obtain hNone | ⟨n, hMem, hKind⟩ := foldlM_nextOutput h
  · cases hNone
  · exact ⟨n, mem_zipIdx_iff_getElem?.mp hMem, hKind⟩

theorem groupTree_eq_ok {n : Node} {tree : Option Nat} (h : groupTree n.tree = .ok tree) : tree = n.innerTree? := by
  unfold Node.innerTree?
  cases hSlot : n.tree <;> rw [hSlot] at h <;> cases h <;> rfl

theorem inputIdentified?_eq_some {n : Node} {identifier : String} {j : Nat}
    (h : inputIdentified? n identifier = some j) :
    ∃ s, n.inputs[j]? = some s ∧ s.identifier = identifier := by
  obtain ⟨⟨s, j⟩, hFind, rfl⟩ := map_eq_some_iff.mp h
  have hMem := mem_reverse.mp (mem_of_find?_eq_some hFind)
  have hSame := find?_some hFind
  exact ⟨s, mem_zipIdx_iff_getElem?.mp hMem, eq_of_beq hSame⟩

end SceneExchange.Material.Handlers

namespace SceneExchange.Graph.Forest.Typed

open SceneExchange.Material

variable {f : Forest} (h : f.Typed) {out : SocketRef}
include h

theorem inner_kind (hKind : (f.node (nodeOf out)).kind = "GROUP") {t i j : Nat}
    (hTree : (f.node (nodeOf out)).innerTree? = some t)
    (hFound : Handlers.groupOutput (f.tree t).nodes.toList = .ok (some i))
    (hInput : Handlers.inputIdentified? (f.node ⟨t, i⟩) (f.outputSocket out).identifier = some j)
    (hOut : (f.outputSocket out).kind = .shader) : (f.inputSocket ⟨t, i, j⟩).kind = .shader := by
  obtain ⟨inner, hInner, hInnerKind⟩ := Handlers.groupOutput_eq_some hFound
  have hNode : f.node ⟨t, i⟩ = inner := by
    rw [Forest.node, ← Array.getElem?_toList, hInner, getD_some]
  rw [hNode] at hInput
  obtain ⟨s, hSocket, hIdentifier⟩ := Handlers.inputIdentified?_eq_some hInput
  rw [Forest.inputSocket, hNode, hSocket, getD_some]
  exact (h.node (nodeOf out)).groupOutputs hKind t hTree _ (outputSocket_mem hOut) hOut inner
    (mem_of_getElem? hInner) hInnerKind s (mem_of_getElem? hSocket) hIdentifier

end SceneExchange.Graph.Forest.Typed
