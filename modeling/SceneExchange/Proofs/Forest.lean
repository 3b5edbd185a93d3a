import SceneExchange.Proofs.Charting
import Mathlib.Data.List.Perm.Subperm

/-!
# The forest of actors

Every actor hangs in one place, so the ways up from it are one way. The actors that are written are
those from which this way ends at the top, each of them once.
-/

namespace SceneExchange.Scene

open Walking List Actor Outline

/-! ## Ways up -/

namespace Outline

inductive Trail (o : Outline) : Nat → List Nat → Prop
  | root {n : Nat} (isRoot : n ∈ o.roots) : Trail o n [n]
  | child {m n : Nat} {way : List Nat} (isChild : n ∈ o.childrenOf m) (above : Trail o m way) : Trail o n (n :: way)

structure Hung (o : Outline) : Prop where
  roots_lt : ∀ n ∈ o.roots, n < o.nodes.length
  children_lt : ∀ m, ∀ n ∈ o.childrenOf m, n < o.nodes.length
  nodup_roots : o.roots.Nodup
  nodup_children : ∀ m, (o.childrenOf m).Nodup
  one_parent : ∀ {m m' n : Nat}, n ∈ o.childrenOf m → n ∈ o.childrenOf m' → m = m'
  top : ∀ {m n : Nat}, n ∈ o.roots → n ∉ o.childrenOf m

namespace Trail

variable {o : Outline} {n : Nat} {way way' : List Nat}

theorem unique (hHung : o.Hung) (h : Trail o n way) (h' : Trail o n way') : way = way' := by
  induction h generalizing way' with
  | root isRoot =>
    cases h' with
    | root => rfl
    | child isChild => exact absurd isChild (hHung.top isRoot)
  | child isChild above ih =>
    cases h' with
    | root isRoot => exact absurd isChild (hHung.top isRoot)
    | child isChild' above' =>
      obtain rfl := hHung.one_parent isChild isChild'
      rw [ih above']

theorem of_mem (h : Trail o n way) {m : Nat} (hm : m ∈ way) : ∃ rest, Trail o m rest ∧ rest <:+ way := by
  induction h with
  | root isRoot =>
    obtain rfl := mem_singleton.mp hm
    exact ⟨_, .root isRoot, suffix_rfl⟩
  | child isChild above ih =>
    obtain rfl | hm := mem_cons.mp hm
    · exact ⟨_, .child isChild above, suffix_rfl⟩
    · obtain ⟨rest, hRest, hSuffix⟩ := ih hm
      exact ⟨rest, hRest, hSuffix.trans (suffix_cons _ _)⟩

theorem nodup (hHung : o.Hung) (h : Trail o n way) : way.Nodup := by
  induction h with
  | root => exact nodup_singleton _
  | @child m n way isChild above ih =>
    refine nodup_cons.mpr ⟨fun hMem => ?_, ih⟩
    -- An actor above itself would have a second way up, which is shorter.
    obtain ⟨rest, hRest, hSuffix⟩ := above.of_mem hMem
    have hEq := hRest.unique hHung (.child isChild above)
    have hLength := hSuffix.length_le
    rw [hEq, length_cons] at hLength
    omega

theorem lt (hHung : o.Hung) (h : Trail o n way) : n < o.nodes.length := by
  cases h with
  | root isRoot => exact hHung.roots_lt _ isRoot
  | child isChild => exact hHung.children_lt _ _ isChild

theorem length_le (hHung : o.Hung) (h : Trail o n way) : way.length ≤ o.nodes.length := by
  have hSubset : way ⊆ List.range o.nodes.length := by
    intro m hm
    obtain ⟨rest, hRest, -⟩ := h.of_mem hm
    exact mem_range.mpr (hRest.lt hHung)
  have hLength := ((h.nodup hHung).subperm hSubset).length_le
  rwa [length_range] at hLength

end Trail

/-! ## The actors below -/

def spread (o : Outline) : Nat → Nat → List Nat
  | 0, _ => []
  | fuel + 1, n => n :: (o.childrenOf n).flatMap (o.spread fuel)

def written (o : Outline) : List Nat := o.roots.flatMap (o.spread (o.nodes.length + 1))

section Spread

variable {o : Outline} {n : Nat} {way : List Nat}

theorem trail_of_mem_spread (fuel : Nat) (h : Trail o n way) {m : Nat} (hm : m ∈ o.spread fuel n) :
    ∃ down, Trail o m (down ++ way) := by
  induction fuel generalizing n way with
  | zero => simp [spread] at hm
  | succ fuel ih =>
    obtain rfl | hm := mem_cons.mp hm
    · exact ⟨[], h⟩
    · obtain ⟨c, hc, hm⟩ := mem_flatMap.mp hm
      obtain ⟨down, hDown⟩ := ih (.child hc h) hm
      exact ⟨down ++ [c], by simpa using hDown⟩

theorem eq_of_mem_spread (hHung : o.Hung) {c c' : Nat} {above : List Nat} (fuel : Nat) (hc : Trail o c (c :: above))
    (hc' : Trail o c' (c' :: above)) {m : Nat} (hm : m ∈ o.spread fuel c) (hm' : m ∈ o.spread fuel c') : c = c' := by
  obtain ⟨down, hDown⟩ := trail_of_mem_spread fuel hc hm
  obtain ⟨down', hDown'⟩ := trail_of_mem_spread fuel hc' hm'
  have hEq := hDown.unique hHung hDown'
  have hLength : down.length = down'.length := by
    have := congrArg List.length hEq
    simp only [length_append, length_cons] at this
    omega
  obtain ⟨-, hTail⟩ := append_inj hEq hLength
  exact (List.cons.inj hTail).1

theorem nodup_flatMap_spread (hHung : o.Hung) (fuel : Nat) {above siblings : List Nat} (hNodup : siblings.Nodup)
    (hTrails : ∀ c ∈ siblings, Trail o c (c :: above)) (hEach : ∀ c ∈ siblings, (o.spread fuel c).Nodup) :
    (siblings.flatMap (o.spread fuel)).Nodup := by
  refine nodup_flatMap.mpr ⟨hEach, hNodup.imp_of_mem ?_⟩
  intro c c' hc hc' hNe m hm hm'
  exact hNe (eq_of_mem_spread hHung fuel (hTrails c hc) (hTrails c' hc') hm hm')

theorem nodup_spread (hHung : o.Hung) (fuel : Nat) (h : Trail o n way) : (o.spread fuel n).Nodup := by
  induction fuel generalizing n way with
  | zero => exact nodup_nil
  | succ fuel ih =>
    refine nodup_cons.mpr ⟨fun hMem => ?_, ?_⟩
    · obtain ⟨c, hc, hMem⟩ := mem_flatMap.mp hMem
      obtain ⟨down, hDown⟩ := trail_of_mem_spread fuel (.child hc h) hMem
      have hLength := congrArg List.length (h.unique hHung hDown)
      simp only [length_append, length_cons] at hLength
      omega
    · exact nodup_flatMap_spread hHung fuel (hHung.nodup_children n) (fun c hc => .child hc h) fun c hc =>
        ih (.child hc h)

theorem nodup_written (hHung : o.Hung) : o.written.Nodup :=
  nodup_flatMap_spread hHung _ hHung.nodup_roots (fun _ hn => .root hn) fun _ hn => nodup_spread hHung _ (.root hn)

theorem mem_flatMap_roots (h : Trail o n way) {m : Nat} (fuel : Nat) (hm : m ∈ o.spread fuel n) :
    m ∈ o.roots.flatMap (o.spread (fuel + way.length - 1)) := by
  induction h generalizing fuel with
  | root isRoot => exact mem_flatMap.mpr ⟨_, isRoot, hm⟩
  | @child p n way isChild above ih =>
    have hUp : m ∈ o.spread (fuel + 1) p := mem_cons_of_mem _ (mem_flatMap.mpr ⟨n, isChild, hm⟩)
    have hFuel : fuel + (n :: way).length - 1 = fuel + 1 + way.length - 1 := by
      rw [length_cons]
      omega
    rw [hFuel]
    exact ih (fuel + 1) hUp

theorem mem_written (hHung : o.Hung) : n ∈ o.written ↔ ∃ way, Trail o n way := by
  constructor
  · intro hn
    obtain ⟨r, hr, hn⟩ := mem_flatMap.mp hn
    obtain ⟨down, hDown⟩ := trail_of_mem_spread _ (.root hr) hn
    exact ⟨_, hDown⟩
  · rintro ⟨way, h⟩
    have hLength := h.length_le hHung
    have hHere : n ∈ o.spread (o.nodes.length + 2 - way.length) n := by
      obtain ⟨fuel, hFuel⟩ := Nat.exists_eq_succ_of_ne_zero (n := o.nodes.length + 2 - way.length) (by omega)
      rw [hFuel]
      exact mem_cons_self
    have hFuel : o.nodes.length + 2 - way.length + way.length - 1 = o.nodes.length + 1 := by omega
    have hMem := mem_flatMap_roots h _ hHere
    rwa [hFuel] at hMem

end Spread

end Outline

theorem Charts.hung {s : Scene} {bs : List Bearer} {o : Outline} (h : Charts s [] bs o) : o.Hung where
  roots_lt n hn := by
    obtain ⟨-, b, hb, -⟩ := h.roots.mp hn
    rw [← h.length_eq]
    exact Charts.lt_of_getElem? hb
  children_lt m n hn := by
    obtain ⟨-, b, p, hb, -⟩ := h.children.mp hn
    rw [← h.length_eq]
    exact Charts.lt_of_getElem? hb
  nodup_roots := h.nodup_roots
  nodup_children := h.nodup_children
  one_parent {m m' n} hm hm' := by
    obtain ⟨-, b, p, hb, hp, hActor⟩ := h.children.mp hm
    obtain ⟨-, b', p', hb', hp', hActor'⟩ := h.children.mp hm'
    obtain rfl : b = b' := Option.some.inj (hb.symm.trans hb')
    obtain rfl : p = p' := Option.some.inj (hp.symm.trans hp')
    exact Option.some.inj (hActor.symm.trans hActor')
  top {m n} hn hm := by
    obtain ⟨-, b, hb, hNone⟩ := h.roots.mp hn
    obtain ⟨-, b', p, hb', hp, -⟩ := h.children.mp hm
    obtain rfl : b = b' := Option.some.inj (hb.symm.trans hb')
    rw [hNone] at hp
    cases hp

/-! ## The text -/

namespace Actor

/-- A part of the text of actors: an opening tag, or what stands between such tags. -/
inductive Piece where
  | opening (indent : String) (head : ActorHead)
  | rest (text : String)

namespace Piece

def text : Piece → String
  | .opening indent h => openTag indent (h.kind.getD plainTag) h.name h.layer ++ String.join h.attributes ++ ">\n"
  | .rest text => text

def head? : Piece → Option ActorHead
  | .opening _ h => some h
  | .rest _ => none

end Piece

mutual

def pieces (indent : String) : Actor → List Piece
  | .mk h children =>
    let isLeaf := children.isEmpty && h.instances.isEmpty
    let front := indented indent h.fields ++ indent ++ h.transform ++ if isLeaf then "" else indent ++ "\t<children>\n"
    let back := (if isLeaf then ""
        else allInstancesText indent h.name h.transform h.instances ++ indent ++ "\t</children>\n") ++
      indent ++ "</" ++ h.kind.getD plainTag ++ ">\n"
    .opening indent h :: .rest front :: (piecesAll (indent ++ "\t\t") children ++ [.rest back])

def piecesAll (indent : String) : List Actor → List Piece
  | [] => []
  | a :: rest => pieces indent a ++ piecesAll indent rest

end

mutual

theorem join_pieces (indent : String) (a : Actor) : String.join ((pieces indent a).map Piece.text) = render indent a :=
  match a with
  | .mk h children => by
    have hChildren := join_piecesAll (indent ++ "\t\t") children
    simp only [pieces, render, map_cons, map_append, map_nil, String.join_cons, String.join_append,
      String.join_nil, Piece.text, hChildren, String.append_empty]
    split
    · rename_i hLeaf
      obtain ⟨hNone, -⟩ := Bool.and_eq_true_iff.mp hLeaf
      rw [List.isEmpty_iff.mp hNone]
      simp [renderAll, String.append_assoc]
    · simp [String.append_assoc]

theorem join_piecesAll (indent : String) (l : List Actor) :
    String.join ((piecesAll indent l).map Piece.text) = renderAll indent l :=
  match l with
  | [] => rfl
  | a :: rest => by
    have hFirst := join_pieces indent a
    have hRest := join_piecesAll indent rest
    rw [piecesAll, renderAll, map_append, String.join_append, hFirst, hRest]

end

def tagged (ps : List Piece) : List ActorHead := ps.filterMap Piece.head?

theorem tagged_piecesAll (indent : String) (l : List Actor) :
    tagged (piecesAll indent l) = l.flatMap fun a => tagged (pieces indent a) := by
  induction l with
  | nil => rfl
  | cons a l ih =>
    rw [flatMap_cons, ← ih]
    exact filterMap_append

theorem tagged_pieces (indent : String) (h : ActorHead) (children : List Actor) :
    tagged (pieces indent (.mk h children)) = h :: children.flatMap fun a => tagged (pieces (indent ++ "\t\t") a) := by
  rw [← tagged_piecesAll]
  simp [pieces, tagged, filterMap_cons, Piece.head?]

end Actor

namespace Walk

def headAt (w : Walk) (n : Nat) : ActorHead := (w.drafts[n]?.getD default).head

def childrenAt (w : Walk) (n : Nat) : List Nat := (w.drafts[n]?.getD default).children.toList

theorem childrenOf_outline (w : Walk) (n : Nat) : w.outline.childrenOf n = w.childrenAt n := by
  unfold childrenAt
  cases h : w.drafts[n]? with
  | none =>
    simp [childrenOf, outline, h]
    rfl
  | some d => simp [childrenOf, outline, h, ActorDraft.node]

theorem name_headAt (w : Walk) {n : Nat} {x : Outline.Node} (h : w.outline.nodes[n]? = some x) :
    (w.headAt n).name = x.name := by
  simp only [outline, getElem?_map, Option.map_eq_some_iff, Array.getElem?_toList] at h
  obtain ⟨d, hd, rfl⟩ := h
  simp [headAt, hd, ActorDraft.node]

theorem tagged_actorAt (w : Walk) (hHung : w.outline.Hung) (fuel : Nat) {n : Nat} {way : List Nat} (indent : String)
    (h : w.outline.Trail n way) (hFuel : way.length + fuel = w.outline.nodes.length + 2) :
    tagged (pieces indent (w.actorAt fuel n)) = (w.outline.spread fuel n).map w.headAt := by
  induction fuel generalizing n way indent with
  | zero =>
    have := h.length_le hHung
    omega
  | succ fuel ih =>
    have hBelow : ∀ c ∈ w.outline.childrenOf n, tagged (pieces (indent ++ "\t\t") (w.actorAt fuel c)) =
        (w.outline.spread fuel c).map w.headAt := by
      intro c hc
      refine ih _ (.child hc h) ?_
      rw [length_cons]
      omega
    rw [childrenOf_outline] at hBelow
    rw [actorAt, spread, tagged_pieces, flatMap_map, map_cons, map_flatMap, childrenOf_outline]
    exact congrArg (List.cons _) (flatMap_congr hBelow)

theorem tagged_text (w : Walk) (hHung : w.outline.Hung) :
    tagged (piecesAll "\t" w.actors) = w.outline.written.map w.headAt := by
  have hSize : w.drafts.size = w.outline.nodes.length := by simp [outline]
  rw [tagged_piecesAll, actors, flatMap_map, written, map_flatMap, hSize]
  apply flatMap_congr
  intro n hn
  exact w.tagged_actorAt hHung _ _ (.root hn) (by simp; omega)

end Walk

end SceneExchange.Scene
