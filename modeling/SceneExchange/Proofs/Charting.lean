import SceneExchange.Proofs.Walking
import SceneExchange.Proofs.Lists
import Mathlib.Data.List.Nodup

/-!
# Whom the actors stand for

Every actor of a walk stands for one object or one instance. It hangs below the actor that is found
under the name of its holder, or at the top if it has none, and it hangs there once. An actor that
was made but is not hung up yet waits.
-/

open List

namespace SceneExchange.Scene

open Outline Table

namespace Outline

def childrenOf (o : Outline) (m : Nat) : List Nat := (o.nodes[m]?.map Node.children).getD []

def actor? (o : Outline) (s : Scene) (i : Nat) : Option Nat := (s.label (.object i)).toOption.bind o.named.get?

theorem actor?_eq_some {o : Outline} {s : Scene} {i n : Nat} :
    o.actor? s i = some n ↔ ∃ name, s.label (.object i) = .ok name ∧ o.named.get? name = some n := by
  unfold actor?
  cases s.label (.object i) with
  | error e => simp [Except.toOption]
  | ok name => simp [Except.toOption]

section Enter

variable {o : Outline} {b : Bearer} {name : String} (hNew : ∀ i, b = .object i → o.named.get? name = none)

include hNew

theorem named_enter {other : String} {n : Nat} (h : o.named.get? other = some n) :
    (o.enter b name).named.get? other = some n := by
  cases b with
  | copy k => exact h
  | object i =>
    have hNe : other ≠ name := by
      rintro rfl
      rw [hNew i rfl] at h
      cases h
    exact (get?_insert_of_ne o.named hNe _).trans h

theorem actor?_enter {s : Scene} {i n : Nat} (h : o.actor? s i = some n) : (o.enter b name).actor? s i = some n := by
  obtain ⟨other, hLabel, hGet⟩ := actor?_eq_some.mp h
  exact actor?_eq_some.mpr ⟨other, hLabel, named_enter hNew hGet⟩

end Enter

theorem childrenOf_enter (o : Outline) (b : Bearer) (name : String) (m : Nat) :
    (o.enter b name).childrenOf m = o.childrenOf m := by
  unfold childrenOf enter
  by_cases h : m < o.nodes.length
  · simp [getElem?_append_left h]
  · have hOut : o.nodes[m]? = none := getElem?_eq_none (by omega)
    rw [getElem?_append_right (by omega), hOut]
    cases m - o.nodes.length <;> simp

theorem childrenOf_adopt {o : Outline} {m : Nat} (hm : m < o.nodes.length) (n m' : Nat) :
    (o.adopt m n).childrenOf m' = if m' = m then o.childrenOf m ++ [n] else o.childrenOf m' := by
  unfold childrenOf adopt
  rw [getElem?_modify]
  by_cases h : m' = m
  · subst h
    simp [getElem?_eq_getElem hm]
  · simp [h, Ne.symm h]

theorem getElem?_listing (o : Outline) (n : Nat) (mesh : String) (ps : List Placed) (m : Nat) :
    (o.listing n mesh ps).nodes[m]? =
      o.nodes[m]?.map fun x => if n = m then { x with instances := x.instances.insert mesh ps } else x := by
  rw [listing, getElem?_modify]
  rfl

end Outline

structure Charts (s : Scene) (waiting : List Nat) (bs : List Bearer) (o : Outline) : Prop where
  length_eq : bs.length = o.nodes.length
  waits : ∀ n ∈ waiting, n < bs.length
  label : ∀ {n : Nat} {b : Bearer}, bs[n]? = some b → ∃ x, o.nodes[n]? = some x ∧ s.label b = .ok x.name
  named : ∀ {name : String} {n : Nat}, o.named.get? name = some n ↔
    ∃ i, bs[n]? = some (.object i) ∧ s.label (.object i) = .ok name
  copies : ∀ {k m n : Nat}, bs[m]? = some (.copy k) → bs[n]? = some (.copy k) → m = n
  held : ∀ {n : Nat} {b : Bearer} {p : Nat}, bs[n]? = some b → n ∉ waiting → s.holder b = some p →
    ∃ m, o.actor? s p = some m
  roots : ∀ {n : Nat}, n ∈ o.roots ↔ n ∉ waiting ∧ ∃ b, bs[n]? = some b ∧ s.holder b = none
  children : ∀ {m n : Nat}, n ∈ o.childrenOf m ↔
    n ∉ waiting ∧ ∃ b p, bs[n]? = some b ∧ s.holder b = some p ∧ o.actor? s p = some m
  nodup_roots : o.roots.Nodup
  nodup_children : ∀ m, (o.childrenOf m).Nodup

namespace Charts

variable {s : Scene} {waiting : List Nat} {bs : List Bearer} {o : Outline} {b : Bearer} {name : String} {m n p : Nat}

theorem empty (s : Scene) : Charts s [] [] ⟨[], .empty, []⟩ where
  length_eq := rfl
  waits := by simp
  label := by simp
  named := by simp [Table.get?, Table.empty]
  copies := by simp
  held := by simp
  roots := by simp
  children := by simp [Outline.childrenOf]
  nodup_roots := nodup_nil
  nodup_children := by simp [Outline.childrenOf]

theorem lt_of_getElem? (hn : bs[n]? = some b) : n < bs.length := by
  obtain ⟨h, -⟩ := List.getElem?_eq_some_iff.mp hn
  exact h

theorem place_lt (h : Charts s waiting bs o) (hm : o.actor? s p = some m) : m < o.nodes.length := by
  obtain ⟨name, -, hGet⟩ := actor?_eq_some.mp hm
  obtain ⟨i, hBearer, -⟩ := h.named.mp hGet
  rw [← h.length_eq]
  exact lt_of_getElem? hBearer

theorem enter (h : Charts s waiting bs o) (hLabel : s.label b = .ok name)
    (hNew : ∀ i, b = .object i → o.named.get? name = none) (hCopy : ∀ k, b = .copy k → b ∉ bs) :
    Charts s (bs.length :: waiting) (bs ++ [b]) (o.enter b name) := by
  have hWaiting {n : Nat} (hn : n ∉ bs.length :: waiting) : n ≠ bs.length ∧ n ∉ waiting := by simpa using hn
  constructor
  · simp [Outline.enter, h.length_eq]
  · intro n hn
    rw [length_append, length_singleton]
    obtain rfl | hn := mem_cons.mp hn
    · omega
    · have := h.waits n hn
      omega
  · intro n c hc
    obtain hc | ⟨rfl, rfl⟩ := getElem?_concat.mp hc
    · obtain ⟨x, hx, hName⟩ := h.label hc
      have hLt := lt_of_getElem? hc
      rw [h.length_eq] at hLt
      exact ⟨x, (getElem?_append_left hLt).trans hx, hName⟩
    · refine ⟨⟨name, .empty, []⟩, ?_, hLabel⟩
      simp [Outline.enter, h.length_eq]
  · intro other n
    constructor
    · intro hGet
      cases b with
      | copy k =>
        obtain ⟨i, hi, hName⟩ := h.named.mp hGet
        exact ⟨i, getElem?_concat.mpr (.inl hi), hName⟩
      | object j =>
        by_cases hSame : other = name
        · subst hSame
          have hPlace : some o.nodes.length = some n := (get?_insert_self o.named other _).symm.trans hGet
          refine ⟨j, getElem?_concat.mpr (.inr ⟨?_, rfl⟩), hLabel⟩
          rw [h.length_eq, Option.some.inj hPlace]
        · obtain ⟨i, hi, hName⟩ := h.named.mp ((get?_insert_of_ne o.named hSame _).symm.trans hGet)
          exact ⟨i, getElem?_concat.mpr (.inl hi), hName⟩
    · rintro ⟨i, hi, hName⟩
      obtain hi | ⟨rfl, rfl⟩ := getElem?_concat.mp hi
      · exact named_enter hNew (h.named.mpr ⟨i, hi, hName⟩)
      · obtain rfl : name = other := by
          rw [hLabel] at hName
          exact Except.ok.inj hName
        rw [h.length_eq]
        exact get?_insert_self o.named name _
  · intro k m n hm hn
    obtain hm | ⟨rfl, rfl⟩ := getElem?_concat.mp hm <;> obtain hn | ⟨rfl, hb⟩ := getElem?_concat.mp hn
    · exact h.copies hm hn
    · exact absurd (mem_of_getElem? hm) (hb ▸ hCopy k hb.symm)
    · exact absurd (mem_of_getElem? hn) (hCopy k rfl)
    · rfl
  · intro n c p hc hn hHolder
    obtain hc | ⟨rfl, -⟩ := getElem?_concat.mp hc
    · obtain ⟨m, hm⟩ := h.held hc (hWaiting hn).2 hHolder
      exact ⟨m, actor?_enter hNew hm⟩
    · exact absurd rfl (hWaiting hn).1
  · intro n
    change n ∈ o.roots ↔ _
    rw [h.roots]
    constructor
    · rintro ⟨hn, c, hc, hHolder⟩
      have := lt_of_getElem? hc
      exact ⟨by simp [hn]; omega, c, getElem?_concat.mpr (.inl hc), hHolder⟩
    · rintro ⟨hn, c, hc, hHolder⟩
      obtain hc | ⟨rfl, -⟩ := getElem?_concat.mp hc
      · exact ⟨(hWaiting hn).2, c, hc, hHolder⟩
      · exact absurd rfl (hWaiting hn).1
  · intro m n
    rw [childrenOf_enter, h.children]
    constructor
    · rintro ⟨hn, c, p, hc, hHolder, hm⟩
      have := lt_of_getElem? hc
      exact ⟨by simp [hn]; omega, c, p, getElem?_concat.mpr (.inl hc), hHolder, actor?_enter hNew hm⟩
    · rintro ⟨hn, c, p, hc, hHolder, hm⟩
      obtain hc | ⟨rfl, -⟩ := getElem?_concat.mp hc
      · -- The holder was there before, so it is found where it was.
        obtain ⟨m', hm'⟩ := h.held hc (hWaiting hn).2 hHolder
        obtain rfl : m' = m := Option.some.inj ((actor?_enter hNew hm').symm.trans hm)
        exact ⟨(hWaiting hn).2, c, p, hc, hHolder, hm'⟩
      · exact absurd rfl (hWaiting hn).1
  · exact h.nodup_roots
  · intro m
    rw [childrenOf_enter]
    exact h.nodup_children m

theorem addRoot (h : Charts s (n :: waiting) bs o) (hn : n ∉ waiting) (hb : bs[n]? = some b)
    (hHolder : s.holder b = none) : Charts s waiting bs (o.addRoot n) := by
  have hSame {c : Bearer} (hc : bs[n]? = some c) : s.holder c = none := by
    rw [hb] at hc
    cases hc
    exact hHolder
  constructor
  · exact h.length_eq
  · exact fun m hm => h.waits m (mem_cons_of_mem n hm)
  · exact h.label
  · exact h.named
  · exact h.copies
  · intro m c p hc hm hp
    refine h.held hc ?_ hp
    rintro (_ | ⟨_, hWaits⟩)
    · rw [hSame hc] at hp
      cases hp
    · exact hm hWaits
  · intro m
    by_cases hm : m = n
    · subst hm
      simp [Outline.addRoot, hn, hb, hHolder]
    · simp [Outline.addRoot, hm, h.roots]
  · intro m m'
    change m' ∈ o.childrenOf m ↔ _
    rw [h.children]
    constructor
    · rintro ⟨hm, hRest⟩
      exact ⟨fun hWaits => hm (mem_cons_of_mem n hWaits), hRest⟩
    · rintro ⟨hm, c, p, hc, hp, hActor⟩
      refine ⟨?_, c, p, hc, hp, hActor⟩
      rintro (_ | ⟨_, hWaits⟩)
      · rw [hSame hc] at hp
        cases hp
      · exact hm hWaits
  · have hFresh : n ∉ o.roots := fun hRoot => (h.roots.mp hRoot).1 mem_cons_self
    exact h.nodup_roots.append (nodup_singleton n) (by simpa using hFresh)
  · exact h.nodup_children

theorem adopt (h : Charts s (n :: waiting) bs o) (hn : n ∉ waiting) (hb : bs[n]? = some b)
    (hHolder : s.holder b = some p) (hActor : o.actor? s p = some m) : Charts s waiting bs (o.adopt m n) := by
  have hSame {c : Bearer} (hc : bs[n]? = some c) : s.holder c = some p := by
    rw [hb] at hc
    cases hc
    exact hHolder
  have hm := h.place_lt hActor
  constructor
  · rw [h.length_eq]
    simp [Outline.adopt]
  · exact fun m hm => h.waits m (mem_cons_of_mem n hm)
  · intro m' c hc
    obtain ⟨x, hx, hName⟩ := h.label hc
    by_cases hPlace : m = m'
    · exact ⟨{ x with children := x.children ++ [n] }, by simp [Outline.adopt, hPlace, hx], hName⟩
    · exact ⟨x, by simp [Outline.adopt, hPlace, hx], hName⟩
  · exact h.named
  · exact h.copies
  · intro m' c p' hc hm' hp
    by_cases hNew : m' = n
    · subst hNew
      obtain rfl : p = p' := Option.some.inj ((hSame hc).symm.trans hp)
      exact ⟨m, hActor⟩
    · exact h.held hc (by simp [hNew, hm']) hp
  · intro m'
    change m' ∈ o.roots ↔ _
    rw [h.roots]
    constructor
    · rintro ⟨hm', hRest⟩
      exact ⟨fun hWaits => hm' (mem_cons_of_mem n hWaits), hRest⟩
    · rintro ⟨hm', c, hc, hNone⟩
      refine ⟨?_, c, hc, hNone⟩
      rintro (_ | ⟨_, hWaits⟩)
      · rw [hSame hc] at hNone
        cases hNone
      · exact hm' hWaits
  · intro m' n'
    have hOld : n' ≠ n → (n' ∈ o.childrenOf m' ↔
        n' ∉ waiting ∧ ∃ b p, bs[n']? = some b ∧ s.holder b = some p ∧ o.actor? s p = some m') := by
      intro hNew
      rw [h.children]
      simp [hNew]
    change _ ↔ n' ∉ waiting ∧ ∃ b p, bs[n']? = some b ∧ s.holder b = some p ∧ o.actor? s p = some m'
    rw [childrenOf_adopt hm]
    by_cases hNew : n' = n
    · subst hNew
      have hAbsent : n' ∉ o.childrenOf m' := fun hChild => (h.children.mp hChild).1 mem_cons_self
      by_cases hPlace : m' = m
      · subst hPlace
        simpa [hn] using ⟨b, hb, p, hHolder, hActor⟩
      · rw [if_neg hPlace]
        refine iff_of_false hAbsent ?_
        rintro ⟨-, c, p', hc, hp, hFound⟩
        obtain rfl : p = p' := Option.some.inj ((hSame hc).symm.trans hp)
        exact hPlace (Option.some.inj (hFound.symm.trans hActor))
    · rw [← hOld hNew]
      split
      · rename_i hPlace
        simp [hPlace, hNew]
      · rfl
  · exact h.nodup_roots
  · intro m'
    rw [childrenOf_adopt hm]
    split
    · have hFresh : n ∉ o.childrenOf m := fun hChild => (h.children.mp hChild).1 mem_cons_self
      exact (h.nodup_children m).append (nodup_singleton n) (by simpa using hFresh)
    · exact h.nodup_children m'

theorem addInstance (h : Charts s waiting bs o) (n : Nat) (mesh : String) (placed : Placed) :
    Charts s waiting bs (o.addInstance n mesh placed) := by
  have hChildren (m : Nat) : (o.addInstance n mesh placed).childrenOf m = o.childrenOf m := by
    unfold Outline.childrenOf Outline.addInstance
    rw [Outline.getElem?_listing]
    cases o.nodes[m]? with
    | none => rfl
    | some x => by_cases hm : n = m <;> simp [hm]
  constructor
  · rw [h.length_eq]
    simp [Outline.addInstance, Outline.listing]
  · exact h.waits
  · intro m c hc
    obtain ⟨x, hx, hName⟩ := h.label hc
    by_cases hm : n = m
    · refine ⟨{ x with instances := x.instances.insert mesh (o.listed n mesh ++ [placed]) }, ?_, hName⟩
      simp [Outline.addInstance, Outline.getElem?_listing, hx, hm]
    · exact ⟨x, by simp [Outline.addInstance, Outline.getElem?_listing, hx, hm], hName⟩
  · exact h.named
  · exact h.copies
  · exact h.held
  · exact h.roots
  · intro m m'
    rw [hChildren]
    exact h.children
  · exact h.nodup_roots
  · intro m
    rw [hChildren]
    exact h.nodup_children m

end Charts

/-! ## Finding an actor -/

namespace Outline

theorem listed_enter (o : Outline) (b : Bearer) (name : String) (m : Nat) (mesh : String) :
    (o.enter b name).listed m mesh = o.listed m mesh := by
  unfold listed enter
  by_cases h : m < o.nodes.length
  · simp [getElem?_append_left h]
  · have hOut : o.nodes[m]? = none := getElem?_eq_none (by omega)
    rw [getElem?_append_right (by omega), hOut]
    cases m - o.nodes.length <;> simp [Table.get?, Table.empty]

theorem listed_adopt (o : Outline) (m' n m : Nat) (mesh : String) : (o.adopt m' n).listed m mesh = o.listed m mesh := by
  unfold listed adopt
  rw [getElem?_modify]
  cases o.nodes[m]? with
  | none => rfl
  | some x => by_cases h : m' = m <;> simp [h]

end Outline

inductive Climbs (s : Scene) (b : Bearer) : Bearer → Prop
  | self : Climbs s b b
  | up {c : Bearer} {p : Nat} (climbs : Climbs s b c) (holder : s.holder c = some p) : Climbs s b (.object p)

theorem Climbs.of_holder {s : Scene} {b c : Bearer} {p : Nat} (hHolder : s.holder b = some p)
    (h : Climbs s (.object p) c) : Climbs s b c := by
  induction h with
  | self => exact .up .self hHolder
  | up climbs holder ih => exact .up ih holder

def Stands (s : Scene) (bs : List Bearer) (o : Outline) (n : Nat) : Bearer → Prop
  | .object i => o.actor? s i = some n
  | .copy k => bs[n]? = some (.copy k)

theorem Charts.label_of_stands {s : Scene} {waiting : List Nat} {bs : List Bearer} {o : Outline} {n : Nat} {b : Bearer}
    (h : Charts s waiting bs o) (hStands : Stands s bs o n b) : ∃ x, o.nodes[n]? = some x ∧ s.label b = .ok x.name := by
  cases b with
  | copy k => exact h.label hStands
  | object i =>
    obtain ⟨name, hName, hGet⟩ := actor?_eq_some.mp hStands
    obtain ⟨j, hj, hSame⟩ := h.named.mp hGet
    obtain ⟨x, hx, hLabel⟩ := h.label hj
    exact ⟨x, hx, hName.trans (hSame.symm.trans hLabel)⟩

namespace Finds

variable {s : Scene} {b : Bearer} {o o' : Outline} {n : Nat}

theorem named (h : Finds s b o n o') {name : String} {m : Nat} (hGet : o.named.get? name = some m) :
    o'.named.get? name = some m := by
  induction h with
  | again => exact hGet
  | root label isNew => exact named_enter isNew hGet
  | child label isNew holder parent ih => exact ih (named_enter isNew hGet)

theorem actor? (h : Finds s b o n o') {i m : Nat} (hActor : o.actor? s i = some m) : o'.actor? s i = some m := by
  obtain ⟨name, hLabel, hGet⟩ := actor?_eq_some.mp hActor
  exact actor?_eq_some.mpr ⟨name, hLabel, h.named hGet⟩

theorem listed (h : Finds s b o n o') (m : Nat) (mesh : String) : o'.listed m mesh = o.listed m mesh := by
  induction h with
  | again => rfl
  | @root b name o => exact listed_enter o b name m mesh
  | child label isNew holder parent ih => rw [listed_adopt, ih, listed_enter]

theorem charts (h : Finds s b o n o') {waiting : List Nat} {bs : List Bearer} (hCharts : Charts s waiting bs o)
    (hCopy : ∀ k, b = .copy k → b ∉ bs) :
    ∃ more, Charts s waiting (bs ++ more) o' ∧ (∀ c ∈ more, Climbs s b c) ∧ Stands s (bs ++ more) o' n b := by
  induction h generalizing waiting bs with
  | again label found =>
    refine ⟨[], ?_, by simp, actor?_eq_some.mpr ⟨_, label, found⟩⟩
    rwa [append_nil]
  | @root b name o label isNew holder =>
    have hEntered := hCharts.enter label isNew hCopy
    have hPlace : o.nodes.length = bs.length := hCharts.length_eq.symm
    have hLast : (bs ++ [b])[bs.length]? = some b := by simp
    have hFresh : bs.length ∉ waiting := fun hWaits => Nat.lt_irrefl _ (hCharts.waits _ hWaits)
    refine ⟨[b], ?_, ?_, ?_⟩
    · rw [hPlace]
      exact hEntered.addRoot hFresh hLast holder
    · intro c hc
      obtain rfl := mem_singleton.mp hc
      exact .self
    · cases b with
      | copy k => rwa [hPlace]
      | object i => exact actor?_eq_some.mpr ⟨name, label, get?_insert_self ..⟩
  | @child b name o p m u label isNew holder parent ih =>
    have hEntered := hCharts.enter label isNew hCopy
    have hPlace : o.nodes.length = bs.length := hCharts.length_eq.symm
    have hLast : (bs ++ [b])[bs.length]? = some b := by simp
    have hFresh : bs.length ∉ waiting := fun hWaits => Nat.lt_irrefl _ (hCharts.waits _ hWaits)
    obtain ⟨more, hCharted, hClimbs, hParent⟩ := ih hEntered (by simp)
    have hKept : (bs ++ [b] ++ more)[bs.length]? = some b := by simp
    refine ⟨[b] ++ more, ?_, ?_, ?_⟩
    · rw [hPlace, ← append_assoc]
      exact hCharted.adopt hFresh hKept holder hParent
    · intro c hc
      obtain hc | hc := mem_append.mp hc
      · obtain rfl := mem_singleton.mp hc
        exact .self
      · exact .of_holder holder (hClimbs c hc)
    · cases b with
      | copy k =>
        rw [hPlace, ← append_assoc]
        exact hKept
      | object i => exact actor?_eq_some.mpr ⟨name, label, parent.named (get?_insert_self ..)⟩

end Finds

/-! ## Visiting -/

/-- The bearers that visits call for: those of the instances that are shown, the parents that instances are
listed with, and all that stand above these. -/
inductive Called (s : Scene) (done : List (Instance × Fate)) : Bearer → Prop
  | shown {k x : Nat} {i : Instance} (visit : done[k]? = some (i, .shown)) (object : i.object = some x) :
      Called s done (i.bearer k x)
  | host {k p : Nat} {i : Instance} {mesh : String} (visit : done[k]? = some (i, .listed mesh))
      (parent : i.parent = some p) : Called s done (.object p)
  | above {b : Bearer} {p : Nat} (called : Called s done b) (holder : s.holder b = some p) :
      Called s done (.object p)

namespace Called

variable {s : Scene} {done more : List (Instance × Fate)} {b c : Bearer}

theorem mono (h : Called s done b) : Called s (done ++ more) b := by
  have hFront {k : Nat} {v : Instance × Fate} (hv : done[k]? = some v) : (done ++ more)[k]? = some v := by
    obtain ⟨hLt, -⟩ := List.getElem?_eq_some_iff.mp hv
    rw [getElem?_append_left hLt, hv]
  induction h with
  | shown visit object => exact .shown (hFront visit) object
  | host visit parent => exact .host (hFront visit) parent
  | above called holder ih => exact .above ih holder

theorem climbs (h : Called s done b) (hClimbs : Climbs s b c) : Called s done c := by
  induction hClimbs with
  | self => exact h
  | up climbs holder ih => exact .above ih holder

theorem copy_lt {k : Nat} (h : Called s done (.copy k)) : k < done.length := by
  generalize hb : Bearer.copy k = b at h
  cases h with
  | @shown k' x i visit object =>
    obtain ⟨hLt, -⟩ := List.getElem?_eq_some_iff.mp visit
    unfold Instance.bearer at hb
    split at hb
    · cases hb
      exact hLt
    · cases hb
  | host => cases hb
  | above => cases hb

end Called

/-- The instances among the visited that are listed with an actor under the name of a mesh. -/
def Outline.guests (o : Outline) (s : Scene) (done : List (Instance × Fate)) (m : Nat) (mesh : String) :
    List Instance :=
  (done.filter fun v => v.2 = .listed mesh ∧ v.1.parent.bind (o.actor? s) = some m).map Prod.fst

namespace Outline

theorem guests_concat (o : Outline) (s : Scene) (done : List (Instance × Fate)) (i : Instance) (f : Fate) (m : Nat)
    (mesh : String) : o.guests s (done ++ [(i, f)]) m mesh = o.guests s done m mesh ++
      if f = .listed mesh ∧ i.parent.bind (o.actor? s) = some m then [i] else [] := by
  unfold guests
  rw [filter_append, map_append]
  congr 1
  by_cases h : f = .listed mesh ∧ i.parent.bind (o.actor? s) = some m <;> simp [h]

theorem listed_addInstance {o : Outline} {n : Nat} (hn : n < o.nodes.length) (mesh : String) (p : Placed) (m : Nat)
    (mesh' : String) : (o.addInstance n mesh p).listed m mesh' =
      o.listed m mesh' ++ if m = n ∧ mesh' = mesh then [p] else [] := by
  by_cases hm : m = n
  · subst hm
    have hGet := getElem?_eq_getElem hn
    by_cases hMesh : mesh' = mesh
    · subst hMesh
      simp [listed, addInstance, getElem?_listing, hGet, get?_insert_self]
    · simp [listed, addInstance, getElem?_listing, hGet, hMesh, get?_insert_of_ne]
  · simp [listed, addInstance, getElem?_listing, hm, Ne.symm hm]

end Outline

/-- The texts that the instances of a mesh are listed with, and the materials of the first one. -/
inductive Lists (s : Scene) : List Instance → List Placed → Prop
  | nil : Lists s [] []
  | concat {is ps i p j} (lists : Lists s is ps) (shows : s.Shows i p) (grouper : s.grouper i = some j)
      (furnishes : s.Furnishes j ps p.materials) : Lists s (is ++ [i]) (ps ++ [p])

theorem Lists.shows {s : Scene} {is : List Instance} {ps : List Placed} (h : Lists s is ps) :
    Forall₂ s.Shows is ps := by
  induction h with
  | nil => exact .nil
  | concat _ shows _ _ ih => exact rel_append ih (.cons shows .nil)

structure Kept (s : Scene) (done : List (Instance × Fate)) (bs : List Bearer) (o : Outline) : Prop where
  charts : Charts s [] bs o
  called : ∀ b ∈ bs, Called s done b
  shown : ∀ {k x : Nat} {i : Instance}, done[k]? = some (i, .shown) → i.object = some x →
    ∃ n, Stands s bs o n (i.bearer k x)
  hosts : ∀ {k : Nat} {i : Instance} {mesh : String}, done[k]? = some (i, .listed mesh) →
    ∃ p n, i.parent = some p ∧ o.actor? s p = some n
  lists : ∀ m mesh, Lists s (o.guests s done m mesh) (o.listed m mesh)

namespace Kept

variable {s : Scene} {done : List (Instance × Fate)} {bs : List Bearer} {o o' : Outline} {b : Bearer} {n : Nat}

theorem empty (s : Scene) : Kept s [] [] ⟨[], .empty, []⟩ where
  charts := .empty s
  called := by simp
  shown := by simp
  hosts := by simp
  lists _ _ := .nil

theorem guests_eq (h : Kept s done bs o) (hFinds : Finds s b o n o') (m : Nat) (mesh : String) :
    o'.guests s done m mesh = o.guests s done m mesh := by
  unfold guests
  congr 1
  apply filter_congr
  rintro ⟨i, f⟩ hv
  obtain ⟨k, hk⟩ := mem_iff_getElem?.mp hv
  by_cases hListed : f = .listed mesh
  · subst hListed
    obtain ⟨p, a, hParent, ha⟩ := h.hosts hk
    simp [hParent, ha, hFinds.actor? ha]
  · simp [hListed]

theorem next {more : List Bearer} {i : Instance} {f : Fate} (h : Kept s done bs o)
    (hCharts : Charts s [] (bs ++ more) o') (hCalled : ∀ c ∈ more, Called s (done ++ [(i, f)]) c)
    (hActors : ∀ {j n}, o.actor? s j = some n → o'.actor? s j = some n)
    (hShown : ∀ x, f = .shown → i.object = some x → ∃ n, Stands s (bs ++ more) o' n (i.bearer done.length x))
    (hHost : ∀ mesh, f = .listed mesh → ∃ p n, i.parent = some p ∧ o'.actor? s p = some n)
    (hLists : ∀ m mesh, Lists s (o'.guests s (done ++ [(i, f)]) m mesh) (o'.listed m mesh)) :
    Kept s (done ++ [(i, f)]) (bs ++ more) o' := by
  constructor
  · exact hCharts
  · intro c hc
    obtain hc | hc := mem_append.mp hc
    · exact (h.called c hc).mono
    · exact hCalled c hc
  · intro k x j hVisit hObject
    obtain hVisit | ⟨rfl, hSame⟩ := getElem?_concat.mp hVisit
    · obtain ⟨n, hn⟩ := h.shown hVisit hObject
      refine ⟨n, ?_⟩
      cases hBearer : j.bearer k x with
      | object y =>
        rw [hBearer] at hn
        exact hActors hn
      | copy y =>
        rw [hBearer] at hn
        exact (getElem?_append_left (Charts.lt_of_getElem? hn)).trans hn
    · obtain ⟨rfl, rfl⟩ := Prod.mk.inj hSame
      exact hShown x rfl hObject
  · intro k j mesh hVisit
    obtain hVisit | ⟨rfl, hSame⟩ := getElem?_concat.mp hVisit
    · obtain ⟨p, n, hParent, hn⟩ := h.hosts hVisit
      exact ⟨p, n, hParent, hActors hn⟩
    · obtain ⟨rfl, rfl⟩ := Prod.mk.inj hSame
      exact hHost mesh rfl
  · exact hLists

theorem bearer_notMem (h : Kept s done bs o) (i : Instance) (x : Nat) :
    ∀ k, i.bearer done.length x = .copy k → i.bearer done.length x ∉ bs := by
  intro k hBearer hMem
  have hCalled := h.called _ hMem
  unfold Instance.bearer at hBearer hCalled
  split at hBearer
  · rename_i hInstance
    rw [if_pos hInstance] at hCalled
    exact Nat.lt_irrefl _ hCalled.copy_lt
  · cases hBearer

theorem step {i : Instance} {f : Fate} (h : Kept s done bs o) (hStep : Step s done.length i f o o') :
    ∃ more, Kept s (done ++ [(i, f)]) (bs ++ more) o' := by
  have hLast : (done ++ [(i, f)])[done.length]? = some (i, f) := by simp
  cases hStep with
  | passed =>
    refine ⟨[], h.next ?_ (by simp) id (by simp) (by simp) fun m mesh => ?_⟩
    · rw [append_nil]
      exact h.charts
    · simpa [guests_concat] using h.lists m mesh
  | @shown _ x n _ object found =>
    obtain ⟨more, hCharts, hClimbs, hStands⟩ := found.charts h.charts (h.bearer_notMem i x)
    refine ⟨more, h.next hCharts (fun c hc => (Called.shown hLast object).climbs (hClimbs c hc)) found.actor? ?_
      (by simp) fun m mesh => ?_⟩
    · intro y _ hObject
      obtain rfl : x = y := Option.some.inj (object.symm.trans hObject)
      exact ⟨n, hStands⟩
    · simpa [guests_concat, h.guests_eq found, found.listed] using h.lists m mesh
  | @listed _ mesh p j n u placed parent found shows grouper furnishes =>
    obtain ⟨more, hCharts, hClimbs, hStands⟩ := found.charts h.charts (by simp)
    have hPlace := hCharts.place_lt hStands
    refine ⟨more, h.next (hCharts.addInstance n mesh placed)
      (fun c hc => (Called.host hLast parent).climbs (hClimbs c hc)) found.actor? (by simp)
      (fun _ _ => ⟨p, n, parent, hStands⟩) fun m mesh' => ?_⟩
    · have hOld := h.lists m mesh'
      rw [← h.guests_eq found, ← found.listed] at hOld
      rw [listed_addInstance hPlace, guests_concat]
      -- The instance is a guest just where it is listed.
      have hHere : (Fate.listed mesh = .listed mesh' ∧ i.parent.bind ((u.addInstance n mesh placed).actor? s) = some m) ↔
          m = n ∧ mesh' = mesh := by
        have hActor : i.parent.bind ((u.addInstance n mesh placed).actor? s) = some n := by
          rw [parent]
          exact hStands
        rw [hActor]
        simp [eq_comm, and_comm]
      simp only [hHere]
      split
      · rename_i hSame
        obtain ⟨rfl, rfl⟩ := hSame
        exact hOld.concat shows grouper furnishes
      · rw [append_nil, append_nil]
        exact hOld

end Kept

theorem kept_of_walk {groups selectedOnly : Bool} {s : Scene} {w : Walk}
    (h : outcome (walkAll groups selectedOnly) s {} = (.ok (), w)) :
    ∃ bs, Kept s (visits groups selectedOnly s {} s.instances) bs w.outline := by
  refine walk_induction (P := fun done w => ∃ bs, Kept s done bs w.outline) ?_ ⟨[], .empty s⟩ h
  rintro done i w w' hVisit ⟨bs, hKept⟩
  obtain ⟨more, hNext⟩ := hKept.step (step_of_visited hVisit)
  exact ⟨bs ++ more, hNext⟩

end SceneExchange.Scene
