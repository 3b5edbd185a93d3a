import SceneExchange.Proofs.Forest
import SceneExchange.Proofs.Motion
import SceneExchange.Proofs.Ranks

/-!
# Actors and objects

With the names of the objects told apart by the document, the actors are the forest that the parents
of the objects draw. Where two names become one, objects are lost: their actors are one, and this may
even hang below itself.
-/

namespace SceneExchange.Scene

open Walking List Actor Outline Instance Walk Name ActorDraft

variable {s : Scene} {seen : List (Instance × Fate)} {bs : List Bearer} {w : Walk} {groups selectedOnly : Bool}

/-! ## Who stands where -/

/-- The objects that visits call for have different names in the document. -/
def NamesApart (s : Scene) (seen : List (Instance × Fate)) : Prop :=
  ∀ (i j : Nat) (name : String), Called s seen (.object i) → Called s seen (.object j) →
    s.label (.object i) = .ok name → s.label (.object j) = .ok name → i = j

namespace Kept

variable {s : Scene} {seen : List (Instance × Fate)} {bs : List Bearer} {o : Outline} {b : Bearer} {m n p : Nat}

theorem bearer_of_actor? (h : Kept s seen bs o) (hApart : s.NamesApart seen) (hCalled : Called s seen (.object p))
    (hActor : o.actor? s p = some m) : bs[m]? = some (.object p) := by
  obtain ⟨name, hLabel, hGet⟩ := actor?_eq_some.mp hActor
  obtain ⟨j, hj, hLabel'⟩ := h.charts.named.mp hGet
  obtain rfl := hApart _ _ _ hCalled (h.called _ (mem_of_getElem? hj)) hLabel hLabel'
  exact hj

theorem actor?_of_bearer (h : Kept s seen bs o) (hb : bs[n]? = some (.object p)) : o.actor? s p = some n := by
  obtain ⟨x, -, hName⟩ := h.charts.label hb
  exact actor?_eq_some.mpr ⟨x.name, hName, h.charts.named.mpr ⟨p, hb, hName⟩⟩

theorem actor?_iff (h : Kept s seen bs o) (hApart : s.NamesApart seen) (hCalled : Called s seen (.object p)) :
    o.actor? s p = some m ↔ bs[m]? = some (.object p) :=
  ⟨h.bearer_of_actor? hApart hCalled, h.actor?_of_bearer⟩

theorem inj (h : Kept s seen bs o) (hm : bs[m]? = some b) (hn : bs[n]? = some b) : m = n := by
  cases b with
  | copy k => exact h.charts.copies hm hn
  | object i => exact Option.some.inj ((h.actor?_of_bearer hm).symm.trans (h.actor?_of_bearer hn))

theorem nodup (h : Kept s seen bs o) : bs.Nodup := by
  rw [nodup_iff_getElem?_ne_getElem?]
  intro m n hmn hn hEq
  have hb := List.getElem?_eq_getElem hn
  have := h.inj (hEq.trans hb) hb
  omega

theorem mem_of_called (h : Kept s seen bs o) (hApart : s.NamesApart seen) (hCalled : Called s seen b) : b ∈ bs := by
  induction hCalled with
  | @shown k x i visit object =>
    obtain ⟨n, hn⟩ := h.shown visit object
    cases hBearer : i.bearer k x with
    | copy k' =>
      rw [hBearer] at hn
      exact mem_of_getElem? hn
    | object j =>
      have hCalled : Called s seen (.object j) := hBearer ▸ Called.shown visit object
      rw [hBearer] at hn
      exact mem_of_getElem? (h.bearer_of_actor? hApart hCalled hn)
  | host visit parent =>
    obtain ⟨_, n, hParent, hn⟩ := h.hosts visit
    cases parent.symm.trans hParent
    exact mem_of_getElem? (h.bearer_of_actor? hApart (.host visit parent) hn)
  | @above b p called holder ih =>
    obtain ⟨n, hn⟩ := mem_iff_getElem?.mp ih
    obtain ⟨m, hm⟩ := h.charts.held hn not_mem_nil holder
    exact mem_of_getElem? (h.bearer_of_actor? hApart (.above called holder) hm)

theorem mem_roots (h : Kept s seen bs o) (hb : bs[n]? = some b) : n ∈ o.roots ↔ s.holder b = none := by
  rw [h.charts.roots]
  simp [hb]

theorem mem_children (h : Kept s seen bs o) (hApart : s.NamesApart seen) (hb : bs[n]? = some b) :
    n ∈ o.childrenOf m ↔ ∃ p, s.holder b = some p ∧ bs[m]? = some (.object p) := by
  have hCalled := h.called _ (mem_of_getElem? hb)
  rw [h.charts.children]
  constructor
  · rintro ⟨-, c, p, hc, hHolder, hActor⟩
    obtain rfl : b = c := Option.some.inj (hb.symm.trans hc)
    exact ⟨p, hHolder, h.bearer_of_actor? hApart (.above hCalled hHolder) hActor⟩
  · rintro ⟨p, hHolder, hm⟩
    exact ⟨not_mem_nil, b, p, hb, hHolder, h.actor?_of_bearer hm⟩

theorem guests_eq_filter (h : Kept s seen bs o) (hApart : s.NamesApart seen) (hb : bs[n]? = some b) (mesh : String) :
    o.guests s seen n mesh =
      (seen.filter fun v => v.2 = .listed mesh ∧ v.1.parent.map .object = some b).map Prod.fst := by
  unfold guests
  congr 1
  apply filter_congr
  rintro ⟨i, f⟩ hv
  obtain ⟨k, hk⟩ := mem_iff_getElem?.mp hv
  cases hParent : i.parent with
  | none => simp
  | some p =>
    by_cases hListed : f = .listed mesh
    · subst hListed
      have hActor := h.actor?_iff (m := n) hApart (.host hk hParent)
      simp [hActor, hb, eq_comm]
    · simp [hListed]

end Kept

def IsParent (s : Scene) (p i : Nat) : Prop := (s.object i).parent = some p

theorem lt_of_isParent {p i : Nat} (h : s.IsParent p i) : i < s.objects.size := by
  by_contra hOut
  have hNone : s.object i = default := by simp [Scene.object, Nat.le_of_not_lt hOut]
  rw [Scene.IsParent, hNone] at h
  cases h

theorem Kept.exists_trail {o : Outline} (h : Kept s seen bs o) (hApart : s.NamesApart seen)
    (hAcyclic : ∀ i, ¬Relation.TransGen s.IsParent i i) {n : Nat} (hn : n < o.nodes.length) :
    ∃ way, o.Trail n way := by
  obtain ⟨rank, hRank, -⟩ := exists_rank (Finset.range s.objects.size)
    (fun _ _ hp => Finset.mem_range.mpr (Scene.lt_of_isParent hp)) hAcyclic
  -- Where there is a way from the actor of the holder, there is one from an actor.
  have hUp {n : Nat} {b : Bearer} (hb : bs[n]? = some b)
      (hHolder : ∀ p m, s.holder b = some p → bs[m]? = some (.object p) → ∃ way, o.Trail m way) :
      ∃ way, o.Trail n way := by
    cases hCase : s.holder b with
    | none => exact ⟨_, .root ((h.mem_roots hb).mpr hCase)⟩
    | some p =>
      have hCalled := h.called _ (mem_of_getElem? hb)
      obtain ⟨m, hm⟩ := mem_iff_getElem?.mp (h.mem_of_called hApart (.above hCalled hCase))
      obtain ⟨way, hWay⟩ := hHolder p m hCase hm
      exact ⟨_, .child ((h.mem_children hApart hb).mpr ⟨p, hCase, hm⟩) hWay⟩
  have hObjects (r : Nat) : ∀ i n, rank i = r → bs[n]? = some (.object i) → ∃ way, o.Trail n way := by
    induction r using Nat.strong_induction_on with
    | _ r ih =>
      rintro i n rfl hb
      refine hUp hb fun p m hp hm => ?_
      exact ih _ (hRank p i hp) p m rfl hm
  rw [← h.charts.length_eq] at hn
  exact hUp (List.getElem?_eq_getElem hn) fun p m _ hm => hObjects _ p m rfl hm

/-! ## The forest -/

theorem label_eq_of_labels (s : Scene) {labels : List String}
    (h : (s.objects.toList.map fun o => legal o.name) = labels.map .ok) {i : Nat} {name : String}
    (hi : i < s.objects.size) (hName : s.label (.object i) = .ok name) : labels[i]? = some name := by
  have hObject : s.object i = s.objects[i] := by simp [Scene.object, hi]
  rw [label, hObject] at hName
  have hGet := congrArg (·[i]?) h
  simpa [hi, hName, eq_comm] using hGet

theorem namesApart_of_nodup {labels : List String}
    (hLabels : (s.objects.toList.map fun o => legal o.name) = labels.map .ok) (hNodup : labels.Nodup)
    (hRange : ∀ i, Called s seen (.object i) → i < s.objects.size) : s.NamesApart seen := by
  have hLength : labels.length = s.objects.size := by simpa using (congrArg List.length hLabels).symm
  intro i j name hi hj hNameI hNameJ
  have hGetI := s.label_eq_of_labels hLabels (hRange i hi) hNameI
  have hGetJ := s.label_eq_of_labels hLabels (hRange j hj) hNameJ
  have hLt := hRange i hi
  exact (getElem?_inj (by omega) hNodup).mp (hGetI.trans hGetJ.symm)

/-- The actors of a walk, with the bearer of each, are a forest: there is one for every bearer that is called
for, below the actor of its holder or at the top. -/
structure IsForest (s : Scene) (seen : List (Instance × Fate)) (bs : List Bearer) (w : Walk) : Prop where
  length_eq : bs.length = w.drafts.size
  nodup : bs.Nodup
  mem_iff : ∀ b, b ∈ bs ↔ Called s seen b
  name_eq : ∀ {n : Nat} {b : Bearer}, bs[n]? = some b → s.label b = .ok (w.headAt n).name
  /-- The instances that were listed with an actor, in the order of the visits. -/
  lists : ∀ {n : Nat} {b : Bearer}, bs[n]? = some b → ∀ mesh, Forall₂ s.Shows
    ((seen.filter fun v => v.2 = .listed mesh ∧ v.1.parent.map .object = some b).map Prod.fst)
    (((w.headAt n).instances.get? mesh).getD [])
  nodup_roots : w.roots.toList.Nodup
  nodup_children : ∀ m, (w.childrenAt m).Nodup
  mem_roots : ∀ {n : Nat} {b : Bearer}, bs[n]? = some b → (n ∈ w.roots.toList ↔ s.holder b = none)
  mem_children : ∀ {m n : Nat} {b : Bearer}, bs[n]? = some b →
    (n ∈ w.childrenAt m ↔ ∃ p, s.holder b = some p ∧ bs[m]? = some (.object p))
  one_way : ∀ n < w.drafts.size, ∃! way, w.outline.Trail n way
  text_eq : w.text = String.join ((piecesAll "\t" w.actors).map Actor.Piece.text)
  /-- The text has the opening tag of each actor once. -/
  tagged : (tagged (piecesAll "\t" w.actors)).Perm (w.drafts.toList.map head)

theorem Walk.perm_tagged (hHung : w.outline.Hung) (hWays : ∀ n < w.drafts.size, ∃ way, w.outline.Trail n way) :
    (tagged (piecesAll "\t" w.actors)).Perm (w.drafts.toList.map head) := by
  have hWritten : w.outline.written.Perm (List.range w.drafts.size) := by
    rw [perm_ext_iff_of_nodup (nodup_written hHung) nodup_range]
    intro n
    rw [mem_written hHung, mem_range]
    constructor
    · rintro ⟨way, hWay⟩
      have := hWay.lt hHung
      simpa [outline] using this
    · exact hWays n
  have hHeads : (List.range w.drafts.size).map w.headAt = w.drafts.toList.map head := by
    apply ext_getElem
    · simp
    · intro n hn hn'
      simp at hn
      simp [headAt, hn]
  rw [w.tagged_text hHung, ← hHeads]
  exact hWritten.map _

/-- Where no two of the objects that are called for share a name, and no object is above itself, the actors of
a walk are a forest. -/
theorem isForest_of_walk {groups selectedOnly : Bool} {s : Scene} {w : Walk}
    (hWalk : outcome (walkAll groups selectedOnly) s {} = (.ok (), w))
    (hAcyclic : ∀ i, ¬Relation.TransGen s.IsParent i i)
    (hApart : s.NamesApart (visits groups selectedOnly s {} s.instances)) :
    ∃ bs, IsForest s (visits groups selectedOnly s {} s.instances) bs w := by
  obtain ⟨bs, h⟩ := kept_of_walk hWalk
  have hHung := h.charts.hung
  have hSize : w.outline.nodes.length = w.drafts.size := by simp [outline]
  have hWays : ∀ n < w.drafts.size, ∃ way, w.outline.Trail n way := by
    intro n hn
    rw [← hSize] at hn
    exact h.exists_trail hApart hAcyclic hn
  refine ⟨bs, ?_⟩
  constructor
  · rw [h.charts.length_eq, hSize]
  · exact h.nodup
  · exact fun b => ⟨h.called b, h.mem_of_called hApart⟩
  · intro n b hb
    obtain ⟨x, hx, hName⟩ := h.charts.label hb
    rw [hName, w.name_headAt hx]
  · intro n b hb mesh
    rw [← h.guests_eq_filter hApart hb]
    have hLists := (h.lists n mesh).shows
    rwa [listed_outline] at hLists
  · exact hHung.nodup_roots
  · intro m
    rw [← w.childrenOf_outline]
    exact hHung.nodup_children m
  · intro n b hb
    exact h.mem_roots hb
  · intro m n b hb
    rw [← w.childrenOf_outline]
    exact h.mem_children hApart hb
  · intro n hn
    obtain ⟨way, hWay⟩ := hWays n hn
    exact ⟨way, hWay, fun _ h' => h'.unique hHung hWay⟩
  · exact (join_piecesAll "\t" w.actors).symm
  · exact perm_tagged hHung hWays

section Listed

variable {s : Scene}

theorem isParent_lt (h : ∀ i < s.objects.size, ∀ p ∈ (s.object i).parent, p < i) {p i : Nat}
    (hp : s.IsParent p i) : p < i ∧ i < s.objects.size := by
  have hi := Scene.lt_of_isParent hp
  exact ⟨h i hi p hp, hi⟩

theorem acyclic_of_lt (h : ∀ i < s.objects.size, ∀ p ∈ (s.object i).parent, p < i) (i : Nat) :
    ¬Relation.TransGen s.IsParent i i := by
  exact acyclic_of_rank id (fun _ _ hp => (isParent_lt h hp).1) i

theorem getElem?_visits {l : List Instance} {k : Nat} {i : Instance} (h : l[k]? = some i)
    (w : Walk) : ∃ u, (visits groups selectedOnly s w l)[k]? = some (i, fate groups selectedOnly s u i) := by
  induction l generalizing k w with
  | nil => cases h
  | cons j l ih =>
    cases k with
    | zero =>
      cases h
      exact ⟨w, rfl⟩
    | succ k => exact ih h _

theorem mem_of_mem_visits {l : List Instance} {v : Instance × Fate}
    (h : v ∈ visits groups selectedOnly s w l) : v.1 ∈ l := by
  induction l generalizing w with
  | nil => cases h
  | cons i l ih =>
    obtain rfl | h := mem_cons.mp h
    · exact mem_cons_self
    · exact mem_cons_of_mem i (ih h)

theorem Called.lt (hParents : ∀ i < s.objects.size, ∀ p ∈ (s.object i).parent, p < i)
    (hInstances : ∀ i ∈ s.instances, (∀ x ∈ i.object, x < s.objects.size) ∧ ∀ p ∈ i.parent, p < s.objects.size)
    {x : Nat} (h : Called s (visits groups selectedOnly s {} s.instances) (.object x)) : x < s.objects.size := by
  generalize hb : Bearer.object x = b at h
  have hObjects {p i : Nat} (hp : s.IsParent p i) : p < s.objects.size := by
    have := isParent_lt hParents hp
    omega
  cases h with
  | shown visit object =>
    have hMem := mem_of_mem_visits (mem_of_getElem? visit)
    unfold bearer at hb
    split at hb
    · cases hb
    · cases hb
      exact (hInstances _ hMem).1 x object
  | host visit parent =>
    cases hb
    exact (hInstances _ (mem_of_mem_visits (mem_of_getElem? visit))).2 x parent
  | @above b p called holder =>
    cases hb
    cases b with
    | object i => exact hObjects holder
    | copy k =>
      cases hk : s.instances[k]? with
      | none =>
        have hNone : s.holder (.copy k) = none := by
          rw [Scene.holder, Scene.instanceAt, hk]
          rfl
        rw [hNone] at holder
        cases holder
      | some i =>
        cases hParent : i.parent with
        | some q =>
          obtain rfl : q = x := by simpa [Scene.holder, Scene.instanceAt, hk, hParent] using holder
          exact (hInstances i (mem_of_getElem? hk)).2 q hParent
        | none =>
          obtain ⟨y, -, hy⟩ : ∃ y, i.object = some y ∧ (s.object y).parent = some x := by
            simpa [Scene.holder, Scene.instanceAt, hk, hParent, Option.bind_eq_some_iff] using holder
          exact hObjects hy

end Listed

/-- A crate on the ground that is shown once more, and a stone of which two copies lie there. -/
def yard : Scene where
  objects := #[box "Ground", { box "Crate" with parent := some 0, source := some 1 },
    { box "Stone" with kind := "MESH", content := .mesh 0, source := some 2 }]
  meshes := #[{ (default : Mesh.Shape) with
    name := "Rock", coordinates := [0.0, 0.0, 0.0, 1.0, 0.0, 0.0, 0.0, 1.0, 0.0], corners := [0, 1, 2] }]
  instances := [⟨some 1, false, none, none, none, []⟩, ⟨some 2, true, some 2, some 0, none, [1]⟩,
    ⟨some 1, true, some 1, some 0, none, [2]⟩, ⟨some 2, true, some 2, some 0, none, [3]⟩]

theorem exists_walk (h : (outcome (walkAll groups selectedOnly) s {}).1.toOption = some ()) :
    ∃ w, outcome (walkAll groups selectedOnly) s {} = (.ok (), w) := by
  exact ⟨_, Prod.ext (eq_ok_of_toOption h) rfl⟩

theorem isForest_of_yard : ∃ bs w, outcome (walkAll true false) yard {} = (.ok (), w) ∧
    (visits true false yard {} yard.instances).map Prod.snd = [.shown, .listed "Rock", .shown, .listed "Rock"] ∧
    IsForest yard (visits true false yard {} yard.instances) bs w := by
  obtain ⟨w, hWalk⟩ : ∃ w, outcome (walkAll true false) yard {} = (.ok (), w) := exists_walk (by decide +kernel)
  have hParents : ∀ i < yard.objects.size, ∀ p ∈ (yard.object i).parent, p < i := by decide
  have hLabels : (yard.objects.toList.map fun o => legal o.name) = ["Ground", "Crate", "Stone"].map .ok := rfl
  have hApart : yard.NamesApart (visits true false yard {} yard.instances) :=
    namesApart_of_nodup hLabels (by decide) fun i hi => Called.lt hParents (by decide) hi
  obtain ⟨bs, hForest⟩ := isForest_of_walk hWalk (acyclic_of_lt hParents) hApart
  exact ⟨bs, w, hWalk, by decide +kernel, hForest⟩

/-! ## Elements and objects -/

structure VisitsEach (s : Scene) (selectedOnly : Bool) : Prop where
  objects : (s.instances.map Instance.object).Perm ((List.range s.objects.size).map some)
  asItself : ∀ i ∈ s.instances, i.isInstance = false
  isIn : ∀ i ∈ s.instances, (selectedOnly && !s.chosen i) = false

namespace VisitsEach

variable {s : Scene} {selectedOnly : Bool}

theorem visits_eq (h : s.VisitsEach selectedOnly) (groups : Bool) (w : Walk) :
    visits groups selectedOnly s w s.instances = s.instances.map fun i => (i, .shown) := by
  have hAll (l : List Instance) (hl : ∀ i ∈ l, i ∈ s.instances) (w : Walk) :
      visits groups selectedOnly s w l = l.map fun i => (i, .shown) := by
    induction l generalizing w with
    | nil => rfl
    | cons i l ih =>
      have hi := hl i mem_cons_self
      have hFate : fate groups selectedOnly s w i = .shown := by simp [fate, h.isIn i hi, h.asItself i hi]
      rw [visits, hFate, ih fun j hj => hl j (mem_cons_of_mem i hj)]
      rfl
  exact hAll s.instances (fun _ hi => hi) w

theorem exists_visit (h : s.VisitsEach selectedOnly) {x : Nat} (hx : x < s.objects.size) :
    ∃ (k : Nat) (i : Instance), (s.instances.map fun i => (i, Fate.shown))[k]? = some (i, .shown) ∧
      i.object = some x ∧ i.bearer k x = .object x := by
  have hMem : some x ∈ s.instances.map Instance.object :=
    h.objects.symm.subset (mem_map.mpr ⟨x, mem_range.mpr hx, rfl⟩)
  obtain ⟨i, hi, hObject⟩ := mem_map.mp hMem
  obtain ⟨k, hk⟩ := mem_iff_getElem?.mp hi
  refine ⟨k, i, by simp [hk], hObject, ?_⟩
  rw [bearer, h.asItself i hi]
  rfl

theorem called_iff (h : s.VisitsEach selectedOnly) (hParents : ∀ p i, s.IsParent p i → p < s.objects.size)
    (groups : Bool) {b : Bearer} :
    Called s (visits groups selectedOnly s {} s.instances) b ↔ ∃ i < s.objects.size, b = .object i := by
  rw [h.visits_eq]
  constructor
  · intro hCalled
    induction hCalled with
    | @shown k x i visit object =>
      obtain ⟨j, hj, hSame⟩ := mem_map.mp (mem_of_getElem? visit)
      obtain ⟨rfl, -⟩ := Prod.mk.inj hSame
      have hMem : some x ∈ (List.range s.objects.size).map some :=
        h.objects.subset (mem_map.mpr ⟨j, hj, object⟩)
      refine ⟨x, by simpa using hMem, ?_⟩
      rw [bearer, h.asItself j hj]
      rfl
    | host visit parent =>
      obtain ⟨j, hj, hSame⟩ := mem_map.mp (mem_of_getElem? visit)
      cases (Prod.mk.inj hSame).2
    | above called holder ih =>
      obtain ⟨i, hi, rfl⟩ := ih
      exact ⟨_, hParents _ i holder, rfl⟩
  · rintro ⟨x, hx, rfl⟩
    obtain ⟨k, i, hVisit, hObject, hBearer⟩ := h.exists_visit hx
    exact hBearer ▸ .shown hVisit hObject

end VisitsEach

/-- An actor that is written bears the name of what it stands for. -/
theorem Kept.exists_bearer (h : Kept s seen bs w.outline) {n : Nat} (hn : n ∈ w.outline.written) :
    ∃ b, bs[n]? = some b ∧ s.label b = .ok (w.headAt n).name := by
  obtain ⟨way, hWay⟩ := (mem_written h.charts.hung).mp hn
  have hLt := hWay.lt h.charts.hung
  rw [← h.charts.length_eq] at hLt
  have hb := List.getElem?_eq_getElem hLt
  obtain ⟨x, hx, hName⟩ := h.charts.label hb
  exact ⟨_, hb, by rw [w.name_headAt hx, hName]⟩

theorem Kept.label_of_mem (h : Kept s seen bs w.outline) {n : Nat} (hn : n ∈ w.outline.written) :
    ∃ b ∈ bs, s.label b = .ok (w.headAt n).name := by
  obtain ⟨b, hb, hName⟩ := h.exists_bearer hn
  exact ⟨b, mem_of_getElem? hb, hName⟩

theorem Kept.nodup_names (h : Kept s seen bs w.outline) (hObjects : ∀ b ∈ bs, ∃ i, b = .object i) :
    (w.outline.written.map fun n => (w.headAt n).name).Nodup := by
  refine (nodup_written h.charts.hung).map_on ?_
  -- An actor that stands for an object is found under its name.
  have hFound : ∀ n ∈ w.outline.written, w.outline.named.get? (w.headAt n).name = some n := by
    intro n hn
    obtain ⟨b, hb, hName⟩ := h.exists_bearer hn
    obtain ⟨i, rfl⟩ := hObjects b (mem_of_getElem? hb)
    exact h.charts.named.mpr ⟨i, hb, hName⟩
  intro m hm n hn hSame
  have hm' := hFound m hm
  rw [hSame] at hm'
  exact Option.some.inj (hm'.symm.trans (hFound n hn))

theorem exists_labels (s : Scene) (h : ∀ i < s.objects.size, ∃ name, s.label (.object i) = .ok name) :
    ∃ labels : List String, (s.objects.toList.map fun o => legal o.name) = labels.map .ok := by
  have hEach : ∀ o ∈ s.objects.toList, ∃ name, legal o.name = .ok name := by
    intro o ho
    obtain ⟨i, hi⟩ := mem_iff_getElem?.mp ho
    rw [Array.getElem?_toList] at hi
    have hObject : s.object i = o := by simp [Scene.object, hi]
    obtain ⟨name, hName⟩ := h i (Array.getElem?_eq_some_iff.mp hi).1
    exact ⟨name, by rwa [label, hObject] at hName⟩
  generalize s.objects.toList = l at hEach
  induction l with
  | nil => exact ⟨[], rfl⟩
  | cons o l ih =>
    obtain ⟨name, hName⟩ := hEach o mem_cons_self
    obtain ⟨names, hNames⟩ := ih fun o' ho' => hEach o' (mem_cons_of_mem o ho')
    exact ⟨name :: names, by rw [map_cons, map_cons, hName, hNames]⟩

/-- Where every object is visited once as itself, the text has an element for each of them just if their names
differ in the document as well; no name is written twice. -/
theorem elements_eq_objects_iff {groups selectedOnly : Bool} {s : Scene} {w : Walk}
    (hWalk : outcome (walkAll groups selectedOnly) s {} = (.ok (), w))
    (hAcyclic : ∀ i, ¬Relation.TransGen s.IsParent i i)
    (hParents : ∀ p i, s.IsParent p i → p < s.objects.size) (hEach : s.VisitsEach selectedOnly) :
    ∃ labels names, (s.objects.toList.map fun o => legal o.name) = labels.map .ok ∧
      names = (tagged (piecesAll "\t" w.actors)).map ActorHead.name ∧
      w.text = String.join ((piecesAll "\t" w.actors).map Actor.Piece.text) ∧
      names.Nodup ∧ names ⊆ labels ∧ (names.Perm labels ↔ labels.Nodup) ∧
      (names.length = s.objects.size ↔ labels.Nodup) := by
  obtain ⟨bs, h⟩ := kept_of_walk hWalk
  have hHung := h.charts.hung
  have hCalled {b : Bearer} := hEach.called_iff hParents groups (b := b)
  obtain ⟨labels, hLabels⟩ := s.exists_labels fun i hi => by
    obtain ⟨k, x, hVisit, hObject, hBearer⟩ := hEach.exists_visit hi
    rw [← hEach.visits_eq groups {}] at hVisit
    obtain ⟨n, hn⟩ := h.shown hVisit hObject
    rw [hBearer] at hn
    obtain ⟨name, hName, -⟩ := actor?_eq_some.mp hn
    exact ⟨name, hName⟩
  have hLength : labels.length = s.objects.size := by simpa using (congrArg List.length hLabels).symm
  have hNames : (tagged (piecesAll "\t" w.actors)).map ActorHead.name =
      w.outline.written.map fun n => (w.headAt n).name := by
    rw [w.tagged_text hHung, map_map]
    rfl
  have hNodup : (w.outline.written.map fun n => (w.headAt n).name).Nodup := by
    refine h.nodup_names fun b hb => ?_
    obtain ⟨i, -, hi⟩ := hCalled.mp (h.called b hb)
    exact ⟨i, hi⟩
  have hSubset : (w.outline.written.map fun n => (w.headAt n).name) ⊆ labels := by
    intro name hName
    obtain ⟨n, hn, rfl⟩ := mem_map.mp hName
    obtain ⟨b, hb, hLabelled⟩ := h.label_of_mem hn
    obtain ⟨i, hi, rfl⟩ := hCalled.mp (h.called b hb)
    exact mem_of_getElem? (s.label_eq_of_labels hLabels hi hLabelled)
  -- Different names tell the actors apart, so that all of them are written.
  have hAll : labels.Nodup → (w.outline.written.map fun n => (w.headAt n).name).length = s.objects.size := by
    intro hDiffer
    have hApart : s.NamesApart (visits groups selectedOnly s {} s.instances) := by
      refine namesApart_of_nodup hLabels hDiffer fun i hi => ?_
      obtain ⟨_, hLt, hSame⟩ := hCalled.mp hi
      cases hSame
      exact hLt
    have hWritten := (perm_tagged hHung fun n hn => h.exists_trail hApart hAcyclic (by simpa [outline] using hn)).length_eq
    have hBearers : bs.Perm ((List.range s.objects.size).map .object) := by
      rw [perm_ext_iff_of_nodup h.nodup (nodup_range.map fun _ _ => Bearer.object.inj)]
      intro b
      have hMem : b ∈ bs ↔ Called s (visits groups selectedOnly s {} s.instances) b :=
        ⟨h.called b, h.mem_of_called hApart⟩
      rw [hMem, hCalled]
      simp [eq_comm]
    have hSize := hBearers.length_eq
    rw [h.charts.length_eq] at hSize
    rw [← hNames, length_map, hWritten]
    simpa [outline] using hSize
  have hPerm : (w.outline.written.map fun n => (w.headAt n).name).length = s.objects.size →
      (w.outline.written.map fun n => (w.headAt n).name).Perm labels := by
    intro hSize
    exact (hNodup.subperm hSubset).perm_of_length_le (by omega)
  refine ⟨labels, _, hLabels, hNames.symm, (join_piecesAll "\t" w.actors).symm, hNodup, hSubset, ?_, ?_⟩
  · exact ⟨fun hSame => hSame.nodup_iff.mp hNodup, fun hApart => hPerm (hAll hApart)⟩
  · exact ⟨fun hSize => (hPerm hSize).nodup_iff.mp hNodup, hAll⟩

def twins : Scene where
  objects := #[box "Cube.001", { box "Cube_001" with parent := some 0 }]
  instances := [⟨some 1, false, none, none, none, []⟩, ⟨some 0, false, none, none, none, []⟩]

theorem elements_of_twins : ∃ w, outcome (walkAll false false) twins {} = (.ok (), w) ∧
    (twins.objects.toList.map Object.name).Nodup ∧
    (tagged (piecesAll "\t" w.actors)).length ≠ twins.objects.size := by
  obtain ⟨w, hWalk⟩ : ∃ w, outcome (walkAll false false) twins {} = (.ok (), w) := exists_walk (by decide +kernel)
  have hBefore : ∀ i < twins.objects.size, ∀ p ∈ (twins.object i).parent, p < i := by decide
  have hParents : ∀ p i, twins.IsParent p i → p < twins.objects.size := by
    intro p i hp
    have := isParent_lt hBefore hp
    omega
  have hEach : twins.VisitsEach false := ⟨by decide, by decide, by decide⟩
  obtain ⟨labels, names, hLabels, rfl, -, -, -, -, hSize⟩ :=
    elements_eq_objects_iff hWalk (acyclic_of_lt hBefore) hParents hEach
  have hSame : (["Cube_001", "Cube_001"].map .ok : List (Except Fault String)) = labels.map .ok := hLabels
  obtain rfl := map_injective_iff.mpr (fun _ _ => Except.ok.inj) hSame
  refine ⟨w, hWalk, by decide, fun hLength => ?_⟩
  have hNodup := hSize.mp ((length_map _).trans hLength)
  exact absurd hNodup (by decide)

end SceneExchange.Scene
