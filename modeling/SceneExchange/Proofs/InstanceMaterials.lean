import SceneExchange.Proofs.Elements
import SceneExchange.Workload.Materials

/-!
# Materials of instances

The instances of a mesh below one actor are written as one element. It has the materials that the
object of an instance holds in slots of its own if the instance is the only one, and else none.
-/

open List

namespace SceneExchange.Scene

namespace Actor

def stackTag : List Placed → String
  | [_] => "ActorMesh"
  | _ => "ActorHierarchicalInstancedStaticMesh"

def stackPoses (indent transform : String) : List Placed → String
  | [p] => indent ++ "\t\t" ++ p.world
  | ps => indent ++ "\t\t\t" ++ transform ++ indent ++ "\t\t\t<Instances count=\"" ++ toString ps.length ++ "\">\n" ++
      indented indent (ps.map (·.below)) ++ indent ++ "\t\t\t</Instances>\n"

def stackText (indent actor transform mesh : String) (ps : List Placed) (entries : List Paint) : String :=
  instanceOpen indent (stackTag ps) actor mesh ++ stackPoses indent transform ps ++
    indented indent (entries.map (Paint.line "\t\t\t")) ++ indent ++ "\t\t</" ++ stackTag ps ++ ">\n"

theorem singleText_eq {indent actor transform mesh : String} {p : Placed} {entries : List Paint}
    (h : p.materials = some (entries.map (Paint.line "\t\t\t"))) :
    instancesText indent actor transform mesh [p] = stackText indent actor transform mesh [p] entries := by
  simp [instancesText, singleText, stackText, stackPoses, stackTag, h, String.append_assoc]

theorem groupText_eq {indent actor transform mesh : String} {p q : Placed} {ps : List Placed} :
    instancesText indent actor transform mesh (p :: q :: ps) = stackText indent actor transform mesh (p :: q :: ps) [] := by
  simp [instancesText, groupText, stackText, stackPoses, stackTag, indented, String.append_assoc]

end Actor

section Entries

variable {s : Scene} {is : List Instance} {ps : List Placed} {i : Instance}

theorem Lists.grouper (h : Lists s is ps) (hi : i ∈ is) : ∃ j, s.grouper i = some j := by
  induction h with
  | nil => cases hi
  | concat _ _ grouper _ ih =>
    obtain hi | hi := mem_append.mp hi
    · exact ih hi
    · obtain rfl := mem_singleton.mp hi
      exact ⟨_, grouper⟩

theorem Lists.one {p : Placed} (h : Lists s is [p]) : ∃ i j, is = [i] ∧ s.grouper i = some j ∧
    s.Furnishes j [] p.materials := by
  generalize hPs : [p] = ps at h
  cases h with
  | nil => cases hPs
  | @concat is ps i p' j lists _ grouper furnishes =>
    obtain ⟨rfl, hLast⟩ := append_inj' (show [] ++ [p] = ps ++ [p'] from hPs) rfl
    cases hLast
    cases lists.shows
    exact ⟨i, j, rfl, grouper, furnishes⟩

/-- The entries of the element that a listed instance is written with. -/
structure Carries (s : Scene) (is : List Instance) (ps : List Placed) (i : Instance) (j : Nat) (entries : List Paint) :
    Prop where
  mem : i ∈ is
  text : ∀ indent actor transform mesh,
    Actor.instancesText indent actor transform mesh ps = Actor.stackText indent actor transform mesh ps entries
  alone : entries ≠ [] → is = [i]
  own_iff : Forall₂ s.Paints (ownSlots (s.object j).slots) entries ↔ is = [i] ∨ ownSlots (s.object j).slots = []

theorem Lists.carries (h : Lists s is ps) (hi : i ∈ is) :
    ∃ j entries, s.grouper i = some j ∧ Carries s is ps i j entries := by
  match ps, h with
  | [], h =>
    cases h.shows
    cases hi
  | [p], h =>
    obtain ⟨i', j, rfl, hGrouper, hFurnishes⟩ := h.one
    obtain rfl := mem_singleton.mp hi
    generalize hMaterials : p.materials = materials at hFurnishes
    cases hFurnishes with
    | @first entries paints =>
      exact ⟨j, entries, hGrouper, hi, fun _ _ _ _ => Actor.singleText_eq hMaterials, fun _ => rfl,
        iff_of_true paints (.inl rfl)⟩
  | p :: q :: ps, h =>
    obtain ⟨j, hGrouper⟩ := h.grouper hi
    have hMany : is ≠ [i] := by
      rintro rfl
      have hLength := h.shows.length_eq
      simp at hLength
    refine ⟨j, [], hGrouper, hi, fun _ _ _ _ => Actor.groupText_eq, fun hNil => absurd rfl hNil, ?_⟩
    simp [hMany]

end Entries

/-- A listed instance stands in the element of its mesh below the actor of its parent. The entries of this
element are those of the own slots of its object if it is alone there. Where there are more there are no
entries, and those of an object with slots of its own are lost. -/
theorem instance_entries_of_walk {s : Scene} {selectedOnly : Bool} {w : Walk}
    (hWalk : outcome (walkAll true selectedOnly) s {} = (.ok (), w)) {k : Nat} {i : Instance} {mesh : String}
    (hVisit : (visits true selectedOnly s {} s.instances)[k]? = some (i, .listed mesh)) :
    ∃ n ps j entries, i.parent.bind (w.outline.actor? s) = some n ∧ (w.headAt n).instances.get? mesh = some ps ∧
      s.grouper i = some j ∧ Forall₂ s.Shows (w.outline.guests s (visits true selectedOnly s {} s.instances) n mesh) ps ∧
      Carries s (w.outline.guests s (visits true selectedOnly s {} s.instances) n mesh) ps i j entries := by
  obtain ⟨bs, hKept⟩ := kept_of_walk hWalk
  obtain ⟨p, n, hParent, hActor⟩ := hKept.hosts hVisit
  have hFound : i.parent.bind (w.outline.actor? s) = some n := by rw [hParent, Option.bind_some, hActor]
  have hGuest : i ∈ w.outline.guests s (visits true selectedOnly s {} s.instances) n mesh :=
    mem_map.mpr ⟨_, mem_filter.mpr ⟨mem_of_getElem? hVisit, by simp [hFound]⟩, rfl⟩
  have hLists := hKept.lists n mesh
  obtain ⟨j, entries, hGrouper, hCarries⟩ := hLists.carries hGuest
  refine ⟨n, _, j, entries, hFound, ?_, hGrouper, hLists.shows, hCarries⟩
  rw [listed_outline] at hLists ⊢
  change (w.headAt n).instances.get? mesh = some (((w.headAt n).instances.get? mesh).getD [])
  cases hGet : (w.headAt n).instances.get? mesh with
  | some ps => rfl
  | none =>
    rw [show (w.drafts[n]?.getD default).head.instances.get? mesh = none from hGet] at hLists
    rw [forall₂_nil_right_iff.mp hLists.shows] at hGuest
    cases hGuest

/-- Two mossy stones on the ground, and one on the crate. -/
def mossyYard : Scene :=
  { yard with
    objects := yard.objects.modify 2 ({ · with slots := [⟨false, none⟩, ⟨true, some 0⟩] })
    materials := #[Workload.definition "Moss" 0]
    instances := [⟨some 2, true, some 2, some 0, none, [1]⟩, ⟨some 2, true, some 2, some 0, none, [2]⟩,
      ⟨some 2, true, some 2, some 1, none, [3]⟩] }

/-- The stone on the crate has its moss, and those on the ground have lost it. -/
theorem instance_entries_of_mossyYard : ∃ w, outcome (walkAll true false) mossyYard {} = (.ok (), w) ∧
    (∃ is ps entries, Carries mossyYard is ps ⟨some 2, true, some 2, some 0, none, [2]⟩ 2 entries ∧
      ¬Forall₂ mossyYard.Paints (ownSlots (mossyYard.object 2).slots) entries) ∧
    ∃ is ps entries, Carries mossyYard is ps ⟨some 2, true, some 2, some 1, none, [3]⟩ 2 entries ∧
      Forall₂ mossyYard.Paints (ownSlots (mossyYard.object 2).slots) entries := by
  have hRuns : (outcome (walkAll true false) mossyYard {}).1.toOption = some () := by decide +kernel
  have hPlaces : ∀ p < 2, (outcome (walkAll true false) mossyYard {}).2.outline.actor? mossyYard p = some p ∧
      ((outcome (walkAll true false) mossyYard {}).2.outline.guests mossyYard
        (visits true false mossyYard {} mossyYard.instances) p "Rock").length = 2 - p := by decide +kernel
  have hFates : ∀ v ∈ visits true false mossyYard {} mossyYard.instances, v.2 = .listed "Rock" := by decide +kernel
  obtain ⟨w, hWalk⟩ := exists_walk hRuns
  rw [hWalk] at hPlaces
  have hVisit (k : Nat) (i : Instance) (hi : mossyYard.instances[k]? = some i) :
      (visits true false mossyYard {} mossyYard.instances)[k]? = some (i, .listed "Rock") := by
    obtain ⟨u, hu⟩ : ∃ u, (visits true false mossyYard {} mossyYard.instances)[k]? =
        some (i, fate true false mossyYard u i) := getElem?_visits hi {}
    rw [hu, show fate true false mossyYard u i = _ from hFates _ (mem_of_getElem? hu)]
  refine ⟨w, hWalk, ?_, ?_⟩
  · obtain ⟨n, ps, j, entries, hn, -, hj, -, hCarries⟩ := instance_entries_of_walk hWalk (hVisit 1 _ rfl)
    obtain rfl : 0 = n := Option.some.inj ((hPlaces 0 (by decide)).1.symm.trans hn)
    cases hj
    refine ⟨_, ps, entries, hCarries, fun hOwn => ?_⟩
    obtain hOne | hNone := hCarries.own_iff.mp hOwn
    · have hLength := (hPlaces 0 (by decide)).2
      rw [hOne] at hLength
      cases hLength
    · cases hNone
  · obtain ⟨n, ps, j, entries, hn, -, hj, -, hCarries⟩ := instance_entries_of_walk hWalk (hVisit 2 _ rfl)
    obtain rfl : 1 = n := Option.some.inj ((hPlaces 1 (by decide)).1.symm.trans hn)
    cases hj
    obtain ⟨i, hi⟩ := length_eq_one_iff.mp (hPlaces 1 (by decide)).2
    refine ⟨_, ps, entries, hCarries, hCarries.own_iff.mpr (.inl ?_)⟩
    have hMem := hCarries.mem
    rw [hi, mem_singleton] at hMem
    rw [hi, hMem]

end SceneExchange.Scene
