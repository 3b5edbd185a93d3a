import Mathlib.Algebra.GroupWithZero.Nat
import Mathlib.Data.List.Induction
import SceneExchange.Proofs.Isolation

/-!
# Textures and the order of materials

An image is entered by the first material that uses it, with the hint of that use. Another order of
the materials gives the same images under the same names, but not the same hints.
-/

namespace SceneExchange.Material

open SceneExchange.Graph Compile Material.Frame Likeness List Session Name Option

attribute [ext] Texture.Entry

/-- The textures of a session are entered under the legal names of their images. -/
def Stores.Named (images : Array Texture.Image) (c : Stores) : Prop :=
  ∀ key e, c.textures.get? key = some e → e.name = key ∧ legal (images[e.image]?.getD default).name = .ok key

theorem Stores.lasting_named {images : Array Texture.Image} : Lasting True images (Named images) where
  counted _ := id
  baked _ _ := id
  entered {c name image hint} hName h key e hGet := by
    rw [entered, Texture.get?_enter, or_eq_some_iff] at hGet
    obtain hOld | ⟨-, hNew⟩ := hGet
    · exact h key e hOld
    · obtain ⟨rfl, hNew⟩ := ite_none_right_eq_some.mp hNew
      cases hNew
      exact ⟨rfl, hName⟩

namespace Session

variable (f : Forest) (s : Session) (alwaysTwoSided : Bool)

/-- The session after a material that is the only one of its run. -/
def after (m : Option Definition × Bool) : Session := (outcome (document m.1 m.2 alwaysTwoSided) f s.rewound).2

def firstUse (l : List (Option Definition × Bool)) (key : String) : Option Texture.Entry :=
  l.findSome? fun m => (s.after f alwaysTwoSided m).textures.get? key

def curvesOf (l : List (Option Definition × Bool)) : Nat := (l.map fun m => (s.after f alwaysTwoSided m).curveCount).sum

def curvesEntry (count : Nat) (key : String) : Option Texture.Entry :=
  if count ≠ 0 ∧ key = curvesName then some ⟨curvesName, s.curvesPlace, Texture.defaultHint⟩ else none

theorem get?_closed (key : String) : s.closed.get? key = (s.textures.get? key).or (s.curvesEntry s.curveCount key) := by
  unfold closed curvesEntry
  by_cases hCount : s.curveCount = 0
  · simp [hCount]
  · rw [if_pos (by simpa using hCount), Texture.get?_enter]
    simp only [hCount, ne_eq, not_false_eq_true, true_and]

end Session

section Orders

variable {f : Forest} {s t t' : Session} {alwaysTwoSided : Bool} {l l' : List (Option Definition × Bool)}
  {ds ds' : List Document} {key : String}

/-- The invariant of a run over the materials: what a material adds is what it has alone, behind what is there. -/
theorem firstUse_of_materials (hInputs : s.groupInputs = .empty) (hEmpty : s.textures = .empty)
    (hRun : outcome (l.mapM fun x => document x.1 x.2 alwaysTwoSided) f s.rewound = (.ok ds, t)) :
    (∀ key, t.textures.get? key = s.firstUse f alwaysTwoSided l key) ∧ t.curveCount = s.curvesOf f alwaysTwoSided l := by
  induction l using List.reverseRecOn generalizing ds t with
  | nil =>
    rw [mapM_nil] at hRun
    cases hRun
    refine ⟨fun key => ?_, rfl⟩
    change s.textures.get? key = none
    rw [hEmpty]
    rfl
  | append_singleton l m ih =>
    rw [mapM_append, mapM_cons] at hRun
    obtain ⟨_, u, hBefore, hRun⟩ := outcome_bind_eq_ok hRun
    obtain ⟨_, v, hRun, hEnd⟩ := outcome_bind_eq_ok hRun
    obtain ⟨d, t, hOne, hRun⟩ := outcome_bind_eq_ok hRun
    cases hRun
    cases hEnd
    obtain ⟨hUses, hCount⟩ := ih hBefore
    obtain ⟨_, w, hAlone, -, hShifted⟩ := document_raised (s := s.rewound) hInputs rfl
      (Stores.lasting_true.of_materials trivial hBefore).1 hOne
    obtain rfl : s.after f alwaysTwoSided m = w := congrArg Prod.snd hAlone
    constructor
    · intro key
      rw [show t.textures.get? key = _ from hShifted.stores hEmpty key, hUses, firstUse, firstUse,
        findSome?_append, findSome?_singleton]
      rfl
    · rw [show t.curveCount = _ from hShifted.curveCount, show (raised s.rewound u).amount = _ from hCount]
      simp only [curvesOf, map_append, sum_append, map_singleton, sum_singleton]
      exact Nat.add_comm _ _

theorem textures_of_documents (hInputs : s.groupInputs = .empty) (hEmpty : s.textures = .empty)
    (hRun : outcome (documents l alwaysTwoSided) f s = (.ok ds, t)) :
    (∀ key, t.textures.get? key =
      (s.firstUse f alwaysTwoSided l key).or (s.curvesEntry (s.curvesOf f alwaysTwoSided l) key)) ∧
    ∀ key e, s.firstUse f alwaysTwoSided l key = some e →
      e.name = key ∧ legal (s.images[e.image]?.getD default).name = .ok key := by
  obtain ⟨u, hMaterials, hClosed, -⟩ := materials_of_documents hRun
  obtain ⟨hUses, hCount⟩ := firstUse_of_materials hInputs hEmpty hMaterials
  have hBare : Stores.Named s.images s.rewound.stores := by
    intro key e hGet
    rw [show s.rewound.stores.textures = _ from hEmpty] at hGet
    cases hGet
  obtain ⟨hAround, hNamed⟩ := Stores.lasting_named.of_materials hBare hMaterials
  refine ⟨fun key => ?_, fun key e hUse => hNamed key e ((hUses key).trans hUse)⟩
  have hPlace : u.curvesPlace = s.curvesPlace := by
    have hImages : u.images = s.images := congrArg Around.images hAround
    have hHost : u.hostImages = s.hostImages := congrArg Around.hostImages hAround
    simp only [curvesPlace, hImages, hHost]
  rw [hClosed, get?_closed, hUses, hCount]
  simp only [curvesEntry, hPlace]

theorem firstUse_isSome_of_perm (h : l.Perm l') :
    (s.firstUse f alwaysTwoSided l key).isSome = (s.firstUse f alwaysTwoSided l' key).isSome := by
  rw [Bool.eq_iff_iff]
  simp only [firstUse, findSome?_isSome_iff, h.mem_iff]

/-- The orders of the same materials give the same images under the same keys. The hint is that of the
first material to use the image, so the textures are the same only if the orders agree in it. -/
theorem textures_of_permuted (hInputs : s.groupInputs = .empty) (hEmpty : s.textures = .empty)
    (hApart : ∀ (i j : Nat) name, legal (s.images[i]?.getD default).name = .ok name →
      legal (s.images[j]?.getD default).name = .ok name → i = j)
    (hPerm : l.Perm l') (hRun : outcome (documents l alwaysTwoSided) f s = (.ok ds, t))
    (hRun' : outcome (documents l' alwaysTwoSided) f s = (.ok ds', t')) (key : String) :
    (t.textures.get? key).map (·.image) = (t'.textures.get? key).map (·.image) ∧
    t.textures.get? key = (s.firstUse f alwaysTwoSided l key).or (s.curvesEntry (s.curvesOf f alwaysTwoSided l) key) ∧
    (t.textures.get? key = t'.textures.get? key ↔
      (s.firstUse f alwaysTwoSided l key).map (·.hint) = (s.firstUse f alwaysTwoSided l' key).map (·.hint)) := by
  obtain ⟨hGet, hNamed⟩ := textures_of_documents hInputs hEmpty hRun
  obtain ⟨hGet', hNamed'⟩ := textures_of_documents hInputs hEmpty hRun'
  have hCurves : s.curvesOf f alwaysTwoSided l = s.curvesOf f alwaysTwoSided l' := (hPerm.map _).sum_nat
  have hSome : (s.firstUse f alwaysTwoSided l key).isSome = (s.firstUse f alwaysTwoSided l' key).isSome :=
    firstUse_isSome_of_perm hPerm
  rw [hGet, hGet', ← hCurves]
  cases hUse : s.firstUse f alwaysTwoSided l key with
  | none =>
    rw [hUse] at hSome
    rw [not_isSome_iff_eq_none.mp (Bool.eq_false_iff.mp hSome.symm)]
    exact ⟨rfl, rfl, iff_of_true rfl rfl⟩
  | some e =>
    rw [hUse] at hSome
    obtain ⟨e', hUse'⟩ := isSome_iff_exists.mp hSome.symm
    obtain ⟨hName, hLegal⟩ := hNamed key e hUse
    obtain ⟨hName', hLegal'⟩ := hNamed' key e' hUse'
    have hImage : e.image = e'.image := hApart _ _ key hLegal hLegal'
    rw [hUse']
    refine ⟨congrArg some hImage, rfl, ?_⟩
    simp [Texture.Entry.ext_iff, hName, hName', hImage]

end Orders

open SceneExchange.Workload

/-- A material that takes its color from an image, and one that takes its normals from the same image. -/
def paintForest : Forest where
  trees :=
    let diffuse := node "BSDF_DIFFUSE" [sand "Color", half "Roughness", computed "Normal"] [shader "BSDF"]
    #[tree [outputNode, diffuse, imageNode "FLAT" 0] [⟨1, 0, 0, 0⟩, ⟨2, 0, 1, 0⟩],
      tree [outputNode, diffuse, node "NORMAL_MAP" [half "Strength", sand "Color"] [computed "Normal"],
        imageNode "FLAT" 0] [⟨1, 0, 0, 0⟩, ⟨2, 0, 1, 2⟩, ⟨3, 0, 2, 1⟩]]

def paintMaterials : List (Option Definition × Bool) :=
  [(some (definition "Paint" 0), true), (some (definition "Relief" 1), true)]

def paintSession : Session := { images := #[image 0] }

/-- The image is a color if the painted material is first, and else a normal. -/
theorem textures_of_paint : ∃ ds t ds' t',
    outcome (documents paintMaterials false) paintForest paintSession = (.ok ds, t) ∧
    outcome (documents paintMaterials.reverse false) paintForest paintSession = (.ok ds', t') ∧
    (t.textures.get? "img_0_png").map (·.image) = (t'.textures.get? "img_0_png").map (·.image) ∧
    t.textures.get? "img_0_png" = some ⟨"img_0_png", 0, "SRGB"⟩ ∧
    t.textures.get? "img_0_png" ≠ t'.textures.get? "img_0_png" := by
  obtain ⟨ds, hRun⟩ := exists_ok_of_isOk (x := outcome (documents paintMaterials false) paintForest paintSession)
    (by decide +kernel)
  obtain ⟨ds', hRun'⟩ := exists_ok_of_isOk
    (x := outcome (documents paintMaterials.reverse false) paintForest paintSession) (by decide +kernel)
  have hApart : ∀ (i j : Nat) name, legal (paintSession.images[i]?.getD default).name = .ok name →
      legal (paintSession.images[j]?.getD default).name = .ok name → i = j := by
    intro i j name hi hj
    cases i with
    | succ i => cases hi
    | zero =>
      cases j with
      | succ j => cases hj
      | zero => rfl
  obtain ⟨hImage, hFirst, hSame⟩ := textures_of_permuted rfl rfl hApart
    (reverse_perm paintMaterials).symm hRun hRun' "img_0_png"
  refine ⟨ds, _, ds', _, hRun, hRun', hImage, hFirst.trans ?_, mt hSame.mp ?_⟩
  · decide +kernel
  · decide +kernel

end SceneExchange.Material
