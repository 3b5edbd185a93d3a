import SceneExchange.Proofs.Documents
import SceneExchange.Workload.Materials

/-!
# Materials of one run do not show in each other

A run numbers the curves of all its materials in one sequence. Apart from these numbers the
document of a material is the one that it has when it is the only material.
-/

namespace SceneExchange.Material

open SceneExchange.Graph Compile Material.Frame Likeness List Around

section Materials

variable {α β : Type} {f : Forest} {s t u : Session} {g : α → Compile β} {alwaysTwoSided : Bool}

theorem length_of_mapM {xs : List α} {ys : List β} (h : outcome (xs.mapM g) f s = (.ok ys, t)) :
    ys.length = xs.length := by
  induction xs generalizing s ys with
  | nil =>
    rw [mapM_nil] at h
    cases h
    rfl
  | cons x xs ih =>
    rw [mapM_cons] at h
    obtain ⟨y, u, -, hRest⟩ := outcome_bind_eq_ok h
    obtain ⟨rest, v, hRest, hEnd⟩ := outcome_bind_eq_ok hRest
    cases hEnd
    rw [length_cons, length_cons, ih hRest]

theorem mapM_split {xs : List α} {ys : List β} (h : outcome (xs.mapM g) f s = (.ok ys, t)) {i : Nat}
    (hi : i < xs.length) : ∃ before u y v, outcome ((xs.take i).mapM g) f s = (.ok before, u) ∧
      outcome (g xs[i]) f u = (.ok y, v) ∧ ys[i]? = some y := by
  rw [← take_append_drop i xs, drop_eq_getElem_cons hi, mapM_append, mapM_cons] at h
  obtain ⟨before, u, hBefore, h⟩ := outcome_bind_eq_ok h
  obtain ⟨after, t, h, hEnd⟩ := outcome_bind_eq_ok h
  obtain ⟨y, v, hOne, h⟩ := outcome_bind_eq_ok h
  obtain ⟨rest, t, -, h⟩ := outcome_bind_eq_ok h
  cases h
  cases hEnd
  refine ⟨before, u, y, v, hBefore, hOne, ?_⟩
  have hLength : before.length = i := by
    rw [length_of_mapM hBefore, length_take, Nat.min_eq_left (Nat.le_of_lt hi)]
  rw [getElem?_append_right (Nat.le_of_eq hLength), hLength, Nat.sub_self]
  rfl

variable {l : List (Option Definition × Bool)} {ds : List Document}

theorem Stores.Lasting.of_materials {exact : Prop} {p : Stores → Prop} (h : Lasting exact s.images p) (hp : p s.stores)
    (hRun : outcome (l.mapM fun x => document x.1 x.2 alwaysTwoSided) f s = (.ok ds, t)) :
    t.around = s.around ∧ p t.stores := by
  have hBetween : Between (unshifted s.contexts h) ⟨s.around, s.contexts⟩ s s := by
    refine ⟨?_, fun _ => rfl⟩
    exact ⟨rfl, trivial, ⟨.nil, rfl, rfl, hp⟩, rfl, rfl, rfl, rfl, [], forall_mem_nil _, rfl⟩
  have hEnds := ends_materials (f := f) l alwaysTwoSided hBetween
  rw [hRun] at hEnds
  cases hEnds with
  | ok _ h => exact ⟨h.like.around, h.like.yields.stores.2⟩

theorem documents_of_materials
    (h : outcome (l.mapM fun x => document x.1 x.2 alwaysTwoSided) f s.rewound = (.ok ds, t)) :
    ∃ u, outcome (documents l alwaysTwoSided) f s = (.ok ds, u) ∧ u.curveCount = t.curveCount := by
  obtain ⟨u, hCurves, hCount, -⟩ := exists_enterCurveTexture
  refine ⟨u, ?_, hCount⟩
  rw [outcome_documents, outcome_bind_ok h, outcome_bind_ok hCurves]
  rfl

theorem materials_of_documents (h : outcome (documents l alwaysTwoSided) f s = (.ok ds, t)) :
    ∃ u, outcome (l.mapM fun x => document x.1 x.2 alwaysTwoSided) f s.rewound = (.ok ds, u) ∧
      t.textures = u.closed ∧ t.curveCount = u.curveCount ∧ t.curveRows = u.curveRows := by
  rw [outcome_documents] at h
  obtain ⟨ds, u, hRun, h⟩ := outcome_bind_eq_ok h
  obtain ⟨v, hCurves, hCount, hRows, hTextures⟩ := exists_enterCurveTexture
  rw [outcome_bind_ok hCurves] at h
  cases h
  exact ⟨u, hRun, hTextures, hCount, hRows⟩

/-- How a material in a run differs from the material alone: its curves have higher numbers. If there were no
textures, those of the run are the ones before it and then those that it has alone. -/
def raised (s t : Session) : Shift where
  amount := t.curveCount
  exact := False
  outer := t.contexts
  images := t.images
  stores c c' := s.textures = .empty → ∀ key, c.textures.get? key = (t.textures.get? key).or (c'.textures.get? key)
  eq_of_exact := False.elim
  counted _ := id
  baked _ _ _ := id
  entered {c c' name image hint} _ h hBare key := by
    change (Texture.enter c.textures ..).1.get? key = _
    rw [Texture.get?_enter, h hBare, Option.or_assoc, ← Texture.get?_enter]
    rfl

theorem document_raised {m : Option Definition} {owned : Bool} {d : Document} (hInputs : s.groupInputs = .empty)
    (hCount : s.curveCount = 0) (hAround : t.around = s.around)
    (hRun : outcome (document m owned alwaysTwoSided) f t = (.ok d, u)) :
    ∃ d' v, outcome (document m owned alwaysTwoSided) f s = (.ok d', v) ∧ d.Raised t.curveCount d' ∧
      Shifted (raised s t) u.yield v.yield := by
  have hContexts : t.contexts = s.contexts := congrArg contexts hAround
  have hLike : Like (raised s t) (fun _ _ => True) ⟨t.around, s.contexts⟩ t.begun s.begun := by
    refine ⟨?_, trivial, ⟨.nil, ?_, fun hBare key => ?_⟩, rfl, rfl, congrArg _ hContexts, rfl, [],
      forall_mem_nil _, rfl⟩
    · have hInputs : t.groupInputs = s.groupInputs := congrArg inputs hAround
      have hImages : t.images = s.images := congrArg images hAround
      have hHost : t.hostImages = s.hostImages := congrArg Around.hostImages hAround
      simp only [Session.core, Session.begun, hInputs, hImages, hHost]
    · change t.curveCount = s.curveCount + t.curveCount
      rw [hCount, Nat.zero_add]
    · change t.textures.get? key = _
      rw [show s.begun.yield.textures = .empty from hBare]
      exact Option.or_none.symm
  have hBetween : Between (raised s t) ⟨t.around, s.contexts⟩ t s := by
    refine ⟨hLike, fun hEmpty => ?_⟩
    rw [hAround, show s.around.inputs = _ from hInputs] at hEmpty
    cases hEmpty
  have hEnds := ends_document (f := f) m owned alwaysTwoSided hBetween
  rw [hRun] at hEnds
  generalize hAlone : outcome (document m owned alwaysTwoSided) f s = x at hEnds
  cases hEnds with
  | ok hRaised hLike => exact ⟨_, _, rfl, hRaised, hLike.yields⟩

/-- Each document of a run is that of its material alone, with the numbers of curves raised by as
many as the materials before it have. -/
theorem documents_apart (hInputs : s.groupInputs = .empty)
    (hRun : outcome (documents l alwaysTwoSided) f s = (.ok ds, t)) :
    ds.length = l.length ∧ ∀ i, (hi : i < l.length) → ∃ before u alone v d,
      outcome (documents (l.take i) alwaysTwoSided) f s = (.ok before, u) ∧
      outcome (documents [l[i]] alwaysTwoSided) f s = (.ok [alone], v) ∧
      ds[i]? = some d ∧ d.Raised u.curveCount alone := by
  obtain ⟨t', hMaterials, -⟩ := materials_of_documents hRun
  refine ⟨length_of_mapM hMaterials, fun i hi => ?_⟩
  obtain ⟨before, u, d, v, hBefore, hOne, hGet⟩ := mapM_split hMaterials hi
  obtain ⟨u', hPrevious, hCount⟩ := documents_of_materials hBefore
  obtain ⟨alone, v', hAlone, hRaised, -⟩ := document_raised (s := s.rewound) hInputs rfl
    (Stores.lasting_true.of_materials trivial hBefore).1 hOne
  have hSingle : outcome ([l[i]].mapM fun x => document x.1 x.2 alwaysTwoSided) f s.rewound = (.ok [alone], v') := by
    rw [mapM_cons, outcome_bind_ok hAlone, mapM_nil]
    rfl
  obtain ⟨v'', hLone, -⟩ := documents_of_materials hSingle
  exact ⟨before, u', alone, v'', d, hPrevious, hLone, hGet, hCount ▸ hRaised⟩

end Materials

open SceneExchange.Workload

def rampForest : Forest where
  trees := #[tree [outputNode,
      node "BSDF_DIFFUSE" [sand "Color", half "Roughness", computed "Normal"] [shader "BSDF"], rampNode]
    [⟨1, 0, 0, 0⟩, ⟨2, 0, 1, 0⟩]]

def rampMaterials : List (Option Definition × Bool) :=
  [(some (definition "Sunset" 0), true), (some (definition "Sunrise" 0), true)]

/-- The ramp of the first material has the number zero, that of the second one the number one. -/
theorem documents_apart_ramps : ({} : Session).groupInputs = .empty ∧
    ∃ ds t, outcome (documents rampMaterials false) rampForest {} = (.ok ds, t) ∧
      ∃ alone v d, outcome (documents [(some (definition "Sunrise" 0), true)] false) rampForest {} =
        (.ok [alone], v) ∧ ds[1]? = some d ∧ d.Raised 1 alone := by
  have hReturns : (outcome (documents rampMaterials false) rampForest {}).1.isOk = true := by decide +kernel
  have hOne : (outcome (documents (rampMaterials.take 1) false) rampForest {}).2.curveCount = 1 := by
    decide +kernel
  generalize hRun : outcome (documents rampMaterials false) rampForest {} = x at hReturns
  obtain ⟨r, t⟩ := x
  cases r with
  | error e => cases hReturns
  | ok ds =>
    obtain ⟨-, hApart⟩ := documents_apart rfl hRun
    obtain ⟨before, u, alone, v, d, hBefore, hAlone, hGet, hRaised⟩ := hApart 1 (by decide)
    rw [hBefore] at hOne
    exact ⟨rfl, ds, t, rfl, alone, v, d, hAlone, hGet, hOne ▸ hRaised⟩

end SceneExchange.Material
