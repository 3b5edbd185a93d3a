import SceneExchange.Proofs.Lines

/-!
# What becomes of an actor

An actor is drafted for an object. From then on a walk describes it as a light, a camera or a probe,
shows a mesh in it with materials of its own, lists an instance of a mesh with it, or turns it. Nothing
else happens to an actor, so whatever all of these keep holds of every actor of every walk.
-/

namespace SceneExchange.Scene

open Walking

def IsPlacement (text : String) : Prop := ∃ p, text = placementText p

theorem isPlacement_of_transformText {s : Scene} {o : Object} {m : Geometry.Matrix Float} {t : String}
    (h : s.transformText o m = .ok t) : IsPlacement t := by
  obtain ⟨m', -, ⟨⟩⟩ := bind_eq_ok.mp h
  exact ⟨m'.decompose, rfl⟩

structure Placed.Stands (p : Placed) : Prop where
  below : IsPlacement p.below
  world : IsPlacement p.world
  materials : ∀ {lines line}, p.materials = some lines → line ∈ lines → ∃ i name, line = materialLine "\t\t\t" i name

inductive Grown (s : Scene) : ActorHead → Prop
  | drafted {x : Nat} {name transform : String} {layer : Option String} (placed : IsPlacement transform) :
      Grown s { name := name, layer := layer, transform := transform,
                attributes := [" visible=\"" ++ visibility (s.object x) ++ "\""] }
  | described {h : ActorHead} {d : Description} (grown : Grown s h) (told : d.Told) : Grown s (h.telling d)
  | shown {h : ActorHead} {mesh : String} (grown : Grown s h) : Grown s (h.showing mesh)
  | painted {h : ActorHead} {ps : List Paint} (grown : Grown s h) : Grown s (h.painted ps)
  | listed {h : ActorHead} {mesh : String} {p : Placed} (grown : Grown s h) (stands : p.Stands) :
      Grown s { h with instances := h.instances.insert mesh ((h.instances.get? mesh).getD [] ++ [p]) }
  | turned {h : ActorHead} {transform : String} (grown : Grown s h) (placed : IsPlacement transform) :
      Grown s { h with transform := transform }

def Walk.Grown (s : Scene) (w : Walk) : Prop := w.Heads (Scene.Grown s)

section Grown

variable {s : Scene} {w w' : Walk}

/-! ## The parts of a visit -/

def Raises (s : Scene) (w w' : Walk) : Prop := w.Grown s → w'.Grown s

instance : IsPreorder Walk (Raises s) where
  refl _ := id
  trans _ _ _ h h' := h' ∘ h

theorem hanging_raises : Hanging s (Raises s) where
  draft _ _ hDrafted h := by
    cases hDrafted with
    | intro text => exact h.push (.drafted (isPlacement_of_transformText text))
  named _ _ h := h.of_drafts rfl
  roots _ _ h := h.of_drafts rfl
  children _ m _ h := h.modify m fun _ _ => id

theorem grown_findActor {x : Nat} {own : Option String} {parent : Option Nat} (h : w.Grown s) :
    Ends (findActor x own parent) s w fun _ w' => w'.Grown s :=
  (hanging_raises.findActor w).imp fun _ _ hRaises => hRaises h

theorem grown_meshName {x : Nat} (h : w.Grown s) : Ends (meshName x) s w fun _ w' => w'.Grown s :=
  fun _ _ hRun => h.of_drafts (congrArg Prod.fst (board_meshName hRun))

theorem exists_of_paints {lead : String} {ps : List Paint} :
    ∀ line ∈ ps.map (Paint.line lead), ∃ i name, line = materialLine lead i name := by
  intro line hLine
  obtain ⟨p, -, rfl⟩ := List.mem_map.mp hLine
  exact ⟨p.slot, p.name, rfl⟩

theorem grown_described {n x : Nat} (h : w.Grown s) (hDescribed : Described s n x w w') : w'.Grown s := by
  cases hDescribed with
  | unnamed _ answer => exact grown_meshName h _ w' answer
  | @mesh mesh u ps _ answer =>
    have hShowing := (grown_meshName h _ u answer).withHead n (f := .showing mesh) fun _ => .shown
    exact Walk.Heads.withHead (hShowing.of_drafts rfl) n fun _ => .painted
  | @told d _ _ told => exact (h.withHead n (f := .telling d) fun _ hHead => .described hHead told).of_drafts rfl
  | silent => exact h.of_drafts rfl

theorem grown_place {i : Instance} {j : Nat} {mesh : String} (h : w.Grown s) (hLodged : Lodged s i j mesh w w') :
    w'.Grown s := by
  obtain @⟨p, n, u, v, below, world, materials, -, found, gathered, shows⟩ := hLodged
  obtain ⟨_, _, _, _, -, -, -, -, hBelow, hWorld⟩ := shows
  have hu : u.Grown s := grown_findActor h n u found
  have hMaterials : ∀ {lines line}, materials = some lines → line ∈ lines →
      ∃ i name, line = materialLine "\t\t\t" i name := by
    intro lines line hLines
    cases gathered with
    | later => cases hLines
    | first =>
      cases hLines
      exact exists_of_paints line
  refine Walk.Heads.of_drafts (w := u.listing n mesh _) (hu.modify n fun d hd hGrown => ?_)
    (congrArg Prod.fst (gathered.board_listing _))
  rw [listed_outline, hd]
  exact .listed hGrown ⟨isPlacement_of_transformText hBelow, isPlacement_of_transformText hWorld, hMaterials⟩

/-! ## Walks -/

theorem Walk.Grown.step {groups selectedOnly : Bool} {k : Nat} {i : Instance} (h : w.Grown s)
    (hVisit : Visited groups selectedOnly s k i w w') : w'.Grown s := by
  cases hVisit with
  | passed => exact h
  | @listed x j mesh w₁ _ _ _ _ _ answer lodged => exact grown_place (grown_meshName h _ w₁ answer) lodged
  | @shown x own parent n w₁ w₂ w₃ _ _ _ unlisted _ found turned described =>
    have hUnlisted : w₁.Grown s := by
      cases unlisted with
      | unasked => exact h
      | asked _ _ answer => exact grown_meshName h _ w₁ answer
    have hFound : w₂.Grown s := grown_findActor hUnlisted n w₂ found
    have hTurned : w₃.Grown s := by
      obtain rfl | ⟨m, t, hText, rfl⟩ := turned
      · exact hFound
      · exact hFound.withHead n fun head hHead => .turned hHead (isPlacement_of_transformText hText)
    exact grown_described hTurned described

theorem grown_of_walk {groups selectedOnly : Bool} (hWalk : outcome (walkAll groups selectedOnly) s {} = (.ok (), w)) :
    w.Grown s :=
  walk_induction (P := fun _ w => w.Grown s) (fun hVisit h => h.step hVisit) (by intro n d hd; simp at hd) hWalk

end Grown

end SceneExchange.Scene
