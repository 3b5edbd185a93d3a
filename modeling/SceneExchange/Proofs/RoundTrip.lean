import SceneExchange.Proofs.Portraits

/-!
# Actors that are written and read

The text of an actor is one row. It can be read just if no actor in it, at whatever depth, has two
attributes of one key, and then it is read as it was written. Objects whose names become one in the
document share an actor, which is how an actor comes to have an attribute twice.
-/

open List

namespace SceneExchange.Scene

open Actor ActorHead Walking

open Import (elements actorsIn ActorData ActorPart isActor Recursive.actor? Recursive.actors? Importing.actorStep?)
open Import (Mark)
open Import.Importing (result actor)
open Markup (Head Sight Clean Rows isName isSpace)

/-! ## Start tags -/

def layerAttributes : Option String → List (String × String)
  | some layer => if layer.isEmpty then [] else [("layer", layer)]
  | none => []

def ActorHead.start (h : ActorHead) (as : List (String × String)) : Head :=
  ⟨h.tag, ("name", h.name) :: (layerAttributes h.layer ++ as)⟩

section Start

variable {s : Scene} {h : ActorHead} {as : List (String × String)}

theorem toList_attributeText (a : String × String) : (attributeText a).toList = Head.attributeChars a := by
  simp [attributeText, Head.attributeChars, Text.doubleQuote]

theorem toList_openTag (indent : String) (h : ActorHead) (as : List (String × String)) :
    (openTag indent h.tag h.name h.layer ++ String.join (as.map attributeText)).toList =
      indent.toList ++ (h.start as).chars := by
  have hJoin : (String.join (as.map attributeText)).toList = as.flatMap Head.attributeChars := by
    rw [String.toList_join, flatMap_map]
    simp only [toList_attributeText]
  rw [String.toList_append, hJoin]
  cases hLayer : h.layer with
  | none => simp [openTag, layerText, start, hLayer, layerAttributes, Head.chars, Head.attributeChars,
      Text.doubleQuote]
  | some layer =>
    by_cases hEmpty : layer.isEmpty <;>
      simp [openTag, layerText, start, hLayer, layerAttributes, Head.chars, Head.attributeChars,
        Text.doubleQuote, hEmpty]

theorem mem_layerAttributes {layer : Option String} {a : String × String} (ha : a ∈ layerAttributes layer) :
    a.1 = "layer" ∧ a.2 ∈ layer.toList := by
  cases layer with
  | none => cases ha
  | some layer =>
    rw [layerAttributes] at ha
    split at ha
    · cases ha
    · obtain rfl := mem_singleton.mp ha
      simp

theorem isClean_start (hOrdinary : h.Ordinary) (hAttributes : ∀ a ∈ as, IsAttribute s a)
    (hVisible : ∀ x, Clean (visibility (s.object x))) : (h.start as).IsClean := by
  have hNames : ∀ tag ∈ ["Actor", "ActorMesh", "Camera", "Light"], isName tag := by decide +kernel
  have hKeys : IsKey "name" ∧ IsKey "layer" := by decide +kernel
  have hTexts : Clean h.name ∧ ∀ t ∈ h.layer.toList, Clean t := by
    refine ⟨hOrdinary.texts _ (by simp [texts]), fun t ht => hOrdinary.texts _ ?_⟩
    simp [texts, Option.mem_toList.mp ht]
  refine ⟨hNames _ (mem_of_isActor hOrdinary.kind), ?_, ?_⟩
  · simp only [start, forall_mem_cons, forall_mem_append]
    refine ⟨hKeys.1, fun a ha => ?_, fun a ha => (hAttributes a ha).isKey.1⟩
    rw [(mem_layerAttributes ha).1]
    exact hKeys.2
  · simp only [start, forall_mem_cons, forall_mem_append]
    exact ⟨hTexts.1, fun a ha => hTexts.2 _ (mem_layerAttributes ha).2, fun a ha => (hAttributes a ha).clean hVisible⟩

theorem distinct_start (hSame : h.attributes = as.map attributeText) (hAttributes : ∀ a ∈ as, IsAttribute s a) :
    (h.start as).Distinct ↔ h.Singular := by
  have hKeys : h.attributes.map keyOf = as.map Prod.fst := by
    rw [hSame, map_map]
    exact map_congr_left fun a ha => keyOf_attributeText (hAttributes a ha)
  have hOther : "name" ∉ as.map Prod.fst ∧ "layer" ∉ as.map Prod.fst := by
    constructor
    all_goals
      intro hMem
      obtain ⟨a, ha, hKey⟩ := mem_map.mp hMem
      exact (hAttributes a ha).isKey.2 (by simp [hKey])
  rw [ActorHead.Singular, hKeys, Head.Distinct, start]
  cases hLayer : h.layer with
  | none => simp [layerAttributes, hOther.1]
  | some layer =>
    by_cases hEmpty : layer.isEmpty
    · simp [layerAttributes, hEmpty, hOther.1]
    · simp [layerAttributes, hEmpty, hOther.1, hOther.2]

theorem lightKind?_start {e : Import.Element} (hSame : h.attributes = as.map attributeText)
    (hAttributes : ∀ a ∈ as, IsAttribute s a) (hLight : h.kind = some "Light" → (as.lookup "type").isSome)
    (hTag : e.1.name = h.tag) (hStart : e.1.attributes = (h.start as).attributes) :
    Import.Recursive.lightKind? e.1 = some h.lightKind? := by
  rw [Import.Recursive.lightKind?, lightKind?, hTag]
  by_cases hKind : h.tag = "Light"
  · have hType : e.1.attribute? "type" = as.lookup "type" := by
      rw [Markup.Tag.attribute?, hStart, start]
      cases hLayer : h.layer with
      | none => rfl
      | some layer => by_cases hEmpty : layer.isEmpty <;> simp [layerAttributes, hEmpty, List.lookup_cons]
    have hSome : h.kind = some "Light" := by
      rw [tag] at hKind
      cases hk : h.kind with
      | none =>
        rw [hk] at hKind
        revert hKind
        decide
      | some k =>
        rw [hk] at hKind
        exact congrArg some hKind
    obtain ⟨t, ht⟩ := Option.isSome_iff_exists.mp (hLight hSome)
    rw [if_pos (by simpa using hKind), if_pos hKind, hType, ht, hSame, findSome?_lightOf? hAttributes, ht]
    rfl
  · rw [if_neg (by simpa using hKind), if_neg hKind]
    rfl

end Start

/-! ## Actors -/

namespace Actor

mutual

def heads : Actor → List ActorHead
  | .mk h children => h :: headsOf children

def headsOf : List Actor → List ActorHead
  | [] => []
  | a :: rest => heads a ++ headsOf rest

end

theorem headsOf_eq_flatMap (l : List Actor) : headsOf l = l.flatMap heads := by
  induction l with
  | nil => rfl
  | cons a l ih => rw [headsOf, ih, flatMap_cons]

end Actor

def portrait (a : Actor) : Sight where
  readable := ∀ h ∈ a.heads, h.Singular
  shows e := ∃ b, Recursive.actor? (.element e.1 e.2) = some b ∧ Mirrors a e b

def belowSights (h : ActorHead) (children : List Actor) : List Sight :=
  if children.isEmpty && h.instances.isEmpty then []
  else [Head.sightAround ⟨"children", []⟩ (children.map portrait ++ h.instances.entries.map (stackSight h.name))]

section Actors

variable {s : Scene} {h : ActorHead} {children : List Actor} {indent : String}

theorem rows_allInstancesText (hIndent : isBlank indent) (hFormed : h.Formed s) (hOrdinary : h.Ordinary) :
    Rows (allInstancesText indent h.name h.transform h.instances)
      (h.instances.entries.map (stackSight h.name)) := by
  refine Markup.rows_nil.foldl ?_
  rw [forall₂_map_right_iff, forall₂_same]
  rintro ⟨mesh, ps⟩ hMem
  have hTexts : ∀ t ∈ mesh :: ps.flatMap (fun p => (p.materials.getD []).flatMap textsOf), Clean t := by
    intro t ht
    refine hOrdinary.texts t ?_
    simp only [texts, mem_cons, mem_append, mem_flatMap]
    exact .inr (.inr (.inr ⟨_, hMem, by simpa using ht⟩))
  obtain ⟨hMesh, hMaterials⟩ := forall_mem_cons.mp hTexts
  have hName : Clean h.name := hOrdinary.texts _ (by simp [texts])
  obtain ⟨hSome, hStands⟩ := hFormed.instances hMem
  refine rows_instancesText hIndent hName hMesh hFormed.transform hSome hStands fun p hp line hLine t ht => ?_
  exact hMaterials t (mem_flatMap.mpr ⟨p, hp, mem_flatMap.mpr ⟨line, hLine, ht⟩⟩)

theorem rows_below (hIndent : isBlank indent) (hFormed : h.Formed s) (hOrdinary : h.Ordinary)
    (hChildren : Rows (renderAll (indent ++ "\t\t") children) (children.map portrait)) :
    Rows (if children.isEmpty && h.instances.isEmpty then ""
      else indent ++ "\t<children>\n" ++ renderAll (indent ++ "\t\t") children ++
        allInstancesText indent h.name h.transform h.instances ++ indent ++ "\t</children>\n")
      (belowSights h children) := by
  unfold belowSights
  split
  · exact Markup.rows_nil
  · have hTab : isBlank (indent ++ "\t") := isBlank_append hIndent (isBlank_tabs _ (by simp))
    have hName : isName "children" := by decide +kernel
    refine Markup.rows_around ⟨hName, by simp, by simp⟩ hTab hTab
      (hChildren.append (rows_allInstancesText hIndent hFormed hOrdinary)) ?_
    simp [Head.chars]

theorem readable_belowSights :
    (∀ x ∈ belowSights h children, x.readable) ↔ ∀ h ∈ headsOf children, h.Singular := by
  unfold belowSights
  split
  · next hEmpty =>
    rw [Bool.and_eq_true, List.isEmpty_iff] at hEmpty
    simp [hEmpty.1, headsOf]
  · rw [forall_mem_singleton, Head.sightAround]
    change (List.Nodup [] ∧ ∀ x ∈ _, Sight.readable x) ↔ _
    rw [forall_mem_append, headsOf_eq_flatMap]
    simp only [nodup_nil, forall_mem_map, mem_flatMap, portrait, stackSight, true_and, implies_true, and_true]
    exact ⟨fun hAll h ⟨a, ha, hh⟩ => hAll a ha h hh, fun hAll a ha h hh => hAll h ⟨a, ha, hh⟩⟩

theorem of_eq_children_iff {tag part : String} : ActorPart.of tag part = .children ↔ isActor tag ∧ part = "children" := by
  constructor
  · intro hPart
    by_cases hTag : isActor tag
    · refine ⟨hTag, ?_⟩
      unfold ActorPart.of at hPart
      split at hPart
      · cases hPart
      · split at hPart
        · cases hPart
        · split at hPart
          · next hChildren => exact eq_of_beq hChildren
          · split at hPart
            · cases hPart
            · split at hPart <;> cases hPart
    · rw [of_eq_other hTag] at hPart
      cases hPart
  · rintro ⟨hTag, rfl⟩
    exact (kinds_of_words tag (mem_of_isActor hTag)).2.2.2.2.2.2

theorem Line.ne_children {line : String} {head : Head} (h : Line line head) : head.name ≠ "children" := by
  have hNumbers : ∀ tag ∈ numberTags, tag ≠ "children" := by decide
  cases h with
  | mesh => simp
  | material => simp
  | fact isFact =>
    cases isFact with
    | number isNumber => exact hNumbers _ isNumber
    | _ => simp

def actorsOf (tag : String) (part : Import.Element) : List Import.Element :=
  if ActorPart.of tag part.1.name = .children then elements part.2 else []

theorem actorsIn_eq (tag : String) (inside : List Markup.Tree) :
    actorsIn tag inside = (elements inside).flatMap (actorsOf tag) := by
  refine congrArg (fun f => (elements inside).flatMap f) (funext fun part => ?_)
  unfold actorsOf
  cases ActorPart.of tag part.1.name <;> rfl

theorem actorsOf_eq_nil {tag : String} {part : Import.Element} (hName : part.1.name ≠ "children") : actorsOf tag part = [] :=
  if_neg fun hPart => hName (of_eq_children_iff.mp hPart).2

theorem exists_below {cs : List Import.Element} (hTag : isActor h.tag)
    (hShows : Forall₂ (fun x e => x.shows e) (belowSights h children) cs) :
    ∃ front back : List (Import.Element × Import.Actor),
      (∀ data, cs.foldlM (Importing.actorStep? h.tag) (data, []) = some (data, (front ++ back).map Prod.snd)) ∧
      cs.flatMap (actorsOf h.tag) = (front ++ back).map Prod.fst ∧
      Forall₂ (fun c x => Mirrors c x.1 x.2) children front ∧
      Forall₂ (fun i x => Stacks h.name i x.1 x.2) h.instances.entries back := by
  unfold belowSights at hShows
  split at hShows
  · next hEmpty =>
    rw [Bool.and_eq_true, List.isEmpty_iff] at hEmpty
    cases hShows
    have hInstances : h.instances.entries = [] := List.isEmpty_iff.mp hEmpty.2
    rw [hEmpty.1, hInstances]
    exact ⟨[], [], fun data => rfl, rfl, .nil, .nil⟩
  · obtain ⟨c, ⟨hName, -, hInside⟩, rfl⟩ := exists_of_forall₂_singleton hShows
    obtain ⟨fs, bs, hSplit, hFront, hBack⟩ := exists_append_of_forall₂ hInside
    rw [forall₂_map_left_iff] at hFront hBack
    obtain ⟨front, rfl, hReadFront, hMirrors⟩ := exists_pairs hFront
    obtain ⟨back, rfl, hReadBack, hStacks⟩ := exists_pairs hBack
    have hPart : ActorPart.of h.tag c.1.name = .children := of_eq_children_iff.mpr ⟨hTag, hName⟩
    have hActors : Recursive.actors? c.2 = some ((front ++ back).map Prod.snd) := by
      rw [Import.Importing.actors?_eq_mapM, hSplit, mapM_append, hReadFront, hReadBack, map_append]
      rfl
    refine ⟨front, back, fun data => ?_, ?_, hMirrors, hStacks⟩
    · rw [foldlM_cons, Importing.actorStep?, hPart]
      simp [hActors]
    · simp [actorsOf, hPart, hSplit]

theorem mirrors_of_shows {as : List (String × String)} {heads : List Head} {placement : Geometry.Placement}
    {e : Import.Element} (hOrdinary : h.Ordinary) (hFields : Forall₂ Line h.fields heads)
    (hSame : h.attributes = as.map attributeText) (hAttributes : ∀ a ∈ as, IsAttribute s a)
    (hLight : h.kind = some "Light" → (as.lookup "type").isSome)
    (hShows : ((h.start as).sightAround
      (heads.map Head.sight ++ [(placementHead placement).sight] ++ belowSights h children)).shows e) :
    ∃ b, Recursive.actor? (.element e.1 e.2) = some b ∧ Mirrors (.mk h children) e b := by
  obtain ⟨hTag, hStart, hParts⟩ := hShows
  change e.1.name = h.tag at hTag
  obtain ⟨own, cs, hSplit, hOwn, hBelow⟩ := exists_append_of_forall₂ hParts
  obtain ⟨fs, ts, rfl, hLines, hTransforms⟩ := exists_append_of_forall₂ hOwn
  obtain ⟨t, hTransform, rfl⟩ := exists_of_forall₂_singleton hTransforms
  obtain ⟨front, back, hFold, hActors, hFront, hBack⟩ := exists_below hOrdinary.kind hBelow
  have hFills : Fills h.tag (fs ++ [t]) (h.fields ++ []) := (fills_lines hFields hLines).append (fills_placement hTransform)
  obtain ⟨data, hOwnFold, hTakes⟩ := hFills { name := h.name, kind := h.tag, lightKind := h.lightKind? } []
  have hName : e.1.attribute? "name" = some h.name := by
    rw [Markup.Tag.attribute?, hStart]
    exact lookup_cons_self
  refine ⟨.mk data ((front ++ back).map Prod.snd), ?_, .mk hTakes.name hTakes.kind ?_ hTakes.lightKind ?_ ?_ hFront hBack⟩
  · refine actor?_eq_some hName (lightKind?_start hSame hAttributes hLight hTag hStart) ?_
    rw [hTag, hSplit, List.foldlM_append, hOwnFold]
    exact hFold data
  · rw [hTakes.mesh, mesh?]
    simp
  · rw [hTakes.overrides, overrides]
    simp [overridesOf, Table.ofList]
  · have hNone : (fs ++ [t]).flatMap (actorsOf h.tag) = [] := by
      refine flatMap_eq_nil_iff.mpr fun x hx => actorsOf_eq_nil ?_
      obtain hx | hx := mem_append.mp hx
      · obtain ⟨y, hy, hShown⟩ := exists_mem_of_forall₂ hLines hx
        obtain ⟨head, hHead, rfl⟩ := mem_map.mp hy
        obtain ⟨line, -, hLine⟩ := exists_mem_of_forall₂ hFields hHead
        rw [hShown.1]
        exact hLine.ne_children
      · obtain rfl := mem_singleton.mp hx
        rw [hTransform.1]
        simp [placementHead]
    rw [actorsIn_eq, hTag, hSplit, flatMap_append, hActors, hNone, nil_append]

theorem rows_actor (hIndent : isBlank indent) (hVisible : ∀ x, Clean (visibility (s.object x)))
    (hFormed : h.Formed s) (hOrdinary : h.Ordinary)
    (hChildren : Rows (renderAll (indent ++ "\t\t") children) (children.map portrait)) :
    Rows (render indent (.mk h children)) [portrait (.mk h children)] := by
  obtain ⟨as, hSame, hAttributes, hLight⟩ := hFormed.attributes
  obtain ⟨heads, hFields⟩ := exists_forall₂ hFormed.fields
  obtain ⟨placement, hTransform⟩ := hFormed.transform
  have hTexts : ∀ line ∈ h.fields, ∀ t ∈ textsOf line, Clean t := by
    intro line hLine t ht
    refine hOrdinary.texts t ?_
    simp only [texts, mem_cons, mem_append, mem_flatMap]
    exact .inr (.inr (.inl ⟨line, hLine, ht⟩))
  have hTransformRow : Rows (indent ++ h.transform) [(placementHead placement).sight] := by
    rw [hTransform]
    exact (rows_placement placement).indent hIndent
  have hBody := ((rows_lines hIndent hFields hTexts).append hTransformRow).append
    (rows_below hIndent hFormed hOrdinary hChildren)
  have hRow : Rows (render indent (.mk h children)) [Head.sightAround _ _] := Markup.rows_around
    (isClean_start hOrdinary hAttributes hVisible) hIndent hIndent hBody (by
      have hOpen := toList_openTag indent h as
      rw [← hSame, String.toList_append] at hOpen
      have hName : (h.start as).name = h.kind.getD plainTag := rfl
      simp only [render, String.toList_append, hName]
      rw [show openTag indent (h.kind.getD plainTag) h.name h.layer =
        openTag indent h.tag h.name h.layer from rfl, hOpen]
      simp)
  refine hRow.imp ?_ fun e hShows => mirrors_of_shows hOrdinary hFields hSame hAttributes hLight hShows
  have hOwn : ∀ x ∈ heads.map Head.sight ++ [(placementHead placement).sight], x.readable := by
    rw [forall_mem_append, forall_mem_singleton]
    exact ⟨readable_of_lines hFields hTexts, distinct_placementHead placement⟩
  change ((h.start as).Distinct ∧ ∀ x ∈ _, Sight.readable x) ↔ ∀ h' ∈ h :: headsOf children, h'.Singular
  rw [forall_mem_append, forall_mem_cons, readable_belowSights, distinct_start hSame hAttributes]
  exact ⟨fun ⟨hStart, _, hBelow⟩ => ⟨hStart, hBelow⟩, fun ⟨hStart, hBelow⟩ => ⟨hStart, hOwn, hBelow⟩⟩

mutual

theorem rows_render (hVisible : ∀ x, Clean (visibility (s.object x))) (indent : String) (hIndent : isBlank indent) :
    (a : Actor) → (∀ h ∈ a.heads, h.Formed s) → (∀ h ∈ a.heads, h.Ordinary) → Rows (a.render indent) [portrait a]
  | .mk h children, hFormed, hOrdinary => by
    have hTabs : isBlank (indent ++ "\t\t") := isBlank_append hIndent (isBlank_tabs _ (by simp))
    rw [heads, forall_mem_cons] at hFormed hOrdinary
    exact rows_actor hIndent hVisible hFormed.1 hOrdinary.1
      (rows_renderAll hVisible (indent ++ "\t\t") hTabs children hFormed.2 hOrdinary.2)

theorem rows_renderAll (hVisible : ∀ x, Clean (visibility (s.object x))) (indent : String) (hIndent : isBlank indent) :
    (l : List Actor) → (∀ h ∈ headsOf l, h.Formed s) → (∀ h ∈ headsOf l, h.Ordinary) →
      Rows (renderAll indent l) (l.map portrait)
  | [], _, _ => Markup.rows_nil
  | a :: rest, hFormed, hOrdinary => by
    rw [headsOf, forall_mem_append] at hFormed hOrdinary
    exact (rows_render hVisible indent hIndent a hFormed.1 hOrdinary.1).append
      (rows_renderAll hVisible indent hIndent rest hFormed.2 hOrdinary.2)

end

end Actors

/-! ## Actors of walks -/

namespace Actor

mutual

theorem tagged_eq_heads (indent : String) : (a : Actor) → tagged (pieces indent a) = a.heads
  | .mk h children => by
    have hChildren := tagged_eq_headsOf (indent ++ "\t\t") children
    rw [tagged_pieces, ← tagged_piecesAll, hChildren, heads]

theorem tagged_eq_headsOf (indent : String) : (l : List Actor) → tagged (piecesAll indent l) = headsOf l
  | [] => rfl
  | a :: rest => by
    have hFirst := tagged_eq_heads indent a
    have hRest := tagged_eq_headsOf indent rest
    rw [headsOf, ← hFirst, ← hRest]
    exact filterMap_append

end

end Actor

section Walks

variable {groups selectedOnly : Bool} {s : Scene} {w : Walk}

theorem formed_of_walk (hWalk : outcome (walkAll groups selectedOnly) s {} = (.ok (), w)) :
    ∀ h ∈ headsOf w.actors, h.Formed s := by
  obtain ⟨bs, hKept⟩ := kept_of_walk hWalk
  have hHung := hKept.charts.hung
  intro h hh
  rw [← tagged_eq_headsOf "\t", w.tagged_text hHung] at hh
  obtain ⟨n, hn, rfl⟩ := mem_map.mp hh
  obtain ⟨way, hTrail⟩ := (Outline.mem_written hHung).mp hn
  have hBound : n < w.drafts.size := by simpa [Walk.outline] using hTrail.lt hHung
  have hDraft : w.drafts[n]? = some w.drafts[n] := Array.getElem?_eq_getElem hBound
  have hHead : w.headAt n = w.drafts[n].head := by rw [Walk.headAt, hDraft]; rfl
  rw [hHead]
  exact (grown_of_walk hWalk n _ hDraft).formed

theorem marks_of_read {e : Import.Element} {text : String}
    (h : Markup.read text = ((Markup.Tree.element e.1 e.2).events, none)) :
    (Markup.read text).1.filterMap Mark.ofEvent? = ⟨false, e.1⟩ :: Import.marksInside e [] := by
  rw [h]
  exact Import.marks_element e.1 e.2

/-- An actor of a walk can be read from its text just if no actor in it has an attribute twice, and then it is read
as it was written. -/
theorem read_actor_of_walk {indent : String} (hIndent : isBlank indent)
    (hWalk : outcome (walkAll groups selectedOnly) s {} = (.ok (), w))
    (hVisible : ∀ x, Clean (visibility (s.object x))) {a : Actor} (ha : a ∈ w.actors)
    (hOrdinary : ∀ h ∈ a.heads, h.Ordinary) :
    ((Markup.read (a.render indent)).2 = none ↔ ∀ h ∈ a.heads, h.Singular) ∧
    ((∀ h ∈ a.heads, h.Singular) → ∃ (e : Import.Element) (ms : List Mark) (b : Import.Actor),
      Markup.read (a.render indent) = ((Markup.Tree.element e.1 e.2).events, none) ∧
      (Markup.read (a.render indent)).1.filterMap Mark.ofEvent? = ⟨false, e.1⟩ :: ms ∧ Mirrors a e b ∧
      ∀ p t, t.marks = ms → ∃ log, result (actor e.1) p t = (.ok b, { t with marks := [], log := log })) := by
  have hFormed : ∀ h ∈ a.heads, h.Formed s := by
    intro h hh
    refine formed_of_walk hWalk h ?_
    rw [headsOf_eq_flatMap]
    exact mem_flatMap.mpr ⟨a, ha, hh⟩
  obtain ⟨hReadable, hRead⟩ := Markup.read_rows (rows_render hVisible indent hIndent a hFormed hOrdinary)
  refine ⟨hReadable, fun hSingular => ?_⟩
  obtain ⟨e, hEvents, hDistinct, b, hActor, hMirrors⟩ := hRead hSingular
  refine ⟨e, Import.marksInside e [], b, hEvents, marks_of_read hEvents, hMirrors, fun p t hMarks => ?_⟩
  rw [Import.marks_element] at hDistinct
  have hFound := (Import.Importing.spots_actor (p := p) e).reads [] hDistinct t hMarks
  rw [hActor] at hFound
  exact hFound

theorem clean_visibility_yard (x : Nat) : Clean (visibility (yard.object x)) := by
  match x with
  | 0 => decide +kernel
  | 1 => decide +kernel
  | 2 => decide +kernel
  | x + 3 => exact (by decide +kernel : Clean (visibility default))

/-- The ground of the yard is read with the crate and the stones on it. -/
theorem read_actor_of_walk_yard : ∃ w, outcome (walkAll true false) yard {} = (.ok (), w) ∧
    ∃ a ∈ w.actors, a.heads.map name = ["Ground", "Crate", "Ground_Crate__2"] ∧ ∃ e b ms,
      (Markup.read (a.render "\t")).1.filterMap Mark.ofEvent? = ⟨false, e.1⟩ :: ms ∧ Mirrors a e b ∧
      ∀ p t, t.marks = ms → ∃ log, result (actor e.1) p t = (.ok b, { t with marks := [], log := log }) := by
  obtain ⟨w, hWalk⟩ : ∃ w, outcome (walkAll true false) yard {} = (.ok (), w) := exists_walk (by decide +kernel)
  have hGround : ∃ a ∈ (outcome (walkAll true false) yard {}).2.actors,
      a.heads.map name = ["Ground", "Crate", "Ground_Crate__2"] ∧ ∀ h ∈ a.heads, h.Ordinary ∧ h.Singular := by
    decide +kernel
  rw [hWalk] at hGround
  obtain ⟨a, ha, hNames, hHeads⟩ := hGround
  have hTab : isBlank "\t" := isBlank_tabs _ (by simp)
  obtain ⟨-, hRead⟩ := read_actor_of_walk hTab hWalk clean_visibility_yard ha fun h hh => (hHeads h hh).1
  obtain ⟨e, ms, b, -, hMarks, hMirrors, hActor⟩ := hRead fun h hh => (hHeads h hh).2
  exact ⟨w, hWalk, a, ha, hNames, e, b, ms, hMarks, hMirrors, hActor⟩

end Walks

end SceneExchange.Scene
