import SceneExchange.Proofs.Fields
import SceneExchange.Proofs.Poses
import SceneExchange.Proofs.Lists

/-!
# Actors and what they are read as

An actor is read as it was written if it has the same name, kind, mesh, type of light and materials, and
below it the children of the actor and after them an actor for each mesh that is instanced. The lines of
an actor and the texts of its instances are read so.
-/

open List

namespace SceneExchange.Scene

open Import.Recursive Actor Markup.Tag Markup

open Import (elements actorsIn ActorData ActorPart isActor Recursive.actor? Recursive.actors? Recursive.actorPart?
  Importing.actorStep?)
open Markup (Head Sight Clean Rows isName isSpace clean_append clean_toString)
open Number (six)

/-! ## The data of an actor -/

namespace ActorHead

variable (h : ActorHead)

def tag : String := h.kind.getD plainTag

/-- The mesh that an actor shows is the last one of its lines. -/
def mesh? : Option String := if h.tag = "ActorMesh" then (h.fields.filterMap meshOf?).getLast? else none

end ActorHead

/-- The materials of some lines by their slots, where a later line replaces an earlier one. -/
def overridesOf (lines : List String) : Table Int String := .ofList (lines.filterMap materialOf?)

namespace ActorHead

variable (h : ActorHead)

def overrides : Table Int String := if h.tag = "ActorMesh" then overridesOf h.fields else .empty

def lightKind? : Option String := if h.tag = "Light" then h.attributes.findSome? lightOf? else none

def Singular : Prop := (h.attributes.map keyOf).Nodup

instance : Decidable h.Singular := inferInstanceAs (Decidable (List.Nodup _))

/-- The texts of an actor that come from names. -/
def texts : List String :=
  h.name :: (h.layer.toList ++ (h.fields.flatMap textsOf ++ h.instances.entries.flatMap fun x =>
    x.1 :: x.2.flatMap fun p => (p.materials.getD []).flatMap textsOf))

/-- An actor of one of the four kinds that can be read, with names that are read as they are. -/
structure Ordinary : Prop where
  kind : isActor h.tag
  texts : ∀ t ∈ h.texts, Clean t

instance : Decidable h.Ordinary :=
  decidable_of_iff (isActor h.tag ∧ ∀ t ∈ h.texts, Clean t)
    ⟨fun hBoth => ⟨hBoth.1, hBoth.2⟩, fun hBoth => ⟨hBoth.1, hBoth.2⟩⟩

end ActorHead

/-- An actor that is read for the instances of a mesh: one of the mesh if there is one instance, and
one with an element that counts its transforms if there are more. -/
inductive Stacks (parent : String) : String × List Placed → Import.Element → Import.Actor → Prop
  | one {mesh : String} {p : Placed} {e : Import.Element} {data : ActorData} (name : data.name = parent ++ "_" ++ mesh)
      (kind : data.kind = "ActorMesh") (shows : data.mesh = some mesh)
      (overrides : data.overrides = overridesOf (p.materials.getD [])) : Stacks parent (mesh, [p]) e (.mk data [])
  | several {mesh : String} {ps : List Placed} {e i : Import.Element} {data : ActorData} (many : 2 ≤ ps.length)
      (name : data.name = parent ++ "_" ++ mesh) (kind : data.kind = "ActorHierarchicalInstancedStaticMesh")
      (instances : (elements e.2).filter (·.1.name == "Instances") = [i])
      (count : i.1.attribute? "count" = some (toString (elements i.2).length))
      (transforms : (elements i.2).map (·.1.name) = List.replicate ps.length "Transform") :
      Stacks parent (mesh, ps) e (.mk data [])

/-- An actor is read from an element as it was written. -/
inductive Mirrors : Actor → Import.Element → Import.Actor → Prop
  | mk {h : ActorHead} {children : List Actor} {e : Import.Element} {data : ActorData}
      {front back : List (Import.Element × Import.Actor)} (name : data.name = h.name) (kind : data.kind = h.tag)
      (mesh : data.mesh = h.mesh?) (lightKind : data.lightKind = h.lightKind?) (overrides : data.overrides = h.overrides)
      (actors : actorsIn e.1.name e.2 = (front ++ back).map Prod.fst)
      (below : Forall₂ (fun c x => Mirrors c x.1 x.2) children front)
      (instanced : Forall₂ (fun i x => Stacks h.name i x.1 x.2) h.instances.entries back) :
      Mirrors (.mk h children) e (.mk data ((front ++ back).map Prod.snd))

/-! ## Parts of an actor -/

theorem of_eq_other {kind : String} (h : ¬isActor kind) (part : String) : ActorPart.of kind part = .other := by
  simp [ActorPart.of, h]

/-- The data of an actor after some lines, apart from what lights and cameras measure. -/
structure Takes (tag : String) (lines : List String) (a a' : ActorData) : Prop where
  name : a'.name = a.name
  kind : a'.kind = a.kind
  lightKind : a'.lightKind = a.lightKind
  mesh : a'.mesh = if tag = "ActorMesh" then (lines.filterMap meshOf?).getLast?.or a.mesh else a.mesh
  overrides : a'.overrides = if tag = "ActorMesh" then
    (lines.filterMap materialOf?).foldl (fun t x => t.insert x.1 x.2) a.overrides else a.overrides

section Takes

variable {tag line : String} {lines lines' : List String} {a a' a'' : ActorData} {below : List Import.Actor}
  {head : Head} {e : Import.Element}

theorem Takes.trans (h : Takes tag lines a a') (h' : Takes tag lines' a' a'') : Takes tag (lines ++ lines') a a'' := by
  refine ⟨h'.name.trans h.name, h'.kind.trans h.kind, h'.lightKind.trans h.lightKind, ?_, ?_⟩
  · rw [h'.mesh, h.mesh]
    split
    · rw [filterMap_append, getLast?_append, Option.or_assoc]
    · rfl
  · rw [h'.overrides, h.overrides]
    split
    · rw [filterMap_append, foldl_append]
    · rfl

theorem takes_measures (pose : Option Import.Pose) (numbers : Table String Datum) (words : Table String String)
    (color : Option Datum) :
    Takes tag [] a { a with pose := pose, numbers := numbers, words := words, color := color } :=
  ⟨rfl, rfl, rfl, by simp, by simp⟩

theorem takes_nil : Takes tag [] a a := takes_measures a.pose a.numbers a.words a.color

theorem takes_of_ne (h : tag ≠ "ActorMesh") : Takes tag lines a a := ⟨rfl, rfl, rfl, (if_neg h).symm, (if_neg h).symm⟩

theorem Takes.of_tells (h : Takes tag [] a a') (hLine : Tells line) : Takes tag [line] a a' := by
  refine ⟨h.name, h.kind, h.lightKind, ?_, ?_⟩
  · rw [h.mesh]
    simp [(isPlain_of_tells hLine).mesh]
  · rw [h.overrides]
    simp [(isPlain_of_tells hLine).material]

theorem actorStep?_of_part {part : ActorPart} (hPart : ActorPart.of tag e.1.name = part) (hNotChildren : part ≠ .children)
    (hRead : Recursive.actorPart? part a e.1 e.2 = some a') : Importing.actorStep? tag (a, below) e = some (a', below) := by
  subst hPart
  unfold Importing.actorStep?
  split
  · next hPart => exact absurd hPart hNotChildren
  · dsimp only
    rw [hRead]
    rfl

theorem actorStep?_of_other (h : ActorPart.of tag e.1.name = .other) :
    Importing.actorStep? tag (a, below) e = some (a, below) :=
  actorStep?_of_part h (by decide) rfl

theorem attribute?_of_shows (h : head.sight.shows e) (hDistinct : head.Distinct) {b : String × String}
    (hb : b ∈ head.attributes) : e.1.attribute? b.1 = some b.2 := by
  rw [attribute?, h.2.1]
  exact (Table.mem_entries_iff (t := ⟨head.attributes⟩) hDistinct).mp hb

theorem exists_real?_of_shows (h : head.sight.shows e) (hDistinct : head.Distinct) {k : String} {x : Float}
    (hMem : (k, six x) ∈ head.attributes) : ∃ y, real? e.1 k = some y :=
  ⟨_, by rw [real?, attribute?_of_shows h hDistinct hMem, Option.bind_some, Number.readReal?_six]⟩

theorem kinds_of_numberTags : ∀ kind ∈ ["Actor", "ActorMesh", "Camera", "Light"], ∀ part ∈ numberTags,
    ActorPart.of kind part = .number ∨ ActorPart.of kind part = .other := by decide +kernel

theorem kinds_of_words : ∀ kind ∈ ["Actor", "ActorMesh", "Camera", "Light"],
    (ActorPart.of kind "IntensityUnits" = .word ∨ ActorPart.of kind "IntensityUnits" = .other) ∧
    (ActorPart.of kind "Color" = .color ∨ ActorPart.of kind "Color" = .other) ∧
    (∀ part ∈ ["Shape", "DepthOfField", "KeyValueProperty"], ActorPart.of kind part = .other) ∧
    ActorPart.of kind "mesh" = (if kind = "ActorMesh" then .mesh else .other) ∧
    ActorPart.of kind "material" = (if kind = "ActorMesh" then .material else .other) ∧
    ActorPart.of kind "Transform" = .pose ∧ ActorPart.of kind "children" = .children := by decide +kernel

theorem mem_of_isActor (h : isActor tag) : tag ∈ ["Actor", "ActorMesh", "Camera", "Light"] := by
  simpa [isActor] using h

theorem exists_step_of_isFact (hTag : isActor tag) (h : IsFact head) (hShows : head.sight.shows e) :
    ∃ a', Importing.actorStep? tag (a, below) e = some (a', below) ∧ Takes tag [] a a' := by
  have hName : e.1.name = head.name := hShows.1
  have hEmpty : bare? e.2 = some () := by rw [bare?, hShows.2.2]; rfl
  have hDistinct : head.Distinct := h.isClean.2
  obtain ⟨hUnits, hColor, hOther, -⟩ := kinds_of_words tag (mem_of_isActor hTag)
  have hIgnored (hPart : ActorPart.of tag head.name = .other) :
      ∃ a', Importing.actorStep? tag (a, below) e = some (a', below) ∧ Takes tag [] a a' :=
    ⟨a, actorStep?_of_other (by rw [hName, hPart]), takes_nil⟩
  cases h with
  | number isNumber x =>
    obtain hPart | hPart := kinds_of_numberTags tag (mem_of_isActor hTag) _ isNumber
    · obtain ⟨y, hy⟩ := exists_real?_of_shows hShows hDistinct (k := "value") (x := x) (by simp)
      refine ⟨_, actorStep?_of_part (by rw [hName, hPart]) (by decide) ?_,
        takes_measures a.pose (a.numbers.insert e.1.name (.real y)) a.words a.color⟩
      simp [Recursive.actorPart?, hEmpty, hy]
    · exact hIgnored hPart
  | units =>
    obtain hPart | hPart := hUnits
    · refine ⟨_, actorStep?_of_part (by rw [hName, hPart]) (by decide) ?_,
        takes_measures a.pose a.numbers (a.words.insert e.1.name "Lumens") a.color⟩
      have hValue := attribute?_of_shows hShows hDistinct (b := ("value", "Lumens")) (by simp)
      simp [Recursive.actorPart?, hEmpty, hValue]
    · exact hIgnored hPart
  | color r g b =>
    obtain hPart | hPart := hColor
    · obtain ⟨r', hr⟩ := exists_real?_of_shows hShows hDistinct (k := "R") (x := r) (by simp)
      obtain ⟨g', hg⟩ := exists_real?_of_shows hShows hDistinct (k := "G") (x := g) (by simp)
      obtain ⟨b', hb⟩ := exists_real?_of_shows hShows hDistinct (k := "B") (x := b) (by simp)
      refine ⟨_, actorStep?_of_part (by rw [hName, hPart]) (by decide) ?_,
        takes_measures a.pose a.numbers a.words (some (.tuple ([r', g', b'].map .real)))⟩
      simp [Recursive.actorPart?, hEmpty, hr, hg, hb]
    · exact hIgnored hPart
  | shape => exact hIgnored (hOther "Shape" (by simp))
  | focus => exact hIgnored (hOther "DepthOfField" (by simp))
  | property => exact hIgnored (hOther "KeyValueProperty" (by simp))

theorem takes_mesh {mesh : String} (hMesh : tag = "ActorMesh") :
    Takes tag [meshLine mesh] a { a with mesh := some mesh } := by
  refine ⟨rfl, rfl, rfl, ?_, ?_⟩
  · simp [hMesh, meshOf?_meshLine]
  · simp [materialOf?_meshLine]

theorem takes_material {lead name : String} (hMesh : tag = "ActorMesh") (hLead : IsLead lead) (i : Nat) :
    Takes tag [materialLine lead i name] a { a with overrides := a.overrides.insert (i : Int) name } := by
  refine ⟨rfl, rfl, rfl, ?_, ?_⟩
  · simp [meshOf?_materialLine hLead]
  · simp [hMesh, materialOf?_materialLine hLead]

theorem exists_step_of_line (h : Line line head) (hShows : head.sight.shows e) :
    ∃ a', Importing.actorStep? tag (a, below) e = some (a', below) ∧ Takes tag [line] a a' := by
  by_cases hTag : isActor tag
  · have hEmpty : bare? e.2 = some () := by rw [bare?, hShows.2.2]; rfl
    obtain ⟨-, -, -, hMesh, hMaterial, -⟩ := kinds_of_words tag (mem_of_isActor hTag)
    cases h with
    | mesh name =>
      by_cases hKind : tag = "ActorMesh"
      · rw [if_pos hKind] at hMesh
        have hGiven := attribute?_of_shows hShows (by simp [Head.Distinct]) (b := ("name", name)) (by simp)
        refine ⟨_, actorStep?_of_part (by rw [hShows.1, hMesh]) (by decide) ?_, takes_mesh hKind⟩
        simp [Recursive.actorPart?, hEmpty, hGiven]
      · rw [if_neg hKind] at hMesh
        exact ⟨a, actorStep?_of_other (by rw [hShows.1, hMesh]), takes_of_ne hKind⟩
    | material isLead i name =>
      by_cases hKind : tag = "ActorMesh"
      · rw [if_pos hKind] at hMaterial
        have hSlot := attribute?_of_shows hShows (by simp [Head.Distinct]) (b := ("id", toString i)) (by simp)
        have hGiven := attribute?_of_shows hShows (by simp [Head.Distinct]) (b := ("name", name)) (by simp)
        have hNumber : integer? e.1 "id" = some (i : Int) := by
          rw [integer?, hSlot, Option.bind_some, readInteger?_toString_nat]
        refine ⟨_, actorStep?_of_part (by rw [hShows.1, hMaterial]) (by decide) ?_, takes_material hKind isLead i⟩
        simp [Recursive.actorPart?, hEmpty, hNumber, hGiven]
      · rw [if_neg hKind] at hMaterial
        exact ⟨a, actorStep?_of_other (by rw [hShows.1, hMaterial]), takes_of_ne hKind⟩
    | fact isFact holds =>
      obtain ⟨a', hStep, hTakes⟩ := exists_step_of_isFact hTag isFact hShows
      exact ⟨a', hStep, hTakes.of_tells ⟨head, isFact, holds⟩⟩
  · refine ⟨a, actorStep?_of_other (of_eq_other hTag _), takes_of_ne ?_⟩
    rintro rfl
    exact hTag (by decide)

def Fills (tag : String) (es : List Import.Element) (lines : List String) : Prop :=
  ∀ a below, ∃ a', es.foldlM (Importing.actorStep? tag) (a, below) = some (a', below) ∧ Takes tag lines a a'

theorem Fills.append {es es' : List Import.Element} (h : Fills tag es lines) (h' : Fills tag es' lines') :
    Fills tag (es ++ es') (lines ++ lines') := by
  intro a below
  obtain ⟨b, hFold, hTakes⟩ := h a below
  obtain ⟨c, hFold', hTakes'⟩ := h' b below
  refine ⟨c, ?_, hTakes.trans hTakes'⟩
  rw [List.foldlM_append, hFold]
  exact hFold'

theorem fills_single (h : ∀ a below, ∃ a', Importing.actorStep? tag (a, below) e = some (a', below) ∧ Takes tag lines a a') :
    Fills tag [e] lines := by
  intro a below
  obtain ⟨a', hStep, hTakes⟩ := h a below
  refine ⟨a', ?_, hTakes⟩
  rw [foldlM_cons, hStep]
  rfl

theorem fills_lines {heads : List Head} {es : List Import.Element} (h : Forall₂ Line lines heads)
    (hShows : Forall₂ (fun x e => x.shows e) (heads.map Head.sight) es) : Fills tag es lines := by
  induction h generalizing es with
  | nil =>
    cases hShows
    exact fun a below => ⟨a, rfl, takes_nil⟩
  | cons hLine _ ih =>
    cases hShows with
    | cons hFirst hRest => exact (fills_single fun a below => exists_step_of_line hLine hFirst).append (ih hRest)

theorem pose?_of_shows {p : Geometry.Placement} (h : (placementHead p).sight.shows e) : pose? e.1 = some .blank := by
  have hNumbers : ∀ b ∈ (placementHead p).attributes, ∃ x, b.2 = six x := by
    intro b hb
    simp only [placementHead, mem_cons, not_mem_nil, or_false] at hb
    obtain rfl | rfl | rfl | rfl | rfl | rfl | rfl | rfl | rfl | rfl := hb <;> exact ⟨_, rfl⟩
  rw [pose?_eq, if_pos]
  rw [all_eq_true, show poseKeys = (placementHead p).attributes.map Prod.fst from rfl]
  intro k hk
  obtain ⟨⟨k, v⟩, hb, rfl⟩ := mem_map.mp hk
  obtain ⟨x, rfl⟩ := hNumbers _ hb
  obtain ⟨y, hy⟩ := exists_real?_of_shows h (distinct_placementHead p) hb
  exact Option.isSome_of_eq_some hy

theorem fills_placement {p : Geometry.Placement} (h : (placementHead p).sight.shows e) : Fills tag [e] [] := by
  refine fills_single fun a below => ?_
  by_cases hTag : isActor tag
  · obtain ⟨-, -, -, -, -, hPose, -⟩ := kinds_of_words tag (mem_of_isActor hTag)
    have hPart : ActorPart.of tag e.1.name = .pose := by rw [h.1, ← hPose]; rfl
    refine ⟨_, actorStep?_of_part hPart (by decide) ?_, takes_measures (some .blank) a.numbers a.words a.color⟩
    simp [Recursive.actorPart?, h.2.2, bare?, pose?_of_shows h]
  · exact ⟨a, actorStep?_of_other (of_eq_other hTag _), takes_nil⟩

end Takes

/-! ## Reading an element whose parts are known -/

section Reading

variable {tag name : String} {e : Import.Element} {data : ActorData} {below : List Import.Actor}

theorem actor?_eq_some {light : Option String} (hName : e.1.attribute? "name" = some name)
    (hLight : lightKind? e.1 = some light)
    (hParts : (elements e.2).foldlM (Importing.actorStep? e.1.name)
      ({ name := name, kind := e.1.name, lightKind := light }, []) = some (data, below)) :
    Recursive.actor? (.element e.1 e.2) = some (.mk data below) := by
  rw [Recursive.actor?, hName, hLight]
  simp only [Option.bind_eq_bind, Option.bind_some, Import.Importing.actorInside?_eq_foldlM, hParts]
  rfl

theorem exists_actor_of_fills {lines : List String} (hTag : e.1.name = tag) (hName : e.1.attribute? "name" = some name)
    (hLight : tag ≠ "Light") (hFills : Fills tag (elements e.2) lines) :
    ∃ data, Recursive.actor? (.element e.1 e.2) = some (.mk data []) ∧
      Takes tag lines { name := name, kind := tag } data := by
  obtain ⟨data, hFold, hTakes⟩ := hFills { name := name, kind := tag } []
  subst hTag
  exact ⟨data, actor?_eq_some hName (by simp [lightKind?, hLight]) hFold, hTakes⟩

theorem foldlM_actorStep?_of_other (h : ¬isActor tag) (es : List Import.Element) (known : ActorData × List Import.Actor) :
    es.foldlM (Importing.actorStep? tag) known = some known := by
  induction es generalizing known with
  | nil => rfl
  | cons e es ih =>
    rw [foldlM_cons, actorStep?_of_other (of_eq_other h e.1.name)]
    exact ih known

end Reading

/-! ## Rows of instances -/

def isBlank (text : String) : Prop := ∀ c ∈ text.toList, isSpace c

theorem isBlank_append {text text' : String} (h : isBlank text) (h' : isBlank text') : isBlank (text ++ text') := by
  intro c hc
  rw [String.toList_append, mem_append] at hc
  exact hc.elim (h c) (h' c)

theorem isBlank_tabs : ∀ tabs ∈ ["\t", "\t\t", "\t\t\t"], isBlank tabs := by
  unfold isBlank
  decide

section Rows

variable {indent : String} {lines : List String} {heads : List Head} {xs : List Sight}

theorem rows_indented (hIndent : isBlank indent) (h : Forall₂ (fun line x => Rows line [x]) lines xs) :
    Rows (indented indent lines) xs := by
  unfold indented
  simp only [String.append_assoc]
  exact rows_nil.foldl (h.imp fun line x hLine => hLine.indent hIndent)

theorem rows_lines (hIndent : isBlank indent) (h : Forall₂ Line lines heads)
    (hTexts : ∀ line ∈ lines, ∀ t ∈ textsOf line, Clean t) : Rows (indented indent lines) (heads.map Head.sight) := by
  apply rows_indented hIndent
  rw [forall₂_map_right_iff]
  have hBoth := (forall₂_and_left lines heads).mpr ⟨hTexts, h⟩
  exact hBoth.imp fun line head hLine => hLine.2.rows hLine.1

theorem readable_of_lines (h : Forall₂ Line lines heads) (hTexts : ∀ line ∈ lines, ∀ t ∈ textsOf line, Clean t) :
    ∀ x ∈ heads.map Head.sight, x.readable := by
  induction h with
  | nil => simp
  | cons hLine _ ih =>
    obtain ⟨hFirst, hRest⟩ := forall_mem_cons.mp hTexts
    rw [map_cons, forall_mem_cons]
    exact ⟨(hLine.isClean hFirst).2, ih hRest⟩

end Rows

def instanceHead (tag parent mesh : String) : Head := ⟨tag, [("name", parent ++ "_" ++ mesh)]⟩

def stackSight (parent : String) (i : String × List Placed) : Sight where
  readable := True
  shows e := ∃ a, Recursive.actor? (.element e.1 e.2) = some a ∧ Stacks parent i e a

section Instances

variable {indent parent transform mesh : String} {p : Placed} {ps : List Placed} {e : Import.Element}

theorem isClean_instanceHead (tag : String) (hTag : tag ∈ ["ActorMesh", "ActorHierarchicalInstancedStaticMesh"])
    (hParent : Clean parent) (hMesh : Clean mesh) : (instanceHead tag parent mesh).IsClean := by
  have hNames : ∀ tag ∈ ["ActorMesh", "ActorHierarchicalInstancedStaticMesh"], isName tag := by decide +kernel
  refine ⟨hNames tag hTag, ?_, ?_⟩
  · have hKey : IsKey "name" := by decide +kernel
    intro a ha
    obtain rfl := mem_singleton.mp ha
    exact hKey
  · simpa [instanceHead] using clean_append (clean_append hParent (by decide +kernel)) hMesh

theorem distinct_instanceHead (tag : String) : (instanceHead tag parent mesh).Distinct := by
  simp [Head.Distinct, instanceHead]

theorem Placed.Stands.exists_of_mem (h : p.Stands) {line : String} (hLine : line ∈ p.materials.getD []) :
    ∃ i name, line = materialLine "\t\t\t" i name := by
  cases hMaterials : p.materials with
  | none =>
    rw [hMaterials] at hLine
    cases hLine
  | some lines =>
    rw [hMaterials] at hLine
    exact h.materials hMaterials hLine

theorem Placed.Stands.lines (h : p.Stands) : ∀ line ∈ p.materials.getD [], ∃ head, Line line head := by
  intro line hLine
  obtain ⟨i, name, rfl⟩ := h.exists_of_mem hLine
  exact ⟨_, .material (.inr rfl) i name⟩

theorem Placed.Stands.filterMap_meshOf? (h : p.Stands) : (p.materials.getD []).filterMap meshOf? = [] := by
  refine filterMap_eq_nil_iff.mpr fun line hLine => ?_
  obtain ⟨i, name, rfl⟩ := h.exists_of_mem hLine
  exact meshOf?_materialLine (.inr rfl) i name

theorem attribute?_instanceHead {tag : String} (h : e.1.attributes = (instanceHead tag parent mesh).attributes) :
    e.1.attribute? "name" = some (parent ++ "_" ++ mesh) := by
  rw [attribute?, h]
  exact lookup_cons_self

def meshHead (mesh : String) : Head := ⟨"mesh", [("name", mesh)]⟩

theorem distinct_meshHead : (meshHead mesh).Distinct := by simp [Head.Distinct, meshHead]

theorem rows_meshLine (hIndent : isBlank indent) (hMesh : Clean mesh) :
    Rows (indent ++ "\t\t" ++ meshLine mesh) [(meshHead mesh).sight] := by
  refine Rows.indent ((Line.mesh mesh).rows ?_) (isBlank_append hIndent (isBlank_tabs _ (by simp)))
  simpa [textsOf, meshOf?_meshLine, materialOf?_meshLine] using hMesh

theorem stacks_one {heads : List Head} {placement : Geometry.Placement} (hStands : p.Stands)
    (hHeads : Forall₂ Line (p.materials.getD []) heads)
    (hShows : ((instanceHead "ActorMesh" parent mesh).sightAround
      ([(meshHead mesh).sight] ++ [(placementHead placement).sight] ++ heads.map Head.sight)).shows e) :
    ∃ a, Recursive.actor? (.element e.1 e.2) = some a ∧ Stacks parent (mesh, [p]) e a := by
  obtain ⟨hTag, hAttributes, hParts⟩ := hShows
  change e.1.name = "ActorMesh" at hTag
  obtain ⟨front, es, hSplit, hFront, hLines⟩ := exists_append_of_forall₂ hParts
  obtain ⟨ms, ts, rfl, hMeshes, hTransforms⟩ := exists_append_of_forall₂ hFront
  obtain ⟨t, hTransform, rfl⟩ := exists_of_forall₂_singleton hTransforms
  have hFills : Fills "ActorMesh" (ms ++ [t] ++ es) ([meshLine mesh] ++ [] ++ p.materials.getD []) :=
    ((fills_lines (.cons (.mesh mesh) .nil) hMeshes).append (fills_placement hTransform)).append (fills_lines hHeads hLines)
  obtain ⟨data, hRead, hTakes⟩ :=
    exists_actor_of_fills hTag (attribute?_instanceHead hAttributes) (by decide) (hSplit ▸ hFills)
  refine ⟨.mk data [], hRead, .one hTakes.name hTakes.kind ?_ ?_⟩
  · rw [hTakes.mesh, if_pos rfl]
    simp [meshOf?_meshLine, hStands.filterMap_meshOf?]
  · rw [hTakes.overrides, if_pos rfl]
    simp [materialOf?_meshLine, overridesOf, Table.ofList]

theorem rows_singleText (hIndent : isBlank indent) (hParent : Clean parent) (hMesh : Clean mesh) (hStands : p.Stands)
    (hTexts : ∀ line ∈ p.materials.getD [], ∀ t ∈ textsOf line, Clean t) :
    Rows (singleText indent parent mesh p) [stackSight parent (mesh, [p])] := by
  obtain ⟨heads, hHeads⟩ := exists_forall₂ hStands.lines
  obtain ⟨placement, hWorld⟩ := hStands.world
  have hInner : isBlank (indent ++ "\t\t") := isBlank_append hIndent (isBlank_tabs _ (by simp))
  have hWorldRow : Rows (indent ++ "\t\t" ++ p.world) [(placementHead placement).sight] := by
    rw [hWorld]
    exact (rows_placement placement).indent hInner
  have hBody := ((rows_meshLine hIndent hMesh).append hWorldRow).append (rows_lines hIndent hHeads hTexts)
  have hRow : Rows (singleText indent parent mesh p) [Head.sightAround _ _] := rows_around
    (isClean_instanceHead "ActorMesh" (by simp) hParent hMesh) hInner hInner hBody
    (by simp [singleText, instanceOpen, instanceHead, meshLine, Head.chars, Head.attributeChars, Text.doubleQuote])
  refine hRow.imp (iff_of_true ⟨distinct_instanceHead _, ?_⟩ trivial) fun e hShows => stacks_one hStands hHeads hShows
  simp only [forall_mem_append, forall_mem_singleton]
  exact ⟨⟨distinct_meshHead, distinct_placementHead _⟩, readable_of_lines hHeads hTexts⟩

def instancesHead (count : Nat) : Head := ⟨"Instances", [("count", toString count)]⟩

theorem stacks_several {placement : Geometry.Placement} {placements : List Geometry.Placement} (hMany : 2 ≤ ps.length)
    (hLength : placements.length = ps.length)
    (hShows : ((instanceHead "ActorHierarchicalInstancedStaticMesh" parent mesh).sightAround
      ([(meshHead mesh).sight] ++ [(placementHead placement).sight] ++
        [(instancesHead ps.length).sightAround (placements.map fun q => (placementHead q).sight)])).shows e) :
    ∃ a, Recursive.actor? (.element e.1 e.2) = some a ∧ Stacks parent (mesh, ps) e a := by
  obtain ⟨hTag, hAttributes, hParts⟩ := hShows
  change e.1.name = "ActorHierarchicalInstancedStaticMesh" at hTag
  obtain ⟨front, is, hSplit, hFront, hInstances⟩ := exists_append_of_forall₂ hParts
  obtain ⟨ms, ts, rfl, hMeshes, hTransforms⟩ := exists_append_of_forall₂ hFront
  obtain ⟨m, hMesh, rfl⟩ := exists_of_forall₂_singleton hMeshes
  obtain ⟨t, hTransform, rfl⟩ := exists_of_forall₂_singleton hTransforms
  obtain ⟨i, ⟨hInstancesTag, hCount, hPlaced⟩, rfl⟩ := exists_of_forall₂_singleton hInstances
  have hNumber : (elements i.2).length = ps.length := by
    rw [← hPlaced.length_eq, length_map, hLength]
  refine ⟨.mk { name := parent ++ "_" ++ mesh, kind := "ActorHierarchicalInstancedStaticMesh" } [], ?_,
    .several (i := i) hMany rfl rfl ?_ ?_ ?_⟩
  · have hLight : lightKind? e.1 = some none := by
      rw [lightKind?, hTag]
      rfl
    rw [← hTag]
    apply actor?_eq_some (attribute?_instanceHead hAttributes) hLight
    rw [hTag]
    exact foldlM_actorStep?_of_other (by decide) _ _
  · have hNames : m.1.name = "mesh" ∧ t.1.name = "Transform" ∧ i.1.name = "Instances" :=
      ⟨hMesh.1, hTransform.1, hInstancesTag⟩
    rw [hSplit]
    simp [hNames]
  · rw [hNumber, attribute?, hCount]
    exact lookup_cons_self
  · rw [← hNumber, eq_replicate_iff]
    refine ⟨length_map .., fun name hName => ?_⟩
    obtain ⟨x, hx, rfl⟩ := mem_map.mp hName
    obtain ⟨y, hy, hShows⟩ := exists_mem_of_forall₂ hPlaced hx
    obtain ⟨q, -, rfl⟩ := mem_map.mp hy
    exact hShows.1

theorem rows_groupText (hIndent : isBlank indent) (hParent : Clean parent) (hMesh : Clean mesh)
    (hTransform : IsPlacement transform) (hStands : ∀ p ∈ ps, p.Stands) (hMany : 2 ≤ ps.length) :
    Rows (groupText indent parent transform mesh ps) [stackSight parent (mesh, ps)] := by
  obtain ⟨placement, rfl⟩ := hTransform
  obtain ⟨placements, hBelow⟩ := exists_forall₂ fun p hp => (hStands p hp).below
  have hTwo : isBlank (indent ++ "\t\t") := isBlank_append hIndent (isBlank_tabs _ (by simp))
  have hThree : isBlank (indent ++ "\t\t\t") := isBlank_append hIndent (isBlank_tabs _ (by simp))
  have hInside : Rows (indented indent (ps.map (·.below))) (placements.map fun q => (placementHead q).sight) := by
    refine rows_indented hIndent ?_
    rw [forall₂_map_left_iff, forall₂_map_right_iff]
    refine hBelow.imp fun p q hq => ?_
    rw [hq]
    exact rows_placement q
  have hCountHead : (instancesHead ps.length).IsClean := by
    have hNames : isName "Instances" ∧ IsKey "count" := by decide +kernel
    refine ⟨hNames.1, fun a ha => ?_, fun a ha => ?_⟩
    · obtain rfl := mem_singleton.mp ha
      exact hNames.2
    · obtain rfl := mem_singleton.mp ha
      exact clean_toString ps.length
  have hInstances : Rows (indent ++ "\t\t\t<Instances count=\"" ++ toString ps.length ++ "\">\n" ++
      indented indent (ps.map (·.below)) ++ indent ++ "\t\t\t</Instances>\n") [Head.sightAround _ _] :=
    rows_around hCountHead hThree hThree hInside
      (by simp [instancesHead, Head.chars, Head.attributeChars, Text.doubleQuote])
  have hBody := ((rows_meshLine hIndent hMesh).append ((rows_placement placement).indent hThree)).append hInstances
  have hRow : Rows (groupText indent parent (placementText placement) mesh ps) [Head.sightAround _ _] := rows_around
    (isClean_instanceHead "ActorHierarchicalInstancedStaticMesh" (by simp) hParent hMesh) hTwo hTwo hBody (by
      unfold groupText instanceHead
      generalize "ActorHierarchicalInstancedStaticMesh" = tag
      simp [instanceOpen, meshLine, Head.chars, Head.attributeChars, Text.doubleQuote])
  refine hRow.imp (iff_of_true ⟨distinct_instanceHead _, ?_⟩ trivial) fun e hShows =>
    stacks_several hMany hBelow.length_eq.symm hShows
  simp only [forall_mem_append, forall_mem_singleton]
  refine ⟨⟨distinct_meshHead, distinct_placementHead _⟩, ?_, ?_⟩
  · simp [Head.Distinct, instancesHead]
  · intro x hx
    obtain ⟨q, -, rfl⟩ := mem_map.mp hx
    exact distinct_placementHead q

theorem rows_instancesText (hIndent : isBlank indent) (hParent : Clean parent) (hMesh : Clean mesh)
    (hTransform : IsPlacement transform) (hSome : ps ≠ []) (hStands : ∀ p ∈ ps, p.Stands)
    (hTexts : ∀ p ∈ ps, ∀ line ∈ p.materials.getD [], ∀ t ∈ textsOf line, Clean t) :
    Rows (instancesText indent parent transform mesh ps) [stackSight parent (mesh, ps)] := by
  match ps, hSome with
  | [p], _ => exact rows_singleText hIndent hParent hMesh (hStands p (by simp)) (hTexts p (by simp))
  | p :: q :: ps, _ => exact rows_groupText hIndent hParent hMesh hTransform hStands (by simp)

end Instances

end SceneExchange.Scene
