import SceneExchange.Proofs.Descriptions
import SceneExchange.Proofs.MeshNames
import Mathlib.Data.List.Forall2
import Mathlib.Order.Defs.Unbundled

/-!
# What a walk does to the actors

Of a walk that returned only its outline matters here: the names of the actors, the instances that
are listed with them, and how they hang together. A visit changes the outline in one of few ways,
and a whole walk is a run of such steps.
-/

namespace SceneExchange.Scene

open Walking List Walk ActorDraft Name

variable {s : Scene}

theorem demandIndex_eq_ok {x : Option Nat} {property : String} {i : Nat} (h : demandIndex x property = .ok i) :
    x = some i := by
  cases x <;> cases h
  rfl

theorem demand_eq_ok {x : Option Nat} {property : String} {o : Object} (h : s.demand x property = .ok o) :
    ∃ i, x = some i ∧ s.object i = o := by
  cases x <;> cases h
  exact ⟨_, rfl, rfl⟩

/-! ## Outlines -/

/-- What is kept of a draft: its name, the instances listed with it, and its children. -/
structure Outline.Node where
  name : String
  instances : Table String (List Placed)
  children : List Nat

structure Outline where
  nodes : List Outline.Node
  named : Table String Nat
  roots : List Nat

def ActorDraft.node (d : ActorDraft) : Outline.Node := ⟨d.head.name, d.head.instances, d.children.toList⟩

def Walk.outline (w : Walk) : Outline := ⟨w.drafts.toList.map node, w.named, w.roots.toList⟩

theorem map_modify {α β : Type} {v : α → β} {f : α → α} {g : β → β} (h : ∀ a, v (f a) = g (v a)) (l : List α)
    (n : Nat) : (l.modify n f).map v = (l.map v).modify n g := by
  apply ext_getElem?
  intro i
  rw [getElem?_map, getElem?_modify, getElem?_modify, getElem?_map]
  cases l[i]? with
  | none => rfl
  | some a => by_cases hPlace : n = i <;> simp [hPlace, h]

theorem outline_modify (w : Walk) (n : Nat) {f : ActorDraft → ActorDraft} {g : Outline.Node → Outline.Node}
    (h : ∀ d, (f d).node = g d.node) :
    ({ w with drafts := w.drafts.modify n f } : Walk).outline =
      { w.outline with nodes := w.outline.nodes.modify n g } := by
  simp [outline, Array.toList_modify, map_modify h]

/-! ## Materials of objects -/

/-- The line by which an actor or an instance refers to a material of its own. -/
def materialLine (lead : String) (i : Nat) (name : String) : String :=
  lead ++ "<material id=\"" ++ toString i ++ "\" name=\"" ++ name ++ "\"/>\n"

structure Paint where
  slot : Nat
  material : Nat
  name : String

def Paint.line (lead : String) (p : Paint) : String := materialLine lead p.slot p.name

structure Paints (s : Scene) (x : MaterialSlot × Nat) (p : Paint) : Prop where
  slot : p.slot = x.2
  material : x.1.material = some p.material
  name : legal (s.materialName p.material) = .ok p.name

def ownSlots (slots : List MaterialSlot) : List (MaterialSlot × Nat) := slots.zipIdx.filter (·.1.ofObject)

def Walk.collecting (w : Walk) (ps : List Paint) : Walk :=
  { w with materials := w.materials ++ (ps.map fun p => some p.material).toArray }

theorem ends_paints {w : Walk} {lead : String} {slots : List MaterialSlot} :
    Ends (ownMaterials lead slots) s w fun lines w' =>
    ∃ ps : List Paint, Forall₂ s.Paints (ownSlots slots) ps ∧ lines = ps.map (Paint.line lead) ∧
      w' = w.collecting ps := by
  refine .bindRead (.bind ?_)
  unfold ownSlots
  generalize slots.zipIdx = l
  induction l generalizing w with
  | nil =>
    rw [mapM_nil]
    exact .pure (.pure ⟨[], .nil, rfl, by simp [collecting]⟩)
  | cons e l ih =>
    obtain ⟨slot, i⟩ := e
    rw [mapM_cons]
    dsimp only
    split
    · rename_i hOwn
      refine .bind (.bind (.modify (.bindLift fun m hm => .bindLift fun name hName => .pure ?_)))
      refine .bind (ih.imp fun rest w' hRest => .pure (.pure ?_))
      obtain ⟨ps, hPaints, hLines, rfl⟩ := hRest _ _ rfl
      have hSlot := demandIndex_eq_ok hm
      refine ⟨⟨i, m, name⟩ :: ps, ?_, ?_, ?_⟩
      · rw [filter_cons, if_pos hOwn]
        exact .cons ⟨rfl, hSlot, hName⟩ hPaints
      · rw [flatten_cons, hLines]
        rfl
      · simp [collecting, hSlot]
    · rename_i hOther
      refine .bind (.pure (.bind (ih.imp fun rest w' hRest => .pure ?_)))
      rwa [filter_cons, if_neg hOther]

/-! ## Adding to an actor -/

def Walk.withHead (w : Walk) (place : Nat) (f : ActorHead → ActorHead) : Walk :=
  { w with drafts := w.drafts.modify place fun d => { d with head := f d.head } }

theorem outline_withHead (w : Walk) (n : Nat) {f : ActorHead → ActorHead}
    (hf : ∀ h, (f h).name = h.name ∧ (f h).instances = h.instances) : (w.withHead n f).outline = w.outline := by
  have hNode (d : ActorDraft) : node { d with head := f d.head } = id d.node := by simp [node, hf]
  have hSame := outline_modify w n hNode
  rwa [modify_id] at hSame

def Walk.board (w : Walk) : Array ActorDraft × Table String Nat × Array Nat := (w.drafts, w.named, w.roots)

theorem outline_of_board {w w' : Walk} (h : w'.board = w.board) : w'.outline = w.outline := by
  obtain ⟨hDrafts, hNamed, hRoots⟩ : w'.drafts = w.drafts ∧ w'.named = w.named ∧ w'.roots = w.roots := by
    simpa [board] using h
  simp [outline, hDrafts, hNamed, hRoots]

theorem board_meshName {w w' : Walk} {x : Nat} {r : Except Fault (Option String)}
    (h : outcome (meshName x) s w = (r, w')) : w'.board = w.board := by
  cases answers_of_meshName h with
  | untitled => rfl
  | titled _ _ _ collects => cases collects <;> rfl

theorem outline_meshName {w w' : Walk} {x : Nat} {r : Except Fault (Option String)}
    (h : outcome (meshName x) s w = (r, w')) : w'.outline = w.outline :=
  outline_of_board (board_meshName h)

/-- The line by which an actor refers to the mesh that it shows. -/
def meshLine (mesh : String) : String := "\t<mesh name=\"" ++ mesh ++ "\"/>\n"

namespace ActorHead

def showing (mesh : String) (h : ActorHead) : ActorHead :=
  { h with kind := some "ActorMesh", fields := h.fields ++ [meshLine mesh] }

def painted (ps : List Paint) (h : ActorHead) : ActorHead := { h with fields := h.fields ++ ps.map (Paint.line "\t") }

def telling (d : Description) (h : ActorHead) : ActorHead :=
  { h with kind := d.kind <|> h.kind, attributes := h.attributes ++ d.attributes, fields := h.fields ++ d.fields }

end ActorHead

def Walk.logging (w : Walk) (log : Array LogLine) : Walk := { w with log }

/-- What the description of an object adds to its actor: the mesh, if it gets one, with the materials of the object,
or else what there is to tell. -/
inductive Described (s : Scene) (n x : Nat) (w : Walk) : Walk → Prop
  | unnamed {w'} (isMesh : hasGeometry (s.object x).kind) (answer : outcome (meshName x) s w = (.ok none, w')) :
      Described s n x w w'
  | mesh {mesh u ps} (isMesh : hasGeometry (s.object x).kind) (answer : outcome (meshName x) s w = (.ok (some mesh), u))
      (paints : Forall₂ s.Paints (ownSlots (s.object x).slots) ps) :
      Described s n x w (((u.withHead n (.showing mesh)).collecting ps).withHead n (.painted ps))
  | told {d : Description} {log} (noMesh : ¬hasGeometry (s.object x).kind) (told : d.Told) :
      Described s n x w ((w.withHead n (.telling d)).logging log)
  | silent {log} (noMesh : ¬hasGeometry (s.object x).kind) : Described s n x w (w.logging log)

theorem ends_write {w : Walk} {lines : List LogLine} :
    Ends (lines.forM fun l => write l.level l.message) s w fun _ w' => ∃ log, w' = w.logging log := by
  induction lines generalizing w with
  | nil => exact .pure ⟨w.log, rfl⟩
  | cons line lines ih => exact .bind (.modify ih)

theorem ends_describe {w : Walk} {n x : Nat} : Ends (describe n x) s w fun _ w' => Described s n x w w' := by
  have hTold {r : Except Fault Description} (noMesh : ¬hasGeometry (s.object x).kind) (hr : Yields r Description.Told) :
      Ends (do addDescription n (← lift r)) s w fun _ w' => Described s n x w w' := by
    refine .bindLift fun d hd => .bind (.modify (ends_write.imp ?_))
    rintro _ _ ⟨log, rfl⟩
    exact .told noMesh (hr d hd)
  refine .bindRead ?_
  dsimp only
  split
  · rename_i isMesh
    refine .bind (ends_self.imp fun answer u hMesh => ?_)
    split
    · exact .pure (.unnamed isMesh hMesh)
    · refine .bind (.modify (.bindRead (.bind (ends_paints.imp ?_))))
      rintro _ _ ⟨ps, hPaints, rfl, rfl⟩
      exact .modify (.mesh isMesh hMesh hPaints)
  · rename_i noMesh
    split
    · exact .pure (.silent noMesh)
    · split
      · exact hTold noMesh (.skip fun _ => yields_describeCamera)
      · split
        · exact hTold noMesh (.skip fun _ => yields_describeLight)
        · split
          · exact hTold noMesh (.skip fun _ => yields_describeProbe)
          · split <;> exact .modify (.silent noMesh)

theorem Described.outline_eq {w w' : Walk} {n x : Nat} (h : Described s n x w w') : w'.outline = w.outline := by
  cases h with
  | unnamed _ answer => exact outline_meshName answer
  | @mesh mesh u ps _ answer =>
    refine Eq.trans (outline_withHead _ n fun _ => ⟨rfl, rfl⟩) ?_
    exact (outline_withHead u n (f := .showing mesh) fun _ => ⟨rfl, rfl⟩).trans (outline_meshName answer)
  | @told d => exact outline_withHead w n (f := .telling d) fun _ => ⟨rfl, rfl⟩
  | silent => rfl

/-! ## Finding an actor -/

/-- What an actor stands for: an object, or the instance at a place in the list. -/
inductive Bearer where
  | object (i : Nat)
  | copy (k : Nat)
  deriving DecidableEq

def instanceAt (s : Scene) (k : Nat) : Instance := s.instances[k]?.getD default

/-- The object below which the actor of a bearer is to stand. -/
def holder (s : Scene) : Bearer → Option Nat
  | .object i => (s.object i).parent
  | .copy k => (s.instanceAt k).parent <|> ((s.instanceAt k).object.bind fun i => (s.object i).parent)

def label (s : Scene) : Bearer → Except Fault String
  | .object i => legal (s.object i).name
  | .copy k => do legal (← s.instanceName (s.instanceAt k))

theorem instanceName_ne_empty {i : Instance} {name : String} (h : s.instanceName i = .ok name) : name ≠ "" := by
  obtain ⟨o, -, ⟨⟩⟩ := bind_eq_ok.mp h
  simp

namespace Outline

def enter (o : Outline) (b : Bearer) (name : String) : Outline where
  nodes := o.nodes ++ [⟨name, .empty, []⟩]
  named := match b with
    | .object _ => o.named.insert name o.nodes.length
    | .copy _ => o.named
  roots := o.roots

def addRoot (o : Outline) (n : Nat) : Outline := { o with roots := o.roots ++ [n] }

def adopt (o : Outline) (m n : Nat) : Outline :=
  { o with nodes := o.nodes.modify m fun x => { x with children := x.children ++ [n] } }

def listing (o : Outline) (m : Nat) (mesh : String) (ps : List Placed) : Outline :=
  { o with nodes := o.nodes.modify m fun x => { x with instances := x.instances.insert mesh ps } }

def listed (o : Outline) (m : Nat) (mesh : String) : List Placed :=
  ((o.nodes[m]?.bind fun x => x.instances.get? mesh)).getD []

def addInstance (o : Outline) (m : Nat) (mesh : String) (p : Placed) : Outline :=
  o.listing m mesh (o.listed m mesh ++ [p])

end Outline

inductive Finds (s : Scene) : Bearer → Outline → Nat → Outline → Prop
  | again {i name o n} (label : s.label (.object i) = .ok name) (found : o.named.get? name = some n) :
      Finds s (.object i) o n o
  | root {b name o} (label : s.label b = .ok name) (isNew : ∀ i, b = .object i → o.named.get? name = none)
      (holder : s.holder b = none) : Finds s b o o.nodes.length ((o.enter b name).addRoot o.nodes.length)
  | child {b name o p m u} (label : s.label b = .ok name)
      (isNew : ∀ i, b = .object i → o.named.get? name = none) (holder : s.holder b = some p)
      (parent : Finds s (.object p) (o.enter b name) m u) :
      Finds s b o o.nodes.length (u.adopt m o.nodes.length)

/-- The arguments with which the actor of a bearer is asked for. -/
inductive Asks (s : Scene) : Bearer → Nat → Option String → Option Nat → Prop
  | object {i} : Asks s (.object i) i none none
  | copy {k i x name} (place : s.instances[k]? = some i) (object : i.object = some x)
      (title : s.instanceName i = .ok name) : Asks s (.copy k) x (some name) i.parent

/-- The head of an actor that was just drafted for an object. -/
inductive Drafted (s : Scene) : ActorHead → Prop
  | intro {x : Nat} {name transform : String} {layer : Option String}
      (text : s.transformText (s.object x) (s.object x).matrix = .ok transform) :
      Drafted s { name := name, layer := layer, transform := transform,
                  attributes := [" visible=\"" ++ visibility (s.object x) ++ "\""] }

theorem Drafted.blank {h : ActorHead} (hDrafted : Drafted s h) : h.instances = .empty ∧ h.fields = [] := by
  cases hDrafted
  exact ⟨rfl, rfl⟩

theorem ends_newHead {w : Walk} {index : Nat} {name : String} :
    Ends (newHead index name) s w fun h w' => w = w' ∧ h.name = name ∧ Drafted s h := by
  refine .bindRead ?_
  extract_lets _ rest
  have hRest (layer : Option String) : Ends (rest layer) s w fun h w' => w = w' ∧ h.name = name ∧ Drafted s h :=
    .bindLift fun transform hText => .pure ⟨rfl, rfl, .intro hText⟩
  split
  · exact .bind (.pure (hRest none))
  · split
    · exact .bind (.pure (hRest none))
    · exact .bindLift fun layer _ => .bind (.pure (hRest (some layer)))

namespace Asks

variable {s : Scene} {b : Bearer} {index : Nat} {own : Option String} {parent : Option Nat}

theorem own_eq (h : Asks s b index own parent) : (own.bind fun n => if n.isEmpty then none else some n) = own := by
  cases h with
  | object => rfl
  | copy place object title => simp [instanceName_ne_empty title]

theorem label_eq (h : Asks s b index own parent) : legal (own.getD (s.object index).name) = s.label b := by
  cases h with
  | object => rfl
  | copy place object title => simp [label, instanceAt, place, title, bind, Except.bind]

theorem holder_eq (h : Asks s b index own parent) : (parent <|> (s.object index).parent) = s.holder b := by
  cases h with
  | object => rfl
  | copy place object title => simp [holder, instanceAt, place, object]

end Asks

/-- A new actor is hung at the top, or below the actor of its holder. -/
theorem ends_attach (s : Scene) (fuel n : Nat) (holder : Option Nat) {w : Walk} {Q : Nat → Walk → Prop}
    (hRoot : holder = none → Q n { w with roots := w.roots.push n })
    (hChild : ∀ p, holder = some p → Ends (actorOf fuel p none none) s w fun m u =>
      Q n { u with drafts := u.drafts.modify m fun d => { d with children := d.children.push n } }) :
    Ends (match holder with
      | some p => do
        let parent ← actorOf fuel p none none
        modify fun u => { u with drafts := u.drafts.modify parent fun d => { d with children := d.children.push n } }
        pure n
      | none => do
        modify fun u => { u with roots := u.roots.push n }
        pure n) s w Q := by
  cases holder with
  | none => exact .bind (.modify (.pure (hRoot rfl)))
  | some p => exact .bind ((hChild p rfl).imp fun m u h => .bind (.modify (.pure h)))

section Attach

variable {b : Bearer} {w w₁ : Walk} {name : String}
variable (hName : s.label b = .ok name) (hNew : ∀ i, b = .object i → w.outline.named.get? name = none)
  (hEntered : w₁.outline = w.outline.enter b name)

include hName hNew hEntered

theorem finds_root (hHolder : s.holder b = none) :
    Finds s b w.outline w.drafts.size ({ w₁ with roots := w₁.roots.push w.drafts.size } : Walk).outline := by
  have hSize : w.drafts.size = w.outline.nodes.length := by simp [outline]
  have hRoot : ({ w₁ with roots := w₁.roots.push w.drafts.size } : Walk).outline =
      (w.outline.enter b name).addRoot w.drafts.size := by
    rw [← hEntered]
    simp [outline, Outline.addRoot]
  rw [hRoot, hSize]
  exact .root hName hNew hHolder

theorem finds_child {p m : Nat} {u : Walk} (hHolder : s.holder b = some p)
    (hParent : Finds s (.object p) w₁.outline m u.outline) :
    Finds s b w.outline w.drafts.size ({ u with
      drafts := u.drafts.modify m fun d => { d with children := d.children.push w.drafts.size } } : Walk).outline := by
  have hSize : w.drafts.size = w.outline.nodes.length := by simp [outline]
  have hAdopted := outline_modify u m (f := fun d => { d with children := d.children.push w.drafts.size })
    (g := fun x => { x with children := x.children ++ [w.drafts.size] }) fun d => by
      simp [node]
  rw [hAdopted, hSize]
  exact .child hName hNew hHolder (hEntered ▸ hParent)

end Attach

theorem ends_actorOf {b : Bearer} {fuel index : Nat} {own : Option String} {parent : Option Nat}
    (hAsks : Asks s b index own parent) (w : Walk) :
    Ends (actorOf fuel index own parent) s w fun n w' => Finds s b w.outline n w'.outline := by
  induction fuel generalizing b index own parent w with
  | zero => exact .throw
  | succ fuel ih =>
    refine .bindRead (.bindLift fun name hName => .bindGet ?_)
    rw [hAsks.own_eq] at hName ⊢
    rw [hAsks.label_eq] at hName
    rw [hAsks.holder_eq]
    split
    · rename_i n hFound
      cases hAsks with
      | object => exact .pure (.again hName hFound)
      | copy place object title => cases hFound
    · rename_i hNone
      have hNew : ∀ i, b = .object i → w.outline.named.get? name = none := by
        rintro i rfl
        cases hAsks with
        | object => exact hNone
      refine .bind (ends_newHead.imp ?_)
      rintro head _ ⟨rfl, rfl, hDrafted⟩
      have hInstances := hDrafted.blank.1
      refine .bind (.bindGet (.bind (.set (.pure ?_))))
      have hPlaced (w₁ : Walk) (hEntered : w₁.outline = w.outline.enter b head.name) :=
        ends_attach s fuel w.drafts.size (s.holder b) (Q := fun n w' => Finds s b w.outline n w'.outline)
          (finds_root hName hNew hEntered) fun p hHolder =>
            (ih .object w₁).imp fun m u => finds_child hName hNew hEntered hHolder
      dsimp only
      cases hAsks with
      | object =>
        refine .bind (.modify (hPlaced _ ?_))
        simp [outline, Outline.enter, node, hInstances]
      | copy place object title =>
        refine hPlaced _ ?_
        simp [outline, Outline.enter, node, hInstances]

theorem ends_findActor {b : Bearer} {index : Nat} {own : Option String} {parent : Option Nat}
    (hAsks : Asks s b index own parent) (w : Walk) :
    Ends (findActor index own parent) s w fun n w' => Finds s b w.outline n w'.outline :=
  .bindRead (ends_actorOf hAsks w)

/-! ## Visits -/

/-- The texts that an instance is listed with are those of its matrices. -/
def Shows (s : Scene) (i : Instance) (p : Placed) : Prop :=
  ∃ x parent m below, i.object = some x ∧ i.parent = some parent ∧ s.instanceMatrix i = .ok m ∧
    (s.object parent).matrix.inverse = .ok below ∧ s.transformText (s.object x) (below * m) = .ok p.below ∧
    s.transformText (s.object x) m = .ok p.world

theorem insert_insert {κ α : Type} [BEq κ] [LawfulBEq κ] (t : Table κ α) (k : κ) (a b : α) :
    (t.insert k a).insert k b = t.insert k b := by
  obtain ⟨l⟩ := t
  simp only [Table.insert, Table.mk.injEq]
  induction l with
  | nil => simp [Table.insertEntry]
  | cons e l ih =>
    obtain ⟨k', c⟩ := e
    by_cases h : k' == k
    · simp [Table.insertEntry, h]
    · simp [Table.insertEntry, h, ih]

theorem listed_outline (w : Walk) (m : Nat) (mesh : String) :
    w.outline.listed m mesh = ((w.drafts[m]?.getD default).head.instances.get? mesh).getD [] := by
  cases h : w.drafts[m]? with
  | none =>
    simp [Outline.listed, outline, h]
    rfl
  | some d => simp [Outline.listed, outline, h, node]

/-- The walk with another list of the instances of a mesh. -/
def Walk.listing (w : Walk) (m : Nat) (mesh : String) (ps : List Placed) : Walk :=
  w.withHead m fun h => { h with instances := h.instances.insert mesh ps }

theorem outline_listing (w : Walk) (m : Nat) (mesh : String) (ps : List Placed) :
    (w.listing m mesh ps).outline = w.outline.listing m mesh ps :=
  outline_modify w m fun _ => rfl

/-- What an instance is listed with behind others: the materials of its object if it is the first one. -/
inductive Furnishes (s : Scene) (j : Nat) : List Placed → Option (List String) → Prop
  | first {ps} (paints : Forall₂ s.Paints (ownSlots (s.object j).slots) ps) :
      Furnishes s j [] (some (ps.map (Paint.line "\t\t\t")))
  | later {p before} : Furnishes s j (p :: before) none

/-- The materials of an object are looked up if its instance is the first one of the mesh. -/
inductive Gathered (s : Scene) (j m : Nat) (mesh : String) (w : Walk) : Option (List String) → Walk → Prop
  | first {ps} (isFirst : w.outline.listed m mesh = [])
      (paints : Forall₂ s.Paints (ownSlots (s.object j).slots) ps) :
      Gathered s j m mesh w (some (ps.map (Paint.line "\t\t\t"))) ((w.listing m mesh []).collecting ps)
  | later (isLater : w.outline.listed m mesh ≠ []) : Gathered s j m mesh w none w

namespace Gathered

variable {s : Scene} {j m : Nat} {mesh : String} {w w' : Walk} {materials : Option (List String)}

theorem furnishes (h : Gathered s j m mesh w materials w') : s.Furnishes j (w.outline.listed m mesh) materials := by
  cases h with
  | first isFirst paints =>
    rw [isFirst]
    exact .first paints
  | later isLater =>
    obtain ⟨p, before, hListed⟩ := exists_cons_of_ne_nil isLater
    rw [hListed]
    exact .later

/-- The list of a mesh is emptied before the first instance is added to it, and no actor is left so. -/
theorem board_listing (h : Gathered s j m mesh w materials w') (ps : List Placed) :
    (w'.listing m mesh ps).board = (w.listing m mesh ps).board := by
  cases h with
  | later => rfl
  | first =>
    refine congrArg (·, w.named, w.roots) (Array.toList_inj.mp ?_)
    simp [listing, collecting, withHead, modify_modify_eq, Function.comp_def, insert_insert]

end Gathered

/-- An instance is listed with the actor of its parent, behind those of the same mesh. -/
inductive Lodged (s : Scene) (i : Instance) (j : Nat) (mesh : String) (w : Walk) : Walk → Prop
  | mk {p m u v below world materials} (parent : i.parent = some p)
      (found : outcome (findActor p none none) s w = (.ok m, u)) (gathered : Gathered s j m mesh u materials v)
      (shows : s.Shows i ⟨below, world, materials⟩) :
      Lodged s i j mesh w (v.listing m mesh (u.outline.listed m mesh ++ [⟨below, world, materials⟩]))

theorem ends_place {w : Walk} {i : Instance} {x j : Nat} {mesh : String} (hObject : i.object = some x) :
    Ends (place i x j mesh) s w fun _ w' => Lodged s i j mesh w w' := by
  refine .bindRead ?_
  extract_lets below
  split
  · rename_i p hParent
    refine .bind (.pure (.bind (ends_self.imp fun m u hFound => .bindGet ?_)))
    extract_lets head before rest
    have hBefore : before = u.outline.listed m mesh := (listed_outline u m mesh).symm
    clear_value before
    subst hBefore
    have hRest (v : Walk) (materials : Option (List String)) (hGathered : Gathered s j m mesh u materials v) :
        Ends (rest materials) s v fun _ w' => Lodged s i j mesh w w' := by
      refine .bindLift fun m' hMatrix => .bindLift fun inverse hInverse => ?_
      refine .bindLift fun below hBelow => .bindLift fun world hWorld => .modify ?_
      exact .mk hParent hFound hGathered ⟨x, p, m', inverse, hObject, hParent, hMatrix, hInverse, hBelow, hWorld⟩
    split
    · rename_i hFirst
      refine .bind (.modify (.bind (ends_paints.imp fun lines v hOwn => .bind (.pure (hRest v (some lines) ?_)))))
      obtain ⟨ps, hPaints, rfl, rfl⟩ := hOwn
      exact .first (List.isEmpty_iff.mp hFirst) hPaints
    · rename_i hLater
      exact .bind (.pure (hRest u none (.later fun hNil => hLater (List.isEmpty_iff.mpr hNil))))
  · exact .bind .throw

def chosen (s : Scene) (i : Instance) : Bool :=
  ((i.object.bind fun x => (s.object x).source).map fun y => (s.object y).selected).getD false

def grouper (s : Scene) (i : Instance) : Option Nat := do
  let j ← i.instanced
  let source ← (s.object j).source
  if hasGeometry (s.object source).kind then some j else none

inductive Unlisted (groups : Bool) (s : Scene) (i : Instance) (w : Walk) : Walk → Prop
  | unasked (h : groups && i.isInstance → s.grouper i = none) : Unlisted groups s i w w
  | asked {j w'} (isGrouped : (groups && i.isInstance) = true) (grouper : s.grouper i = some j)
      (answer : outcome (meshName j) s w = (.ok none, w')) : Unlisted groups s i w w'

/-- The bearer of the actor that shows an instance. -/
def Instance.bearer (i : Instance) (k x : Nat) : Bearer := if i.isInstance then .copy k else .object x

def Walk.turned (w : Walk) (n : Nat) (transform : String) : Walk := w.withHead n fun h => { h with transform }

theorem outline_turned (w : Walk) (n : Nat) (transform : String) : (w.turned n transform).outline = w.outline :=
  outline_withHead w n fun _ => ⟨rfl, rfl⟩

inductive Visited (groups selectedOnly : Bool) (s : Scene) (k : Nat) (i : Instance) (w : Walk) : Walk → Prop
  | passed (isOut : (selectedOnly && !s.chosen i) = true) : Visited groups selectedOnly s k i w w
  | listed {x j mesh w₁ w'} (isIn : (selectedOnly && !s.chosen i) = false) (object : i.object = some x)
      (isGrouped : (groups && i.isInstance) = true) (grouper : s.grouper i = some j)
      (answer : outcome (meshName j) s w = (.ok (some mesh), w₁))
      (lodged : Lodged s i j mesh w₁ w') : Visited groups selectedOnly s k i w w'
  | shown {x own parent n w₁ w₂ w₃ w'} (isIn : (selectedOnly && !s.chosen i) = false) (object : i.object = some x)
      (unlisted : Unlisted groups s i w w₁) (asks : Asks s (i.bearer k x) x own parent)
      (found : outcome (findActor x own parent) s w₁ = (.ok n, w₂))
      (turned : w₃ = w₂ ∨ ∃ m t, s.transformText (s.object x) m = .ok t ∧ w₃ = w₂.turned n t)
      (described : Described s n x w₃ w') : Visited groups selectedOnly s k i w w'

theorem ends_grouped {w : Walk} {i : Instance} {x : Nat} (hObject : i.object = some x) :
    Ends (grouped i x) s w fun isListed w' =>
    if isListed then ∃ j mesh w₁, s.grouper i = some j ∧ outcome (meshName j) s w = (.ok (some mesh), w₁) ∧
      Lodged s i j mesh w₁ w'
    else (s.grouper i = none ∧ w' = w) ∨ ∃ j, s.grouper i = some j ∧ outcome (meshName j) s w = (.ok none, w') := by
  refine .bindRead (.bindLift fun j hInstanced => .bindLift fun source hSource => ?_)
  have hGrouper : s.grouper i = if hasGeometry source.kind then some j else none := by
    obtain ⟨y, hy, rfl⟩ := demand_eq_ok hSource
    simp [grouper, demandIndex_eq_ok hInstanced, hy]
  split
  · rename_i hKind
    refine .pure (.inl ⟨?_, rfl⟩)
    simpa [hGrouper] using hKind
  · rename_i hKind
    have hAsked : s.grouper i = some j := by simpa [hGrouper] using hKind
    refine .bind (ends_self.imp fun mesh w₁ hMesh => ?_)
    split
    · exact .pure (.inr ⟨j, hAsked, hMesh⟩)
    · refine .bind ((ends_place hObject).imp fun _ w₂ hLodged => .pure ?_)
      exact ⟨j, _, w₁, hAsked, hMesh, hLodged⟩

theorem ends_visit {groups selectedOnly : Bool} {k : Nat} {i : Instance} (hk : s.instances[k]? = some i)
    (w : Walk) : Ends (visit groups selectedOnly i) s w fun _ w' => Visited groups selectedOnly s k i w w' := by
  refine .bindRead ?_
  extract_lets rest
  have hIn (isIn : (selectedOnly && !s.chosen i) = false) :
      Ends (rest false) s w fun _ w' => Visited groups selectedOnly s k i w w' := by
    rw [show rest false = _ from if_neg Bool.false_ne_true]
    refine .bindLift fun m _ => .bindLift fun x hDemand => .bindLift fun transform hTransform => ?_
    have hObject := demandIndex_eq_ok hDemand
    extract_lets -underBinder grouping
    -- An instance that was not listed becomes an actor.
    have hShown (w₁ : Walk) (hUnlisted : Unlisted groups s i w w₁) :
        Ends (grouping false) s w₁ fun _ w' => Visited groups selectedOnly s k i w w' := by
      rw [show grouping false = _ from if_pos rfl]
      dsimp only
      cases hInstance : i.isInstance with
      | false =>
        have hAsks : Asks s (i.bearer k x) x none none := by
          rw [Instance.bearer, hInstance]
          exact .object
        refine .bind (.pure (.bind (ends_self.imp fun n w₂ hFound => ?_)))
        exact ends_describe.imp fun _ w' hDescribed => .shown isIn hObject hUnlisted hAsks hFound (.inl rfl) hDescribed
      | true =>
        refine .bindLift fun name hName => .bind (.pure (.bind (ends_self.imp fun n w₂ hFound => ?_)))
        have hAsks : Asks s (i.bearer k x) x (some name) i.parent := by
          rw [Instance.bearer, hInstance]
          exact .copy hk hObject hName
        refine .bind (.modify (ends_describe.imp fun _ w' hDescribed => ?_))
        exact .shown isIn hObject hUnlisted hAsks hFound (.inr ⟨m, transform, hTransform, rfl⟩) hDescribed
    split
    · rename_i hGrouped
      refine .bind ((ends_grouped hObject).imp fun isListed w₁ hListed => ?_)
      cases isListed with
      | true =>
        obtain ⟨j, mesh, w₂, hGrouper, hMesh, hLodged⟩ := hListed
        exact .pure (.listed isIn hObject hGrouped hGrouper hMesh hLodged)
      | false =>
        refine hShown w₁ ?_
        obtain ⟨hNone, rfl⟩ | ⟨j, hGrouper, hMesh⟩ := hListed
        · exact .unasked fun _ => hNone
        · exact .asked hGrouped hGrouper hMesh
    · rename_i hGrouped
      exact .bind (.pure (hShown w (.unasked fun h => absurd h hGrouped)))
  split
  · rename_i hOnly
    refine .bindLift fun o hObject => .bindLift fun source hSource => .bind (.pure ?_)
    have hChosen : s.chosen i = source.selected := by
      obtain ⟨x, hx, rfl⟩ := demand_eq_ok hObject
      obtain ⟨y, hy, rfl⟩ := demand_eq_ok hSource
      simp [chosen, hx, hy]
    cases hOut : source.selected with
    | false => exact .pure (.passed (by simp [hOnly, hChosen, hOut]))
    | true => exact hIn (by simp [hOnly, hChosen, hOut])
  · rename_i hOnly
    exact .bind (.pure (hIn (by simp [hOnly])))

/-! ## Fates -/

/-- What becomes of an instance: it is passed over, listed with its parent, or shown as an actor. -/
inductive Fate where
  | passed
  | listed (mesh : String)
  | shown
  deriving DecidableEq

/-- The mesh under which an instance would be listed. -/
def groupMesh? (s : Scene) (w : Walk) (i : Instance) : Option String :=
  (s.grouper i).bind fun j => (outcome (meshName j) s w).1.toOption.join

def fate (groups selectedOnly : Bool) (s : Scene) (w : Walk) (i : Instance) : Fate :=
  if selectedOnly && !s.chosen i then .passed
  else if groups && i.isInstance then
    match s.groupMesh? w i with
    | some mesh => .listed mesh
    | none => .shown
  else .shown

/-- The instances of a list with their fates, from a walk on. -/
def visits (groups selectedOnly : Bool) (s : Scene) : Walk → List Instance → List (Instance × Fate)
  | _, [] => []
  | w, i :: rest =>
    (i, fate groups selectedOnly s w i) ::
      visits groups selectedOnly s (outcome (visit groups selectedOnly i) s w).2 rest

inductive Step (s : Scene) (k : Nat) (i : Instance) : Fate → Outline → Outline → Prop
  | passed {o} : Step s k i .passed o o
  | listed {o mesh p j m u placed} (parent : i.parent = some p) (found : Finds s (.object p) o m u)
      (shows : s.Shows i placed) (grouper : s.grouper i = some j)
      (furnishes : s.Furnishes j (u.listed m mesh) placed.materials) :
      Step s k i (.listed mesh) o (u.addInstance m mesh placed)
  | shown {o x m u} (object : i.object = some x) (found : Finds s (i.bearer k x) o m u) : Step s k i .shown o u

section Visited

variable {groups selectedOnly : Bool} {s : Scene} {k : Nat} {i : Instance} {w w' : Walk}

theorem fate_eq_listed {j : Nat} {mesh : String} (isIn : (selectedOnly && !s.chosen i) = false)
    (isGrouped : (groups && i.isInstance) = true) (hGrouper : s.grouper i = some j)
    (hAnswer : outcome (meshName j) s w = (.ok (some mesh), w')) :
    fate groups selectedOnly s w i = .listed mesh := by
  have hMesh : s.groupMesh? w i = some mesh := by simp [groupMesh?, hGrouper, hAnswer, Except.toOption]
  simp [fate, isIn, isGrouped, hMesh]

theorem fate_eq_shown (isIn : (selectedOnly && !s.chosen i) = false) (h : Unlisted groups s i w w') :
    fate groups selectedOnly s w i = .shown := by
  cases h with
  | unasked hNone =>
    by_cases hGrouped : (groups && i.isInstance) = true
    · simp [fate, isIn, groupMesh?, hNone hGrouped]
    · simp [fate, isIn, hGrouped]
  | asked isGrouped grouper answer =>
    simp [fate, isIn, groupMesh?, grouper, answer, Except.toOption]

theorem Unlisted.outline_eq (h : Unlisted groups s i w w') : w'.outline = w.outline := by
  cases h with
  | unasked => rfl
  | asked isGrouped grouper answer => exact outline_meshName answer

theorem step_of_visited (h : Visited groups selectedOnly s k i w w') :
    Step s k i (fate groups selectedOnly s w i) w.outline w'.outline := by
  cases h with
  | passed isOut =>
    rw [fate, if_pos isOut]
    exact .passed
  | @listed x j mesh w₁ _ isIn object isGrouped grouper answer lodged =>
    obtain ⟨hParent, hFound, hGathered, hShows⟩ := lodged
    rw [fate_eq_listed isIn isGrouped grouper answer, outline_of_board (hGathered.board_listing _), outline_listing]
    have hFinds := ends_findActor .object w₁ _ _ hFound
    rw [outline_meshName answer] at hFinds
    exact .listed hParent hFinds hShows grouper hGathered.furnishes
  | @shown x own parent n w₁ w₂ w₃ _ isIn object unlisted asks found turned described =>
    have hFinds := ends_findActor asks w₁ n w₂ found
    have hTurned : w₃.outline = w₂.outline := by
      obtain rfl | ⟨_, t, -, rfl⟩ := turned
      · rfl
      · exact outline_turned w₂ n t
    rw [fate_eq_shown isIn unlisted, described.outline_eq, hTurned]
    rw [unlisted.outline_eq] at hFinds
    exact .shown object hFinds

end Visited

section Induction

variable {groups selectedOnly : Bool} {s : Scene} {P : List (Instance × Fate) → Walk → Prop}
  (hStep : ∀ {done i w w'}, Visited groups selectedOnly s done.length i w w' → P done w →
    P (done ++ [(i, fate groups selectedOnly s w i)]) w')

include hStep

theorem ends_visits (front l : List Instance) (hList : front ++ l <+: s.instances) {done : List (Instance × Fate)}
    (hDone : done.length = front.length) {w : Walk} (h : P done w) :
    Ends (l.forM (visit groups selectedOnly)) s w fun _ w' => P (done ++ visits groups selectedOnly s w l) w' := by
  induction l generalizing front done w with
  | nil =>
    refine .pure ?_
    rwa [visits, append_nil]
  | cons i l ih =>
    have hPlace : s.instances[done.length]? = some i := by
      obtain ⟨back, hBack⟩ := hList
      simp [← hBack, hDone]
    refine .bind (ends_self.imp fun _ w₁ hVisit => ?_)
    have hNext := hStep (ends_visit hPlace w _ _ hVisit) h
    have hRest := ih (front ++ [i]) (by simpa using hList) (by simp [hDone]) hNext
    rw [visits, hVisit]
    rwa [append_assoc] at hRest

theorem walk_induction (hFirst : P [] {}) {w : Walk} (hWalk : outcome (walkAll groups selectedOnly) s {} = (.ok (), w)) :
    P (visits groups selectedOnly s {} s.instances) w :=
  ends_visits hStep [] s.instances prefix_rfl rfl hFirst () w hWalk

end Induction

end SceneExchange.Scene
