import SceneExchange.Proofs.Marks
import SceneExchange.Import.Shaders
import SceneExchange.Proofs.Lists

/-!
# The links of an imported material

Every expression of a material gets nodes of its own, and the links that a file asks for join them. A source
is an index among the expressions, and an index below zero counts from the last of them. So what a file writes
for an input without an expression links to the last expression.
-/

open List Option

namespace SceneExchange.Import

open Stage

open Stage (Socket Link)

/-- What matters of the node tree of a material: how many nodes there are, and the links. -/
structure Sketch where
  nodes : Nat
  links : List Link

namespace Sketch

def add (k : Sketch) (links : List Link) : Sketch := { k with links := k.links ++ links }

@[simp] theorem add_nil (k : Sketch) : k.add [] = k := by simp [add]

@[simp] theorem add_add (k : Sketch) (ls ls' : List Link) : (k.add ls).add ls' = k.add (ls ++ ls') := by simp [add]

@[simp] theorem nodes_add (k : Sketch) (ls : List Link) : (k.add ls).nodes = k.nodes := rfl

@[simp] theorem links_add (k : Sketch) (ls : List Link) : (k.add ls).links = k.links ++ ls := rfl

end Sketch

def State.sketch? (s : State) (place : Nat) : Option Sketch :=
  s.stage.materials[place]?.map fun m => ⟨m.nodes.size, m.links.toList⟩

namespace Importing

variable {α β : Type} {p : Place} {place : Nat} {k : Sketch}
variable {m : Importing α} {f : α → Importing β} {first last : Nat} {inner : List Link}

/-- What a computation makes of the node tree of a material, if it answers and if it fails. -/
def Draws (p : Place) (place : Nat) (k : Sketch) (m : Importing α) (Q : α → Sketch → Prop) (E : Sketch → Prop) : Prop :=
  ∀ s, s.sketch? place = some k → ∃ k', (result m p s).2.sketch? place = some k' ∧ match (result m p s).1 with
    | .ok a => Q a k'
    | .error _ => E k'

variable {Q Q' : α → Sketch → Prop} {R : β → Sketch → Prop} {E E' : Sketch → Prop}

theorem Draws.bind (h : Draws p place k m Q E) (hNext : ∀ a k', Q a k' → Draws p place k' (f a) R E) :
    Draws p place k (m >>= f) R E := by
  intro s hSketch
  obtain ⟨k', hSketch', hFirst⟩ := h s hSketch
  cases hRun : result m p s with
  | mk answer t =>
    rw [hRun] at hSketch' hFirst
    cases answer with
    | error e =>
      rw [result_bind_error hRun]
      exact ⟨k', hSketch', hFirst⟩
    | ok a =>
      rw [result_bind_ok hRun]
      exact hNext a k' hFirst t hSketch'

theorem Draws.imp (h : Draws p place k m Q E) (hQ : ∀ a k', Q a k' → Q' a k') (hE : ∀ k', E k' → E' k') :
    Draws p place k m Q' E' := by
  intro s hSketch
  obtain ⟨k', hSketch', hFirst⟩ := h s hSketch
  refine ⟨k', hSketch', ?_⟩
  cases hAnswer : (result m p s).1 with
  | error e =>
    rw [hAnswer] at hFirst
    exact hE k' hFirst
  | ok a =>
    rw [hAnswer] at hFirst
    exact hQ a k' hFirst

theorem draws_pure {a : α} (h : Q a k) : Draws p place k (pure a) Q E := fun _ hSketch => ⟨k, hSketch, h⟩

theorem draws_throw {e : Fault} (h : E k) : Draws p place k (throw e : Importing α) Q E := fun _ hSketch => ⟨k, hSketch, h⟩

theorem Draws.map {f : α → β} (h : Draws p place k m (fun a k' => R (f a) k') E) : Draws p place k (f <$> m) R E := by
  rw [← bind_pure_comp]
  exact h.bind fun _ _ hAnswer => draws_pure hAnswer

def Still (p : Place) (place : Nat) (m : Importing α) : Prop :=
  ∀ k, Draws p place k m (fun _ k' => k' = k) (· = k)

theorem Still.bind (h : Still p place m) (hE : E k) (hNext : ∀ a, Draws p place k (f a) R E) :
    Draws p place k (m >>= f) R E := by
  refine Draws.bind ((h k).imp (fun _ _ => id) ?_) ?_
  · rintro _ rfl
    exact hE
  · rintro a _ rfl
    exact hNext a

theorem still_pure (a : α) : Still p place (pure a) := fun _ => draws_pure rfl

theorem still_throw (e : Fault) : Still p place (throw e : Importing α) := fun _ => draws_throw rfl

theorem still_get : Still p place (get : Importing State) := fun k _ hSketch => ⟨k, hSketch, rfl⟩

theorem still_write (level : LogLevel) (message : String) : Still p place (write level message) :=
  fun k _ hSketch => ⟨k, hSketch, rfl⟩

theorem still_print (line : String) : Still p place (print line) := fun k _ hSketch => ⟨k, hSketch, rfl⟩

theorem still_lift (r : Except Fault α) : Still p place (lift r) := by
  cases r with
  | error e => exact still_throw e
  | ok a => exact still_pure a

theorem still_real (text : String) : Still p place (real text) := by
  rw [real]
  cases Number.readReal? text with
  | none => exact still_throw _
  | some x => exact still_pure x

theorem still_expect (b : Bool) : Still p place (expect b) := by
  cases b with
  | false => exact still_throw _
  | true => exact still_pure ()

theorem draws_onMaterial {f : Stage.Material → Stage.Material} {k' : Sketch}
    (h : ∀ b : Stage.Material, (⟨b.nodes.size, b.links.toList⟩ : Sketch) = k →
      (⟨(f b).nodes.size, (f b).links.toList⟩ : Sketch) = k') :
    Draws p place k (onMaterial place f) (fun _ new => new = k') E := by
  intro s hSketch
  obtain ⟨b, hFound, hSketch⟩ := map_eq_some_iff.mp hSketch
  refine ⟨k', ?_, rfl⟩
  change ((s.stage.materials.modify place f)[place]?).map _ = some k'
  rw [Array.getElem?_modify, if_pos rfl, hFound]
  exact congrArg some (h b hSketch)

theorem draws_onNode (node : Nat) (f : Stage.Node → Stage.Node) :
    Draws p place k (onNode place node f) (fun _ k' => k' = k) E :=
  draws_onMaterial fun b hSketch => by simpa using hSketch

theorem still_onNode (node : Nat) (f : Stage.Node → Stage.Node) : Still p place (onNode place node f) := fun _ =>
  draws_onNode node f

theorem draws_addLink (source target : Socket) :
    Draws p place k (addLink place source target) (fun _ k' => k' = k.add [⟨source, target⟩]) E :=
  draws_onMaterial fun b hSketch => by simp [← hSketch, Sketch.add]

theorem draws_addNode (node : Stage.Node) :
    Draws p place k (addNode place node) (fun n k' => n = k.nodes ∧ k' = { k with nodes := k.nodes + 1 }) E := by
  have hFound : Draws p place k (stageMaterial place) (fun b k' => b.nodes.size = k.nodes ∧ k' = k) E := by
    intro s hSketch
    obtain ⟨b, hFound, rfl⟩ := map_eq_some_iff.mp hSketch
    refine ⟨_, hSketch, ?_, rfl⟩
    simp [hFound]
  have hPush : Draws p place k (onMaterial place fun m => { m with nodes := m.nodes.push node })
      (fun _ k' => k' = { k with nodes := k.nodes + 1 }) E :=
    draws_onMaterial fun b hSketch => by simp [← hSketch]
  refine hFound.bind ?_
  rintro b _ ⟨hSize, rfl⟩
  refine hPush.bind ?_
  rintro _ _ rfl
  exact draws_pure ⟨hSize, rfl⟩

/-! ## The nodes of expressions -/

/-- Whether a socket belongs to the nodes made from `first` up to `last`. -/
def Socket.Between (first last : Nat) (s : Socket) : Prop := first ≤ s.node ∧ s.node < last

/-- The node of an expression is one of the nodes made for it, and so are those of its sockets. All its outputs are at
its node. An expression of an unknown kind has none. -/
def Built (first last : Nat) : Option Made → Prop
  | none => first ≤ last
  | some m => (first ≤ m.node ∧ m.node < last) ∧ (∀ input ∈ m.inputs, Socket.Between first last input.2) ∧
    ∀ output ∈ m.outputs, output.2.node = m.node

/-- Expressions have nodes made one after the other, with links inside the nodes of each. -/
inductive BuiltAll : Nat → List (Option Made) → List Link → Nat → Prop where
  | nil (first : Nat) : BuiltAll first [] [] first
  | snoc {first mid last : Nat} {mades : List (Option Made)} {made : Option Made} {links inner : List Link}
      (h : BuiltAll first mades links mid) (hMade : Built mid last made)
      (hInner : ∀ l ∈ inner, Socket.Between mid last l.source ∧ Socket.Between mid last l.target) :
      BuiltAll first (mades ++ [made]) (links ++ inner) last

/-- After making the nodes of an expression the new nodes are its own, and so are the ends of new links. A failure leaves
no new links. -/
def Builds (p : Place) (place : Nat) (view : α → Option Made) (m : Importing α) : Prop :=
  ∀ k, Draws p place k m (fun made k' => Built k.nodes k'.nodes (view made) ∧ ∃ inner, k'.links = k.links ++ inner ∧
      ∀ l ∈ inner, Socket.Between k.nodes k'.nodes l.source ∧ Socket.Between k.nodes k'.nodes l.target)
    (fun k' => k'.links = k.links)

theorem Still.builds {view : β → Option Made} (h : Still p place m) (hNext : ∀ a, Builds p place view (f a)) :
    Builds p place view (m >>= f) := fun k => h.bind rfl fun a => hNext a k

theorem Builds.map_some {m : Importing Made} (h : Builds p place some m) : Builds p place id (some <$> m) :=
  fun k => (h k).map

def Lone (node : Nat) (m : Made) : Prop :=
  m.node = node ∧ (∀ input ∈ m.inputs, input.2.node = node) ∧ ∀ output ∈ m.outputs, output.2.node = node

theorem builds_addNode {node : Stage.Node} {f : Nat → Importing Made}
    (h : ∀ n k, Draws p place k (f n) (fun m k' => Lone n m ∧ k' = k) (· = k)) :
    Builds p place some (addNode place node >>= f) := by
  intro k
  refine (draws_addNode node).bind ?_
  rintro n _ ⟨rfl, rfl⟩
  refine (h k.nodes _).imp ?_ ?_
  · rintro m _ ⟨⟨hNode, hInputs, hOutputs⟩, rfl⟩
    refine ⟨⟨by simp [hNode], ?_, fun output hMem => (hOutputs output hMem).trans hNode.symm⟩, [], by simp, by simp⟩
    intro input hMem
    simp [Socket.Between, hInputs input hMem]
  · rintro _ rfl
    rfl

theorem draws_lone {k : Sketch} {m : Made} {n : Nat} (h : Lone n m) :
    Draws p place k (pure m) (fun m k' => Lone n m ∧ k' = k) (· = k) := draws_pure ⟨h, rfl⟩

theorem builds_bareNode (kind : Stage.NodeKind) (inputs : List (String × Nat)) :
    Builds p place some (bareNode place kind inputs) := by
  refine builds_addNode fun n k => draws_lone ⟨rfl, ?_, by simp⟩
  intro input hMem
  obtain ⟨entry, -, rfl⟩ := mem_map.mp hMem
  rfl

theorem builds_textureNode (e : Expression) : Builds p place some (textureNode place e) := by
  refine (still_lift _).builds fun name => still_get.builds fun s => ?_
  have hNode : ∀ image, Builds p place some (do
      let node ← addNode place { Stage.Node.ofKind .imageTexture with image := some image }
      pure ⟨node, .imageTexture, [], [(0, ⟨node, 0⟩), (4, ⟨node, 1⟩), (5, ⟨node, 0⟩)]⟩) := fun image =>
    builds_addNode fun n k => draws_lone ⟨rfl, by simp, by simp⟩
  cases hName : s.parts.textureNames.get? name with
  | none => simpa only [hName] using (still_write _ _).builds fun _ => (still_pure _).builds hNode
  | some index => simpa only [hName] using (still_pure _).builds hNode

theorem builds_colorNode (e : Expression) : Builds p place some (colorNode place e) :=
  (still_lift _).builds fun _ => (still_lift _).builds fun _ =>
    builds_addNode fun n k => draws_lone ⟨rfl, by simp, by simp⟩

theorem builds_scalarNode (e : Expression) : Builds p place some (scalarNode place e) :=
  builds_addNode fun n k => (still_lift _).bind rfl fun text => (still_real text).bind rfl fun x =>
    (still_onNode n _).bind rfl fun _ => draws_lone ⟨rfl, by simp, by simp⟩

theorem builds_vectorNode (operation : String) : Builds p place some (vectorNode place operation) :=
  builds_addNode fun n k => draws_lone ⟨rfl, by simp, by simp⟩

theorem builds_powerNode (e : Expression) : Builds p place some (powerNode place e) := by
  refine builds_addNode fun n k => ?_
  have hLone : Draws p place k (pure (⟨n, .math, [("0", ⟨n, 0⟩), ("1", ⟨n, 1⟩)], []⟩ : Made))
      (fun m k' => Lone n m ∧ k' = k) (· = k) := draws_lone ⟨rfl, by simp, by simp⟩
  cases e.properties.get? "ConstExponent" with
  | none => exact hLone
  | some property =>
    exact (still_expect _).bind rfl fun _ => (still_real _).bind rfl fun x => (still_onNode n _).bind rfl fun _ => hLone

theorem builds_geometryNode : Builds p place some (geometryNode place) :=
  builds_addNode fun n k => draws_lone ⟨rfl, by simp, by simp⟩

theorem builds_functionNode (e : Expression) : Builds p place some (functionNode place e) := by
  refine (still_print _).builds fun _ => (still_lift _).builds fun function => ?_
  split
  · exact builds_bareNode .gray _
  · split
    · exact builds_bareNode .normalMap _
    · exact builds_bareNode .reroute _

theorem builds_desaturationNodes : Builds p place some (desaturationNodes place) := by
  intro k
  refine (draws_addNode _).bind ?_
  rintro color _ ⟨rfl, rfl⟩
  refine (draws_addNode _).bind ?_
  rintro gray _ ⟨rfl, rfl⟩
  refine (draws_addLink _ _).bind ?_
  rintro _ _ rfl
  refine (draws_addNode _).bind ?_
  rintro mix _ ⟨rfl, rfl⟩
  refine (draws_addLink _ _).bind ?_
  rintro _ _ rfl
  refine (draws_addLink _ _).bind ?_
  rintro _ _ rfl
  refine (draws_onNode _ _).bind ?_
  rintro _ _ rfl
  refine draws_pure ⟨⟨?_, ?_, by simp⟩, _, by simp only [Sketch.links_add, append_assoc]; rfl, ?_⟩
  · simp only [Sketch.nodes_add]
    omega
  · simp [Socket.Between]
    omega
  · simp [Socket.Between]
    omega

theorem builds_expressionNode (e : Expression) : Builds p place id (expressionNode place e) := by
  rw [expressionNode]
  split
  · exact (builds_textureNode e).map_some
  · exact (builds_colorNode e).map_some
  · exact builds_desaturationNodes.map_some
  · exact (builds_scalarNode e).map_some
  · exact (builds_vectorNode _).map_some
  · exact (builds_vectorNode _).map_some
  · exact (builds_powerNode e).map_some
  · exact builds_geometryNode.map_some
  · exact (builds_bareNode _ _).map_some
  · exact (builds_bareNode _ _).map_some
  · exact (builds_bareNode _ _).map_some
  · exact (builds_bareNode _ _).map_some
  · exact (still_print _).builds fun _ => (builds_bareNode _ _).map_some
  · exact (still_print _).builds fun _ => (builds_bareNode _ _).map_some
  · exact (builds_functionNode e).map_some
  · exact (still_write _ _).builds fun _ k => draws_pure ⟨Nat.le_refl _, [], by simp, by simp⟩

theorem builds_makeNode (e : Expression) : Builds p place id (makeNode place e) := by
  intro k
  refine (builds_expressionNode e k).bind fun made k' hMade => ?_
  split
  · split
    · refine (draws_onNode _ _).bind ?_
      rintro _ _ rfl
      exact draws_pure hMade
    · exact draws_pure hMade
  · exact draws_pure hMade

theorem draws_makeNodes (es : List Expression) {known : Array (Option Made)} {links : List Link}
    (hKnown : BuiltAll first known.toList inner k.nodes) (hLinks : k.links = links ++ inner) :
    Draws p place k (es.foldlM (fun (made : Array (Option Made)) e => do pure (made.push (← makeNode place e))) known)
      (fun made k' => made.size = known.size + es.length ∧
        ∃ inner, BuiltAll first made.toList inner k'.nodes ∧ k'.links = links ++ inner)
      (fun k' => ∃ made inner last, BuiltAll first made inner last ∧ k'.links = links ++ inner) := by
  induction es generalizing k known inner with
  | nil => exact draws_pure ⟨rfl, inner, hKnown, hLinks⟩
  | cons e es ih =>
    rw [foldlM_cons]
    have hFirst : Draws p place k (do pure (known.push (← makeNode place e)))
        (fun made k' => made.size = known.size + 1 ∧
          ∃ inner, BuiltAll first made.toList inner k'.nodes ∧ k'.links = links ++ inner)
        (fun k' => ∃ made inner last, BuiltAll first made inner last ∧ k'.links = links ++ inner) := by
      refine Draws.bind ((builds_makeNode e k).imp (fun _ _ => id)
        fun k' hSame => ⟨known.toList, inner, k.nodes, hKnown, hSame.trans hLinks⟩) ?_
      rintro made k' ⟨hBuilt, new, hNew, hBetween⟩
      refine draws_pure ⟨Array.size_push _, inner ++ new, ?_, by rw [hNew, hLinks, append_assoc]⟩
      rw [Array.toList_push]
      exact .snoc hKnown hBuilt hBetween
    refine hFirst.bind ?_
    rintro made k' ⟨hSize, inner, hBuilt, hLinks⟩
    refine (ih hBuilt hLinks).imp ?_ fun _ => id
    rintro all k'' ⟨hAll, hRest⟩
    exact ⟨by rw [hAll, hSize, length_cons]; omega, hRest⟩

/-! ## The links that a file asks for -/

/-- The socket that a source stands for. -/
def originOf (made : List (Option Made)) (s : Source) : Option Socket :=
  (member? made.length s.expression).bind fun i => (made[i]?.getD none).bind fun m =>
    (m.outputs.lookup s.output).or ((member? m.kind.outputs.length s.output).map fun output => ⟨m.node, output⟩)

/-- The inputs of an expression for which its node has a socket. -/
def inputRequests (m : Made) (e : Expression) : List (Source × Socket) :=
  e.inputs.entries.flatMap fun (key, source) => (m.inputs.lookup key).toList.map fun target => (source, target)

/-- The inputs of a material for which the principled node has a socket. -/
def outputRequests (inputs : Table String Source) : List (Source × Socket) :=
  inputs.entries.flatMap fun (key, source) => (principledInput? key).toList.map fun place => (source, ⟨0, place⟩)

/-- All links that are asked for, in the order in which they are made. -/
def requests (es : List Expression) (made : List (Option Made)) (inputs : Table String Source) : List (Source × Socket) :=
  ((es.zip made).flatMap fun (e, m?) => m?.toList.flatMap fun m => inputRequests m e) ++ outputRequests inputs

def linkOf (made : List (Option Made)) (request : Source × Socket) : Option Link :=
  (originOf made request.1).map fun origin => ⟨origin, request.2⟩

/-- A step that adds links, or some of them if it fails. If it does not fail, the sources have indices in range. -/
def Adds (p : Place) (place : Nat) (made : List (Option Made)) (requests : List (Source × Socket)) (m : Importing α) :
    Prop :=
  ∀ k, Draws p place k m (fun _ k' => k' = k.add (requests.filterMap (linkOf made)) ∧
      ∀ r ∈ requests, (member? made.length r.1.expression).isSome)
    (fun k' => ∃ links, links <+: requests.filterMap (linkOf made) ∧ k' = k.add links)

variable {made : Array (Option Made)} {rs rs' : List (Source × Socket)}

theorem Adds.bind (h : Adds p place made.toList rs m) (hNext : ∀ a, Adds p place made.toList rs' (f a)) :
    Adds p place made.toList (rs ++ rs') (m >>= f) := by
  intro k
  refine Draws.bind ((h k).imp (fun _ _ => id) ?_) ?_
  · rintro _ ⟨links, hPrefix, rfl⟩
    rw [filterMap_append]
    exact ⟨links, hPrefix.trans (prefix_append _ _), rfl⟩
  · rintro a _ ⟨rfl, hRange⟩
    refine (hNext a _).imp ?_ ?_
    · rintro b _ ⟨rfl, hRange'⟩
      refine ⟨by simp, fun r hMem => ?_⟩
      obtain hMem | hMem := mem_append.mp hMem
      · exact hRange r hMem
      · exact hRange' r hMem
    · rintro _ ⟨links, hPrefix, rfl⟩
      rw [filterMap_append]
      exact ⟨_, prefix_append_right_inj _ |>.mpr hPrefix, by simp⟩

theorem Still.adds (h : Still p place m) : Adds p place made.toList [] m := by
  intro k
  refine (h k).imp ?_ ?_
  · rintro _ _ rfl
    simp
  · rintro _ rfl
    exact ⟨[], nil_prefix, by simp⟩

theorem adds_forM {ι : Type} {f : ι → Importing Unit} {g : ι → List (Source × Socket)}
    (h : ∀ i, Adds p place made.toList (g i) (f i)) (items : List ι) :
    Adds p place made.toList (items.flatMap g) (items.forM f) := by
  induction items with
  | nil => exact (still_pure ()).adds
  | cons i items ih =>
    rw [flatMap_cons]
    exact (h i).bind fun _ => ih

/-- The source of an input has to be among the expressions, counted from the last if its index is below zero. -/
theorem draws_sourceSocket (source : Source) : Draws p place k (sourceSocket made source)
      (fun origin k' => origin = originOf made.toList source ∧ (member? made.size source.expression).isSome ∧ k' = k)
      (· = k) := by
  rw [sourceSocket]
  cases hMember : member? made.size source.expression with
  | none => exact draws_throw rfl
  | some i =>
    have hOrigin : originOf made.toList source = (made[i]?.getD none).bind fun m =>
        (m.outputs.lookup source.output).or
          ((member? m.kind.outputs.length source.output).map fun output => ⟨m.node, output⟩) := by
      simp [originOf, hMember]
    rw [hOrigin]
    dsimp only
    cases made[i]?.getD none with
    | none =>
      change Draws p place k (pure none) _ _
      exact draws_pure ⟨rfl, rfl, rfl⟩
    | some m =>
      dsimp only [bind_some]
      cases m.outputs.lookup source.output with
      | some socket =>
        change Draws p place k (pure (some socket)) _ _
        exact draws_pure ⟨rfl, rfl, rfl⟩
      | none =>
        dsimp only [memberAt]
        cases member? m.kind.outputs.length source.output with
        | none => exact draws_throw rfl
        | some output => exact draws_pure ⟨rfl, rfl, rfl⟩

theorem adds_request (source : Source) (target : Option Socket) {f : Option Socket → Importing Unit}
    (h : ∀ origin, f origin = match origin, target with
      | some origin, some target => addLink place origin target
      | _, _ => pure ()) :
    Adds p place made.toList (target.toList.map fun target => (source, target)) (sourceSocket made source >>= f) := by
  intro k
  refine Draws.bind ((draws_sourceSocket source).imp (fun _ _ => id) ?_) ?_
  · rintro _ rfl
    exact ⟨[], nil_prefix, by simp⟩
  · rintro origin _ ⟨rfl, hRange, rfl⟩
    rw [h]
    cases target with
    | none =>
      cases originOf made.toList source <;> exact draws_pure (by simp)
    | some target =>
      cases hOrigin : originOf made.toList source with
      | none => exact draws_pure (by simpa [linkOf, hOrigin] using hRange)
      | some origin =>
        refine (draws_addLink origin target).imp ?_ fun _ => id
        simpa [linkOf, hOrigin] using hRange

theorem adds_linkInputs (m : Made) (e : Expression) :
    Adds p place made.toList (inputRequests m e) (linkInputs place made m e) := by
  rw [linkInputs]
  cases hEmpty : m.inputs.isEmpty with
  | true =>
    have hNone : inputRequests m e = [] := by simp [inputRequests, List.isEmpty_iff.mp hEmpty]
    rw [hNone]
    exact (still_pure ()).adds
  | false =>
    simp only [Bool.not_false, if_true]
    refine adds_forM (fun entry => ?_) e.inputs.entries
    exact adds_request entry.2 (m.inputs.lookup entry.1) fun _ => rfl

theorem adds_linkOutputs (inputs : Table String Source) :
    Adds p place made.toList (outputRequests inputs) (linkOutputs place made inputs) := by
  refine adds_forM (fun entry => ?_) inputs.entries
  dsimp only
  cases principledInput? entry.1 with
  | none => exact (still_pure ()).adds
  | some input =>
    refine adds_request entry.2 (some ⟨0, input⟩) fun origin => ?_
    cases origin <;> rfl

/-- The expressions of a material, if it has some. -/
def expressionsIn (m : Material) : List Expression :=
  match m.fields.get? "expressions" with
  | some (.expressions es) => es
  | _ => []

def inputsIn (m : Material) : Table String Source :=
  match m.fields.get? "inputs" with
  | some (.inputs inputs) => inputs
  | _ => .empty

theorem adds_linkExpressions (es : List Expression) :
    Adds p place made.toList ((es.zip made.toList).flatMap fun (e, m?) => m?.toList.flatMap fun m => inputRequests m e)
      ((es.zip made.toList).forM fun (e, made?) => match made? with
        | some node => linkInputs place made node e
        | none => pure ()) := by
  refine adds_forM (fun entry => ?_) _
  obtain ⟨e, made?⟩ := entry
  cases made? with
  | none => exact (still_pure ()).adds
  | some m => simpa using adds_linkInputs m e

theorem draws_expressionsOf (m : Material) :
    Draws p place k (expressionsOf m) (fun es k' => es = expressionsIn m ∧ k' = k) (· = k) := by
  rw [expressionsOf, expressionsIn]
  cases m.fields.get? "expressions" with
  | none => exact draws_throw rfl
  | some field =>
    cases field with
    | expressions es => exact draws_pure ⟨rfl, rfl⟩
    | inputs _ => exact draws_pure ⟨rfl, rfl⟩
    | text s =>
      dsimp only
      split
      · exact draws_pure ⟨rfl, rfl⟩
      · exact draws_throw rfl

/-- After some links of its own a material has those inside the nodes of its expressions and those given. -/
def LinkedBy (k : Sketch) (made : List (Option Made)) (file : List Link) (k' : Sketch) : Prop :=
  ∃ inner last, BuiltAll k.nodes made inner last ∧ k'.links = k.links ++ inner ++ file

/-- The links that are made for what a material asks for. -/
def fileLinks (m : Material) (made : List (Option Made)) : List Link :=
  (requests (expressionsIn m) made (inputsIn m)).filterMap (linkOf made)

theorem Still.adds_next (h : Still p place m) (hNext : ∀ a, Adds p place made.toList rs (f a)) :
    Adds p place made.toList rs (m >>= f) :=
  Adds.bind h.adds hNext

theorem adds_links (es : List Expression) (m : Material) :
    Adds p place made.toList (requests es made.toList (inputsIn m)) (do
      (es.zip made.toList).forM fun (e, made?) => match made? with
        | some node => linkInputs place made node e
        | none => pure ()
      match m.text? "ShadingModel" with
      | none => pure ()
      | some "ThinTranslucent" => onMaterial place fun b => { b with blend := some "BLEND" }
      | some other => write .error ("unrecognized ShadingModel: " ++ other)
      match m.fields.get? "inputs" with
      | some (.inputs inputs) => linkOutputs place made inputs
      | _ => throw (.noProperty "str" "items")) := by
  have hOutputs : Adds p place made.toList (outputRequests (inputsIn m)) (match m.fields.get? "inputs" with
      | some (.inputs inputs) => linkOutputs place made inputs
      | _ => throw (.noProperty "str" "items")) := by
    rw [inputsIn]
    split
    · exact adds_linkOutputs _
    · exact (still_throw _).adds
  refine (adds_linkExpressions es).bind fun _ => ?_
  dsimp only
  split
  · exact hOutputs
  · have hBlend : Still p place (onMaterial place fun b => { b with blend := some "BLEND" }) := fun k =>
      draws_onMaterial fun b hSketch => hSketch
    exact hBlend.adds_next fun _ => hOutputs
  · exact (still_write _ _).adds_next fun _ => hOutputs

theorem draws_linkShader (m : Material) : Draws p place k (linkShader place m)
      (fun _ k' => ∃ made, LinkedBy k made (fileLinks m made) k' ∧ made.length = (expressionsIn m).length ∧
        ∀ r ∈ requests (expressionsIn m) made (inputsIn m), (member? made.length r.1.expression).isSome)
      (fun k' => ∃ made file, LinkedBy k made file k' ∧ file <+: fileLinks m made) := by
  have hUnbegun : ∃ made file, LinkedBy k made file k ∧ file <+: fileLinks m made :=
    ⟨[], [], ⟨[], k.nodes, .nil _, by simp⟩, nil_prefix⟩
  rw [linkShader]
  split
  · exact draws_throw hUnbegun
  dsimp only
  split
  · exact draws_throw hUnbegun
  have hUses : Still p place (onMaterial place fun b => { b with usesNodes := true }) := fun k =>
    draws_onMaterial fun b hSketch => hSketch
  refine hUses.bind hUnbegun fun _ => ?_
  refine Draws.bind ((draws_expressionsOf m).imp (fun _ _ => id) fun k' hSame => hSame ▸ hUnbegun) ?_
  rintro es k' ⟨rfl, hSame⟩
  rw [hSame]
  refine Draws.bind ((draws_makeNodes (expressionsIn m) (.nil k.nodes) (append_nil k.links).symm).imp (fun _ _ => id) ?_) ?_
  · rintro k' ⟨made, inner, last, hBuilt, hLinks⟩
    exact ⟨made, [], ⟨inner, last, hBuilt, by simpa using hLinks⟩, nil_prefix⟩
  rintro made k' ⟨hSize, inner, hBuilt, hLinks⟩
  refine (adds_links (expressionsIn m) m k').imp ?_ ?_
  · rintro _ _ ⟨rfl, hRange⟩
    refine ⟨made.toList, ⟨inner, k'.nodes, hBuilt, ?_⟩, by simpa using hSize, hRange⟩
    rw [Sketch.links_add, hLinks]
    rfl
  · rintro _ ⟨links, hPrefix, rfl⟩
    refine ⟨made.toList, links, ⟨inner, k'.nodes, hBuilt, ?_⟩, hPrefix⟩
    rw [Sketch.links_add, hLinks]

/-! ## Indices of expressions -/

theorem node_eq_of_lookup {m : Made} (h : Built first last (some m)) {output : Int} {socket : Socket}
    (hLookup : m.outputs.lookup output = some socket) : socket.node = m.node := by
  obtain ⟨_, _, hSplit, -⟩ := lookup_eq_some_iff.mp hLookup
  exact h.2.2 (output, socket) (by simp [hSplit])

theorem BuiltAll.built {made : List (Option Made)} (h : BuiltAll first made inner last) {m : Option Made}
    (hMem : m ∈ made) : ∃ low high, Built low high m := by
  induction h with
  | nil => cases hMem
  | @snoc mid high _ _ _ _ _ hMade _ ih =>
    obtain hMem | hMem := mem_append.mp hMem
    · exact ih hMem
    · rw [mem_singleton.mp hMem]
      exact ⟨_, _, hMade⟩

theorem cast_eq_of_member? {size place : Nat} {index : Int} (h : member? size index = some place) :
    place < size ∧ (place : Int) = if 0 ≤ index then index else size + index := by
  rw [member?] at h
  split at h
  · split at h
    · cases h
      omega
    · cases h
  · split at h
    · cases h
      omega
    · cases h

/-- A link that is asked for comes from the node of the expression that the index stands for. -/
theorem source_of_linkOf {made : List (Option Made)} (hBuilt : BuiltAll first made inner last)
    {request : Source × Socket} {link : Link} (h : linkOf made request = some link) :
    link.target = request.2 ∧ ∃ (j : Nat) (m : Made), made[j]? = some (some m) ∧ link.source.node = m.node ∧
      (j : Int) = if 0 ≤ request.1.expression then request.1.expression else made.length + request.1.expression := by
  obtain ⟨origin, hOrigin, rfl⟩ := map_eq_some_iff.mp h
  obtain ⟨j, hMember, hFound⟩ := bind_eq_some_iff.mp hOrigin
  obtain ⟨m, hMade, hSocket⟩ := bind_eq_some_iff.mp hFound
  have hAt : made[j]? = some (some m) := by
    cases hAt : made[j]? with
    | none => simp [hAt] at hMade
    | some found => simpa [hAt] using hMade
  obtain ⟨low, high, hOne⟩ := hBuilt.built (mem_of_getElem? hAt)
  refine ⟨rfl, j, m, hAt, ?_, (cast_eq_of_member? hMember).2⟩
  cases hLookup : m.outputs.lookup request.1.output with
  | some socket =>
    rw [hLookup] at hSocket
    cases hSocket
    exact node_eq_of_lookup hOne hLookup
  | none =>
    rw [hLookup] at hSocket
    obtain ⟨output, -, rfl⟩ := map_eq_some_iff.mp hSocket
    rfl

/-- The nodes of the expressions that have one. -/
def nodesOf (made : List (Option Made)) : List Nat := made.filterMap (Option.map Made.node)

theorem Built.le {made : Option Made} (h : Built first last made) : first ≤ last := by
  cases made with
  | none => exact h
  | some m => exact Nat.le_trans h.1.1 (Nat.le_of_lt h.1.2)

theorem BuiltAll.increasing {made : List (Option Made)} (h : BuiltAll first made inner last) :
    first ≤ last ∧ (∀ n ∈ nodesOf made, first ≤ n ∧ n < last) ∧ (nodesOf made).Pairwise (· < ·) := by
  induction h with
  | nil => exact ⟨Nat.le_refl _, by simp [nodesOf], .nil⟩
  | @snoc mid last mades made _ _ _ hMade _ ih =>
    obtain ⟨hFirst, hRange, hSorted⟩ := ih
    have hLast := hMade.le
    have hKnown : ∀ n ∈ nodesOf mades, _ ≤ n ∧ n < last := fun n hMem =>
      ⟨(hRange n hMem).1, Nat.lt_of_lt_of_le (hRange n hMem).2 hLast⟩
    refine ⟨Nat.le_trans hFirst hLast, ?_⟩
    cases made with
    | none =>
      have hSame : nodesOf (mades ++ [none]) = nodesOf mades := by simp [nodesOf]
      rw [hSame]
      exact ⟨hKnown, hSorted⟩
    | some m =>
      have hOne : nodesOf (mades ++ [some m]) = nodesOf mades ++ [m.node] := by simp [nodesOf]
      obtain ⟨⟨hLow, hHigh⟩, -⟩ := hMade
      rw [hOne, pairwise_append]
      refine ⟨fun n hMem => ?_, hSorted, pairwise_singleton _ _, fun n hMem n' hNew => ?_⟩
      · obtain hMem | hNew := mem_append.mp hMem
        · exact hKnown n hMem
        · rw [mem_singleton.mp hNew]
          exact ⟨Nat.le_trans hFirst hLow, hHigh⟩
      · rw [mem_singleton.mp hNew]
        exact Nat.lt_of_lt_of_le (hRange n hMem).2 hLow

/-- The links of a material after its nodes were made: those inside the nodes of single expressions, and those that the
file asks for. Each of the latter comes from the node of the expression that the index stands for, where an index below
zero counts from the last expression. Only indices from zero on give links if and only if no index below zero does. -/
theorem linkShader_links_by_index {m : Material} {s t : State} {r : Except Fault Unit}
    (hRun : result (linkShader place m) p s = (r, t)) (hSketch : s.sketch? place = some k) :
    ∃ k' made file inner last, t.sketch? place = some k' ∧ k'.links = k.links ++ inner ++ file ∧
      BuiltAll k.nodes made inner last ∧ (nodesOf made).Pairwise (· < ·) ∧ (∀ n ∈ nodesOf made, k.nodes ≤ n ∧ n < last) ∧
      file <+: fileLinks m made ∧
      (r = .ok () → file = fileLinks m made ∧ made.length = (expressionsIn m).length ∧
        ∀ request ∈ requests (expressionsIn m) made (inputsIn m),
          -(made.length : Int) ≤ request.1.expression ∧ request.1.expression < made.length) ∧
      (∀ request link, linkOf made request = some link → link.target = request.2 ∧
        ∃ (j : Nat) (m : Made), made[j]? = some (some m) ∧ link.source.node = m.node ∧
          (j : Int) = if 0 ≤ request.1.expression then request.1.expression
            else made.length + request.1.expression) ∧
      (fileLinks m made = ((requests (expressionsIn m) made (inputsIn m)).filter fun request =>
          decide (0 ≤ request.1.expression)).filterMap (linkOf made) ↔
        ∀ request ∈ requests (expressionsIn m) made (inputsIn m), request.1.expression < 0 →
          linkOf made request = none) := by
  have hExact : ∀ made, fileLinks m made = ((requests (expressionsIn m) made (inputsIn m)).filter fun request =>
      decide (0 ≤ request.1.expression)).filterMap (linkOf made) ↔
        ∀ request ∈ requests (expressionsIn m) made (inputsIn m), request.1.expression < 0 → linkOf made request = none := by
    intro made
    rw [fileLinks, filterMap_filter_eq_iff]
    simp only [decide_eq_false_iff_not, Int.not_le]
  obtain ⟨k', hAfter, hDrawn⟩ := draws_linkShader m s hSketch
  rw [hRun] at hAfter hDrawn
  cases r with
  | error e =>
    obtain ⟨made, file, ⟨inner, last, hBuilt, hLinks⟩, hPrefix⟩ := hDrawn
    obtain ⟨-, hNodes, hSorted⟩ := hBuilt.increasing
    exact ⟨k', made, file, inner, last, hAfter, hLinks, hBuilt, hSorted, hNodes, hPrefix, nofun,
      fun request link => source_of_linkOf hBuilt, hExact made⟩
  | ok u =>
    obtain ⟨made, ⟨inner, last, hBuilt, hLinks⟩, hCount, hRange⟩ := hDrawn
    obtain ⟨-, hNodes, hSorted⟩ := hBuilt.increasing
    refine ⟨k', made, fileLinks m made, inner, last, hAfter, hLinks, hBuilt, hSorted, hNodes, prefix_rfl,
      fun _ => ⟨rfl, hCount, fun request hMem => ?_⟩, fun request link => source_of_linkOf hBuilt, hExact made⟩
    obtain ⟨j, hMember⟩ := isSome_iff_exists.mp (hRange request hMem)
    have hCast := cast_eq_of_member? hMember
    omega

section Sample

def unlinkedMaterial : Material :=
  { fields := .ofList [("name", .text "m"), ("type", .text "UEPbrMaterial"),
      ("expressions", .expressions [{ tag := "VertexNormalWS", attributes := [] },
        { tag := "OneMinus", attributes := [], inputs := ⟨[("0", ⟨-1, 0⟩)]⟩ }]),
      ("inputs", .inputs ⟨[("BaseColor", ⟨-1, 0⟩)]⟩)] }

def emptyTree : State := { stage := { materials := #[{ name := "m" }] } }

/-- The last expression is linked to itself and to the base color. -/
theorem linkShader_links_by_index_unlinked : ∃ made inner last, BuiltAll 1 made inner last ∧ made.length = 2 ∧
      inner ++ fileLinks unlinkedMaterial made = [⟨⟨2, 0⟩, ⟨2, 1⟩⟩, ⟨⟨2, 0⟩, ⟨0, 0⟩⟩] := by
  have hSketch : emptyTree.sketch? 0 = some ⟨1, []⟩ := rfl
  cases hRun : result (linkShader 0 unlinkedMaterial) {} emptyTree with
  | mk r t =>
    have hAnswer : r = .ok () := (congrArg Prod.fst hRun).symm
    have hAfter : t.sketch? 0 = some ⟨3, [⟨⟨2, 0⟩, ⟨2, 1⟩⟩, ⟨⟨2, 0⟩, ⟨0, 0⟩⟩]⟩ :=
      (congrArg (fun run => run.2.sketch? 0) hRun).symm
    obtain ⟨k', made, file, inner, last, hFound, hLinks, hBuilt, -, -, -, hOk, -, -⟩ :=
      linkShader_links_by_index hRun hSketch
    obtain ⟨rfl, hCount, -⟩ := hOk hAnswer
    cases hAfter.symm.trans hFound
    exact ⟨made, inner, last, hBuilt, hCount, hLinks.symm⟩

end Sample

end Importing

end SceneExchange.Import
