import SceneExchange.Proofs.Stream
import SceneExchange.Proofs.Lists

/-!
# Readers follow their trees

Every reader of an element, started after the start of the element, follows recursive reading: it fails
where the tree cannot be read, and otherwise takes the rest of the element and nothing after it. So a
whole document is read child by child, as by recursion over its tree.
-/

namespace SceneExchange.Import

open Recursive ActorPart

open Markup (Tag Tree)

namespace Importing

variable {p : Place}
variable {e : Element} {fuel : Nat}

/-! ## Actors -/

theorem gives_pose (tag : Tag) (before : List Mark) : Gives p before before (pose tag) (pose? tag) := by
  have hComponent : ∀ key, Gives p before before (component tag key) (component? tag key) := by
    intro key
    have hDiscard : component tag key = realAttribute tag key >>= fun _ => pure none := by
      simp [component, discard, map_const]
    rw [hDiscard]
    exact (gives_realAttribute tag key).bind fun _ => gives_pure none
  exact (gives_mapM hComponent _).bind fun location => (gives_mapM hComponent _).bind fun rotation =>
    (gives_mapM hComponent _).bind fun scale => gives_pure (Pose.mk location rotation scale)

theorem spots_actorPart (part : ActorPart) (a : ActorData) (e : Element) :
    Spots p e (actorPart part a e.1) (actorPart? part a e.1 e.2) := by
  cases part with
  | tag => exact (spots_ignore e).bind fun _ _ => gives_pure a
  | children => exact (spots_ignore e).bind fun _ _ => gives_pure a
  | other => exact (spots_ignore e).bind fun _ _ => gives_pure a
  | pose => exact (spots_close e).bind fun rest _ => (gives_pose e.1 rest).bind fun _ => gives_pure _
  | mesh => exact (spots_close e).bind fun _ _ => (gives_attributeOf e.1 "name").bind fun _ => gives_pure _
  | material =>
    exact (spots_close e).bind fun _ _ => (gives_integerAttribute e.1 "id").bind fun _ =>
      (gives_attributeOf e.1 "name").bind fun _ => gives_pure _
  | number => exact (spots_close e).bind fun _ _ => (gives_realAttribute e.1 "value").bind fun _ => gives_pure _
  | word => exact (spots_close e).bind fun _ _ => (gives_attributeOf e.1 "value").bind fun _ => gives_pure _
  | color =>
    exact (spots_close e).bind fun _ _ => (gives_mapM (gives_realAttribute e.1) _).bind fun _ => gives_pure _

def lightKind (tag : Tag) : Importing (Option String) :=
  if tag.name == "Light" then do pure (some (← attributeOf tag "type")) else pure none

theorem gives_lightKind (tag : Tag) (before : List Mark) :
    Gives p before before (lightKind tag) (Recursive.lightKind? tag) := by
  rw [lightKind, Recursive.lightKind?]
  cases tag.name == "Light" with
  | false => exact gives_pure none
  | true => exact (gives_attributeOf tag "type").bind fun kind => gives_pure (some kind)

/-- The loop over the children of an actor. -/
def actorsBelow (fuel : Nat) (tag : Tag) (below : Array Actor) : Importing (Array Actor) :=
  children tag below fun below child => do pure (below.push (← actorWithin fuel child))

def actorStep (fuel : Nat) (kind : String) (known : ActorData × Array Actor) (tag : Tag) :
    Importing (ActorData × Array Actor) :=
  match of kind tag.name with
  | .children => do pure (known.1, ← actorsBelow fuel tag known.2)
  | part => do pure (← actorPart part known.1 tag, known.2)

theorem actorWithin_succ (fuel : Nat) (tag : Tag) : actorWithin (fuel + 1) tag = (do
      let name ← attributeOf tag "name"
      let kind ← lightKind tag
      let start : ActorData := { name := name, kind := tag.name, lightKind := kind }
      let (data, below) ← children tag (start, #[]) (actorStep fuel tag.name)
      pure (.mk data below.toList)) := by
  rw [actorWithin, lightKind]
  cases tag.name == "Light" with
  | false => simp only [Bool.false_eq_true, if_false, pure_bind]; rfl
  | true => simp only [if_true, bind_assoc, pure_bind]; rfl

def actorStep? (kind : String) (known : ActorData × List Actor) (e : Element) : Option (ActorData × List Actor) :=
  match of kind e.1.name with
  | .children => do pure (known.1, known.2 ++ (← actors? e.2))
  | part => do pure (← actorPart? part known.1 e.1 e.2, known.2)

theorem actorInside?_eq_foldlM (kind : String) (known : ActorData × List Actor) (ts : List Tree) :
    actorInside? kind known ts = (elements ts).foldlM (actorStep? kind) known := by
  induction ts generalizing known with
  | nil => rfl
  | cons t ts ih =>
    cases t with
    | text _ => rw [actorInside?, ih]; rfl
    | element tag inside =>
      obtain ⟨data, below⟩ := known
      rw [actorInside?, elements, List.foldlM_cons, actorStep?]
      generalize of kind tag.name = part
      cases part <;> simp only [bind_assoc, pure_bind, ih]

theorem actors?_eq_mapM (ts : List Tree) :
    actors? ts = (elements ts).mapM fun e => Recursive.actor? (.element e.1 e.2) := by
  induction ts with
  | nil => rfl
  | cons t ts ih =>
    cases t with
    | text _ => rw [actors?, ih]; rfl
    | element tag inside => rw [actors?, elements, List.mapM_cons, ih]

theorem length_marksOf_of_mem {ts : List Tree} (h : e ∈ elements ts) :
    (marksOf e.2).length + 2 ≤ (marksOf ts).length := by
  induction ts with
  | nil => cases h
  | cons t ts ih =>
    cases t with
    | text _ => exact ih h
    | element tag inside =>
      simp only [elements, List.mem_cons] at h
      obtain rfl | h := h
      · simp
      · have := ih h
        simp only [marksOf_cons, List.length_append]
        omega

theorem spots_actorsBelow_of (below : List Actor)
    (h : ∀ child ∈ elements e.2, Spots p child (actorWithin fuel child.1) (Recursive.actor? (.element child.1 child.2))) :
    Spots p e (actorsBelow fuel e.1 below.toArray) ((fun more => (below ++ more).toArray) <$> actors? e.2) := by
  rw [actors?_eq_mapM]
  exact spots_collected below fun child hChild rest hDistinct =>
    h child hChild (hDistinct.sublist (.cons_cons _ (marksInside_sublist child (List.nil_sublist _)))) rest

def toArrays (known : ActorData × List Actor) : ActorData × Array Actor := (known.1, known.2.toArray)

theorem spots_actorStep {kind : String} {known : ActorData × List Actor}
    (hBelow : ∀ below : List Actor, Spots p e (actorsBelow fuel e.1 below.toArray)
      ((fun more => (below ++ more).toArray) <$> actors? e.2)) :
    Spots p e (actorStep fuel kind (toArrays known) e.1) (toArrays <$> actorStep? kind known e) := by
  have hPart : ∀ part, Spots p e (do pure (← actorPart part known.1 e.1, known.2.toArray))
      (toArrays <$> do pure (← actorPart? part known.1 e.1 e.2, known.2)) := by
    intro part
    rw [map_bind]
    exact (spots_actorPart part known.1 e).bind fun _ _ => gives_pure _
  rw [actorStep, actorStep?]
  cases of kind e.1.name with
  | children =>
    rw [map_bind]
    exact (hBelow known.2).bind_map fun _ more => gives_pure (toArrays (known.1, known.2 ++ more))
  | _ => exact hPart _

theorem spots_actorWithin (hFuel : (marksOf e.2).length < fuel) :
    Spots p e (actorWithin fuel e.1) (Recursive.actor? (.element e.1 e.2)) := by
  induction fuel generalizing e with
  | zero => omega
  | succ fuel ih =>
    have hBelow : ∀ child ∈ elements e.2, ∀ below : List Actor, Spots p child (actorsBelow fuel child.1 below.toArray)
          ((fun more => (below ++ more).toArray) <$> actors? child.2) := by
      intro child hChild below
      apply spots_actorsBelow_of below
      intro grandchild hGrandchild
      apply ih
      have hInner := length_marksOf_of_mem hGrandchild
      have hOuter := length_marksOf_of_mem hChild
      omega
    rw [actorWithin_succ, Recursive.actor?]
    refine Spots.prepend (fun _ => gives_attributeOf e.1 "name") fun name => ?_
    refine Spots.prepend (gives_lightKind e.1) fun lightKind => ?_
    simp only [actorInside?_eq_foldlM]
    have hInside : Spots p e (children e.1 (toArrays ({ name := name, kind := e.1.name, lightKind := lightKind }, []))
        (actorStep fuel e.1.name))
        (toArrays <$> (elements e.2).foldlM (actorStep? e.1.name)
          ({ name := name, kind := e.1.name, lightKind := lightKind }, [])) :=
      spots_children_of_passes fun child hChild => passes_of_spots fun known =>
        spots_actorStep (hBelow child hChild)
    exact hInside.bind_map fun rest (data, below) => gives_pure (Actor.mk data below)

theorem spots_actor (e : Element) : Spots p e (actor e.1) (Recursive.actor? (.element e.1 e.2)) := by
  intro hDistinct rest s hMarks
  have hFuel : (marksOf e.2).length < s.marks.length + 1 := by
    rw [hMarks, marksInside, List.length_append]
    omega
  rw [actor, result_bind_ok (result_get s)]
  exact spots_actorWithin hFuel hDistinct rest s hMarks

theorem finds_actorsBelow (hFuel : (marksOf e.2).length < fuel) (below : List Actor) :
    Finds p e (actorsBelow fuel e.1 below.toArray) ((fun more => (below ++ more).toArray) <$> actors? e.2) := by
  refine (spots_actorsBelow_of below fun child hChild => ?_).reads
  have hInner := length_marksOf_of_mem hChild
  exact spots_actorWithin (by omega)

/-! ## Materials -/

theorem spots_property (m : Material) (e : Element) : Spots p e (property m e.1) (property? m e) := by
  refine (spots_close e).bind fun _ _ => ?_
  refine (gives_attributeOf e.1 "name").bind fun name => ?_
  refine (gives_attributeOf e.1 "type").bind fun type => ?_
  cases propertyTypes.contains type with
  | false => exact gives_of_fails ((takes_write _ _).fails_nil ((fails_throw _).bind _)) _ _
  | true => exact (gives_attributeOf e.1 "val").bind fun value => gives_pure (m.set name (.text value))

theorem gives_inputKey (tag : Tag) (before : List Mark) : Gives p before before (inputKey tag) (inputKey? tag) := by
  rw [inputKey, inputKey?]
  split <;> try simp only [*]
  · exact gives_attributeOf tag "Name"
  · exact gives_pure "0"
  · exact gives_pure tag.name

theorem gives_outputIndex (tag : Tag) (before : List Mark) :
    Gives p before before (outputIndex tag) (outputIndex? tag) := by
  rw [outputIndex, outputIndex?]
  cases tag.attribute? "OutputIndex" with
  | none => exact gives_pure 0
  | some text => exact gives_integer text

theorem gives_input (inputs : Table String Source) (e : Element) (rest : List Mark) :
    Gives p (marksInside e rest) rest (input inputs e.1) (input? inputs e) := by
  rw [input_eq]
  exact (gives_close e rest).bind fun _ => (gives_inputKey e.1 rest).bind fun key =>
    (gives_integerAttribute e.1 "expression").bind fun expression => (gives_outputIndex e.1 rest).bind fun output =>
      gives_pure (inputs.insert key ⟨expression, output⟩)

def isExpressionPart (name : String) : Bool := ["Input", "Coordinates", "KeyValueProperty"].contains name

theorem gives_expressionPart (h : isExpressionPart e.1.name = true) (known : Expression) (rest : List Mark) :
    Gives p (marksInside e rest) rest (expressionPart known e.1) (expressionPart? known e) := by
  have hNames : e.1.name = "Input" ∨ e.1.name = "Coordinates" ∨ e.1.name = "KeyValueProperty" := by
    simpa [isExpressionPart] using h
  have hInput := (gives_input (p := p) known.inputs e rest).bind fun inputs => gives_pure { known with inputs := inputs }
  rw [expressionPart, expressionPart?]
  obtain hName | hName | hName := hNames <;> rw [hName]
  · exact hInput
  · exact hInput
  · exact (gives_close e rest).bind fun _ => (gives_attributeOf e.1 "type").bind fun _ =>
      (gives_attributeOf e.1 "val").bind fun _ => (gives_attributeOf e.1 "name").bind fun _ => gives_pure _

theorem Gives.unknown_part {tag : Tag} {child : Element} (hUnknown : isExpressionPart child.1.name = false)
    {known : Expression} {ms last : List Mark} {o : Option Expression}
    (h : Gives p ms last (foldChildren tag expressionPart fuel known) o) :
    Gives p (⟨false, child.1⟩ :: ms) last (foldChildren tag expressionPart (fuel + 1) known) o := by
  have hNames : child.1.name ≠ "Input" ∧ child.1.name ≠ "Coordinates" ∧ child.1.name ≠ "KeyValueProperty" := by
    simpa [isExpressionPart] using hUnknown
  have hWrite : Takes p [] (expressionPart known child.1) known := by
    rw [expressionPart]
    split
    · simp_all
    · simp_all
    · simp_all
    · exact (takes_write _ _).then (takes_pure known)
  exact (takes_next ⟨false, child.1⟩).follows (hWrite.follows h)

/-- What an unknown part of an expression holds is taken for parts of the expression. So the end of the unknown part is
met where only the end of the expression may be. -/
theorem gives_inside_unknown {tag : Tag} {child : Element} (fuel : Nat) (known : Expression) (rest last : List Mark)
    (hDistinct : Distinct (⟨false, tag⟩ :: ⟨false, child.1⟩ :: marksInside child [])) :
    Gives p (marksInside child rest) last (foldChildren tag expressionPart fuel known) none := by
  induction fuel generalizing child known rest with
  | zero => exact gives_throw _
  | succ fuel ih =>
    cases hInside : elements child.2 with
    | nil =>
      have hPlace : child.1.place ≠ tag.place := by simpa using hDistinct.ne (n := ⟨false, child.1⟩) (by simp)
      rw [marksInside_nil hInside]
      exact gives_of_fails (fails_foldChildren_end hPlace (fuel + 1) known) rest last
    | cons part more =>
      obtain ⟨ts, -, hMarks⟩ := marksInside_cons hInside
      rw [hMarks] at hDistinct ⊢
      cases hKnown : isExpressionPart part.1.name with
      | true =>
        have hLater : ∀ known, Gives p (marksInside (child.1, ts) rest) last
            (foldChildren tag expressionPart fuel known) none := fun known =>
          ih known rest (hDistinct.sublist (.cons_cons _ (.cons_cons _ (.cons _ (sublist_marksInside _ _)))))
        have hBoth := Gives.bind (gives_expressionPart hKnown known (marksInside (child.1, ts) rest)) hLater
        rw [show (expressionPart? known part >>= fun _ => none) = none by simp] at hBoth
        exact (takes_next ⟨false, part.1⟩).follows hBoth
      | false =>
        have hPart := hDistinct.sublist (.cons_cons _
          (.cons _ (.cons_cons _ (marksInside_sublist part (List.nil_sublist _)))))
        exact (ih known _ hPart).unknown_part hKnown

theorem passes_expressionPart (tag : Tag) (child : Element) :
    Passes p tag id expressionPart (fun known child => StateT.lift (expressionPart? known child)) child := by
  cases hKnown : isExpressionPart child.1.name with
  | true =>
    refine passes_of_spots fun known _ => ?_
    rw [id_map]
    exact gives_expressionPart hKnown known
  | false =>
    intro known fuel rest last next hDistinct _
    have hNone : expressionPart? known child = none := by
      rw [expressionPart?]
      split <;> simp_all [isExpressionPart]
    simp only [hNone]
    refine (gives_inside_unknown fuel known rest last (hDistinct.sublist ?_)).unknown_part hKnown
    exact .cons_cons _ (.cons_cons _ (marksInside_sublist child (List.nil_sublist _)))

theorem gives_textureObject (e : Element) {rest : List Mark}
    (hDistinct : Distinct (⟨false, e.1⟩ :: marksInside e (rest.take 1))) :
    Gives p (marksInside e rest) rest (textureObject e.1) (textureObject? e.2) := by
  rw [textureObject?]
  cases hInside : elements e.2 with
  | nil =>
    -- The end of the texture object is taken for an element inside, whose end does not come again.
    rw [marksInside_nil hInside] at hDistinct ⊢
    refine (takes_next ⟨true, e.1⟩).follows ?_
    apply Gives.none_bind
    apply gives_close_none rest
    intro m hHead
    refine (hDistinct.sublist (List.sublist_cons_self _ _)).ne ?_
    cases rest <;> simp_all
  | cons child more =>
    obtain ⟨ts, rfl, hMarks⟩ := marksInside_cons hInside
    rw [hMarks]
    have hAll := (gives_close (p := p) child _).bind fun _ => (gives_close (e.1, ts) rest).bind fun _ =>
      gives_pure { tag := "TextureObject", attributes := child.1.attributes : Expression }
    rw [bare?.eq_def ts] at hAll
    apply (takes_next ⟨false, child.1⟩).follows
    change Gives p (marksInside child (marksInside (e.1, ts) rest)) rest _ _
    cases hMore : elements ts <;> simpa [hMore] using hAll

theorem gives_expression (e : Element) (rest : List Mark)
    (hDistinct : Distinct (⟨false, e.1⟩ :: marksInside e (rest.take 1))) :
    Gives p (marksInside e rest) rest (expression e.1) (expression? e) := by
  rw [expression, expression?]
  cases e.1.name == "TextureObject" with
  | true => exact gives_textureObject e hDistinct
  | false =>
    rw [if_neg (by decide), if_neg (by decide), ← id_map (List.foldlM _ _ _)]
    refine spots_children_of_passes (fun child _ => passes_expressionPart e.1 child) (hDistinct.sublist ?_) rest
    exact .cons_cons _ (marksInside_sublist e (List.nil_sublist _))

theorem spots_expressions (e : Element) : Spots p e (expressions e.1) (Recursive.expressions? e.2) := by
  have hAll := spots_collected (p := p) (e := e) [] fun child _ => gives_expression child
  rw [expressions, ← bind_pure (Recursive.expressions? e.2)]
  exact hAll.bind_map fun _ es => gives_pure es

theorem spots_shaderPart (known : Material × Table String Source) (e : Element) :
    Spots p e (shaderPart known.1 known.2 e.1) (shaderPart? known e) := by
  have hInput : Spots p e _ _ := fun _ rest => (gives_input known.2 e rest).bind fun inputs => gives_pure (known.1, inputs)
  rw [shaderPart, shaderPart?]
  split <;> try simp only [*]
  · exact (spots_expressions e).bind fun _ es => gives_pure _
  · exact (spots_close e).bind fun _ _ => (gives_attributeOf e.1 "value").bind fun _ => gives_pure _
  · exact hInput
  · exact hInput
  · exact hInput
  · exact hInput
  · exact hInput
  · exact Spots.prepend (fun _ => gives_write _ _) fun _ => (spots_ignore e).bind fun _ _ => gives_pure known

/-! ## What becomes a part of a scene -/

theorem Gives.lifted {α β γ : Type} {before between after : List Mark} {m : Importing α} {o : Option α}
    {k : α → Importing γ} {g : α → Option β} {f : β → Recursive γ} (h : Gives p before between m o)
    (hNext : ∀ a, Follows p between after (k a) (liftM (g a) >>= f)) :
    Follows p before after (m >>= k) (liftM (o >>= g) >>= f) := by
  have hLift : (liftM (o >>= g) >>= f : Recursive γ) = StateT.lift o >>= fun a => liftM (g a) >>= f := by cases o <;> rfl
  rw [hLift]
  exact Follows.bind h hNext

theorem follows_onParts (f : Parts → Parts) (before : List Mark) :
    Follows p before before (onParts f) (Recursive.onParts f) := fun s hMarks => ⟨s.log, by rw [← hMarks]; rfl⟩

theorem follows_addMaterial (name : String) (m : Material) (before : List Mark) :
    Follows p before before (addMaterial name m) (Recursive.addMaterial (name, m)) := follows_onParts _ before

theorem scans_masterMaterial (e : Element) :
    Scans p e (masterMaterial e.1) (do Recursive.addMaterial (← (Recursive.masterMaterial? e : Option _))) := by
  intro hDistinct rest
  refine (gives_attributeOf e.1 "name").lifted fun name => ?_
  refine Gives.lifted (spots_children (fun child _ m => ?_) hDistinct rest) fun m => follows_addMaterial name m rest
  rw [masterPart?]
  cases child.1.name == "KeyValueProperty" with
  | false => exact fun _ rest => gives_of_fails ((fails_throw _).bind _) _ rest
  | true => exact takes_expect.spots (spots_property m child)

theorem scans_shaderMaterial (e : Element) :
    Scans p e (shaderMaterial e.1) (do Recursive.addMaterial (← (Recursive.shaderMaterial? e : Option _))) := by
  intro hDistinct rest
  refine (gives_attributeOf e.1 "name").lifted fun name => ?_
  exact Gives.lifted (spots_children (fun child _ known => spots_shaderPart known child) hDistinct rest)
    fun (m, inputs) => follows_addMaterial name (m.set "inputs" (.inputs inputs)) rest

theorem spots_ignored (e : Element) : Spots p e (children e.1 () fun _ child => ignore child) (some ()) := by
  have hAll : Spots p e (children e.1 () fun _ child => ignore child) ((elements e.2).foldlM (fun _ _ => some ()) ()) :=
    spots_children fun child _ _ => spots_ignore child
  have hFold : ∀ es : List Element, es.foldlM (fun _ _ => some ()) () = some () := fun es => by
    induction es <;> simp_all
  rwa [hFold] at hAll

theorem scans_plainMaterial (e : Element) :
    Scans p e (plainMaterial e.1) (do Recursive.addMaterial (← (Recursive.plainMaterial? e : Option _))) := by
  intro hDistinct rest
  refine (gives_attributeOf e.1 "name").lifted fun name => ?_
  exact Follows.bind (spots_ignored e hDistinct rest) fun _ => follows_addMaterial name (.ofTag e.1.name name) rest

/-! ## Textures and meshes -/

def textureFile (path : String) : Importing String :=
  match fileOfPath? path with
  | some file => pure file
  | none => do
    write .error ("unable to find path separators in path: " ++ path)
    pure path

theorem takes_textureFile (path : String) : Takes p [] (textureFile path) ((fileOfPath? path).getD path) := by
  rw [textureFile]
  cases fileOfPath? path with
  | some file => exact takes_pure file
  | none => exact Takes.then (takes_write _ _) (takes_pure path)

def textureRest (tag : Tag) : Importing Unit :=
  children tag () fun _ child => do
    expect (child.name == "Hash")
    ignore child

theorem texture_eq (tag : Tag) : texture tag = (do
      let name ← attributeOf tag "name"
      let path ← attributeOf tag "file"
      let file ← textureFile path
      textureRest tag
      onParts (·.addTexture ⟨name, file, path, tag.attribute? "texturemode", none⟩)) := by
  refine bind_congr fun name => bind_congr fun path => ?_
  rw [textureFile]
  cases fileOfPath? path <;> rfl

theorem spots_textureRest (e : Element) : Spots p e (textureRest e.1) ((elements e.2).foldlM texturePart? ()) := by
  refine spots_children fun child _ _ => ?_
  rw [texturePart?]
  cases child.1.name == "Hash" with
  | false => exact fun _ rest => gives_of_fails ((fails_throw _).bind _) _ rest
  | true => exact takes_expect.spots (spots_ignore child)

theorem scans_texture (e : Element) : Scans p e (texture e.1) (do
      let t ← (texture? e : Option _)
      Recursive.onParts (·.addTexture t)) := by
  intro hDistinct rest
  rw [texture_eq]
  refine (gives_attributeOf e.1 "name").lifted fun name => (gives_attributeOf e.1 "file").lifted fun path => ?_
  refine (takes_textureFile path).follows (Gives.lifted (spots_textureRest e hDistinct rest) fun _ => ?_)
  exact follows_onParts _ rest

theorem takes_read : Takes p [] (read : Importing Place) p := by
  intro s rest hMarks
  exact ⟨s.log, by rw [← List.nil_append rest, ← hMarks]; rfl⟩

theorem spots_meshPart (m : StaticMesh) (e : Element) : Spots p e (meshPart m e.1) (meshPart? p.folder m e) := by
  rw [meshPart, meshPart?]
  split <;> try simp only [*]
  · exact (spots_close e).bind fun _ _ => (gives_attributeOf e.1 "id").bind fun id =>
      (gives_attributeOf e.1 "name").bind fun name => (gives_integer id).bind fun _ => gives_pure _
  · refine (spots_close e).bind fun rest _ => ?_
    exact takes_read.follows ((gives_attributeOf e.1 "path").bind fun _ => gives_pure _)
  · exact (spots_ignore e).bind fun _ _ => gives_pure m

theorem result_onStage (f : Stage → Stage) (s : State) :
    result (onStage f) p s = (.ok (), { s with stage := f s.stage }) := rfl

theorem follows_makeMesh (m : StaticMesh) (before : List Mark) : Follows p before before (makeMesh m) (placeMesh m) := by
  intro s hMarks
  rw [makeMesh, result_bind_ok (result_get s)]
  simp only [result_bind_ok (result_onStage _ _)]
  cases hSlots : triangleSlots m (m.loaded.materials.getD []) ((m.loaded.indices.getD []).length / 3) with
  | error fault =>
    have hNone : placeMesh m s.world = none := by
      simp only [placeMesh, mesh?, hSlots]
      rfl
    rw [hNone]
    exact ⟨fault, _, result_bind_error rfl⟩
  | ok slots =>
    simp only [placeMesh, mesh?, hSlots]
    refine Exists.intro s.log ?_
    rw [result_bind_ok (show result (lift (.ok slots)) p _ = (.ok slots, _) from rfl), onMesh]
    simp only [result_bind_ok (result_onStage _ _), push_modify_size]
    rw [← hMarks]
    rfl

theorem follows_addMesh (name : String) (m : StaticMesh) (before : List Mark) : Follows p before before (do
        let place ← makeMesh m
        onParts fun p => { p with meshes := p.meshes.insert name { m with made := place } })
      (Recursive.addMesh (name, m)) :=
  (follows_makeMesh m before).bind fun _ => follows_onParts _ before

theorem scans_staticMesh (e : Element) :
    Scans p e (staticMesh e.1) (do Recursive.addMesh (← (Recursive.staticMesh? p e : Option _))) := by
  intro hDistinct rest
  refine (gives_attributeOf e.1 "name").lifted fun name => ?_
  refine Gives.lifted (spots_children (fun child _ m => spots_meshPart m child) hDistinct rest) fun m => ?_
  cases m.path with
  | none => exact gives_throw _
  | some path =>
    exact takes_read.follows ((gives_lift (p.files.read path)).lifted fun bytes =>
      (gives_lift (Mesh.read bytes).1).lifted fun _ => follows_addMesh name _ rest)

/-! ## Documents -/

theorem scans_rootPart (e : Element) : Scans p e (rootPart e.1) (Recursive.rootPart p e) := by
  intro hDistinct rest
  have hReached : Follows p (marksInside e rest) (marksInside e rest)
      (modify fun s => { s with reached := true } : Importing Unit) (modify fun w => { w with reached := true }) :=
    fun s hMarks => ⟨s.log, by rw [← hMarks]; rfl⟩
  refine hReached.bind fun _ => ?_
  cases hActor : isActor e.1.name with
  | true =>
    simp only [if_true]
    exact Follows.bind (spots_actor e hDistinct rest) fun a => follows_onParts _ rest
  | false =>
    simp only [Bool.false_eq_true, if_false]
    split <;> try simp only [*]
    · exact scans_staticMesh e hDistinct rest
    · exact scans_texture e hDistinct rest
    · exact scans_masterMaterial e hDistinct rest
    · exact scans_shaderMaterial e hDistinct rest
    · exact scans_plainMaterial e hDistinct rest
    · exact spots_ignore e hDistinct rest

theorem foldlM_unit (f : Element → Recursive Unit) (es : List Element) : es.foldlM (fun _ e => f e) () = es.forM f := by
  induction es with
  | nil => rfl
  | cons e es ih => simp [ih]

theorem scans_rootParts (e : Element) :
    Scans p e (children e.1 () fun _ child => rootPart child) ((elements e.2).forM (Recursive.rootPart p)) := by
  have hAll : Scans p e (children e.1 (id ()) fun _ child => rootPart child)
      (id <$> (elements e.2).foldlM (fun _ child => Recursive.rootPart p child) ()) :=
    scans_children fun child _ => passes_of_scans fun _ => by simpa only [id_map] using scans_rootPart child
  rwa [id_map, foldlM_unit] at hAll

theorem follows_readParts {root : Element} {rest : List Mark}
    (hDistinct : Distinct (⟨false, root.1⟩ :: marksInside root rest)) :
    Follows p (⟨false, root.1⟩ :: marksInside root rest) rest readParts (Recursive.scene p root) := by
  refine (takes_next ⟨false, root.1⟩).follows ?_
  rw [Recursive.scene]
  by_cases hName : root.1.name = "DatasmithUnrealScene"
  · simp only [hName, beq_self_eq_true, guard, if_true]
    exact takes_expect.follows (takes_expect.follows ((scans_rootParts root).reads rest hDistinct))
  · simp only [hName, beq_eq_false_iff_ne.mpr hName, guard, if_false]
    exact gives_of_fails ((fails_throw _).bind _) _ rest

/-- Every reader of an element, started after the start of the element, fails or takes exactly the rest of the element,
as recursion over its tree does. So a document is read child by child, in its order. -/
theorem readers_follow_tree (p : Place) (e : Element) : Reads p e (rootPart e.1) (Recursive.rootPart p e) ∧
    Finds p e (actor e.1) (Recursive.actor? (.element e.1 e.2)) ∧
    (∀ fuel below, (marksOf e.2).length < fuel → Finds p e (actorsBelow fuel e.1 (List.toArray below))
      ((fun more => (below ++ more).toArray) <$> actors? e.2)) ∧
    Reads p e (shaderMaterial e.1) (do Recursive.addMaterial (← (Recursive.shaderMaterial? e : Option _))) ∧
    Finds p e (expressions e.1) (Recursive.expressions? e.2) ∧
    Reads p e (staticMesh e.1) (do Recursive.addMesh (← (Recursive.staticMesh? p e : Option _))) ∧
    Reads p e (texture e.1) (do
      let t ← (texture? e : Option _)
      Recursive.onParts (·.addTexture t)) ∧
    Reads p e (masterMaterial e.1) (do Recursive.addMaterial (← (Recursive.masterMaterial? e : Option _))) ∧
    Reads p e (plainMaterial e.1) (do Recursive.addMaterial (← (Recursive.plainMaterial? e : Option _))) ∧
    Finds p e (ignore e.1) (some ()) ∧
    ∀ rest, Distinct (marks (.element e.1 e.2) ++ rest) →
      Follows p (marks (.element e.1 e.2) ++ rest) rest readParts (Recursive.scene p e) := by
  have hDocument : ∀ rest, marks (.element e.1 e.2) ++ rest = ⟨false, e.1⟩ :: marksInside e rest := by simp [marksInside]
  refine ⟨(scans_rootPart e).reads, (spots_actor e).reads, fun fuel below hFuel => finds_actorsBelow hFuel below,
    (scans_shaderMaterial e).reads, (spots_expressions e).reads, (scans_staticMesh e).reads, (scans_texture e).reads,
    (scans_masterMaterial e).reads, (scans_plainMaterial e).reads, (spots_ignore e).reads, fun rest hDistinct => ?_⟩
  rw [hDocument] at hDistinct ⊢
  exact follows_readParts hDistinct

section Sample

/-- A document with an element that is passed over and an actor below another one. -/
def sampleDocument : Element :=
  (⟨0, "DatasmithUnrealScene", []⟩, [.text "\n", .element ⟨1, "Export", []⟩ [.element ⟨2, "Duration", []⟩ []],
      .element ⟨3, "Actor", [("name", "pivot")]⟩ [.element ⟨4, "children", []⟩
          [.element ⟨5, "ActorMesh", [("name", "cube")]⟩ [.element ⟨6, "mesh", [("name", "cube_mesh")]⟩ []]]]])

def sampleActor : Actor :=
  .mk { name := "pivot", kind := "Actor" } [.mk { name := "cube", kind := "ActorMesh", mesh := some "cube_mesh" } []]

theorem readers_follow_tree_sample :
    ∃ log, result readParts {} { marks := marks (.element sampleDocument.1 sampleDocument.2) } =
      (.ok (), { parts := { actors := #[sampleActor] }, reached := true, log := log }) := by
  obtain ⟨-, -, -, -, -, -, -, -, -, -, h⟩ := readers_follow_tree {} sampleDocument
  exact h [] (by decide) _ (by simp)

end Sample

end Importing

end SceneExchange.Import
