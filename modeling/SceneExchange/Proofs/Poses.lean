import SceneExchange.Proofs.Refinement

/-!
# The poses of actors that are read

The numbers of a transform are checked but not kept, so every actor that is read and has a transform, at
whatever depth, stands in the one pose without components. No object can be made for such an actor, nor for
one without a transform.
-/

open List Option

namespace SceneExchange.Import

open Recursive

open Markup (Tag Tree)

def Pose.blank : Pose := ⟨List.replicate 3 none, List.replicate 4 none, List.replicate 3 none⟩

namespace Recursive

theorem mapM_component? (tag : Tag) (keys : List String) : keys.mapM (component? tag) =
      if keys.all fun key => (real? tag key).isSome then some (List.replicate keys.length none) else none := by
  induction keys with
  | nil => rfl
  | cons key keys ih =>
    rw [mapM_cons, component?, ih, all_cons]
    cases real? tag key with
    | none => rfl
    | some x => cases keys.all fun key => (real? tag key).isSome <;> rfl

def poseKeys : List String := ["tx", "ty", "tz", "qw", "qx", "qy", "qz", "sx", "sy", "sz"]

theorem pose?_eq (tag : Tag) :
    pose? tag = if poseKeys.all fun key => (real? tag key).isSome then some .blank else none := by
  have hSplit : poseKeys = ["tx", "ty", "tz"] ++ (["qw", "qx", "qy", "qz"] ++ ["sx", "sy", "sz"]) := rfl
  rw [pose?, mapM_component?, mapM_component?, mapM_component?, hSplit, all_append, all_append]
  cases ["tx", "ty", "tz"].all fun key => (real? tag key).isSome <;>
    cases ["qw", "qx", "qy", "qz"].all fun key => (real? tag key).isSome <;>
      cases ["sx", "sy", "sz"].all fun key => (real? tag key).isSome <;> rfl

end Recursive

/-- The actors directly below an actor of a kind, among what it holds. -/
def actorsIn (kind : String) (inside : List Tree) : List Element :=
  (elements inside).flatMap fun part => match ActorPart.of kind part.1.name with
    | .children => elements part.2
    | _ => []

/-- The pose of an actor of a kind, from what it holds. -/
def poseIn (kind : String) (inside : List Tree) : Option Pose :=
  (elements inside).findSome? fun part => match ActorPart.of kind part.1.name with
    | .pose => some .blank
    | _ => none

inductive Posed : Element → Actor → Prop where
  | mk {e : Element} {data : ActorData} {below : List Actor} (hPose : data.pose = poseIn e.1.name e.2)
      (hBelow : Forall₂ Posed (actorsIn e.1.name e.2) below) : Posed e (.mk data below)

namespace Recursive

theorem pose_of_actorPart? {part : ActorPart} {a a' : ActorData} {tag : Tag} {inside : List Tree}
    (h : actorPart? part a tag inside = some a') : a'.pose = if part = .pose then some .blank else a.pose := by
  cases part <;> simp only [actorPart?, pose?_eq] at h <;> simp [bind_eq_some_iff] at h <;> grind

theorem poseIn_cons_pose {kind : String} {tag : Tag} (h : ActorPart.of kind tag.name = .pose) (inside ts : List Tree) :
    poseIn kind (.element tag inside :: ts) = some .blank := by
  simp [poseIn, elements, h]

theorem poseIn_cons_other {kind : String} {tag : Tag} (h : ActorPart.of kind tag.name ≠ .pose) (inside ts : List Tree) :
    poseIn kind (.element tag inside :: ts) = poseIn kind ts := by
  simp [poseIn, elements]

theorem poseIn_eq (kind : String) (ts : List Tree) : poseIn kind ts = none ∨ poseIn kind ts = some .blank := by
  induction ts with
  | nil => exact .inl rfl
  | cons t ts ih =>
    cases t with
    | text _ => exact ih
    | element tag inside =>
      by_cases h : ActorPart.of kind tag.name = .pose
      · exact .inr (poseIn_cons_pose h inside ts)
      · rwa [poseIn_cons_other h]

theorem actorsIn_cons_children {kind : String} {tag : Tag} (h : ActorPart.of kind tag.name = .children)
    (inside ts : List Tree) : actorsIn kind (.element tag inside :: ts) = elements inside ++ actorsIn kind ts := by
  simp [actorsIn, elements, h]

theorem actorsIn_cons_other {kind : String} {tag : Tag} (h : ActorPart.of kind tag.name ≠ .children)
    (inside ts : List Tree) : actorsIn kind (.element tag inside :: ts) = actorsIn kind ts := by
  simp [actorsIn, elements]

mutual

theorem posed_of_actor? {a : Actor} : (t : Tree) → actor? t = some a →
    ∃ tag inside, t = .element tag inside ∧ Posed (tag, inside) a
  | .text _, h => by cases h
  | .element tag inside, h => by
    simp only [actor?, bind_eq_bind, bind_eq_some_iff] at h
    obtain ⟨name, -, lightKind, -, ⟨data, below⟩, hInside, hActor⟩ := h
    obtain ⟨hPose, more, hMore, hBelow⟩ := posed_of_actorInside? inside hInside
    cases hActor
    cases hMore
    exact ⟨tag, inside, rfl, .mk (by simpa using hPose) hBelow⟩

theorem posed_of_actorInside? {kind : String} {known found : ActorData × List Actor} : (ts : List Tree) →
    actorInside? kind known ts = some found → found.1.pose = (poseIn kind ts).or known.1.pose ∧
      ∃ more, found.2 = known.2 ++ more ∧ Forall₂ Posed (actorsIn kind ts) more
  | [], h => by
    cases h
    exact ⟨rfl, [], by simp, .nil⟩
  | .text _ :: ts, h => posed_of_actorInside? ts h
  | .element tag inside :: ts, h => by
    obtain ⟨data, below⟩ := known
    simp only [actorInside?] at h
    split at h
    · next hPart =>
      simp only [bind_eq_bind, bind_eq_some_iff] at h
      obtain ⟨first, hFirst, hRest⟩ := h
      obtain ⟨hPose, more, hMore, hBelow⟩ := posed_of_actorInside? ts hRest
      rw [poseIn_cons_other (by simp [hPart]), actorsIn_cons_children hPart]
      refine ⟨hPose, first ++ more, by simpa using hMore, ?_⟩
      exact rel_append (posed_of_actors? inside hFirst) hBelow
    · next hPart =>
      simp only [bind_eq_bind, bind_eq_some_iff] at h
      obtain ⟨first, hFirst, hRest⟩ := h
      obtain ⟨hPose, more, hMore, hBelow⟩ := posed_of_actorInside? ts hRest
      refine ⟨?_, more, hMore, by rwa [actorsIn_cons_other hPart]⟩
      rw [hPose, pose_of_actorPart? hFirst]
      by_cases hTransform : ActorPart.of kind tag.name = .pose
      · rw [poseIn_cons_pose hTransform, if_pos hTransform]
        obtain hNone | hBlank := poseIn_eq kind ts
        · rw [hNone]; rfl
        · rw [hBlank]; rfl
      · rw [poseIn_cons_other hTransform, if_neg hTransform]

theorem posed_of_actors? {as : List Actor} : (ts : List Tree) → actors? ts = some as → Forall₂ Posed (elements ts) as
  | [], h => by
    cases h
    exact .nil
  | .text _ :: ts, h => posed_of_actors? ts h
  | .element tag inside :: ts, h => by
    simp only [actors?, bind_eq_bind, bind_eq_some_iff] at h
    obtain ⟨a, hFirst, more, hMore, hActors⟩ := h
    obtain ⟨_, _, hTree, hPosed⟩ := posed_of_actor? (.element tag inside) hFirst
    cases hTree
    cases hActors
    exact .cons hPosed (posed_of_actors? ts hMore)

end

end Recursive

theorem Posed.pose_eq {e : Element} {a : Actor} (h : Posed e a) : a.data.pose = none ∨ a.data.pose = some .blank := by
  obtain ⟨hPose, -⟩ := h
  exact (poseIn_eq e.1.name e.2).imp hPose.trans hPose.trans

namespace Importing

variable {p : Place}

theorem fails_bind {α β : Type} (m : Importing α) {k : α → Importing β} (h : ∀ a, Fails p [] (k a)) :
    Fails p [] (m >>= k) := by
  intro s rest _
  cases hRun : result m p s with
  | mk answer t =>
    cases answer with
    | error e => exact ⟨e, t, result_bind_error hRun⟩
    | ok a =>
      rw [result_bind_ok hRun]
      exact h a t t.marks rfl

theorem fails_linkActor (parent : Option Nat) {a : Actor} (h : a.data.pose = none ∨ a.data.pose = some .blank) :
    Fails p [] (linkActor parent a) := by
  obtain ⟨data, below⟩ := a
  rw [linkActor]
  refine fails_bind _ fun content => fails_bind _ fun s => fails_bind _ fun _ => ?_
  obtain hPose | hPose : data.pose = none ∨ data.pose = some .blank := h
  · rw [hPose]
    exact (fails_throw _).bind _
  · rw [hPose]
    exact (takes_pure Pose.blank).fails ((fails_throw _).bind _)

/-- Reading an actor fails, or takes its element and gives an actor for which no object can be made. All actors in it
have the pose without components where they have a transform, and no pose where they have none. -/
theorem read_actor_has_blank_poses {e : Element} {rest : List Mark} {s : State}
    (hDistinct : Distinct (⟨false, e.1⟩ :: marksInside e rest)) (hMarks : s.marks = marksInside e rest) :
    (∃ f t, result (actor e.1) p s = (.error f, t)) ∨
    ∃ a log, result (actor e.1) p s = (.ok a, { s with marks := rest, log := log }) ∧ Posed e a ∧
      ∀ parent p' s', ∃ f t, result (linkActor parent a) p' s' = (.error f, t) := by
  have hRead := (spots_actor (p := p) e).reads rest hDistinct s hMarks
  cases hActor : actor? (.element e.1 e.2) with
  | none =>
    rw [hActor] at hRead
    exact .inl hRead
  | some a =>
    rw [hActor] at hRead
    obtain ⟨log, hRun⟩ := hRead
    obtain ⟨_, _, hTree, hPosed⟩ := posed_of_actor? _ hActor
    cases hTree
    exact .inr ⟨a, log, hRun, hPosed, fun parent p' s' => fails_linkActor parent hPosed.pose_eq s' s'.marks rfl⟩

section Sample

def sampleTransform (place : Nat) : Tree :=
  .element ⟨place, "Transform", [("tx", "1.500000"), ("ty", "-2.000000"), ("tz", "0.000000"), ("qw", "1.000000"),
    ("qx", "0.000000"), ("qy", "0.000000"), ("qz", "0.000000"), ("sx", "1.000000"), ("sy", "1.000000"),
    ("sz", "1.000000")]⟩ []

def placedActor : Element :=
  (⟨0, "Actor", [("name", "pivot")]⟩, [sampleTransform 1, .element ⟨2, "children", []⟩
      [.element ⟨3, "Camera", [("name", "view")]⟩ [sampleTransform 4]]])

theorem read_actor_has_blank_poses_placed :
    ∃ a log, result (actor placedActor.1) {} { marks := marksInside placedActor [] } = (.ok a, { log := log }) ∧
      Posed placedActor a ∧ ∀ parent p' s', ∃ f t, result (linkActor parent a) p' s' = (.error f, t) := by
  have hDistinct : Distinct (⟨false, placedActor.1⟩ :: marksInside placedActor []) := by decide
  have hReads : (result (actor placedActor.1) {} { marks := marksInside placedActor [] }).1.isOk = true := by
    decide +kernel
  refine (read_actor_has_blank_poses hDistinct rfl).resolve_left ?_
  rintro ⟨f, t, hRun⟩
  rw [hRun] at hReads
  cases hReads

end Sample

end Importing

end SceneExchange.Import
