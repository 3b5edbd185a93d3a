import SceneExchange.Proofs.Motion

/-!
# The frame that a scene is left at

Playing a scene goes from frame to frame and shows the scene's own frame again at the end. A fault
on the way ends it before that. So a scene that was played through is left as it was found, and one
that was not is left at the frame where the fault occurred: the first one that shows an actor that
was not there at first, or whose matrices cannot be computed.
-/

open List

namespace SceneExchange.Scene

open Playing

@[simp] theorem currentFrame_showFrame (s : Scene) (n : Int) : (s.showFrame n).currentFrame = n := by
  unfold showFrame
  split <;> rfl

/-- All actors that a scene shows are among those with the given names. -/
def knowsActors (grouped : Bool) (names : List String) (s : Scene) : Bool :=
  match s.sightings grouped with
  | .ok l => l.all fun x => names.contains x.1
  | .error _ => false

/-- The listed objects have matrices that can be written. -/
def hasMatrices (objects : List (Nat × String)) (s : Scene) : Bool :=
  (objects.mapM fun x => s.writtenMatrix (s.object x.1) (s.object x.1).matrix).isOk

/-- The first of the given frames whose scene does not fit. -/
def misfit? (s : Scene) (fits : Scene → Bool) (frames : List Int) : Option Int :=
  ((frames.zip (s.shown frames)).find? fun x => !fits x.2).map Prod.fst

theorem misfit?_cons (s : Scene) (fits : Scene → Bool) (n : Int) (rest : List Int) :
    s.misfit? fits (n :: rest) = if fits (s.showFrame n) then (s.showFrame n).misfit? fits rest else some n := by
  unfold misfit?
  rw [shown, zip_cons_cons, find?_cons]
  cases fits (s.showFrame n) <;> rfl

def firstMisfit? (s : Scene) (byInstance grouped : Bool) (objects : List (Nat × String)) : Option Int :=
  if byInstance then
    match s.sightings grouped with
    | .ok first => s.misfit? (knowsActors grouped (first.map Prod.fst)) (frameNumbers s)
    | .error _ => none
  else s.misfit? (hasMatrices objects) (frameNumbers s)

/-- The frame that is shown when a fault occurs: the first one that cannot be recorded, else the last
one, as the rows are written after it. What is noted at first is noted before any frame is shown. -/
def frameOfFault (s : Scene) (byInstance grouped : Bool) (objects : List (Nat × String)) : Int :=
  if byInstance && !(s.sightings grouped).isOk then s.currentFrame
  else (s.firstMisfit? byInstance grouped objects).getD ((frameNumbers s).getLastD s.currentFrame)

theorem frameOfFault_of_misfit {s : Scene} {byInstance grouped : Bool} {objects : List (Nat × String)} {n : Int}
    (h : s.firstMisfit? byInstance grouped objects = some n) : s.frameOfFault byInstance grouped objects = n := by
  unfold frameOfFault
  rw [h, if_neg]
  · rfl
  · intro hFailed
    unfold firstMisfit? at h
    cases byInstance with
    | false => cases hFailed
    | true =>
      cases hFirst : s.sightings grouped with
      | ok first =>
        rw [hFirst] at hFailed
        cases hFailed
      | error e =>
        rw [hFirst] at h
        cases h

/-! ## Runs over frames -/

section Runs

variable {α β : Type} {fits : Scene → Bool} {p : Playback} {frames : List Int}
variable {m : Playing α} {k : α → Playing β}

theorem run_scene (p : Playback) : scene.run p = (.ok p.scene, p) := rfl

/-- A run over frames ends at the first misfit with a fault, or else at the last frame. -/
inductive Plays (fits : Scene → Bool) (frames : List Int) (p : Playback) : Except Fault α × Playback → Prop
  | through {a : α} {q : Playback} (fit : p.scene.misfit? fits frames = none)
      (last : q.scene.currentFrame = frames.getLastD p.scene.currentFrame) : Plays fits frames p (.ok a, q)
  | upTo {e : Fault} {q : Playback} {n : Int} (misfit : p.scene.misfit? fits frames = some n)
      (stopped : q.scene.currentFrame = n) : Plays fits frames p (.error e, q)

def Playback.next (p : Playback) (n : Int) : Playback :=
  { p with scene := p.scene.showFrame n, calls := p.calls.push n }

theorem getLastD_cons_cons (n a : Int) (rest : List Int) : (n :: rest).getLastD a = rest.getLastD n := by
  cases rest <;> rfl

theorem Plays.cons {n : Int} {x : Except Fault α × Playback} (hFits : fits (p.scene.showFrame n))
    (h : Plays fits frames (p.next n) x) : Plays fits (n :: frames) p x := by
  have hMisfit : p.scene.misfit? fits (n :: frames) = (p.next n).scene.misfit? fits frames := by
    rw [misfit?_cons, if_pos hFits]
    rfl
  cases h with
  | through fit last =>
    apply Plays.through (hMisfit.trans fit)
    rw [last, getLastD_cons_cons]
    exact congrArg (frames.getLastD ·) (currentFrame_showFrame p.scene n)
  | upTo misfit stopped => exact .upTo (hMisfit.trans misfit) stopped

theorem Plays.stop {n : Int} {e : Fault} (hFits : fits (p.scene.showFrame n) = false) :
    Plays (α := α) fits (n :: frames) p (.error e, p.next n) := by
  apply Plays.upTo
  · rw [misfit?_cons, hFits, if_neg Bool.false_ne_true]
  · exact currentFrame_showFrame p.scene n

theorem Plays.bind_pure (h : Plays fits frames p (m.run p)) (g : α → β) :
    Plays fits frames p ((m >>= fun a => pure (g a)).run p) := by
  generalize hRun : m.run p = x at h
  cases h with
  | through fit last =>
    rw [run_bind_of_ok hRun]
    exact .through fit last
  | upTo misfit stopped =>
    rw [run_bind_of_error hRun]
    exact .upTo misfit stopped

def Still (m : Playing α) : Prop := ∀ p, (m.run p).2.scene = p.scene

theorem still_lift (r : Except Fault α) : Still (lift r) := by
  intro p
  rw [run_lift]

theorem Still.bind (hm : Still m) (hk : ∀ a, Still (k a)) : Still (m >>= k) := by
  intro p
  have hFirst := hm p
  generalize hRun : m.run p = x at hFirst
  obtain ⟨r, q⟩ := x
  cases r with
  | ok a =>
    rw [run_bind_of_ok hRun]
    exact (hk a q).trans hFirst
  | error e =>
    rw [run_bind_of_error hRun]
    exact hFirst

theorem still_mapM {g : α → Playing β} (hg : ∀ a, Still (g a)) (l : List α) : Still (l.mapM g) := by
  induction l with
  | nil => exact fun _ => rfl
  | cons a rest ih =>
    rw [mapM_cons]
    exact (hg a).bind fun _ => ih.bind fun _ _ => rfl

/-- What a run leaves: a fault if some frame does not fit, and the frame that was shown at the fault. -/
structure Leaves (misfit : Option Int) (last : Int) (x : Except Fault α × Playback) : Prop where
  fault : ∀ n, misfit = some n → ∃ e, x.1 = .error e
  shown : ∀ e, x.1 = .error e → x.2.scene.currentFrame = misfit.getD last

theorem Plays.leaves (h : Plays fits frames p (m.run p)) (hk : ∀ a, Still (k a)) :
    Leaves (p.scene.misfit? fits frames) (frames.getLastD p.scene.currentFrame) ((m >>= k).run p) := by
  generalize hRun : m.run p = x at h
  cases h with
  | @through a q fit last =>
    rw [fit, run_bind_of_ok hRun]
    constructor
    · intro n hMisfit
      cases hMisfit
    · intro e _
      rw [hk a q, last]
      rfl
  | upTo misfit stopped =>
    rw [misfit, run_bind_of_error hRun]
    constructor
    · intro n _
      exact ⟨_, rfl⟩
    · intro e _
      exact stopped

end Runs

section Tracks

variable {s : Scene} {grouped : Bool} {names : List String} {tracks tracks' : Table String Track}

def TracksOf (names : List String) (tracks : Table String Track) : Prop :=
  ∀ name, (tracks.get? name).isSome ↔ name ∈ names

theorem tracksOf_startTracks {first : List Sighting} : TracksOf (first.map Prod.fst) (first.foldl begun .empty) :=
  fun _ => isSome_get?_begun_iff

theorem TracksOf.next (h : TracksOf names tracks) (hNext : s.nextTracks grouped tracks = .ok tracks') :
    TracksOf names tracks' := by
  obtain ⟨l, -, -, rfl⟩ := nextTracks_eq_ok_iff.mp hNext
  intro name
  rw [isSome_get?_foldl_noted]
  exact h name

theorem TracksOf.knowsActors_iff (h : TracksOf names tracks) (s : Scene) (grouped : Bool) :
    s.knowsActors grouped names ↔ ∃ tracks', s.nextTracks grouped tracks = .ok tracks' := by
  simp only [nextTracks_eq_ok_iff, GoesOn, h _]
  unfold knowsActors
  cases s.sightings grouped with
  | error e => simp
  | ok l => simp

theorem playTracks_plays (frames : List Int) (p : Playback) (h : TracksOf names tracks) :
    Plays (knowsActors grouped names) frames p ((playTracks grouped tracks frames).run p) := by
  induction frames generalizing tracks p with
  | nil => exact .through rfl rfl
  | cons n rest ih =>
    have hRun : (playTracks grouped tracks (n :: rest)).run p =
        (lift ((p.scene.showFrame n).nextTracks grouped tracks) >>= fun tracks =>
          playTracks grouped tracks rest).run (p.next n) := rfl
    rw [hRun]
    have hKnown := h.knowsActors_iff (p.scene.showFrame n) grouped
    cases hNext : (p.scene.showFrame n).nextTracks grouped tracks with
    | ok tracks' =>
      rw [run_bind_of_ok (run_lift _ _)]
      exact .cons (hKnown.mpr ⟨tracks', hNext⟩) (ih _ (h.next hNext))
    | error e =>
      rw [run_bind_of_error (run_lift _ _)]
      apply Plays.stop
      rw [← Bool.not_eq_true, hKnown, hNext]
      simp

end Tracks

section Objects

variable {α β : Type} {objects : List (Nat × String)}

theorem run_mapM_lift (g : α → Except Fault β) (l : List α) (p : Playback) :
    (l.mapM fun a => lift (g a)).run p = (l.mapM g, p) := by
  induction l with
  | nil => rfl
  | cons a rest ih =>
    rw [mapM_cons, mapM_cons]
    cases g a with
    | error e => exact run_bind_of_error (run_lift _ p)
    | ok b =>
      rw [run_bind_of_ok (run_lift _ p)]
      cases hRest : rest.mapM g with
      | error e => exact run_bind_of_error (ih.trans (by rw [hRest]))
      | ok bs => exact run_bind_of_ok (ih.trans (by rw [hRest]))

theorem snapshots_plays (frames : List Int) (p : Playback) :
    Plays (hasMatrices objects) frames p ((snapshots objects frames).run p) := by
  induction frames generalizing p with
  | nil => exact .through rfl rfl
  | cons n rest ih =>
    let s := p.scene.showFrame n
    let shot (x : Nat × String) := s.writtenMatrix (s.object x.1) (s.object x.1).matrix
    have hRun : (snapshots objects (n :: rest)).run p = ((objects.mapM fun x => lift (shot x)) >>= fun first =>
          snapshots objects rest >>= fun others => pure (first :: others)).run (p.next n) := rfl
    have hShot := run_mapM_lift shot objects (p.next n)
    have hFits : hasMatrices objects s = (objects.mapM shot).isOk := rfl
    rw [hRun]
    cases hShots : objects.mapM shot with
    | error e =>
      rw [run_bind_of_error (hShot.trans (by rw [hShots]))]
      apply Plays.stop
      rw [hFits, hShots]
      rfl
    | ok first =>
      rw [run_bind_of_ok (hShot.trans (by rw [hShots]))]
      apply Plays.cons
      · rw [hFits, hShots]
        rfl
      · exact (ih _).bind_pure _

theorem objectMotions_leaves (p : Playback) : Leaves (p.scene.misfit? (hasMatrices objects) (frameNumbers p.scene))
      ((frameNumbers p.scene).getLastD p.scene.currentFrame) ((objectMotions objects).run p) := by
  rw [objectMotions, run_bind_of_ok (run_get p)]
  refine (snapshots_plays _ p).leaves fun shots => ?_
  refine (still_mapM (fun x => ?_) _).bind fun _ _ => rfl
  dsimp only
  split
  · exact Still.bind (fun _ => rfl) fun _ => (still_lift _).bind fun _ _ => rfl
  · exact fun _ => rfl

end Objects

/-! ## The end of a playback -/

section Animations

variable {grouped : Bool} {objects : List (Nat × String)}

theorem instanceMotions_leaves {p : Playback} {first : List Sighting} (hFirst : p.scene.sightings grouped = .ok first) :
    Leaves (p.scene.misfit? (knowsActors grouped (first.map Prod.fst)) (frameNumbers p.scene))
      ((frameNumbers p.scene).getLastD p.scene.currentFrame) ((instanceMotions grouped).run p) := by
  have hStart : p.scene.startTracks grouped = .ok (first.foldl begun .empty) := by
    rw [startTracks_eq, hFirst]
    rfl
  rw [run_instanceMotions, hStart, run_bind_of_ok (run_lift _ p)]
  exact (playTracks_plays _ p tracksOf_startTracks).leaves fun _ => still_lift _

theorem run_instanceMotions_error {p : Playback} {e : Fault} (hFirst : p.scene.sightings grouped = .error e) :
    (instanceMotions grouped).run p = (.error e, p) := by
  rw [run_instanceMotions, startTracks_eq, hFirst]
  exact run_bind_of_error (run_lift _ p)

def motions (byInstance grouped : Bool) (objects : List (Nat × String)) : Playing (List Motion) :=
  if byInstance then instanceMotions grouped else objectMotions objects

theorem motions_leaves (p : Playback) (byInstance grouped : Bool) (objects : List (Nat × String)) :
    (∀ n, p.scene.firstMisfit? byInstance grouped objects = some n →
      ∃ e, ((motions byInstance grouped objects).run p).1 = .error e) ∧
    ∀ e, ((motions byInstance grouped objects).run p).1 = .error e →
      ((motions byInstance grouped objects).run p).2.scene.currentFrame =
        p.scene.frameOfFault byInstance grouped objects := by
  unfold motions frameOfFault firstMisfit?
  cases byInstance with
  | false => exact ⟨objectMotions_leaves p |>.fault, objectMotions_leaves p |>.shown⟩
  | true =>
    cases hFirst : p.scene.sightings grouped with
    | error e =>
      have hRun := run_instanceMotions_error hFirst
      constructor
      · intro n hMisfit
        cases hMisfit
      · intro _ _
        exact congrArg (fun x => x.2.scene.currentFrame) hRun
    | ok first => exact ⟨instanceMotions_leaves hFirst |>.fault, instanceMotions_leaves hFirst |>.shown⟩

theorem run_animations (byInstance : Bool) (p : Playback) : (animations byInstance grouped objects).run p =
    (motions byInstance grouped objects >>= fun ms =>
      Playing.showFrame p.scene.currentFrame >>= fun _ => pure (file p.scene ms)).run p := by
  rw [animations, run_bind_of_ok (run_scene p)]
  cases byInstance with
  | false => rfl
  | true => rfl

/-- A scene that is played shows its own frame in the end if playing returns, and else the frame of
the fault. Playing fails where some frame cannot be recorded, and the scene is left at the first such
frame. -/
theorem frame_shown_after_animations (p : Playback) (byInstance grouped : Bool) (objects : List (Nat × String)) :
    let x := (animations byInstance grouped objects).run p
    ((∃ text, x.1 = .ok text) → x.2.scene.currentFrame = p.scene.currentFrame) ∧
    ((∃ e, x.1 = .error e) → x.2.scene.currentFrame = p.scene.frameOfFault byInstance grouped objects) ∧
    ∀ n, p.scene.firstMisfit? byInstance grouped objects = some n →
      (∃ e, x.1 = .error e) ∧ x.2.scene.currentFrame = n := by
  intro x
  obtain ⟨hFault, hShown⟩ := motions_leaves p byInstance grouped objects
  have hRun : x = _ := run_animations byInstance p
  generalize hMotions : (motions byInstance grouped objects).run p = y at hFault hShown
  obtain ⟨r, q⟩ := y
  cases r with
  | ok ms =>
    rw [run_bind_of_ok hMotions] at hRun
    rw [hRun]
    refine ⟨fun _ => currentFrame_showFrame _ _, fun h => ?_, fun n hMisfit => ?_⟩
    · obtain ⟨e, he⟩ := h
      cases he
    · obtain ⟨e, he⟩ := hFault n hMisfit
      cases he
  | error e =>
    rw [run_bind_of_error hMotions] at hRun
    rw [hRun]
    refine ⟨fun h => ?_, fun _ => hShown e rfl, fun n hMisfit => ⟨⟨e, rfl⟩, ?_⟩⟩
    · obtain ⟨text, h⟩ := h
      cases h
    · rw [hShown e rfl]
      exact frameOfFault_of_misfit hMisfit

def visited : Scene where
  objects := #[box "Guest"]
  instances := []
  currentFrame := 0
  firstFrame := 1
  lastFrame := 2
  frames := [⟨1, [], some [⟨some 0, false, none, none, none, []⟩]⟩]

theorem frame_shown_after_visit : visited.firstMisfit? true false [] = some 1 ∧
    (∃ e, ((animations true false []).run { scene := visited }).1 = .error e) ∧
    ((animations true false []).run { scene := visited }).2.scene.currentFrame = 1 ∧
    visited.currentFrame = 0 := by
  have hMisfit : visited.firstMisfit? true false [] = some 1 := by decide +kernel
  obtain ⟨-, -, hLeft⟩ := frame_shown_after_animations { scene := visited } true false []
  obtain ⟨hFault, hShown⟩ := hLeft 1 hMisfit
  exact ⟨hMisfit, hFault, hShown, rfl⟩

end Animations

end SceneExchange.Scene
