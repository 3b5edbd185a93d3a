import SceneExchange.Scene.Animation
import SceneExchange.Proofs.Lists
import Mathlib.Data.List.Forall2
import Mathlib.Data.List.Nodup
import Mathlib.Data.List.Perm.Subperm
import Mathlib.Data.List.ReduceOption
import Mathlib.Data.List.TakeWhile

/-!
# The rows of moving actors

An actor has a row for every frame. The rows hold its sightings in turn, from the first one on that
differs from where the actor stood at first; what the rows hold that are left over is not determined.
So whatever that is, every frame has the row that shows where the actor stands exactly when it has
left its first place by the first frame, and every frame number is a single precision number.
-/

namespace SceneExchange.Scene

open SceneExchange.Geometry Number List Playing Option Table Timeline Key Track

/-! ## Frame numbers -/

theorem singleFrame_singleFrame (n : Int) : singleFrame (singleFrame n) = singleFrame n := by
  by_cases hn : n = 0
  · rw [hn]
    rfl
  · have hSign : n.sign.natAbs = 1 := by
      rw [Int.natAbs_sign_of_ne_zero hn]
    unfold singleFrame
    rw [Int.natAbs_mul, hSign, Nat.one_mul, Int.natAbs_natCast, keepDigits_keepDigits (by decide), Int.sign_mul,
      Int.sign_sign, Int.mul_assoc, Int.sign_mul_self]
    rfl

theorem nodup_frameNumbers (s : Scene) : (frameNumbers s).Nodup := by
  refine nodup_range.map fun (a b : Nat) (h : s.firstFrame + a = s.firstFrame + b) => ?_
  omega

/-! ## Rows -/

def Motion.track (mo : Motion) : Channel → List Key
  | .translation => mo.translations
  | .rotation => mo.rotations
  | .scale => mo.scales

/-- A frame has one entry in each track, and they show the given matrix. -/
def Motion.ShowsAt (mo : Motion) (n : Int) (m : Matrix Float) : Prop :=
  ∀ c, (mo.track c).filter (·.frame == n) = [single true n (c.read m.decompose)]

section Rows

variable {name : String} {frames : List Int} {seen rows : List (Matrix Float)} {start : Matrix Float}
variable {n : Int} {m : Matrix Float} {remains : Remains}

theorem track_rows (t : Timeline) (c : Channel) :
    (t.rows true remains frames).track c = t.keys true remains frames c := by
  cases c <;> rfl

theorem frame_key (t : Timeline) (c : Channel) (row : Nat) : (t.key true remains c n row).frame = singleFrame n := by
  unfold Timeline.key
  split <;> rfl

theorem frames_rows (t : Timeline) (c : Channel) :
    ((t.rows true remains frames).track c).map (·.frame) = frames.map singleFrame := by
  rw [track_rows]
  calc (t.keys true remains frames c).map (·.frame)
      = frames.zipIdx.map (fun x => (t.key true remains c x.1 x.2).frame) := List.map_map
    _ = frames.zipIdx.map (singleFrame ∘ Prod.fst) := map_congr_left fun x _ => frame_key t c x.2
    _ = frames.map singleFrame := by rw [← List.map_map, zipIdx_map_fst]

theorem shows_rows (hNodup : frames.Nodup) (hFrames : ∀ n ∈ frames, singleFrame n = n)
    (h : (n, m) ∈ frames.zip seen) : (Timeline.rows ⟨name, seen⟩ true remains frames).ShowsAt n m := by
  intro c
  obtain ⟨i, hi⟩ := mem_iff_getElem?.mp h
  obtain ⟨hFrame, hSeen⟩ := getElem?_zip_eq_some.mp hi
  have hExact : ∀ x ∈ frames.zipIdx, ((key ⟨name, seen⟩ true remains c x.1 x.2).frame == n) = (x.1 == n) := by
    intro x hx
    rw [frame_key, hFrames x.1 (mem_of_getElem? (mem_zipIdx_iff_getElem?.mp hx))]
  have hPlaces : (frames.zipIdx.map Prod.fst).Nodup := by rwa [zipIdx_map_fst]
  have hRow : (n, i) ∈ frames.zipIdx := mem_zipIdx_iff_getElem?.mpr hFrame
  rw [track_rows]
  calc (keys ⟨name, seen⟩ true remains frames c).filter (·.frame == n)
      = (frames.zipIdx.filter fun x => (key ⟨name, seen⟩ true remains c x.1 x.2).frame == n).map fun x =>
          key ⟨name, seen⟩ true remains c x.1 x.2 := filter_map
    _ = [key ⟨name, seen⟩ true remains c n i] := by
      rw [filter_congr hExact, filter_fst_eq hPlaces hRow, map_singleton]
    _ = [single true n (c.read m.decompose)] := by
      rw [key, hSeen, hFrames n (mem_of_getElem? hFrame)]

theorem exact_of_shows (h : (Timeline.rows ⟨name, rows⟩ true remains frames).ShowsAt n m) : singleFrame n = n := by
  have hKey : single true n (Channel.scale.read m.decompose) ∈
      ((Timeline.rows ⟨name, rows⟩ true remains frames).track .scale).filter (·.frame == n) := by
    rw [h .scale]
    exact mem_singleton_self _
  have hFrame : n ∈ ((Timeline.rows ⟨name, rows⟩ true remains frames).track .scale).map (·.frame) :=
    mem_map.mpr ⟨_, (mem_filter.mp hKey).1, rfl⟩
  rw [frames_rows] at hFrame
  obtain ⟨k, -, rfl⟩ := mem_map.mp hFrame
  exact singleFrame_singleFrame k

/-- A row that is left over shows what the matrix of its frame does only if it holds that by chance. -/
theorem remains_of_shows {i : Nat} (h : (Timeline.rows ⟨name, rows⟩ true remains frames).ShowsAt n m)
    (hFrame : frames[i]? = some n) (hLeft : rows.length ≤ i) :
    ofRow true n (remains name .scale i) = single true n (Channel.scale.read m.decompose) := by
  have hKey : key ⟨name, rows⟩ true remains .scale n i ∈ keys ⟨name, rows⟩ true remains frames .scale :=
    mem_map.mpr ⟨(n, i), mem_zipIdx_iff_getElem?.mpr hFrame, rfl⟩
  rw [key, getElem?_eq_none hLeft, exact_of_shows h, ← track_rows] at hKey
  rw [← mem_singleton, ← h .scale]
  exact mem_filter.mpr ⟨hKey, beq_self_eq_true n⟩

variable (name) in
theorem shows_iff (hNodup : frames.Nodup) (hLength : seen.length = frames.length) :
    (∀ remains, ∀ x ∈ frames.zip seen,
      (Timeline.rows ⟨name, seen.dropWhile (sameEntries start)⟩ true remains frames).ShowsAt x.1 x.2) ↔
    (∀ m ∈ seen.head?, sameEntries start m = false) ∧ ∀ n ∈ frames, singleFrame n = n := by
  constructor
  · intro h
    refine ⟨?_, fun n hn => ?_⟩
    · cases seen with
      | nil => exact fun m hm => nomatch hm
      | cons m rest =>
        rintro _ ⟨⟩
        by_contra hSame
        rw [Bool.not_eq_false] at hSame
        -- The first sighting is dropped, so the last row is left over, and it cannot hold two things.
        have hLeft : ((m :: rest).dropWhile (sameEntries start)).length ≤ rest.length := by
          rw [dropWhile_cons, if_pos hSame]
          exact (dropWhile_sublist _).length_le
        rw [length_cons] at hLength
        have hRow : rest.length < (frames.zip (m :: rest)).length := by simp [← hLength]
        obtain ⟨⟨n, last⟩, hLast⟩ : ∃ x, (frames.zip (m :: rest))[rest.length]? = some x := ⟨_, getElem?_eq_getElem hRow⟩
        have hHolds (x : Float) := remains_of_shows (h (fun _ _ _ => ⟨x, x, x⟩) (n, last) (mem_of_getElem? hLast))
          (getElem?_zip_eq_some.mp hLast).1 hLeft
        have hOne : (1.0 : Float) = 2.0 := congrArg Key.x ((hHolds 1.0).trans (hHolds 2.0).symm)
        exact absurd hOne (by decide +kernel)
    · rw [← map_fst_zip (Nat.le_of_eq hLength.symm)] at hn
      obtain ⟨⟨n, m⟩, hMem, rfl⟩ := mem_map.mp hn
      exact exact_of_shows (h default _ hMem)
  · rintro ⟨hLeft, hFrames⟩ remains ⟨n, m⟩ hMem
    have hAll : seen.dropWhile (sameEntries start) = seen := by
      cases seen with
      | nil => rfl
      | cons m rest => rw [dropWhile_cons, hLeft m rfl, if_neg Bool.false_ne_true]
    rw [hAll]
    exact shows_rows hNodup hFrames hMem

end Rows

/-! ## Sightings -/

abbrev Sighting := String × Matrix Float

def standsOf (name : String) (l : List Sighting) : List (Matrix Float) :=
  l.filterMap fun x => if x.1 = name then some x.2 else none

/-- Where an instance that may move stands, under its name. -/
def sighting? (s : Scene) (grouped : Bool) (i : Instance) : Except Fault (Option Sighting) := do
  match ← s.movingName? grouped i with
  | none => pure none
  | some name => pure (some (name, ← s.localMatrix i))

def sightings (s : Scene) (grouped : Bool) : Except Fault (List Sighting) := do
  pure (← s.instances.mapM (s.sighting? grouped)).reduceOption

/-- The scenes that frames show in turn. -/
def shown (s : Scene) : List Int → List Scene
  | [] => []
  | n :: rest => s.showFrame n :: (s.showFrame n).shown rest

def seen (s : Scene) (grouped : Bool) (frames : List Int) : Except Fault (List Sighting) := do
  pure (← (s.shown frames).mapM (·.sightings grouped)).flatten

/-! ## Tracks -/

section Tracks

variable {s : Scene} {grouped : Bool} {tracks tracks' : Table String Track} {name : String}

theorem run_lift {α : Type} (r : Except Fault α) (p : Playback) : (lift r).run p = (r, p) := by
  cases r <;> rfl

theorem run_bind_eq_ok {α β : Type} {m : Playing α} {k : α → Playing β} {p : Playback} {b : β} :
    ((m >>= k).run p).1 = .ok b ↔ ∃ a, (m.run p).1 = .ok a ∧ ((k a).run (m.run p).2).1 = .ok b := by
  cases hRun : m.run p with
  | mk r q =>
    cases r with
    | ok a => simp [run_bind_of_ok hRun]
    | error e => simp [run_bind_of_error hRun]

def begun (tracks : Table String Track) (x : Sighting) : Table String Track :=
  tracks.insert x.1 { start := x.2 }

def noted (tracks : Table String Track) (x : Sighting) : Table String Track :=
  match tracks.get? x.1 with
  | none => tracks
  | some t => tracks.insert x.1 (t.extend x.2)

theorem get?_begun (x : Sighting) :
    (begun tracks x).get? name = if x.1 = name then some { start := x.2 } else tracks.get? name := by
  unfold begun
  split
  · next h => rw [h, get?_insert_self]
  · next h => rw [get?_insert_of_ne _ (Ne.symm h)]

theorem get?_noted (x : Sighting) : (noted tracks x).get? name =
    if x.1 = name then (tracks.get? name).map (·.extend x.2) else tracks.get? name := by
  unfold noted
  split
  · next hNone =>
    split
    · next h => rw [← h, hNone]; rfl
    · rfl
  · next t hSome =>
    split
    · next h => rw [← h, get?_insert_self, hSome]; rfl
    · next h => rw [get?_insert_of_ne _ (Ne.symm h)]

theorem standsOf_cons (x : Sighting) (l : List Sighting) : standsOf name (x :: l) =
    if x.1 = name then x.2 :: standsOf name l else standsOf name l := by
  unfold standsOf
  rw [filterMap_cons]
  split <;> rename_i h <;> split at h <;> simp_all

theorem get?_foldl_noted (l : List Sighting) (tracks : Table String Track) :
    (l.foldl noted tracks).get? name = (tracks.get? name).map ((standsOf name l).foldl extend) := by
  induction l generalizing tracks with
  | nil => exact map_id'.symm
  | cons x l ih =>
    rw [foldl_cons, ih, get?_noted, standsOf_cons]
    split
    · rw [Option.map_map]
      rfl
    · rfl

theorem get?_foldl_begun (l : List Sighting) (tracks : Table String Track) : (l.foldl begun tracks).get? name =
      ((standsOf name l).getLast?.map fun m => { start := m }).or (tracks.get? name) := by
  induction l generalizing tracks with
  | nil => rfl
  | cons x l ih =>
    rw [foldl_cons, ih, get?_begun, standsOf_cons]
    split
    · rw [getLast?_cons]
      cases (standsOf name l).getLast? with
      | none => rfl
      | some m => rfl
    · rfl

theorem mem_standsOf {l : List Sighting} {m : Matrix Float} : m ∈ standsOf name l ↔ (name, m) ∈ l := by
  unfold standsOf
  rw [mem_filterMap]
  constructor
  · rintro ⟨⟨other, x⟩, hMem, hSame⟩
    split_ifs at hSame with hName
    cases hSame
    cases hName
    exact hMem
  · intro h
    exact ⟨(name, m), h, if_pos rfl⟩

theorem isSome_get?_begun_iff {first : List Sighting} :
    ((first.foldl begun .empty).get? name).isSome ↔ name ∈ first.map Prod.fst := by
  have hEmpty : (Table.empty : Table String Track).get? name = none := rfl
  rw [get?_foldl_begun, hEmpty, Option.or_none, isSome_map, getLast?_isSome, List.mem_map]
  constructor
  · intro hStands
    obtain ⟨m, hm⟩ := exists_mem_of_ne_nil _ hStands
    exact ⟨(name, m), mem_standsOf.mp hm, rfl⟩
  · rintro ⟨⟨_, m⟩, hMem, rfl⟩
    exact ne_nil_of_mem (mem_standsOf.mpr hMem)

theorem nodup_foldl_begun (l : List Sighting) (h : tracks.keys.Nodup) : (l.foldl begun tracks).keys.Nodup := by
  induction l generalizing tracks with
  | nil => exact h
  | cons x l ih => exact ih (nodup_keys_insert h _ _)

theorem nodup_foldl_noted (l : List Sighting) (h : tracks.keys.Nodup) : (l.foldl noted tracks).keys.Nodup := by
  induction l generalizing tracks with
  | nil => exact h
  | cons x l ih =>
    refine ih ?_
    unfold noted
    split
    · exact h
    · exact nodup_keys_insert h _ _

theorem noteStart_eq (i : Instance) :
    s.noteStart grouped tracks i = (s.sighting? grouped i).map fun x => x.elim tracks (begun tracks) := by
  unfold noteStart sighting?
  cases s.movingName? grouped i with
  | error e => rfl
  | ok name? =>
    cases name? with
    | none => rfl
    | some name => cases s.localMatrix i <;> rfl

theorem isSome_get?_foldl_noted (l : List Sighting) (tracks : Table String Track) :
    ((l.foldl noted tracks).get? name).isSome = (tracks.get? name).isSome := by
  rw [get?_foldl_noted, isSome_map]

/-- Tracks go on over sightings, each of an actor that has a track. -/
def GoesOn (tracks : Table String Track) (l : List Sighting) (tracks' : Table String Track) : Prop :=
  (∀ x ∈ l, (tracks.get? x.1).isSome) ∧ l.foldl noted tracks = tracks'

theorem goesOn_append {l l' : List Sighting} :
    GoesOn tracks (l ++ l') tracks' ↔ ∃ t, GoesOn tracks l t ∧ GoesOn t l' tracks' := by
  simp only [GoesOn, forall_mem_append, foldl_append]
  constructor
  · rintro ⟨⟨hKnown, hAlso⟩, hSame⟩
    exact ⟨_, ⟨hKnown, rfl⟩, fun x hx => (isSome_get?_foldl_noted l tracks).trans (hAlso x hx), hSame⟩
  · rintro ⟨_, ⟨hKnown, rfl⟩, hAlso, hSame⟩
    exact ⟨⟨hKnown, fun x hx => (isSome_get?_foldl_noted l tracks).symm.trans (hAlso x hx)⟩, hSame⟩

theorem goesOn_nil : GoesOn tracks [] tracks' ↔ tracks = tracks' := and_iff_right (forall_mem_nil _)

theorem noteNext_eq_ok_iff {i : Instance} : s.noteNext grouped tracks i = .ok tracks' ↔
    ∃ x, s.sighting? grouped i = .ok x ∧ GoesOn tracks x.toList tracks' := by
  unfold noteNext sighting?
  cases s.movingName? grouped i with
  | error e => exact ⟨nofun, nofun⟩
  | ok name? =>
    cases name? with
    | none => simp [goesOn_nil, bind, Except.bind, pure, Except.pure]
    | some name =>
      cases hTrack : tracks.get? name <;> cases s.localMatrix i <;>
        simp [hTrack, GoesOn, noted, bind, Except.bind, pure, Except.pure]

theorem startTracks_eq (s : Scene) (grouped : Bool) :
    s.startTracks grouped = (s.sightings grouped).map (·.foldl begun .empty) := by
  suffices hFold : ∀ (is : List Instance) (tracks : Table String Track), is.foldlM (s.noteStart grouped) tracks =
        (is.mapM (s.sighting? grouped)).map fun l => l.reduceOption.foldl begun tracks by
    rw [startTracks, hFold, sightings]
    cases s.instances.mapM (s.sighting? grouped) <;> rfl
  intro is
  induction is with
  | nil => exact fun tracks => rfl
  | cons i is ih =>
    intro tracks
    rw [foldlM_cons, mapM_cons, noteStart_eq]
    cases s.sighting? grouped i with
    | error e => rfl
    | ok x =>
      change is.foldlM (s.noteStart grouped) (x.elim tracks (begun tracks)) = _
      rw [ih]
      cases hRest : is.mapM (s.sighting? grouped) with
      | error e => rfl
      | ok l => cases x <;> rfl

theorem nextTracks_eq_ok_iff : s.nextTracks grouped tracks = .ok tracks' ↔
    ∃ l, s.sightings grouped = .ok l ∧ GoesOn tracks l tracks' := by
  suffices hFold : ∀ (is : List Instance) (tracks : Table String Track),
      is.foldlM (s.noteNext grouped) tracks = .ok tracks' ↔
        ∃ l, is.mapM (s.sighting? grouped) = .ok l ∧ GoesOn tracks l.reduceOption tracks' by
    rw [nextTracks, hFold, sightings]
    cases s.instances.mapM (s.sighting? grouped) <;> simp [bind, Except.bind, pure, Except.pure]
  intro is
  induction is with
  | nil => simp [goesOn_nil, pure, Except.pure]
  | cons i is ih =>
    intro tracks
    have hList (x : Option Sighting) (l : List (Option Sighting)) :
        (x :: l).reduceOption = x.toList ++ l.reduceOption := by cases x <;> rfl
    rw [foldlM_cons, mapM_cons, bind_eq_ok]
    simp only [noteNext_eq_ok_iff, ih, bind_eq_ok]
    constructor
    · rintro ⟨t, ⟨x, hFirst, hOn⟩, l, hRest, hOn'⟩
      exact ⟨x :: l, ⟨x, hFirst, l, hRest, rfl⟩, hList x l ▸ goesOn_append.mpr ⟨t, hOn, hOn'⟩⟩
    · rintro ⟨_, ⟨x, hFirst, l, hRest, ⟨⟩⟩, hOn⟩
      obtain ⟨t, hOn, hOn'⟩ := goesOn_append.mp (hList x l ▸ hOn)
      exact ⟨t, ⟨x, hFirst, hOn⟩, l, hRest, hOn'⟩

theorem seen_cons (s : Scene) (grouped : Bool) (n : Int) (rest : List Int) : s.seen grouped (n :: rest) = (do
      let first ← (s.showFrame n).sightings grouped
      let others ← (s.showFrame n).seen grouped rest
      pure (first ++ others)) := by
  rw [seen, shown, mapM_cons, seen]
  cases (s.showFrame n).sightings grouped with
  | error e => rfl
  | ok first => cases ((s.showFrame n).shown rest).mapM (·.sightings grouped) <;> rfl

theorem playTracks_eq_ok_iff {p : Playback} {frames : List Int} :
    ((playTracks grouped tracks frames).run p).1 = .ok tracks' ↔
      ∃ l, p.scene.seen grouped frames = .ok l ∧ GoesOn tracks l tracks' := by
  induction frames generalizing p tracks with
  | nil =>
    have hSeen : p.scene.seen grouped [] = .ok [] := rfl
    have hRun : ((playTracks grouped tracks []).run p).1 = .ok tracks := rfl
    simp [hSeen, hRun, goesOn_nil]
  | cons n rest ih =>
    let q : Playback := { p with scene := p.scene.showFrame n, calls := p.calls.push n }
    have hRun : ((playTracks grouped tracks (n :: rest)).run p).1 = .ok tracks' ↔
        ∃ t, (p.scene.showFrame n).nextTracks grouped tracks = .ok t ∧
          ((playTracks grouped t rest).run q).1 = .ok tracks' := by
      change ((lift ((p.scene.showFrame n).nextTracks grouped tracks) >>= fun t =>
        playTracks grouped t rest).run q).1 = .ok tracks' ↔ _
      rw [run_bind_eq_ok, run_lift]
    rw [hRun, seen_cons]
    simp only [nextTracks_eq_ok_iff, ih, bind_eq_ok]
    constructor
    · rintro ⟨t, ⟨first, hFirst, hOn⟩, others, hOthers, hOn'⟩
      exact ⟨first ++ others, ⟨first, hFirst, others, hOthers, rfl⟩, goesOn_append.mpr ⟨t, hOn, hOn'⟩⟩
    · rintro ⟨_, ⟨first, hFirst, others, hOthers, ⟨⟩⟩, hOn⟩
      obtain ⟨t, hOn, hOn'⟩ := goesOn_append.mp hOn
      exact ⟨t, ⟨first, hFirst, hOn⟩, others, hOthers, hOn'⟩

theorem moved_foldl_extend_of_some {t : Track} {l : List (Matrix Float)} (h : t.moved = some l)
    (ms : List (Matrix Float)) : (ms.foldl extend t).moved = some (l ++ ms) := by
  induction ms generalizing t l with
  | nil => rw [append_nil]; exact h
  | cons m ms ih =>
    have hNext : (t.extend m).moved = some (l ++ [m]) := by
      unfold extend
      rw [h]
    rw [foldl_cons, ih hNext, append_assoc]
    rfl

/-- A track keeps the matrices from the first one on that differs from its start. -/
theorem moved_foldl_extend (start : Matrix Float) (ms : List (Matrix Float)) {rows : List (Matrix Float)} :
    (ms.foldl extend { start := start }).moved = some rows ↔ ms.dropWhile (sameEntries start) = rows ∧ rows ≠ [] := by
  induction ms with
  | nil => exact ⟨fun h => (nomatch h), fun ⟨h, hRows⟩ => absurd h.symm hRows⟩
  | cons m ms ih =>
    rw [foldl_cons, dropWhile_cons, extend]
    dsimp only
    split
    · exact ih
    · rw [moved_foldl_extend_of_some rfl, some_inj, singleton_append]
      constructor
      · rintro rfl
        exact ⟨rfl, cons_ne_nil m ms⟩
      · exact And.left

theorem mem_timelines_iff (h : tracks.keys.Nodup) {t : Timeline} :
    t ∈ timelines tracks ↔ ∃ track, tracks.get? t.name = some track ∧ track.moved = some t.matrices := by
  unfold timelines
  rw [mem_filterMap]
  constructor
  · rintro ⟨⟨name, track⟩, hEntry, hTimeline⟩
    obtain ⟨ms, hMoved, rfl⟩ := map_eq_some_iff.mp hTimeline
    exact ⟨track, (mem_entries_iff h).mp hEntry, hMoved⟩
  · rintro ⟨track, hTrack, hMoved⟩
    exact ⟨(t.name, track), (mem_entries_iff h).mpr hTrack, map_eq_some_iff.mpr ⟨t.matrices, hMoved, rfl⟩⟩

end Tracks

/-! ## Motions -/

section Motions

/-- What is recorded of an actor are its later stands without those at the beginning that are still
where it stood at first. -/
def recordedOf (first later : List Sighting) (name : String) : List (Matrix Float) :=
  (standsOf name first).getLast?.elim [] fun start => (standsOf name later).dropWhile (sameEntries start)

theorem exists_of_recordedOf {first later : List Sighting} {name : String} (h : recordedOf first later name ≠ []) :
    ∃ start, (name, start) ∈ first := by
  unfold recordedOf at h
  cases hStart : (standsOf name first).getLast? with
  | none =>
    rw [hStart] at h
    exact absurd rfl h
  | some start => exact ⟨start, mem_standsOf.mp (mem_of_getLast? hStart)⟩

def Recorded (remains : Remains) (frames : List Int) (first later : List Sighting) (mo : Motion) : Prop :=
  recordedOf first later mo.actor ≠ [] ∧
    Timeline.rows ⟨mo.actor, recordedOf first later mo.actor⟩ true remains frames = mo

def tracksOf (first later : List Sighting) : Table String Track :=
  later.foldl noted (first.foldl begun .empty)

variable {s : Scene} {grouped : Bool} {first later : List Sighting} {frames : List Int} {ms : List Motion}
variable {remains : Remains}

theorem get?_tracksOf (name : String) : (tracksOf first later).get? name =
    (standsOf name first).getLast?.map fun start => (standsOf name later).foldl extend { start := start } := by
  rw [tracksOf, get?_foldl_noted, get?_foldl_begun]
  cases (standsOf name first).getLast? <;> rfl

theorem nodup_tracksOf : (tracksOf first later).keys.Nodup :=
  nodup_foldl_noted later (nodup_foldl_begun first nodup_nil)

theorem mem_timelines_tracksOf {t : Timeline} : t ∈ timelines (tracksOf first later) ↔
    recordedOf first later t.name = t.matrices ∧ t.matrices ≠ [] := by
  rw [mem_timelines_iff nodup_tracksOf, get?_tracksOf, recordedOf]
  cases (standsOf t.name first).getLast? with
  | none => exact ⟨nofun, fun ⟨h, hLeft⟩ => absurd h.symm hLeft⟩
  | some start => simp [moved_foldl_extend]

def motionsOf (remains : Remains) (frames : List Int) (first later : List Sighting) : List Motion :=
  (timelines (tracksOf first later)).map fun t => t.rows true remains frames

theorem mem_motionsOf {mo : Motion} :
    mo ∈ motionsOf remains frames first later ↔ Recorded remains frames first later mo := by
  rw [motionsOf, List.mem_map]
  constructor
  · rintro ⟨t, hTimeline, rfl⟩
    obtain ⟨hSame, hLeft⟩ := mem_timelines_tracksOf.mp hTimeline
    unfold Recorded Timeline.rows
    rw [hSame]
    exact ⟨hLeft, rfl⟩
  · rintro ⟨hLeft, hMotion⟩
    exact ⟨_, mem_timelines_tracksOf.mpr ⟨rfl, hLeft⟩, hMotion⟩

theorem mem_actors_iff {name : String} :
    name ∈ (motionsOf remains frames first later).map (·.actor) ↔ recordedOf first later name ≠ [] := by
  rw [List.mem_map]
  constructor
  · rintro ⟨mo, hMotion, rfl⟩
    exact (mem_motionsOf.mp hMotion).1
  · intro hLeft
    exact ⟨Timeline.rows ⟨name, recordedOf first later name⟩ true remains frames, mem_motionsOf.mpr ⟨hLeft, rfl⟩, rfl⟩

theorem mapM_motion_eq_ok_iff {ts : List Timeline} : ts.mapM (fun t => t.motion true remains frames) = .ok ms ↔
    (∀ t ∈ ts, t.matrices.length ≤ frames.length) ∧ ts.map (fun t => t.rows true remains frames) = ms := by
  induction ts generalizing ms with
  | nil => simp [pure, Except.pure]
  | cons t ts ih =>
    rw [mapM_cons, forall_mem_cons, Timeline.motion]
    split
    · next hLong => exact ⟨nofun, fun ⟨⟨hRoom, _⟩, _⟩ => absurd hLong (Nat.not_lt.mpr hRoom)⟩
    · next hRoom =>
      simp only [bind_eq_ok, Except.ok.injEq, exists_eq_left', ih, and_iff_right (Nat.not_lt.mp hRoom)]
      constructor
      · rintro ⟨_, ⟨hRest, rfl⟩, ⟨⟩⟩
        exact ⟨hRest, rfl⟩
      · rintro ⟨hRest, rfl⟩
        exact ⟨_, ⟨hRest, rfl⟩, rfl⟩

theorem run_get (p : Playback) : (get : Playing Playback).run p = (.ok p, p) := rfl

theorem run_instanceMotions (p : Playback) : (instanceMotions grouped).run p =
    (lift (p.scene.startTracks grouped) >>= fun tracks =>
      playTracks grouped tracks (frameNumbers p.scene) >>= fun tracks =>
        lift ((timelines tracks).mapM fun t => t.motion true p.remains (frameNumbers p.scene))).run p := by
  rw [instanceMotions, run_bind_of_ok (run_get p)]

theorem instanceMotions_eq_ok_iff {p : Playback} : ((instanceMotions grouped).run p).1 = .ok ms ↔
    ∃ first later, p.scene.sightings grouped = .ok first ∧ p.scene.seen grouped (frameNumbers p.scene) = .ok later ∧
      (∀ x ∈ later, x.1 ∈ first.map Prod.fst) ∧
      (∀ t ∈ timelines (tracksOf first later), t.matrices.length ≤ (frameNumbers p.scene).length) ∧
      motionsOf p.remains (frameNumbers p.scene) first later = ms := by
  rw [run_instanceMotions, run_bind_eq_ok, run_lift, startTracks_eq]
  simp only [run_bind_eq_ok, run_lift, playTracks_eq_ok_iff, mapM_motion_eq_ok_iff]
  constructor
  · rintro ⟨tracks, hStart, _, ⟨later, hSeen, hKnown, rfl⟩, hMotions⟩
    obtain ⟨first, hFirst, ⟨⟩⟩ := bind_eq_ok.mp hStart
    exact ⟨first, later, hFirst, hSeen, fun x hx => isSome_get?_begun_iff.mp (hKnown x hx), hMotions⟩
  · rintro ⟨first, later, hFirst, hSeen, hKnown, hMotions⟩
    exact ⟨_, by rw [hFirst]; rfl, _, ⟨later, hSeen, fun x hx => isSome_get?_begun_iff.mpr (hKnown x hx), rfl⟩, hMotions⟩

/-- The file of the motions of a scene, if there are any. -/
def file (s : Scene) (ms : List Motion) : Option String :=
  if ms.isEmpty then none else some (animationText s.rate ms)

theorem animations_eq_ok_iff {p : Playback} {objects : List (Nat × String)} {r : Option String} :
    ((animations true grouped objects).run p).1 = .ok r ↔
      ∃ ms, ((instanceMotions grouped).run p).1 = .ok ms ∧ file p.scene ms = r := by
  change ((instanceMotions grouped >>= fun ms => Playing.showFrame p.scene.currentFrame >>= fun _ =>
    pure (file p.scene ms)).run p).1 = _ ↔ _
  rw [run_bind_eq_ok]
  constructor
  · rintro ⟨ms, hMotions, hFile⟩
    exact ⟨ms, hMotions, Except.ok.inj hFile⟩
  · rintro ⟨ms, hMotions, rfl⟩
    exact ⟨ms, hMotions, rfl⟩

theorem run_animations_eq_ok_iff {p : Playback} (objects : List (Nat × String)) {r : Option String}
    (hFirst : p.scene.sightings grouped = .ok first) (hSeen : p.scene.seen grouped (frameNumbers p.scene) = .ok later) :
    ((animations true grouped objects).run p).1 = .ok r ↔ (∀ x ∈ later, x.1 ∈ first.map Prod.fst) ∧
      (∀ mo ∈ motionsOf p.remains (frameNumbers p.scene) first later,
        (recordedOf first later mo.actor).length ≤ (frameNumbers p.scene).length) ∧
      r = file p.scene (motionsOf p.remains (frameNumbers p.scene) first later) := by
  have hRoom : (∀ mo ∈ motionsOf p.remains (frameNumbers p.scene) first later,
        (recordedOf first later mo.actor).length ≤ (frameNumbers p.scene).length) ↔
      ∀ t ∈ timelines (tracksOf first later), t.matrices.length ≤ (frameNumbers p.scene).length := by
    rw [motionsOf, List.forall_mem_map]
    refine forall₂_congr fun t ht => ?_
    rw [← (mem_timelines_tracksOf.mp ht).1]
    rfl
  rw [animations_eq_ok_iff, hRoom]
  constructor
  · rintro ⟨ms, hMotions, rfl⟩
    obtain ⟨_, _, hFirst', hSeen', hKnown, hRoom, rfl⟩ := instanceMotions_eq_ok_iff.mp hMotions
    cases hFirst.symm.trans hFirst'
    cases hSeen.symm.trans hSeen'
    exact ⟨hKnown, hRoom, rfl⟩
  · rintro ⟨hKnown, hRoom, rfl⟩
    exact ⟨_, instanceMotions_eq_ok_iff.mpr ⟨first, later, hFirst, hSeen, hKnown, hRoom, rfl⟩, rfl⟩

end Motions

/-! ## The same actors at every frame -/

section Steady

/-- An actor of the first sightings stands elsewhere in the others. -/
def Moved (first l : List Sighting) (name : String) : Prop :=
  ∃ start m, (name, start) ∈ first ∧ (name, m) ∈ l ∧ sameEntries start m = false

variable {name : String} {l first : List Sighting} {each : List (List Sighting)}

instance : Decidable (Moved first l name) :=
  decidable_of_iff (∃ start ∈ standsOf name first, ∃ m ∈ standsOf name l, sameEntries start m = false) <| by
    simp only [Moved, mem_standsOf, exists_and_left]

theorem standsOf_eq_singleton (hNames : (l.map Prod.fst).Nodup) {m : Matrix Float} (h : (name, m) ∈ l) :
    standsOf name l = [m] := by
  induction l with
  | nil => cases h
  | cons x l ih =>
    obtain ⟨hNew, hRest⟩ := nodup_cons.mp hNames
    rw [standsOf_cons]
    obtain rfl | hTail := mem_cons.mp h
    · have hOthers : standsOf name l = [] := by
        refine eq_nil_iff_forall_not_mem.mpr fun m hm => ?_
        exact hNew (mem_map.mpr ⟨(name, m), mem_standsOf.mp hm, rfl⟩)
      rw [if_pos rfl, hOthers]
    · have hName : x.1 ≠ name := by
        rintro rfl
        exact hNew (mem_map.mpr ⟨_, hTail, rfl⟩)
      rw [if_neg hName, ih hRest hTail]

theorem stands_each (hNames : (first.map Prod.fst).Nodup)
    (hSame : ∀ l ∈ each, (l.map Prod.fst).Perm (first.map Prod.fst)) (hName : name ∈ first.map Prod.fst) :
    Forall₂ (fun l m => standsOf name l = [m]) each (standsOf name each.flatten) := by
  induction each with
  | nil => exact .nil
  | cons l each ih =>
    obtain ⟨hHead, hTail⟩ := forall_mem_cons.mp hSame
    obtain ⟨m, hMem⟩ : ∃ m, (name, m) ∈ l := by
      simpa using hHead.mem_iff.mpr hName
    have hOne := standsOf_eq_singleton (hHead.nodup_iff.mpr hNames) hMem
    have hFlat : standsOf name (l :: each).flatten = m :: standsOf name each.flatten := by
      rw [flatten_cons, standsOf, filterMap_append]
      exact congrArg (· ++ standsOf name each.flatten) hOne
    rw [hFlat]
    exact .cons hOne (ih hTail)

theorem moved_iff {start m : Matrix Float} (hStart : standsOf name first = [start]) (hStand : standsOf name l = [m]) :
    Moved first l name ↔ sameEntries start m = false := by
  simp only [Moved, ← mem_standsOf, hStart, hStand, mem_singleton]
  constructor
  · rintro ⟨_, _, rfl, rfl, h⟩
    exact h
  · intro h
    exact ⟨start, m, rfl, rfl, h⟩

theorem length_shown (s : Scene) (frames : List Int) : (s.shown frames).length = frames.length := by
  induction frames generalizing s with
  | nil => rfl
  | cons n rest ih => exact congrArg (· + 1) (ih _)

section Actors

variable {start : Matrix Float}

theorem dropWhile_ne_nil_iff (hStart : standsOf name first = [start]) :
    (standsOf name each.flatten).dropWhile (sameEntries start) ≠ [] ↔ ∃ l ∈ each, Moved first l name := by
  rw [Ne, dropWhile_eq_nil_iff]
  constructor
  · intro h
    push Not at h
    obtain ⟨m, hMem, hMoved⟩ := h
    obtain ⟨l, hList, hStand⟩ := mem_flatten.mp (mem_standsOf.mp hMem)
    have hFirst : start ∈ standsOf name first := by
      rw [hStart]
      exact mem_singleton_self start
    exact ⟨l, hList, start, m, mem_standsOf.mp hFirst, hStand, Bool.not_eq_true _ ▸ hMoved⟩
  · rintro ⟨l, hList, other, m, hFirst, hStand, hMoved⟩ hAll
    rw [← mem_standsOf, hStart, mem_singleton] at hFirst
    cases hFirst
    rw [hAll m (mem_standsOf.mpr (mem_flatten_of_mem hList hStand))] at hMoved
    cases hMoved

theorem head_moved_iff (hStart : standsOf name first = [start])
    (h : Forall₂ (fun l m => standsOf name l = [m]) each (standsOf name each.flatten)) :
    (∀ m ∈ (standsOf name each.flatten).head?, sameEntries start m = false) ↔ ∀ l ∈ each.head?, Moved first l name := by
  generalize standsOf name each.flatten = stands at h
  cases h with
  | nil => exact ⟨fun _ _ h => (nomatch h), fun _ _ h => (nomatch h)⟩
  | @cons l m each stands hHead _ =>
    constructor
    · rintro h _ ⟨⟩
      exact (moved_iff hStart hHead).mpr (h m rfl)
    · rintro h _ ⟨⟩
      exact (moved_iff hStart hHead).mp (h l rfl)

theorem recordedOf_eq (hStart : standsOf name first = [start]) (later : List Sighting) :
    recordedOf first later name = (standsOf name later).dropWhile (sameEntries start) := by
  rw [recordedOf, hStart]
  rfl

theorem recordedOf_ne_nil_iff (hNames : (first.map Prod.fst).Nodup) :
    recordedOf first each.flatten name ≠ [] ↔ ∃ l ∈ each, Moved first l name := by
  constructor
  · intro h
    obtain ⟨start, hHere⟩ := exists_of_recordedOf h
    have hStart := standsOf_eq_singleton hNames hHere
    rwa [recordedOf_eq hStart, dropWhile_ne_nil_iff hStart] at h
  · rintro ⟨l, hl, start, m, hHere, hMoved⟩
    have hStart := standsOf_eq_singleton hNames hHere
    rw [recordedOf_eq hStart, dropWhile_ne_nil_iff hStart]
    exact ⟨l, hl, start, m, hHere, hMoved⟩

theorem start_of_moves (hNames : (first.map Prod.fst).Nodup) (h : ∃ l ∈ each, Moved first l name) :
    name ∈ first.map Prod.fst ∧ ∃ start, standsOf name first = [start] := by
  obtain ⟨l, -, start, m, hHere, -⟩ := h
  exact ⟨List.mem_map.mpr ⟨_, hHere, rfl⟩, start, standsOf_eq_singleton hNames hHere⟩

variable {frames : List Int} (hSame : ∀ l ∈ each, (l.map Prod.fst).Perm (first.map Prod.fst))

include hSame

theorem length_standsOf (hNames : (first.map Prod.fst).Nodup) (hLength : each.length = frames.length)
    (hName : name ∈ first.map Prod.fst) : (standsOf name each.flatten).length = frames.length :=
  (stands_each hNames hSame hName).length_eq.symm.trans hLength

/-- The rows of an actor that moves show where it stands. -/
theorem shows_motionsOf_iff (hNames : (first.map Prod.fst).Nodup) (hLength : each.length = frames.length)
    (hNodup : frames.Nodup) (hMoves : ∃ l ∈ each, Moved first l name) :
    (∀ u, ∀ mo ∈ motionsOf u frames first each.flatten, mo.actor = name →
      ∀ x ∈ frames.zip each, ∀ m, (name, m) ∈ x.2 → mo.ShowsAt x.1 m) ↔
    (∀ l ∈ each.head?, Moved first l name) ∧ ∀ n ∈ frames, singleFrame n = n := by
  obtain ⟨hName, start, hStart⟩ := start_of_moves hNames hMoves
  have hStands := stands_each hNames hSame hName
  rw [← head_moved_iff hStart hStands]
  refine Iff.trans (forall_congr' fun u => ?_) (shows_iff name hNodup (length_standsOf hSame hNames hLength hName))
  rw [← recordedOf_eq hStart]
  let own := Timeline.rows ⟨name, recordedOf first each.flatten name⟩ true u frames
  have hOwn {mo : Motion} : mo ∈ motionsOf u frames first each.flatten ∧ mo.actor = name ↔ own = mo := by
    constructor
    · rintro ⟨hMotion, rfl⟩
      exact (mem_motionsOf.mp hMotion).2
    · rintro rfl
      exact ⟨mem_motionsOf.mpr ⟨(recordedOf_ne_nil_iff hNames).mpr hMoves, rfl⟩, rfl⟩
  simp only [← and_imp, hOwn, forall_eq']
  refine forall_zip_iff (P := fun n l => ∀ m, (name, m) ∈ l → own.ShowsAt n m) (Q := own.ShowsAt) hStands
    (fun n l m hOne => ?_) frames
  simp only [← mem_standsOf, hOne, mem_singleton, forall_eq]

end Actors

/-- The rows of an actor are recorded, and there is a file unless an actor is new or has too many of them.
With the same actors at every frame, each under a name of its own, the file has the actors that ever
leave their first place. Such an actor has the right row for every frame, whatever the rows held, just
if it has left by the first one and the frame numbers are exact. -/
theorem animations_show_every_frame_iff {p : Playback} {grouped : Bool} (objects : List (Nat × String))
    (hFirst : p.scene.sightings grouped = .ok first)
    (hEach : (p.scene.shown (frameNumbers p.scene)).mapM (·.sightings grouped) = .ok each) :
    ∃ ms : Remains → List Motion,
      (∀ u mo, mo ∈ ms u ↔ Recorded u (frameNumbers p.scene) first each.flatten mo) ∧
      (∀ u, ∀ mo ∈ ms u, ∀ c, (mo.track c).map (·.frame) = (frameNumbers p.scene).map singleFrame) ∧
      (∀ u r, ((animations true grouped objects).run { p with remains := u }).1 = .ok r ↔
        (∀ l ∈ each, ∀ x ∈ l, x.1 ∈ first.map Prod.fst) ∧
        (∀ mo ∈ ms u, (recordedOf first each.flatten mo.actor).length ≤ (frameNumbers p.scene).length) ∧
        r = file p.scene (ms u)) ∧
      ((first.map Prod.fst).Nodup → (∀ l ∈ each, (l.map Prod.fst).Perm (first.map Prod.fst)) →
        (∀ u, ((animations true grouped objects).run { p with remains := u }).1 = .ok (file p.scene (ms u))) ∧
        (∀ u name, name ∈ (ms u).map (·.actor) ↔ ∃ l ∈ each, Moved first l name) ∧
        ∀ name, (∃ l ∈ each, Moved first l name) →
          ((∀ u, ∀ mo ∈ ms u, mo.actor = name →
            ∀ x ∈ (frameNumbers p.scene).zip each, ∀ m, (name, m) ∈ x.2 → mo.ShowsAt x.1 m) ↔
          (∀ l ∈ each.head?, Moved first l name) ∧ ∀ n ∈ frameNumbers p.scene, singleFrame n = n)) := by
  let frames := frameNumbers p.scene
  let ms (u : Remains) : List Motion := motionsOf u frames first each.flatten
  have hSeen : p.scene.seen grouped frames = .ok each.flatten := by
    rw [seen, hEach]
    rfl
  have hRun (u : Remains) (r : Option String) :=
    run_animations_eq_ok_iff (p := { p with remains := u }) objects (r := r) hFirst hSeen
  refine ⟨ms, fun u mo => mem_motionsOf, fun u mo hMotion c => ?_, fun u r => ?_, fun hNames hSame => ?_⟩
  · rw [← (mem_motionsOf.mp hMotion).2, frames_rows]
  · rw [hRun]
    exact and_congr_left' forall_mem_flatten
  have hActors (u : Remains) (name : String) : name ∈ (ms u).map (·.actor) ↔ ∃ l ∈ each, Moved first l name :=
    mem_actors_iff.trans (recordedOf_ne_nil_iff hNames)
  have hLength : each.length = frames.length := (forall₂_of_mapM hEach).length_eq.symm.trans (length_shown _ _)
  refine ⟨fun u => (hRun u _).mpr ⟨?_, fun mo hMotion => ?_, rfl⟩, hActors, fun name hMoves => ?_⟩
  · exact forall_mem_flatten.mpr fun l hl x hx => (hSame l hl).mem_iff.mp (List.mem_map.mpr ⟨x, hx, rfl⟩)
  · obtain ⟨hName, start, hStart⟩ := start_of_moves hNames ((hActors u _).mp (List.mem_map.mpr ⟨mo, hMotion, rfl⟩))
    rw [recordedOf_eq hStart]
    exact (dropWhile_sublist _).length_le.trans (Nat.le_of_eq (length_standsOf hSame hNames hLength hName))
  · exact shows_motionsOf_iff hSame hNames hLength (nodup_frameNumbers p.scene) hMoves

end Steady

/-! ## Two boxes -/

section Boxes

def boxAt (x : Float) : Matrix Float :=
  ⟨⟨1.0, 0.0, 0.0, x⟩, ⟨0.0, 1.0, 0.0, 0.0⟩, ⟨0.0, 0.0, 1.0, 0.0⟩, ⟨0.0, 0.0, 0.0, 1.0⟩⟩

def box (name : String) : Object :=
  ⟨name, "EMPTY", .nothing, none, boxAt 0.0, .flag false, .flag true, 0, [], [], none, true, none⟩

/-- Two boxes, of which one moves at the first frame and the other at the second. -/
def boxes : Scene where
  objects := #[box "Early", box "Late"]
  instances := [⟨some 0, false, none, none, none, []⟩, ⟨some 1, false, none, none, none, []⟩]
  firstFrame := 1
  lastFrame := 2
  frames := [⟨1, [(0, boxAt 3.0)], none⟩, ⟨2, [(1, boxAt 3.0)], none⟩]

def outlook (s : Scene) (grouped : Bool) : Except Fault (List Sighting × List (List Sighting)) := do
  let first ← s.sightings grouped
  let each ← (s.shown (frameNumbers s)).mapM (·.sightings grouped)
  pure (first, each)

theorem animations_of_boxes : ∃ first each, ∃ ms : Remains → List Motion, boxes.sightings false = .ok first ∧
    (boxes.shown (frameNumbers boxes)).mapM (·.sightings false) = .ok each ∧
    (first.map Prod.fst).Nodup ∧ (∀ l ∈ each, (l.map Prod.fst).Perm (first.map Prod.fst)) ∧
    (∀ u, ((animations true false []).run { scene := boxes, remains := u }).1 = .ok (file boxes (ms u))) ∧
    (∀ u name, name ∈ (ms u).map (·.actor) ↔ name = "Early" ∨ name = "Late") ∧
    ∀ name ∈ ["Early", "Late"], (∀ u, ∀ mo ∈ ms u, mo.actor = name →
      ∀ x ∈ (frameNumbers boxes).zip each, ∀ m, (name, m) ∈ x.2 → mo.ShowsAt x.1 m) ↔ name = "Early" := by
  obtain ⟨⟨first, each⟩, hOutlook, hFacts⟩ := exists_of_toOption_map (x := boxes.outlook false) (b := true)
    (g := fun x => decide (x.1.map Prod.fst = ["Early", "Late"] ∧ (∀ l ∈ x.2, l.map Prod.fst = ["Early", "Late"]) ∧
      (∀ name ∈ ["Early", "Late"], ∃ l ∈ x.2, Moved x.1 l name) ∧
      ∀ name ∈ ["Early", "Late"], (∀ l ∈ x.2.head?, Moved x.1 l name) ↔ name = "Early")) (by decide +kernel)
  obtain ⟨hNames, hSame, hEver, hAtFirst⟩ := of_decide_eq_true hFacts
  obtain ⟨_, hFirst, hOutlook⟩ := bind_eq_ok.mp hOutlook
  obtain ⟨_, hEach, hOutlook⟩ := bind_eq_ok.mp hOutlook
  cases hOutlook
  have hNodup : (first.map Prod.fst).Nodup := by
    rw [hNames]
    decide
  have hPerm : ∀ l ∈ each, (l.map Prod.fst).Perm (first.map Prod.fst) := by
    intro l hl
    rw [hSame l hl, hNames]
  obtain ⟨ms, -, -, -, hSteady⟩ := animations_show_every_frame_iff (p := { scene := boxes }) [] hFirst hEach
  obtain ⟨hRun, hActors, hShows⟩ := hSteady hNodup hPerm
  refine ⟨first, each, ms, hFirst, hEach, hNodup, hPerm, hRun, fun u name => ?_, fun name hName => ?_⟩
  · rw [hActors u name]
    constructor
    · rintro ⟨l, -, start, m, hHere, -⟩
      have hName : name ∈ first.map Prod.fst := List.mem_map.mpr ⟨_, hHere, rfl⟩
      simpa [hNames] using hName
    · intro hName
      exact hEver name (by simpa using hName)
  · rw [hShows name (hEver name hName), hAtFirst name hName]
    exact and_iff_left (by decide)

end Boxes

end SceneExchange.Scene
