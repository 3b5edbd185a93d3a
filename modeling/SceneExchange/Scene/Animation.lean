import SceneExchange.Scene.Transform

/-!
# Animations

Objects that move over the frames of a scene are written as tracks of locations, rotations and
scales in single precision. There are two ways to find them: by comparing every instance with where
it stood before, or by comparing listed objects from frame to frame.

A track has a row for every frame. The first rows hold what was recorded; the others keep what their
memory held before.
-/

namespace SceneExchange.Scene

open SceneExchange.Geometry Number

inductive Channel where
  | translation
  | rotation
  | scale

/-- What a row holds that nothing is written to, in single precision. -/
abbrev Remains := String → Channel → Nat → Vec3

structure Playback where
  scene : Scene
  calls : Array Int := #[]
  log : Array LogLine := #[]
  remains : Remains := default
  deriving Inhabited

abbrev Playing := ExceptT Fault (StateM Playback)

namespace Playing

def lift {α : Type} (r : Except Fault α) : Playing α :=
  match r with
  | .ok a => pure a
  | .error f => throw f

def scene : Playing Scene := do pure (← get).scene

def showFrame (n : Int) : Playing Unit :=
  modify fun p => { p with scene := p.scene.showFrame n, calls := p.calls.push n }

end Playing

structure Key where
  frame : Int
  x : Float
  y : Float
  z : Float
  deriving Inhabited

namespace Key

def text (k : Key) : String :=
  "\x7b\"id\":" ++ toString k.frame ++ ",\"x\":" ++ six k.x ++ ",\"y\":" ++ six k.y ++
    ",\"z\":" ++ six k.z ++ "\x7d"

def ofRow (fill : Bool) (frame : Int) (v : Vec3) : Key :=
  let value (x : Float) := if fill && x.isNaN then 0.0 else x
  ⟨frame, value v.x, value v.y, value v.z⟩

def single (fill : Bool) (frame : Int) (v : Vec3) : Key :=
  ofRow fill frame ⟨toSingle v.x, toSingle v.y, toSingle v.z⟩

end Key

def degrees : Float := 360.0 / (2.0 * Float.ofBits 0x400921FB54442D18)

def rotationDegrees (q : Quaternion) : Vec3 :=
  let e := q.toEuler
  ⟨-degrees * e.x, -degrees * e.y, degrees * e.z⟩

def Channel.read : Channel → Placement → Vec3
  | .translation, p => p.location
  | .rotation, p => rotationDegrees p.rotation
  | .scale, p => p.scale

structure Timeline where
  name : String
  matrices : List (Matrix Float)
  deriving Inhabited

structure Motion where
  actor : String
  translations : List Key
  rotations : List Key
  scales : List Key
  deriving Inhabited

namespace Motion

def trackText (name : String) (keys : List Key) : String :=
  "\"" ++ name ++ "\":[" ++ ",".intercalate (keys.map Key.text) ++ "],"

def text (m : Motion) : String :=
  "\x7b\n\t\t\t\t\"actor\": \"" ++ m.actor ++ "\"," ++ trackText "trans" m.translations ++
    trackText "rot" m.rotations ++ trackText "scl" m.scales ++ "\"type\":\"transform\"\x7d"

end Motion

def frameCount (s : Scene) : Nat := (s.lastFrame - s.firstFrame + 1).toNat

def frameNumbers (s : Scene) : List Int :=
  (List.range (frameCount s)).map fun (n : Nat) => s.firstFrame + n

def singleFrame (n : Int) : Int := n.sign * keepDigits 24 n.natAbs

namespace Timeline

def key (t : Timeline) (fill : Bool) (remains : Remains) (c : Channel) (frame : Int) (row : Nat) : Key :=
  match t.matrices[row]? with
  | some m => .single fill (singleFrame frame) (c.read m.decompose)
  | none => .ofRow fill (singleFrame frame) (remains t.name c row)

def keys (t : Timeline) (fill : Bool) (remains : Remains) (frames : List Int) (c : Channel) : List Key :=
  frames.zipIdx.map fun (n, row) => t.key fill remains c n row

def rows (t : Timeline) (fill : Bool) (remains : Remains) (frames : List Int) : Motion where
  actor := t.name
  translations := t.keys fill remains frames .translation
  rotations := t.keys fill remains frames .rotation
  scales := t.keys fill remains frames .scale

def motion (t : Timeline) (fill : Bool) (remains : Remains) (frames : List Int) : Except Fault Motion :=
  if frames.length < t.matrices.length then .error (.axisOutOfBounds frames.length frames.length)
  else .ok (t.rows fill remains frames)

end Timeline

def animationText (rate : Datum) (motions : List Motion) : String :=
  "\x7b\n\t\"version\": \"0.1\",\n\t\"fps\": " ++ rate.display ++ ",\n\t\t\"animations\": [" ++
    ",".intercalate (motions.map Motion.text) ++ "\n\t]\n\x7d"

structure Track where
  start : Matrix Float
  moved : Option (List (Matrix Float)) := none
  deriving Inhabited

def Track.extend (t : Track) (m : Matrix Float) : Track :=
  match t.moved with
  | some ms => { t with moved := some (ms ++ [m]) }
  | none => if sameEntries t.start m then t else { t with moved := some [m] }

def movingName? (s : Scene) (grouped : Bool) (i : Instance) : Except Fault (Option String) := do
  let o ← s.demand i.object "name"
  if i.isInstance && grouped then pure none
  else
    let base ← if i.isInstance then s.instanceName i else pure o.name
    pure (some (← Name.legal base))

def noteStart (s : Scene) (grouped : Bool) (tracks : Table String Track) (i : Instance) :
    Except Fault (Table String Track) := do
  match ← s.movingName? grouped i with
  | none => pure tracks
  | some name => pure (tracks.insert name { start := ← s.localMatrix i })

def noteNext (s : Scene) (grouped : Bool) (tracks : Table String Track) (i : Instance) :
    Except Fault (Table String Track) := do
  match ← s.movingName? grouped i with
  | none => pure tracks
  | some name =>
    match tracks.get? name with
    | none => .error (.missingKey (.text name))
    | some t => pure (tracks.insert name (t.extend (← s.localMatrix i)))

def startTracks (s : Scene) (grouped : Bool) : Except Fault (Table String Track) :=
  s.instances.foldlM (s.noteStart grouped) .empty

def nextTracks (s : Scene) (grouped : Bool) (tracks : Table String Track) :
    Except Fault (Table String Track) :=
  s.instances.foldlM (s.noteNext grouped) tracks

def timelines (tracks : Table String Track) : List Timeline :=
  tracks.entries.filterMap fun (name, t) => t.moved.map fun ms => ⟨name, ms⟩

namespace Playing

def playTracks (grouped : Bool) (tracks : Table String Track) : List Int →
    Playing (Table String Track)
  | [] => pure tracks
  | n :: rest => do
    showFrame n
    let tracks ← lift ((← scene).nextTracks grouped tracks)
    playTracks grouped tracks rest

def instanceMotions (grouped : Bool) : Playing (List Motion) := do
  let p ← get
  let tracks ← lift (p.scene.startTracks grouped)
  let tracks ← playTracks grouped tracks (frameNumbers p.scene)
  lift ((timelines tracks).mapM fun t => t.motion true p.remains (frameNumbers p.scene))

def snapshot (objects : List (Nat × String)) : Playing (List (Matrix Float)) := do
  let s ← scene
  objects.mapM fun (i, _) => lift (s.writtenMatrix (s.object i) (s.object i).matrix)

def snapshots (objects : List (Nat × String)) : List Int → Playing (List (List (Matrix Float)))
  | [] => pure []
  | n :: rest => do
    showFrame n
    let first ← snapshot objects
    pure (first :: (← snapshots objects rest))

def changes : List (Matrix Float) → Bool
  | a :: b :: rest => !sameEntries b a || changes (b :: rest)
  | _ => false

def objectMotions (objects : List (Nat × String)) : Playing (List Motion) := do
  let { scene, remains, .. } ← get
  let frames := frameNumbers scene
  let shots ← snapshots objects frames
  let motions ← objects.zipIdx.mapM fun ((_, name), i) => do
    let matrices := shots.map fun shot => shot[i]?.getD default
    if changes matrices then
      modify fun p => { p with log := p.log.push ⟨.error, "writing obj:" ++ toString i⟩ }
      pure [← lift (Timeline.motion ⟨name, matrices⟩ false remains frames)]
    else pure []
  pure motions.flatten

def animations (byInstance grouped : Bool) (objects : List (Nat × String)) :
    Playing (Option String) := do
  let s ← scene
  let motions ← if byInstance then instanceMotions grouped else objectMotions objects
  showFrame s.currentFrame
  pure (if motions.isEmpty then none else some (animationText s.rate motions))

end Playing

end SceneExchange.Scene
