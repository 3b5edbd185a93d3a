import SceneExchange.Proofs.References
import SceneExchange.Workload.Graph
import Mathlib.Logic.Relation

/-!
# Documents whose references resolve

Every reference in the document of a material names one of its expressions or none, and the
expressions do not refer to each other in circles. All of them refer backward but the calls that
tie height textures together, each of which refers to the next one; read from the last of these
calls to the first, they refer backward too.

This holds of typed forests, and of materials that read no input of a group at the top of their
tree that an earlier run left behind.
-/

namespace SceneExchange.Material

open SceneExchange.Graph Compile Material.Frame References List Session Expression

def Entry.references : Entry → List Int
  | .channel _ source => source.expression.int?.toList
  | .element _ expression => [expression]
  | .text _ => []

def Entry.Numbered : Entry → Prop
  | .channel _ source => source.Numbered
  | _ => True

namespace Document

def body (d : Document) : List Expression := d.expressions.getD []

/-- A number that names an expression of the document, or none. -/
def Names (d : Document) (n : Int) : Prop := n = -1 ∨ 0 ≤ n ∧ n < d.body.length

def Refers (d : Document) (i k : Nat) : Prop := ∃ e, d.body[i]? = some e ∧ (k : Int) ∈ e.references

instance (d : Document) (n : Int) : Decidable (d.Names n) := by
  unfold Names
  infer_instance

structure Resolves (d : Document) : Prop where
  expressions : ∀ e ∈ d.body, ∀ n ∈ e.references, d.Names n
  entries : ∀ x ∈ d.entries, ∀ n ∈ x.references, d.Names n
  acyclic : ∀ i, ¬ Relation.TransGen d.Refers i i

end Document

def RefersDown (rank : Nat → Nat) (es : List Expression) : Prop :=
  ∀ i e, es[i]? = some e → ∀ n : Int, n ∈ e.references → n = -1 ∨ ∃ k : Nat, n = k ∧ k < es.length ∧ rank k < rank i

namespace Document

theorem rank_lt_of_refers {d : Document} {rank : Nat → Nat} (hDown : RefersDown rank d.body) {i k : Nat}
    (h : d.Refers i k) : rank k < rank i := by
  obtain ⟨e, hGet, hRefers⟩ := h
  obtain hNone | ⟨k', hk, -, hLt⟩ := hDown i e hGet k hRefers
  · omega
  · obtain rfl : k = k' := by omega
    exact hLt

theorem resolves_of_rank {d : Document} {rank : Nat → Nat} (hDown : RefersDown rank d.body)
    (hEntries : ∀ x ∈ d.entries, ∀ n ∈ x.references, d.Names n) : d.Resolves where
  expressions e he n hn := by
    obtain ⟨i, hi⟩ := mem_iff_getElem?.mp he
    obtain hNone | ⟨k, rfl, hk, -⟩ := hDown i e hi n hn
    · exact .inl hNone
    · exact .inr ⟨by omega, by omega⟩
  entries := hEntries
  acyclic i hCycle := by
    have hRank : ∀ {k}, Relation.TransGen d.Refers i k → rank k < rank i := by
      intro k h
      induction h with
      | single h => exact rank_lt_of_refers hDown h
      | tail _ h ih => exact Nat.lt_trans (rank_lt_of_refers hDown h) ih
    exact Nat.lt_irrefl _ (hRank hCycle)

end Document

section Heights

theorem length_heightChain (start : Int) (heights : List Int) :
    (heightChain start heights).length = heights.length := by
  fun_induction heightChain start heights with
  | case1 => rfl
  | case2 => rfl
  | case3 start e rest _ ih => rw [length_cons, length_cons, ih]

theorem heightChain_refers {start : Int} {heights : List Int} {j : Nat} {e : Expression}
    (hGet : (heightChain start heights)[j]? = some e) {n : Int} (hn : n ∈ e.references) :
    n ∈ heights ∨ n = start + j + 1 ∧ j + 1 < heights.length := by
  fun_induction heightChain start heights generalizing j with
  | case1 => cases hGet
  | case2 start h =>
    cases j with
    | zero =>
      cases hGet
      have hSame : n = h := by
        simpa [references, call, Part.references, directInput, Datum.int?] using hn
      exact .inl (mem_singleton.mpr hSame)
    | succ j => cases hGet
  | case3 start h rest hRest ih =>
    cases j with
    | zero =>
      cases hGet
      have hSame : n = h ∨ n = start + 1 := by
        simpa [references, call, Part.references, directInput, Datum.int?] using hn
      obtain rfl | rfl := hSame
      · exact .inl mem_cons_self
      · have := length_pos_iff.mpr hRest
        exact .inr ⟨by omega, by rw [length_cons]; omega⟩
    | succ j =>
      obtain hMem | ⟨rfl, hLt⟩ := ih hGet
      · exact .inl (mem_cons_of_mem h hMem)
      · exact .inr ⟨by omega, by rw [length_cons]; omega⟩

/-- The order in which expressions refer down: the calls from `first` to `last` are reversed. -/
def tieRank (first last i : Nat) : Nat :=
  if first ≤ i ∧ i < last then first + (last - 1 - i) else i

theorem tieRank_lt_of_lt {first last i k : Nat} (hLt : k < i)
    (hOutside : k < first ∨ i < first ∨ last ≤ i) : tieRank first last k < tieRank first last i := by
  unfold tieRank
  split <;> split <;> omega

theorem tieRank_next_lt {first last i : Nat} (hFirst : first ≤ i) (hLast : i + 1 < last) :
    tieRank first last (i + 1) < tieRank first last i := by
  unfold tieRank
  split <;> split <;> omega

end Heights

section Runs

variable {f : Forest} {c : Scope} {compiling : Prop} {s t : Session}

theorem run_ok {α : Type} {m : Compile α} {P : (frame f c compiling).Fact}
    {A : α → (frame f c compiling).Fact} (h : Agrees P m A) (hP : P.holds s)
    (hSound : Sound f c compiling s) {a : α} (hRun : outcome m f s = (.ok a, t)) :
    s.Grows c t ∧ Sound f c compiling t ∧ (A a).holds t := by
  have hJoint : Joint s A (.ok a, t) (.ok a, t) :=
    hRun ▸ h _ _ _ hP ⟨rfl, rfl, hSound⟩
  cases hJoint with
  | done grows related fact =>
    obtain ⟨rfl, -, hNext⟩ := related
    exact ⟨grows, hNext, fact⟩

structure Scope.Entered (c : Scope) (s : Session) (x : Material.Entry) : Prop where
  placed : ∀ n ∈ x.references, s.Placed n
  numbered : c.exact → x.Numbered
  channel : ∀ name source, x = .channel name source → c.Channel name

theorem entries_hold {xs : List Entry} (h : ((vocabulary f c compiling).entries xs).holds s) :
    ∀ x ∈ xs, c.Entered s x := by
  intro x hx
  cases h x hx with
  | channel hName hSource =>
    exact ⟨fun n hn => (hSource.1 n (mem_int?.mp hn)).1, hSource.2, by rintro _ _ ⟨⟩; exact hName⟩
  | element name hPosition =>
    refine ⟨fun n hn => ?_, fun _ => trivial, by simp⟩
    obtain rfl := mem_singleton.mp hn
    exact hPosition.1
  | text => exact ⟨forall_mem_nil _, fun _ => trivial, by simp⟩

end Runs

def Session.tied (s : Session) : Session :=
  { s with expressions := s.expressions ++ (heightChain s.expressions.size s.heightTextures).toArray }

/-- How a document comes about: from what was emitted for its surface, the calls that tie the height
textures together, and what was emitted after these. -/
inductive Written (f : Forest) (care : Care) : Document → Prop
  | nothing (name : String) : Written f care ⟨name, none, []⟩
  | surface {floor : Nat} {s t : Session} (name : String) {xs : List Entry}
      (sound : Sound f (.whole care 0 floor) False s) (heights : ∀ n ∈ s.heightTextures, s.Placed n)
      (grows : s.tied.Grows (.whole care s.tied.expressions.size floor) t)
      (rest : Sound f (.whole care s.tied.expressions.size floor) False t)
      (entries : ∀ x ∈ xs, (Scope.whole care s.tied.expressions.size floor).Entered t x) :
      Written f care ⟨name, some t.expressions.toList, xs⟩

section Assembly

variable {f : Forest} {care : Care} {floor : Nat} {s t : Session}

theorem refersDown_of_grows {c : Scope} {first : Nat} (hBase : c.base = s.expressions.size)
    (hDown : RefersDown (tieRank first s.expressions.size) s.expressions.toList) (hGrows : s.Grows c t)
    (hSound : Sound f c False t) : RefersDown (tieRank first s.expressions.size) t.expressions.toList := by
  intro i e hGet n hn
  have hLength : i < t.expressions.size := by simpa using List.getElem?_eq_some_iff.mp hGet |>.1
  have hSize := hGrows.size_le
  rw [Array.length_toList]
  by_cases hOld : i < s.expressions.size
  · obtain ⟨more, hMore⟩ := hGrows.expressions
    rw [← hMore, getElem?_append_left (by simpa using hOld)] at hGet
    obtain hNone | ⟨k, hk, hLt, hRank⟩ := hDown i e hGet n hn
    · exact .inl hNone
    · rw [Array.length_toList] at hLt
      exact .inr ⟨k, hk, by omega, hRank⟩
  · rw [Array.getElem?_toList] at hGet
    obtain ⟨hNone | ⟨hNat, hLt⟩, -⟩ := hSound.expressions i e (by omega) hGet n hn
    · exact .inl hNone
    · exact .inr ⟨n.toNat, by omega, by omega, tieRank_lt_of_lt (by omega) (by omega)⟩

/-- After the chain of the height textures was emitted, expressions refer down. -/
theorem refersDown_tied (hSound : Sound f (.whole care 0 floor) False s)
    (hHeights : ∀ n ∈ s.heightTextures, s.Placed n) :
    RefersDown (tieRank s.expressions.size s.tied.expressions.size) s.tied.expressions.toList := by
  intro i e hGet n hn
  have hSize : s.tied.expressions.size = s.expressions.size + s.heightTextures.length := by
    simp [tied, length_heightChain]
  rw [Array.length_toList]
  rw [Array.getElem?_toList, tied, Array.getElem?_append] at hGet
  split at hGet
  · obtain ⟨hNone | ⟨hNat, hLt⟩, -⟩ := hSound.expressions i e (Nat.zero_le i) hGet n hn
    · exact .inl hNone
    · exact .inr ⟨n.toNat, by omega, by omega, tieRank_lt_of_lt (by omega) (by omega)⟩
  · rw [getElem?_toArray] at hGet
    have hIndex := (List.getElem?_eq_some_iff.mp hGet).1
    rw [length_heightChain] at hIndex
    obtain hMem | ⟨hNext, hLt⟩ := heightChain_refers hGet hn
    · obtain hNone | ⟨hNat, hLt⟩ := hHeights n hMem
      · exact .inl hNone
      · exact .inr ⟨n.toNat, by omega, by omega, tieRank_lt_of_lt (by omega) (by omega)⟩
    · exact .inr ⟨i + 1, by omega, by omega, tieRank_next_lt (by omega) (by omega)⟩

theorem Written.resolves {d : Document} (h : Written f care d) : d.Resolves := by
  cases h with
  | nothing name =>
    have hDown : RefersDown id [] := fun i e hGet => nomatch hGet
    exact Document.resolves_of_rank hDown (forall_mem_nil _)
  | surface name sound heights grows rest entries =>
    refine Document.resolves_of_rank (refersDown_of_grows rfl (refersDown_tied sound heights) grows rest)
      fun x hx n hn => ?_
    simpa [Document.Names, Document.body, Session.Placed] using (entries x hx).placed n hn

theorem written_assemble {m : Compile (List Entry)}
    (h : Agrees (.pure True) m (emission f (.whole care 0 floor) False).entries) {name : String} {d : Document}
    (hRun : outcome (do assemble name (← m)) f s = (.ok d, t)) (hSound : Sound f (.whole care 0 floor) False s)
    (hEmpty : s.expressions = #[]) : Written f care d := by
  obtain ⟨xs, u, hEntries, hAssemble⟩ := outcome_bind_eq_ok hRun
  cases hAssemble
  obtain ⟨hGrows, hNext, hHold⟩ := run_ok h trivial hSound hEntries
  let start : Session := { s with heightTextures := [] }
  have hSize : start.tied.expressions.size = 0 := by simp [start, tied, heightChain, hEmpty]
  refine .surface (s := start) name (hSound.retabled rfl False.elim) (forall_mem_nil _) ?_ ?_ ?_
  · rw [hSize]
    exact ⟨by simp [start, tied, heightChain, hEmpty], hGrows.bundles, hGrows.plain, hGrows.groupInputs⟩
  · rwa [hSize]
  · rw [hSize]
    exact entries_hold hHold

end Assembly

section Surface

variable {f : Forest} {care : Care} {floor : Nat} {s t : Session}
variable {o : Operand} {m : Definition}

/-- A surface that was compiled, with the height textures to be tied to it. -/
structure Compiled (f : Forest) (c : Scope) (s : Session) (o : Operand) : Prop where
  sound : Sound f c False s
  heights : ∀ n ∈ s.heightTextures, s.Placed n
  fine : o.Fine c s
  shading : o.Shading c s

theorem grows_tied {c : Scope} (s : Session) : s.Grows c s.tied where
  expressions := by simp [tied]
  bundles := Nat.le_refl _
  plain _ _ h := h
  groupInputs := rfl

theorem fine_whole {base : Nat} (h : o.Fine (.whole care 0 floor) s) : o.Fine (.whole care base floor) s := by
  cases o with
  | none => trivial
  | index n => exact ⟨h.1, .inr (.inr trivial)⟩
  | bundle i => exact h

theorem sound_tied (h : Sound f (.whole care 0 floor) False s) :
    Sound f (.whole care s.tied.expressions.size floor) False s.tied where
  base_le := Nat.le_refl _
  floor_le := h.floor_le
  expressions i e hi hGet := by
    rw [Array.getElem?_eq_none hi] at hGet
    cases hGet
  numbered _ i e hi hGet := by
    rw [Array.getElem?_eq_none hi] at hGet
    cases hGet
  bundles i hi e he := by
    obtain ⟨hOutput, hFine, hPosition⟩ := (h.bundles i hi e he).grows (grows_tied s)
    exact ⟨hOutput, fun hName => fine_whole (hFine hName), hPosition⟩
  tables := False.elim

theorem Compiled.tied (h : Compiled f (.whole care 0 floor) s o) {base : Nat} :
    (((emission f (.whole care base floor) False).value o).and
      ((emission f (.whole care base floor) False).shader o)).holds s.tied := by
  refine ⟨fine_whole (h.fine.grows (grows_tied s)), ?_⟩
  have hShading := h.shading.grows (grows_tied s)
  cases o with
  | bundle i => exact hShading
  | none => trivial
  | index n => trivial

theorem tieHeights_ok (h : Compiled f (.whole care 0 floor) s o) {x : Unit}
    (hRun : outcome (tieHeights o) f s = (.ok x, t)) :
    s.tied.Grows (.whole care s.tied.expressions.size floor) t ∧
      Sound f (.whole care s.tied.expressions.size floor) False t := by
  let E := emission f (.whole care s.tied.expressions.size floor) False
  obtain ⟨start, u, hHeights, hTie⟩ := outcome_bind_eq_ok hRun
  cases hHeights
  have hSound := sound_tied h.sound
  split at hTie
  · cases hTie
    exact ⟨.refl _, hSound⟩
  · rename_i start hStart
    split at hStart
    · cases hStart
    · rename_i hChain
      cases hStart
      have hPlaced : s.tied.Placed s.expressions.size := by
        have hPos := length_pos_iff.mpr (mt List.isEmpty_iff.mpr hChain)
        refine .inr ⟨by omega, ?_⟩
        simp only [tied, Array.size_append, size_toArray]
        omega
      obtain ⟨hGrows, hNext, -⟩ := run_ok (P := ((E.value o).and (E.shader o)).and (E.position s.expressions.size))
        (E.tieColor trivial) ⟨h.tied, hPlaced, .inr (.inr trivial)⟩ hSound hTie
      exact ⟨hGrows, hNext⟩

theorem written_surface (h : Compiled f (.whole care 0 floor) s o) {name : String} {alwaysTwoSided : Bool}
    {d : Document} (hRun : outcome (surfaceDocument m name o alwaysTwoSided) f s = (.ok d, t)) :
    Written f care d := by
  let E := emission f (.whole care s.tied.expressions.size floor) False
  obtain ⟨x, u, hTie, hRest⟩ := outcome_bind_eq_ok hRun
  obtain ⟨xs, v, hEntries, hAssemble⟩ := outcome_bind_eq_ok hRest
  cases hAssemble
  obtain ⟨hTied, hSound⟩ := tieHeights_ok h hTie
  let P := (E.value o).and (E.shader o)
  obtain ⟨hGrows, hNext, hHold⟩ := run_ok
    (E.surfaceEntries trivial fun _ _ _ => aside_decideSides.agree) (P.stable hTied h.tied) hSound hEntries
  exact .surface name h.sound h.heights (hTied.trans hGrows) hNext (entries_hold hHold)

theorem compiled_volume (hSound : Sound f (.whole care 0 floor) False s)
    (hRun : outcome (volumeOperand m) f s = (.ok o, t)) : Compiled f (.whole care 0 floor) t o := by
  obtain ⟨x, u, hWrite, hRest⟩ := outcome_bind_eq_ok hRun
  obtain ⟨c, v, hClear, hPure⟩ := outcome_bind_eq_ok hRest
  cases hPure
  obtain ⟨-, hLogged, -⟩ := run_ok (P := .pure True) aside_write.agree trivial hSound hWrite
  obtain ⟨-, hNext, hFine, hShading⟩ := run_ok (P := .pure True)
    (emission f (.whole care 0 floor) False).clearShader trivial hLogged hClear
  have hGrows {w : Session} : w.Grows (.whole care 0 floor) { w with heightTextures := [] } :=
    grows_of_eq rfl
  exact ⟨hNext.retabled rfl False.elim, forall_mem_nil _, hFine.grows hGrows, hShading.grows hGrows⟩

/-- No input of a group is read at the top of a tree that an earlier run left in the session. -/
def Session.Unread (s : Session) (f : Forest) (tree : Nat) : Prop :=
  ∀ out : SocketRef, out.tree = tree → (f.node (nodeOf out)).kind = "GROUP_INPUT" →
    s.groupInputs.get? (f.outputSocket out).identifier = none

/-- A session in which a material with the given tree was started and nothing was compiled. -/
structure Started (f : Forest) (c : Scope) (tree : Nat) (s : Session) : Prop where
  sound : Sound f c False s
  stations : s.stations = []
  unread : s.Unread f tree

variable (hTyped : f.Typed) (hAllows : Allows care f)
include hTyped hAllows

theorem compiled_anew {field : SocketRef} (h : Started f (.whole care 0 floor) field.tree s)
    (hKind : (f.inputSocket field).kind = .shader) (hRun : outcome (compileField field) f s.anew = (.ok o, t)) :
    Compiled f (.whole care 0 floor) t o := by
  let H := compilation f (.whole care 0 floor) hTyped hAllows
  have hEmpty : Tables f (.whole care 0 floor) s.anew :=
    ⟨forall_mem_nil _, forall_mem_nil _, h.stations ▸ forall_mem_nil _, forall_mem_nil _⟩
  have hSound : Sound f (.whole care 0 floor) True s.anew :=
    h.sound.retabled rfl fun _ => hEmpty
  have hInside : (H.inside (nodeOf field)).holds s.anew := by
    intro out hTree hInput o linked hGet
    cases (h.unread out hTree hInput).symm.trans hGet
  obtain ⟨-, hNext, hFine, hShader⟩ := run_ok H.compileField hInside hSound hRun
  exact ⟨hNext.retabled rfl False.elim, (hNext.tables trivial).heights, hFine, hShader hKind⟩

theorem compiled_surface {output : NodeRef} (hOutput : f.outputNode? m.tree = some output)
    (h : Started f (.whole care 0 floor) m.tree s)
    (hRun : outcome (surfaceOperand m output) f s = (.ok o, t)) : Compiled f (.whole care 0 floor) t o := by
  obtain ⟨surface, volume, hSurface, -, hRun⟩ := surfaceOperand_ok hRun
  obtain ⟨hTree, hKind⟩ := hTyped.surface hOutput hSurface
  split at hRun
  · exact compiled_volume h.sound hRun
  · rw [← hTree] at h
    exact compiled_anew hTyped hAllows h hKind hRun

theorem written_nodeDocument {alwaysTwoSided : Bool} {d : Document}
    (hRun : outcome (nodeDocument m alwaysTwoSided) f s = (.ok d, t))
    (hSound : Sound f (.whole care 0 floor) False s) (hUnread : s.Unread f m.tree) : Written f care d := by
  obtain ⟨name, -, ⟨-, rfl⟩ | ⟨output, o, u, hOutput, hOperand, hDocument⟩⟩ := nodeDocument_ok hRun
  · exact .nothing name
  · have hStarted : Started f (.whole care 0 floor) m.tree (s.collecting m) :=
      ⟨hSound.retabled rfl False.elim, rfl, hUnread⟩
    exact written_surface (compiled_surface hTyped hAllows hOutput hStarted hOperand) hDocument

end Surface

theorem sound_started (f : Forest) (care : Care) (s : Session) (owned : Bool) :
    ∃ floor t, outcome (startMaterial owned) f s = (.ok (), t) ∧ Sound f (.whole care 0 floor) False t ∧
      t.expressions = #[] ∧ t.groupInputs = s.groupInputs := by
  refine ⟨_, _, rfl, ⟨Nat.zero_le _, Nat.le_refl _, ?_, ?_, ?_, False.elim⟩, rfl, rfl⟩
  · intro i e _ hGet
    cases hGet
  · intro _ i e _ hGet
    cases hGet
  · rintro i (hi | hi) e he
    · rw [Array.getElem?_eq_none hi] at he
      cases he
    · cases hi

theorem written_document {f : Forest} {care : Care} (hTyped : f.Typed) (hAllows : Allows care f)
    {m : Option Definition} {s t : Session} (hUnread : ∀ x ∈ m, s.Unread f x.tree) {owned alwaysTwoSided : Bool}
    {d : Document} (hRun : outcome (document m owned alwaysTwoSided) f s = (.ok d, t)) : Written f care d := by
  obtain ⟨floor, u, hStart, hSound, hEmpty, hInputs⟩ := sound_started f care s owned
  obtain ⟨_, v, hStart', hRun⟩ := outcome_bind_eq_ok hRun
  obtain ⟨-, rfl⟩ := Prod.mk.inj (hStart.symm.trans hStart')
  split at hRun
  · obtain ⟨_, _, ⟨⟩, hRun⟩ := outcome_bind_eq_ok hRun
    exact written_assemble (emission f _ False).defaultEntries hRun (hSound.of_footing rfl) hEmpty
  · split at hRun
    · obtain ⟨_, _, ⟨⟩, hRun⟩ := outcome_bind_eq_ok hRun
      refine written_nodeDocument hTyped hAllows hRun (hSound.of_footing rfl) fun out hTree hKind => ?_
      exact hInputs ▸ hUnread _ rfl out hTree hKind
    · obtain ⟨_, _, ⟨⟩, hRun⟩ := outcome_bind_eq_ok hRun
      obtain ⟨name, -, hRun⟩ := outcome_lift_bind hRun
      exact written_assemble (emission f _ False).basicEntries hRun (hSound.of_footing rfl) hEmpty

theorem document_resolves {f : Forest} (hTyped : f.Typed) {m : Option Definition} {s t : Session}
    (hUnread : ∀ x ∈ m, s.Unread f x.tree) {owned alwaysTwoSided : Bool} {d : Document}
    (hRun : outcome (document m owned alwaysTwoSided) f s = (.ok d, t)) : d.Resolves :=
  (written_document hTyped (show Allows ⟨False, False⟩ f from ⟨False.elim, False.elim⟩) hUnread hRun).resolves

section Samples

open SceneExchange.Workload

def nodeMaterial (tree : Nat) : Definition where
  name := "Sample"
  useNodes := true
  tree := tree
  blendMethod := .text "OPAQUE"
  alphaThreshold := .real 0.5
  backfaceCulling := .flag false
  diffuse := .tuple []
  roughness := .null
  metallic := .null
  specular := .null

def groupNode (inputs : List Socket) (tree : Nat) : Node :=
  { node "GROUP" inputs [shader "Shader"] with tree := .given tree }

/-- A node that reads a height from a texture of its own and its normal from another node. -/
def reliefNodes (image : Nat) : List Node :=
  [withSettings [("invert", .flag false)] (node "BUMP"
      [half "Strength", half "Distance", half "Height", computed "Normal"] [computed "Normal"]),
    { node "TEX_IMAGE" [computed "Vector"] [sand "Color", half "Alpha"] with image := .given image }]

def reliefForest : Forest where
  trees := #[tree (outputNode :: groupNode [computed "Normal"] 1 :: (reliefNodes 0 ++ reliefNodes 1))
      [⟨1, 0, 0, 0⟩, ⟨2, 0, 1, 0⟩, ⟨3, 0, 2, 2⟩, ⟨4, 0, 2, 3⟩, ⟨5, 0, 4, 2⟩],
    tree [withSettings [("is_active_output", .flag true)] (node "GROUP_OUTPUT" [shader "Shader"] []),
        node "GROUP_INPUT" [] [computed "Normal"],
        node "BSDF_DIFFUSE" [sand "Color", half "Roughness", computed "Normal"] [shader "BSDF"]]
      [⟨2, 0, 0, 0⟩, ⟨1, 0, 2, 2⟩]]

def reliefSession : Session :=
  { images := #[⟨"Coarse", "PNG", 4, false, none, "", id⟩, ⟨"Fine", "PNG", 4, false, none, "", id⟩] }

theorem exists_of_map {α β ε : Type} {x : Except ε α × Session} {g : α → β} {b : β}
    (h : x.1.toOption.map g = some b) : ∃ a t, x = (.ok a, t) ∧ g a = b := by
  obtain ⟨r, t⟩ := x
  cases r with
  | error e => cases h
  | ok a => exact ⟨a, t, rfl, Option.some.inj h⟩

theorem document_resolves_relief : reliefForest.Typed ∧ reliefSession.Unread reliefForest 0 ∧
    ∃ d t, outcome (document (some (nodeMaterial 0)) true false) reliefForest reliefSession = (.ok d, t) ∧
      d.body.length = 20 ∧ d.Resolves := by
  have hTyped : reliefForest.Typed := by decide +kernel
  have hUnread : reliefSession.Unread reliefForest 0 := fun _ _ _ => rfl
  obtain ⟨d, t, hRun, hLength⟩ := exists_of_map (g := fun d => d.body.length) (b := 20)
    (x := outcome (document (some (nodeMaterial 0)) true false) reliefForest reliefSession) (by decide +kernel)
  refine ⟨hTyped, hUnread, d, t, hRun, hLength, document_resolves hTyped ?_ hRun⟩
  rintro m ⟨⟩
  exact hUnread

/-- A group without an output, and a tree that reads an input of a group at its top. -/
def unfinishedForest : Forest where
  trees := #[tree [outputNode, groupNode [shader "S"] 2] [⟨1, 0, 0, 0⟩],
    tree [outputNode, node "GROUP_INPUT" [] [shader "S"]] [⟨1, 0, 0, 0⟩],
    tree [node "GROUP_INPUT" [] [shader "S"]] []]

def unfinishedSession : Session :=
  (outcome (document (some (nodeMaterial 0)) true false) unfinishedForest {}).2

/-- What an earlier material left of its group is out of place in a later one. -/
theorem document_dangles : unfinishedForest.Typed ∧
    ∃ d t, outcome (document (some (nodeMaterial 1)) true false) unfinishedForest unfinishedSession =
      (.ok d, t) ∧ ¬d.Resolves := by
  obtain ⟨d, t, hRun, hEntries⟩ := exists_of_map
    (x := outcome (document (some (nodeMaterial 1)) true false) unfinishedForest unfinishedSession)
    (g := fun d => decide (∀ x ∈ d.entries, ∀ n ∈ x.references, d.Names n)) (b := false) (by decide +kernel)
  exact ⟨by decide +kernel, d, t, hRun, fun hResolves => of_decide_eq_false hEntries hResolves.entries⟩

end Samples

end SceneExchange.Material
