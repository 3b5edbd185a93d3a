import Mathlib.Algebra.Group.Nat.Defs
import SceneExchange.Mesh.Reader

/-!
# Mesh files are read back

What a step of the reader does with bytes that the writer made is one statement, `Reads`: it
consumes exactly these bytes, whatever follows them, and changes what is kept by a known function.
The statement composes along the steps, so the reader of a file is followed section by section.
-/

namespace SceneExchange.Mesh

open Bytes Number List Raw Reading

/-- From any cursor that has consumed `n` bytes, kept `mesh` and stands before `bytes`, the step
answers `a`, stands behind them and has kept `mesh'`. -/
def Reads {α : Type} (n : Nat) (mesh : Loaded) (m : Reading α) (bytes : List UInt8) (mesh' : Loaded) (a : α) : Prop :=
  ∀ rest : List UInt8, m.run ⟨bytes ++ rest, n, mesh⟩ = (.ok a, ⟨rest, n + bytes.length, mesh'⟩)

namespace Reads

variable {α β : Type} {n : Nat} {mesh mesh' mesh'' : Loaded}
variable {m : Reading α} {k : α → Reading β} {bytes : List UInt8} {a : α} {b : β}

theorem pure (a : α) : Reads n mesh (Pure.pure a) [] mesh a := by
  intro rest
  rfl

theorem bind {bytes' : List UInt8} (h : Reads n mesh m bytes mesh' a)
    (h' : Reads (n + bytes.length) mesh' (k a) bytes' mesh'' b) :
    Reads n mesh (m >>= k) (bytes ++ bytes') mesh'' b := by
  intro rest
  have first := h (bytes' ++ rest)
  rw [← append_assoc] at first
  rw [run_bind_of_ok first, length_append, ← Nat.add_assoc]
  exact h' rest

theorem andThen (h : Reads n mesh m [] mesh' a) (h' : Reads n mesh' (k a) bytes mesh'' b) :
    Reads n mesh (m >>= k) bytes mesh'' b := h.bind h'

theorem closing (h : Reads n mesh m bytes mesh' a) (h' : Reads (n + bytes.length) mesh' (k a) [] mesh'' b) :
    Reads n mesh (m >>= k) bytes mesh'' b := by
  have h'' := h.bind h'
  rwa [append_nil] at h''

theorem keep (f : Loaded → Loaded) : Reads n mesh (keep f) [] (f mesh) () := by
  intro rest
  rfl

theorem take (bytes : List UInt8) : Reads n mesh (Reading.take bytes.length) bytes mesh bytes := by
  intro rest
  change (Except.ok ((bytes ++ rest).take bytes.length),
    (⟨(bytes ++ rest).drop bytes.length, n + ((bytes ++ rest).take bytes.length).length, mesh⟩ : Cursor)) = _
  rw [take_left, drop_left]

theorem expect {condition : Bool} (h : condition = true) : Reads n mesh (expect condition) [] mesh () := by
  subst h
  exact Reads.pure ()

theorem expectBytes (bytes : List UInt8) : Reads n mesh (Reading.expectBytes bytes) bytes mesh () := by
  unfold Reading.expectBytes
  exact (Reads.take bytes).closing (Reads.expect (beq_self_eq_true bytes))

theorem exactly {k : Nat} (h : bytes.length = k) : Reads n mesh (Reading.exactly k) bytes mesh bytes := by
  subst h
  unfold Reading.exactly
  refine (Reads.take bytes).closing ?_
  rw [if_pos rfl]
  exact Reads.pure bytes

/-- Looking at the cursor changes nothing; what it still has to read is not used by any step. -/
theorem look {k : Cursor → Reading β} (h : ∀ rest, Reads n mesh (k ⟨rest, n, mesh⟩) bytes mesh' b) :
    Reads n mesh (get >>= k) bytes mesh' b := by
  intro rest
  exact h (bytes ++ rest) rest

end Reads

@[simp] theorem length_size (k : Nat) : (size k).length = 4 := little_length 4 k

theorem ofLittle_size {k : Nat} (h : k < 2 ^ 32) : ofLittle (size k) = k := by
  rw [size, ofLittle_little]
  exact Nat.mod_eq_of_lt h

theorem toWords_flatMap (ws : List UInt32) : toWords (ws.flatMap word) = ws := by
  induction ws with
  | nil => rfl
  | cons w ws ih =>
    have hWord : (ofLittle (word w)).toUInt32 = w := by
      rw [word, ofLittle_little, Nat.mod_eq_of_lt w.toNat_lt]
      exact UInt32.ofNat_toNat
    rw [flatMap_cons]
    change (ofLittle (word w)).toUInt32 :: toWords (ws.flatMap word) = w :: ws
    rw [hWord, ih]

@[simp] theorem length_flatMap_word (ws : List UInt32) : (ws.flatMap word).length = 4 * ws.length := by
  induction ws with
  | nil => rfl
  | cons w ws ih =>
    rw [flatMap_cons, length_append, ih, word, little_length, length_cons]
    omega

namespace Reads

variable {n : Nat} {mesh : Loaded}

theorem number {k : Nat} (h : k < 2 ^ 32) : Reads n mesh Reading.number (size k) mesh k := by
  unfold Reading.number
  refine (Reads.exactly (length_size k)).closing ?_
  rw [ofLittle_size h]
  exact Reads.pure k

theorem twoNumbers {k l : Nat} (hk : k < 2 ^ 32) (hl : l < 2 ^ 32) :
    Reads n mesh Reading.twoNumbers (size k ++ size l) mesh (k, l) := by
  have hLength : (size k ++ size l).length = 8 := by simp
  unfold Reading.twoNumbers
  refine (Reads.exactly hLength).closing ?_
  rw [take_left' (length_size k), drop_left' (length_size k), ofLittle_size hk, ofLittle_size hl]
  exact Reads.pure (k, l)

theorem text {bytes : List UInt8} (h : bytes.length < 2 ^ 32) :
    Reads n mesh Reading.text (size bytes.length ++ bytes) mesh bytes := by
  unfold Reading.text
  exact (Reads.number h).bind (Reads.take bytes)

theorem expectText {s : String} (h : (ofText s ++ [0]).length < 2 ^ 32) :
    Reads n mesh (Reading.expectText s) (string s) mesh () := by
  unfold Reading.expectText
  exact (Reads.text h).closing (Reads.expect (beq_self_eq_true _))

theorem words {ws : List UInt32} {k : Nat} (h : ws.length = k) :
    Reads n mesh (Reading.words k) (ws.flatMap word) mesh ws := by
  subst h
  have hTake : Reads n mesh _ _ _ _ := Reads.take (ws.flatMap word)
  rw [length_flatMap_word] at hTake
  unfold Reading.words
  refine hTake.closing ?_
  rw [wordsOf, length_flatMap_word, if_pos (Nat.mul_mod_right 4 _), toWords_flatMap]
  exact Reads.pure ws

end Reads

/-- The bits of a layer as they are read back: doubles, the second of each pair negated. -/
def readUvs (layer : List Uv) : List UInt64 := layer.flatMap fun p => [p.u.widen, p.v.widenNegated]

/-- What is kept of a raw mesh that was read back. -/
def Raw.loaded (m : Raw) : Loaded where
  materials := some m.materials
  smoothing := some m.smoothing
  positions := some (m.positions.flatMap fun t => [t.x, t.y, t.z])
  indices := some m.indices
  normals := some (m.normals.flatMap fun t => [t.x, t.y, t.z])
  uvs := some (m.uvs.map readUvs ++ List.replicate (maxLayers - m.uvs.length) [])
  colors := some m.colors

theorem flatMap_uv_bytes (layer : List Uv) :
    layer.flatMap Uv.bytes = (layer.flatMap fun p => [p.u.bits, p.v.bits]).flatMap word := by
  rw [flatMap_assoc]
  rfl

theorem flatMap_triple_bytes (ts : List Triple) :
    ts.flatMap Triple.bytes = (ts.flatMap fun t => [t.x.bits, t.y.bits, t.z.bits]).flatMap word := by
  rw [flatMap_assoc]
  rfl

theorem map_single_flatMap (ts : List Triple) :
    (ts.flatMap fun t => [t.x.bits, t.y.bits, t.z.bits]).map Single.mk = ts.flatMap fun t => [t.x, t.y, t.z] := by
  simp [map_flatMap]

theorem negateSecond_flatMap (layer : List Uv) :
    negateSecond (layer.flatMap fun p => [p.u.bits, p.v.bits]) = some (readUvs layer) := by
  induction layer with
  | nil => rfl
  | cons p layer ih =>
    change (negateSecond (layer.flatMap fun p => [p.u.bits, p.v.bits])).map _ = _
    rw [ih]
    rfl

theorem tintsOf_flatMap (tints : List Tint) : tintsOf (tints.flatMap Tint.bytes) = some tints := by
  induction tints with
  | nil => rfl
  | cons t tints ih =>
    change (tintsOf (tints.flatMap Tint.bytes)).map _ = _
    rw [ih]
    rfl

namespace Reads

variable {n : Nat} {mesh : Loaded}

theorem uvLayer {layer : List Uv} (h : layer.length < 2 ^ 32) :
    Reads n mesh Reading.uvLayer (counted Uv.bytes layer) mesh (readUvs layer) := by
  have hLength : (layer.flatMap fun p => [p.u.bits, p.v.bits]).length = 2 * layer.length := by
    simp [length_flatMap, List.map_const', Nat.mul_comm]
  rw [counted, flatMap_uv_bytes]
  unfold Reading.uvLayer
  refine (Reads.number h).bind ((Reads.words hLength).closing ?_)
  rw [negateSecond_flatMap]
  exact Reads.pure _

theorem layers {ls : List (List Uv)} {k : Nat} (hk : ls.length = k) (h : ∀ l ∈ ls, l.length < 2 ^ 32) :
    Reads n mesh (layers k) (ls.flatMap (counted Uv.bytes)) mesh (ls.map readUvs) := by
  subst hk
  induction ls generalizing n with
  | nil => exact Reads.pure []
  | cons l ls ih =>
    rw [flatMap_cons, length_cons, layers]
    refine (Reads.uvLayer (h l mem_cons_self)).bind ?_
    exact (ih fun l' hl => h l' (mem_cons_of_mem l hl)).closing (Reads.pure _)

end Reads

/-- A raw mesh whose lists fit each other: a smoothing group for each triangle, a normal for each
corner, and no more layers than there is room for. -/
structure Raw.Fitting (m : Raw) : Prop where
  smoothing : m.smoothing.length = m.materials.length
  normals : m.normals.length = m.indices.length
  layers : m.uvs.length ≤ maxLayers

def Raw.allLayers (m : Raw) : List (List Uv) :=
  m.uvs ++ List.replicate (maxLayers - m.uvs.length) []

/-- The raw mesh behind its version, section by section. -/
def Raw.sections (m : Raw) : List UInt8 :=
  counted word m.materials ++ (counted word m.smoothing ++ (counted Triple.bytes m.positions ++
    (counted word m.indices ++ (size 0 ++ (size 0 ++ (counted Triple.bytes m.normals ++
      (m.allLayers.flatMap (counted Uv.bytes) ++ (counted Tint.bytes m.colors ++ size 0))))))))

theorem flatMap_empty_layers (k : Nat) : (List.replicate k []).flatMap (counted Uv.bytes) = zeros (4 * k) := by
  induction k with
  | zero => rfl
  | succ k ih =>
    rw [replicate_succ, flatMap_cons, ih, zeros, zeros, Nat.mul_succ, Nat.add_comm, ← replicate_append_replicate]
    rfl

theorem Raw.bytes_eq (m : Raw) : m.bytes = [1, 0, 0, 0] ++ ([0, 0, 0, 0] ++ m.sections) := by
  simp only [bytes, sections, allLayers, flatMap_append, flatMap_empty_layers, append_assoc]
  rfl

theorem Raw.map_allLayers (m : Raw) :
    m.allLayers.map readUvs = m.uvs.map readUvs ++ List.replicate (maxLayers - m.uvs.length) [] := by
  simp [allLayers, readUvs]

theorem length_le_counted {α : Type} {f : α → List UInt8} (hf : ∀ a, 0 < (f a).length) (xs : List α) :
    xs.length ≤ (counted f xs).length := by
  induction xs with
  | nil => exact Nat.zero_le _
  | cons a xs ih =>
    have := hf a
    simp only [counted, flatMap_cons, length_append, length_cons, length_size] at ih ⊢
    omega

theorem counted_le_flatMap {l : List Uv} {ls : List (List Uv)} (h : l ∈ ls) :
    (counted Uv.bytes l).length ≤ (ls.flatMap (counted Uv.bytes)).length := by
  obtain ⟨before, after, rfl⟩ := append_of_mem h
  simp only [flatMap_append, flatMap_cons, length_append]
  omega

theorem Raw.counts_lt {m : Raw} (h : m.sections.length < 2 ^ 32) :
    m.materials.length < 2 ^ 32 ∧ m.smoothing.length < 2 ^ 32 ∧ m.positions.length < 2 ^ 32 ∧
      m.indices.length < 2 ^ 32 ∧ m.normals.length < 2 ^ 32 ∧ (∀ l ∈ m.allLayers, l.length < 2 ^ 32) ∧
      m.colors.length < 2 ^ 32 := by
  have hWord : ∀ w, 0 < (word w).length := by intro w; simp [word]
  have hTriple : ∀ t, 0 < (Triple.bytes t).length := by intro t; simp [Triple.bytes, word]
  have hUv : ∀ p, 0 < (Uv.bytes p).length := by intro p; simp [Uv.bytes, word]
  have hTint : ∀ t, 0 < (Tint.bytes t).length := by intro t; simp [Tint.bytes]
  have hMaterials := length_le_counted hWord m.materials
  have hSmoothing := length_le_counted hWord m.smoothing
  have hPositions := length_le_counted hTriple m.positions
  have hIndices := length_le_counted hWord m.indices
  have hNormals := length_le_counted hTriple m.normals
  have hColors := length_le_counted hTint m.colors
  simp only [sections, length_append] at h
  refine ⟨by omega, by omega, by omega, by omega, by omega, ?_, by omega⟩
  intro l hl
  have hCounted := length_le_counted hUv l
  have hAll := counted_le_flatMap hl
  omega

/-- The mesh file behind its first two numbers, field by field. -/
def fileBody (name : String) (m : Raw) : List UInt8 :=
  string name ++ ([0, 1, 0, 0, 0] ++ (string "SourceModels" ++ (string "StructProperty" ++ (zeros 8 ++
    (string "DatasmithMeshSourceModel" ++ (zeros 25 ++ ((size m.bytes.length ++ size m.bytes.length) ++
      ((size 125 ++ size 0) ++ ([1, 0, 0, 0] ++ ([0, 0, 0, 0] ++ (m.sections ++ zeros 20)))))))))))

theorem file_eq (name : String) (m : Raw) :
    file name m = (size 1 ++ size (fileBody name m).length) ++ fileBody name m := by
  have hBody : preamble name ++ size m.bytes.length ++ size m.bytes.length ++ [125, 0, 0, 0, 0, 0, 0, 0] ++
      m.bytes ++ zeros 20 = fileBody name m := by
    have hMark : [125, 0, 0, 0, 0, 0, 0, 0] = size 125 ++ size 0 := rfl
    rw [hMark]
    simp only [preamble, fileBody, bytes_eq, append_assoc]
  simp only [file, hBody]

theorem length_headings : (string "SourceModels").length = 17 ∧ (string "StructProperty").length = 19 ∧
    (string "DatasmithMeshSourceModel").length = 29 :=
  ⟨rfl, rfl, rfl⟩

def trailerSize : Nat := 20

/-- What a mesh file tells: its version, the bytes of its name, two numbers that nothing depends
on, the raw mesh, and the bytes behind it. -/
structure Content where
  version : UInt32
  name : List UInt8
  marks : UInt32 × UInt32
  raw : Raw
  trailer : List UInt8

namespace Content

/-- The file behind its first two numbers. Lists and texts stand behind the number of their
elements, and the raw mesh behind its size, given twice. -/
def body (x : Content) : List UInt8 :=
  (size x.name.length ++ x.name) ++ ([0, 1, 0, 0, 0] ++ (string "SourceModels" ++ (string "StructProperty" ++
    (zeros 8 ++ (string "DatasmithMeshSourceModel" ++ (zeros 25 ++
      ((size x.raw.bytes.length ++ size x.raw.bytes.length) ++ ((word x.marks.1 ++ word x.marks.2) ++
        ([1, 0, 0, 0] ++ ([0, 0, 0, 0] ++ (x.raw.sections ++ x.trailer)))))))))))

def bytes (x : Content) : List UInt8 := (word x.version ++ size x.body.length) ++ x.body

def front (x : Content) : List UInt8 := { x with trailer := [] }.body

theorem body_eq (x : Content) : x.body = x.front ++ x.trailer := by
  simp only [front, body, append_assoc, append_nil]

theorem length_front (x : Content) : x.front.length = x.name.length + x.raw.bytes.length + 123 := by
  obtain ⟨hModels, hProperty, hModel⟩ := length_headings
  simp only [front, body, bytes_eq, zeros, word, little_length, length_append, length_size,
    length_replicate, length_cons, length_nil, hModels, hProperty, hModel]
  omega

end Content

namespace Reads

variable {n : Nat} {mesh : Loaded}

theorem rawMesh {m : Raw} (h : m.Fitting) (hSize : m.sections.length < 2 ^ 32) :
    Reads n mesh Reading.rawMesh m.sections m.loaded () := by
  have hPositions : (m.positions.flatMap fun t => [t.x.bits, t.y.bits, t.z.bits]).length =
      3 * m.positions.length := by simp [length_flatMap, List.map_const', Nat.mul_comm]
  have hNormals : (m.normals.flatMap fun t => [t.x.bits, t.y.bits, t.z.bits]).length =
      3 * m.indices.length := by simp [length_flatMap, List.map_const', Nat.mul_comm, h.normals]
  have hLayers : m.allLayers.length = maxLayers := by
    have := h.layers
    simp only [allLayers, length_append, length_replicate]
    omega
  have hTints : ∀ k mesh, Reads k mesh (Reading.take (4 * m.colors.length)) (m.colors.flatMap Tint.bytes) mesh
      (m.colors.flatMap Tint.bytes) := by
    intro k mesh
    have hLength : (m.colors.flatMap Tint.bytes).length = 4 * m.colors.length := by
      simp [length_flatMap, Tint.bytes, List.map_const', Nat.mul_comm]
    rw [← hLength]
    exact Reads.take _
  obtain ⟨hm, hs, hp, hi, hn, hl, hc⟩ := counts_lt hSize
  unfold Reading.rawMesh
  simp only [Raw.sections, counted, append_assoc, flatMap_triple_bytes]
  -- The lists stand in the order of the file; each is kept before the next one is read.
  refine (Reads.number hm).bind ((Reads.words rfl).bind ((Reads.keep _).andThen ?_))
  refine (Reads.number hs).bind ((Reads.expect ?_).andThen ?_)
  · rw [h.smoothing, beq_self_eq_true]
  refine (Reads.words rfl).bind ((Reads.keep _).andThen ?_)
  refine (Reads.number hp).bind ((Reads.words hPositions).bind ((Reads.keep _).andThen ?_))
  refine (Reads.number hi).bind ((Reads.words rfl).bind ((Reads.keep _).andThen ?_))
  refine (Reads.number (by decide)).bind ((Reads.expect rfl).andThen ?_)
  refine (Reads.number (by decide)).bind ((Reads.expect rfl).andThen ?_)
  refine (Reads.number hn).bind ((Reads.expect ?_).andThen ?_)
  · rw [h.normals, beq_self_eq_true]
  refine (Reads.words hNormals).bind ((Reads.keep _).andThen ?_)
  refine (Reads.layers hLayers hl).bind ((Reads.keep _).andThen ?_)
  refine (Reads.number hc).bind ((hTints _ _).bind ?_)
  rw [tintsOf_flatMap]
  refine (Reads.keep _).andThen ((Reads.number (by decide)).closing ?_)
  rw [map_single_flatMap, map_single_flatMap, map_allLayers]
  exact Reads.expect rfl

end Reads

def Reading.closeFile (fileSize fileStart : Nat) : Reading Unit := do
  let _ ← Reading.take trailerSize
  expect (fileSize == (← get).consumed - fileStart)

theorem run_get {β : Type} {k : Cursor → Reading β} {c : Cursor} : (get >>= k).run c = (k c).run c := rfl

theorem run_expect {β : Type} {k : Unit → Reading β} {condition : Bool} {c : Cursor} (h : condition = true) :
    (expect condition >>= k).run c = (k ()).run c := by
  rw [h]
  rfl

theorem Reads.run_bind {α β : Type} {m : Reading α} {k : α → Reading β} {n : Nat} {mesh mesh' : Loaded}
    {bytes more rest : List UInt8} {a : α} (h : Reads n mesh m bytes mesh' a) :
    (m >>= k).run ⟨bytes ++ more ++ rest, n, mesh⟩ = (k a).run ⟨more ++ rest, n + bytes.length, mesh'⟩ := by
  rw [append_assoc]
  exact run_bind_of_ok (h _)

/-- A content is read up to its last bytes, which nothing but the last size depends on. -/
theorem run_content {x : Content} (h : x.raw.Fitting) (hSize : x.body.length < 2 ^ 32) (mesh : Loaded)
    (rest : List UInt8) : meshFile.run ⟨x.bytes ++ rest, 0, mesh⟩ =
      (Reading.closeFile x.body.length 8).run ⟨x.trailer ++ rest, 8 + x.front.length, x.raw.loaded⟩ := by
  have hFront := x.length_front
  have hBody : x.body.length = x.front.length + x.trailer.length := by rw [x.body_eq, length_append]
  have hRaw : x.raw.bytes.length = 8 + x.raw.sections.length := by simp [bytes_eq]; omega
  unfold meshFile
  refine (Reads.twoNumbers x.version.toNat_lt hSize).run_bind.trans (run_get.trans ?_)
  refine (Reads.text (by omega)).run_bind.trans ((Reads.expectBytes _).run_bind.trans ?_)
  refine (Reads.expectText (by decide)).run_bind.trans ((Reads.expectText (by decide)).run_bind.trans ?_)
  refine (Reads.expectBytes _).run_bind.trans ((Reads.expectText (by decide)).run_bind.trans ?_)
  refine (Reads.expectBytes _).run_bind.trans ((Reads.twoNumbers (by omega) (by omega)).run_bind.trans ?_)
  refine (run_expect (beq_self_eq_true _)).trans ?_
  refine (Reads.twoNumbers x.marks.1.toNat_lt x.marks.2.toNat_lt).run_bind.trans (run_get.trans ?_)
  refine (Reads.expectBytes _).run_bind.trans ((Reads.expectBytes _).run_bind.trans ?_)
  refine (Reads.rawMesh h (by omega)).run_bind.trans (run_get.trans ((run_expect ?_).trans ?_))
  · simp only [hRaw, beq_iff_eq, length_cons, length_nil]
    omega
  · simp only [length_append, length_size, length_cons, length_nil]
    obtain ⟨hModels, hProperty, hModel⟩ := length_headings
    have hZeros : (zeros 8).length = 8 ∧ (zeros 25).length = 25 := ⟨rfl, rfl⟩
    refine congrArg (fun k => (Reading.closeFile x.body.length 8).run ⟨x.trailer ++ rest, k, x.raw.loaded⟩) ?_
    rw [hFront, hRaw, hModels, hProperty, hModel, hZeros.1, hZeros.2]
    omega

namespace Reads

variable {mesh : Loaded}

theorem meshFile {name : String} {m : Raw} (h : m.Fitting) (hSize : (fileBody name m).length < 2 ^ 32) :
    Reads 0 mesh Reading.meshFile (file name m) m.loaded () := by
  let x : Content := ⟨1, ofText name ++ [0], (125, 0), m, zeros trailerSize⟩
  have hFile : file name m = x.bytes := file_eq name m
  have hBody : x.body.length = x.front.length + x.trailer.length := by rw [x.body_eq, length_append]
  have hClose : Reads (8 + x.front.length) m.loaded (Reading.closeFile x.body.length 8) x.trailer m.loaded () := by
    refine (Reads.take x.trailer).closing (Reads.look fun _ => Reads.expect ?_)
    simp only [hBody, beq_iff_eq]
    omega
  have hLength : 8 + x.front.length + x.trailer.length = 0 + x.bytes.length := by
    simp only [Content.bytes, hBody, word, little_length, length_append, length_size]
    omega
  intro rest
  rw [hFile, run_content (x := x) h hSize, hClose rest, hLength]

theorem file {name : String} {m : Raw} (h : m.Fitting) (hSize : (Mesh.file name m).length < 2 ^ 32) :
    Reads 0 mesh Reading.meshFile (Mesh.file name m) m.loaded () := by
  refine meshFile h ?_
  rw [file_eq, length_append] at hSize
  omega

theorem read_eq {bytes : List UInt8} {loaded : Loaded} (h : Reads 0 {} Reading.meshFile bytes loaded ()) :
    read bytes = (.ok (), loaded) := by
  have hRun := h []
  rw [append_nil] at hRun
  rw [read, hRun]

end Reads

/-- A mesh file is read back: nothing of a raw mesh is lost. -/
theorem read_file (name : String) (m : Raw) (h : m.Fitting) (hSize : (file name m).length < 2 ^ 32) :
    read (file name m) = (.ok (), m.loaded) := (Reads.file h hSize).read_eq

/-- Two triangles over three points, with two layers of different sizes and a color. -/
def sampleRaw : Raw where
  materials := [2, 0]
  smoothing := [0, 7]
  positions := [⟨⟨0x42C80000⟩, ⟨0⟩, ⟨0⟩⟩, ⟨⟨0⟩, ⟨0xC2C80000⟩, ⟨0⟩⟩, ⟨⟨0x7FC00001⟩, ⟨0x80000000⟩, ⟨1⟩⟩]
  indices := [0, 1, 2, 2, 1, 0xFFFFFFFF]
  normals := List.replicate 6 ⟨⟨0⟩, ⟨0⟩, ⟨0x3F800000⟩⟩
  uvs := [[⟨⟨0x3F000000⟩, ⟨0x3F800000⟩⟩], [⟨⟨0⟩, ⟨0⟩⟩, ⟨⟨0x7FC00001⟩, ⟨0x7FC00001⟩⟩]]
  colors := [⟨255, 0, 128, 64⟩]

theorem read_file_sample : sampleRaw.Fitting ∧ (file "Cube" sampleRaw).length < 2 ^ 32 ∧
      read (file "Cube" sampleRaw) = (.ok (), sampleRaw.loaded) :=
  have hFitting : sampleRaw.Fitting := ⟨rfl, rfl, by decide⟩
  have hSize : (file "Cube" sampleRaw).length < 2 ^ 32 := by decide +kernel
  ⟨hFitting, hSize, read_file "Cube" sampleRaw hFitting hSize⟩

end SceneExchange.Mesh
