import SceneExchange.Proofs.MeshFile
import SceneExchange.Proofs.Lists

/-!
# Accepted mesh files are whole

A read past the end of the file gives what is left of it, so nothing fails where a list is cut
short. The next number does: it has to be there in full. Following the reader backwards, a file
that is accepted begins with the bytes of some content, each list behind the number of its
elements, and the two sizes are those of what they measure. Only the last bytes, which nothing
follows, may be fewer than they should be.
-/

namespace SceneExchange.Mesh

open Bytes Number List Reading Raw

/-- The second cursor stands behind the bytes that the first one stands before, and `mesh` is kept. -/
def Behind (bytes : List UInt8) (mesh : Loaded) (c c' : Cursor) : Prop :=
  c.rest = bytes ++ c'.rest ∧ c' = ⟨c'.rest, c.consumed + bytes.length, mesh⟩

namespace Behind

variable {bytes bytes' : List UInt8} {mesh mesh' : Loaded} {c c' c'' : Cursor}

protected theorem refl (c : Cursor) : Behind [] c.mesh c c := ⟨rfl, rfl⟩

theorem trans (h : Behind bytes mesh c c') (h' : Behind bytes' mesh' c' c'') :
    Behind (bytes ++ bytes') mesh' c c'' := by
  obtain ⟨hRest, hCursor⟩ := h
  obtain ⟨hRest', hCursor'⟩ := h'
  constructor
  · rw [hRest, hRest', append_assoc]
  · rw [hCursor', hCursor, length_append, ← Nat.add_assoc]

theorem mesh_eq (h : Behind bytes mesh c c') : c'.mesh = mesh := by
  rw [h.2]

theorem consumed_eq (h : Behind bytes mesh c c') : c'.consumed = c.consumed + bytes.length := by
  rw [h.2]

end Behind

theorem ofLittle_lt (bytes : List UInt8) : ofLittle bytes < 256 ^ bytes.length := by
  induction bytes with
  | nil => decide
  | cons b rest ih =>
    have hByte : b.toNat < 256 := b.toNat_lt
    rw [ofLittle, length_cons, Nat.pow_succ]
    omega

theorem little_ofLittle (bytes : List UInt8) : little bytes.length (ofLittle bytes) = bytes := by
  induction bytes with
  | nil => rfl
  | cons b rest ih =>
    have hByte : b.toNat < 256 := b.toNat_lt
    have hLow : (b.toNat + 256 * ofLittle rest).toUInt8 = b := by
      apply UInt8.toNat_inj.mp
      simp [Nat.toUInt8]
    have hHigh : (b.toNat + 256 * ofLittle rest) / 256 = ofLittle rest := by omega
    rw [ofLittle, length_cons, little, hLow, hHigh, ih]

theorem size_ofLittle {bytes : List UInt8} (h : bytes.length = 4) : size (ofLittle bytes) = bytes := by
  rw [size, ← h, little_ofLittle]

section Steps

variable {c c' : Cursor} {n : Nat} {bytes : List UInt8}

theorem behind_take (h : (Reading.take n).run c = (.ok bytes, c')) :
    Behind bytes c.mesh c c' ∧ (bytes.length = n ∨ bytes.length ≤ n ∧ c'.rest = []) := by
  change (Except.ok (c.rest.take n), (⟨c.rest.drop n, c.consumed + (c.rest.take n).length, c.mesh⟩ : Cursor)) = _ at h
  cases h
  refine ⟨⟨(take_append_drop n c.rest).symm, rfl⟩, ?_⟩
  rw [length_take, drop_eq_nil_iff]
  omega

theorem length_take_of_more (h : (Reading.take n).run c = (.ok bytes, c'))
    (hMore : c'.rest ≠ []) : bytes.length = n := by
  obtain hLength | ⟨-, hEnd⟩ := (behind_take h).2
  · exact hLength
  · exact absurd hEnd hMore

theorem behind_expect {α : Type} [BEq α] [LawfulBEq α] {x y : α} {u : Unit} (h : (expect (x == y)).run c = (.ok u, c')) :
    x = y ∧ c' = c := by
  unfold expect at h
  split at h
  · exact ⟨eq_of_beq ‹_›, (Prod.mk.inj h).2.symm⟩
  · cases h

theorem behind_expectBytes {u : Unit} (h : (expectBytes bytes).run c = (.ok u, c')) : Behind bytes c.mesh c c' := by
  obtain ⟨found, c₁, hTake, hExpect⟩ := run_bind_iff.mp h
  obtain ⟨rfl, rfl⟩ := behind_expect hExpect
  exact (behind_take hTake).1

theorem behind_exactly (h : (Reading.exactly n).run c = (.ok bytes, c')) :
    Behind bytes c.mesh c c' ∧ bytes.length = n := by
  obtain ⟨found, c₁, hTake, hRest⟩ := run_bind_iff.mp h
  split at hRest
  · cases hRest
    exact ⟨(behind_take hTake).1, ‹_›⟩
  · cases hRest

theorem behind_number {k : Nat} (h : number.run c = (.ok k, c')) : Behind (size k) c.mesh c c' ∧ k < 2 ^ 32 := by
  obtain ⟨bytes, c₁, hExactly, hRest⟩ := run_bind_iff.mp h
  cases hRest
  obtain ⟨hBehind, hLength⟩ := behind_exactly hExactly
  have hLt := ofLittle_lt bytes
  rw [hLength] at hLt
  rw [size_ofLittle hLength]
  exact ⟨hBehind, hLt⟩

theorem behind_twoNumbers {k l : Nat} (h : twoNumbers.run c = (.ok (k, l), c')) :
    Behind (size k ++ size l) c.mesh c c' ∧ k < 2 ^ 32 ∧ l < 2 ^ 32 := by
  obtain ⟨bytes, c₁, hExactly, hRest⟩ := run_bind_iff.mp h
  cases hRest
  obtain ⟨hBehind, hLength⟩ := behind_exactly hExactly
  have hFirst : (bytes.take 4).length = 4 := by rw [length_take]; omega
  have hSecond : (bytes.drop 4).length = 4 := by rw [length_drop]; omega
  have hLt := ofLittle_lt (bytes.take 4)
  have hLt' := ofLittle_lt (bytes.drop 4)
  rw [hFirst] at hLt
  rw [hSecond] at hLt'
  rw [size_ofLittle hFirst, size_ofLittle hSecond, take_append_drop]
  exact ⟨hBehind, hLt, hLt'⟩

end Steps

def Demands {α : Type} (m : Reading α) : Prop := ∀ ⦃c a c'⦄, m.run c = (.ok a, c') → c.rest ≠ []

theorem Demands.bind {α β : Type} {m : Reading α} {k : α → Reading β} (h : Demands m) : Demands (m >>= k) := by
  intro c b c' hRun
  obtain ⟨a, c₁, hFirst, -⟩ := run_bind_iff.mp hRun
  exact h hFirst

theorem demands_number : Demands number := by
  intro c k c' hRun hEnd
  have hRest := (behind_number hRun).1.1
  rw [hEnd] at hRest
  have hLength := congrArg List.length hRest
  rw [length_append, length_size, length_nil] at hLength
  omega

theorem demands_layers (n : Nat) : Demands (Reading.layers (n + 1)) := demands_number.bind.bind

theorem exists_triples {ws : List UInt32} {n : Nat} (h : ws.length = 3 * n) : ∃ ts : List Triple,
    ts.length = n ∧ ts.flatMap (fun t => [t.x.bits, t.y.bits, t.z.bits]) = ws := by
  refine exists_flatMap_of_length (fun part hPart => ?_) h
  match part, hPart with
  | [x, y, z], _ => exact ⟨⟨⟨x⟩, ⟨y⟩, ⟨z⟩⟩, rfl⟩

theorem word_toUInt32 {k : Nat} (h : k < 2 ^ 32) : word k.toUInt32 = size k := by
  rw [word, Nat.toUInt32, UInt32.toNat_ofNat_of_lt' h, size]

theorem exists_words {bytes : List UInt8} {n : Nat} (h : bytes.length = 4 * n) :
    ∃ ws : List UInt32, ws.length = n ∧ ws.flatMap word = bytes := by
  refine exists_flatMap_of_length (fun part hPart => ⟨(ofLittle part).toUInt32, ?_⟩) h
  have hLt := ofLittle_lt part
  rw [hPart] at hLt
  rw [word_toUInt32 hLt, size_ofLittle hPart]

theorem exists_tints {bytes : List UInt8} {n : Nat} (h : bytes.length = 4 * n) :
    ∃ tints : List Tint, tints.length = n ∧ tints.flatMap Tint.bytes = bytes := by
  refine exists_flatMap_of_length (fun part hPart => ?_) h
  match part, hPart with
  | [b, g, r, a], _ => exact ⟨⟨b, g, r, a⟩, rfl⟩

section Lists

variable {c c' : Cursor}

theorem behind_words {n : Nat} {ws : List UInt32} (h : (words n).run c = (.ok ws, c'))
    (hMore : c'.rest ≠ []) : Behind (ws.flatMap word) c.mesh c c' ∧ ws.length = n := by
  obtain ⟨bytes, c₁, hTake, hRest⟩ := run_bind_iff.mp h
  unfold wordsOf at hRest
  split at hRest
  · rename_i hEq
    split at hEq
    · cases hRest
      cases hEq
      obtain ⟨ws, hLength, rfl⟩ := exists_words (length_take_of_more hTake hMore)
      rw [toWords_flatMap]
      exact ⟨(behind_take hTake).1, hLength⟩
    · cases hEq
  · cases hRest

theorem behind_uvLayer {layer : List UInt64} (h : uvLayer.run c = (.ok layer, c'))
    (hMore : c'.rest ≠ []) : ∃ uvs : List Uv, layer = readUvs uvs ∧ Behind (counted Uv.bytes uvs) c.mesh c c' := by
  obtain ⟨n, c₁, hNumber, h⟩ := run_bind_iff.mp h
  obtain ⟨ws, c₂, hWords, h⟩ := run_bind_iff.mp h
  have hSize := (behind_number hNumber).1
  split at h
  · rename_i hNegate
    cases h
    obtain ⟨hBehind, hLength⟩ := behind_words hWords hMore
    have hPair (part : List UInt32) (hPart : part.length = 2) : ∃ p : Uv, [p.u.bits, p.v.bits] = part := by
      match part, hPart with
      | [u, v], _ => exact ⟨⟨⟨u⟩, ⟨v⟩⟩, rfl⟩
    obtain ⟨pairs, rfl, rfl⟩ := exists_flatMap_of_length hPair hLength
    rw [negateSecond_flatMap] at hNegate
    refine ⟨pairs, (Option.some.inj hNegate).symm, ?_⟩
    rw [counted, flatMap_uv_bytes]
    rw [hSize.mesh_eq] at hBehind
    exact hSize.trans hBehind
  · cases h

theorem behind_layers {n : Nat} {layers : List (List UInt64)} (h : (Reading.layers n).run c = (.ok layers, c'))
    (hMore : c'.rest ≠ []) : ∃ uvs : List (List Uv), uvs.length = n ∧ layers = uvs.map readUvs ∧
      Behind (uvs.flatMap (counted Uv.bytes)) c.mesh c c' := by
  induction n generalizing c layers with
  | zero =>
    cases h
    exact ⟨[], rfl, rfl, .refl _⟩
  | succ n ih =>
    obtain ⟨first, c₁, hFirst, h⟩ := run_bind_iff.mp h
    obtain ⟨more, c₂, hLayers, h⟩ := run_bind_iff.mp h
    cases h
    obtain ⟨uvs, hCount, rfl, hBehind⟩ := ih hLayers
    have hMore' : c₁.rest ≠ [] := by
      rw [hBehind.1]
      exact append_ne_nil_of_right_ne_nil _ hMore
    obtain ⟨layer, rfl, hLayer⟩ := behind_uvLayer hFirst hMore'
    rw [hLayer.mesh_eq] at hBehind
    exact ⟨layer :: uvs, by rw [length_cons, hCount], rfl, hLayer.trans hBehind⟩

end Lists

section Sections

variable {β : Type} {c c' : Cursor} {b : β} {n : Nat} {bytes : List UInt8} {k : Reading β}

theorem run_expect_eq_ok {α : Type} [BEq α] [LawfulBEq α] {x y : α}
    (h : (do expect (x == y); k : Reading β).run c = (.ok b, c')) : x = y ∧ k.run c = (.ok b, c') := by
  obtain ⟨_, c₁, hExpect, hNext⟩ := run_bind_iff.mp h
  obtain ⟨hCheck, hSame⟩ := behind_expect hExpect
  exact ⟨hCheck, hSame ▸ hNext⟩

theorem run_get_eq_ok {k : Cursor → Reading β} (h : (get >>= k).run c = (.ok b, c')) : (k c).run c = (.ok b, c') := h

theorem run_keep_eq_ok {f : Loaded → Loaded} (h : (do keep f; k : Reading β).run c = (.ok b, c')) :
    k.run { c with mesh := f c.mesh } = (.ok b, c') := by
  obtain ⟨_, c₁, hKeep, hNext⟩ := run_bind_iff.mp h
  obtain rfl : { c with mesh := f c.mesh } = c₁ := (Prod.mk.inj hKeep).2
  exact hNext

-- From here on each step goes on from a cursor `c` behind what was read since `c₀`.
variable {before : List UInt8} {mesh : Loaded} {c₀ : Cursor} (hBefore : Behind before mesh c₀ c)
include hBefore

theorem Behind.append (h : Behind bytes c.mesh c c') : Behind (before ++ bytes) mesh c₀ c' := by
  rw [hBefore.mesh_eq] at h
  exact hBefore.trans h

theorem Behind.keep (f : Loaded → Loaded) : Behind before (f mesh) c₀ { c with mesh := f c.mesh } := by
  refine ⟨hBefore.1, ?_⟩
  rw [hBefore.mesh_eq, hBefore.consumed_eq]

theorem run_number_eq_ok {k : Nat → Reading β} (h : (number >>= k).run c = (.ok b, c')) :
    ∃ n c₁, Behind (before ++ size n) mesh c₀ c₁ ∧ (k n).run c₁ = (.ok b, c') := by
  obtain ⟨n, c₁, hNumber, hNext⟩ := run_bind_iff.mp h
  exact ⟨n, c₁, hBefore.append (behind_number hNumber).1, hNext⟩

theorem run_twoNumbers_eq_ok {k : Nat × Nat → Reading β} (h : (twoNumbers >>= k).run c = (.ok b, c')) :
    ∃ n l c₁, n < 2 ^ 32 ∧ l < 2 ^ 32 ∧ Behind (before ++ (size n ++ size l)) mesh c₀ c₁ ∧
      (k (n, l)).run c₁ = (.ok b, c') := by
  obtain ⟨⟨n, l⟩, c₁, hNumbers, hNext⟩ := run_bind_iff.mp h
  obtain ⟨hBehind, hFirst, hSecond⟩ := behind_twoNumbers hNumbers
  exact ⟨n, l, c₁, hFirst, hSecond, hBefore.append hBehind, hNext⟩

theorem run_expectBytes_eq_ok (h : (do expectBytes bytes; k : Reading β).run c = (.ok b, c')) :
    ∃ c₁, Behind (before ++ bytes) mesh c₀ c₁ ∧ k.run c₁ = (.ok b, c') := by
  obtain ⟨_, c₁, hExpect, hNext⟩ := run_bind_iff.mp h
  exact ⟨c₁, hBefore.append (behind_expectBytes hExpect), hNext⟩

theorem run_text_eq_ok {k : List UInt8 → Reading β} (hk : ∀ bytes, Demands (k bytes))
    (h : (Reading.text >>= k).run c = (.ok b, c')) :
    ∃ bytes c₁, Behind (before ++ (size bytes.length ++ bytes)) mesh c₀ c₁ ∧ (k bytes).run c₁ = (.ok b, c') := by
  obtain ⟨bytes, c₁, hText, hNext⟩ := run_bind_iff.mp h
  obtain ⟨n, c₂, hNumber, hTake⟩ := run_bind_iff.mp hText
  obtain rfl := length_take_of_more hTake (hk bytes hNext)
  refine ⟨bytes, c₁, ?_, hNext⟩
  rw [← append_assoc]
  exact (hBefore.append (behind_number hNumber).1).append (behind_take hTake).1

theorem run_expectText_eq_ok {s : String} (hk : Demands k) (h : (do expectText s; k : Reading β).run c = (.ok b, c')) :
    ∃ c₁, Behind (before ++ string s) mesh c₀ c₁ ∧ k.run c₁ = (.ok b, c') := by
  unfold expectText at h
  rw [bind_assoc] at h
  have hDemands (bytes : List UInt8) : Demands (expect (bytes == ofText s ++ [0]) >>= fun _ => k) :=
    fun _ _ _ hRun => hk (run_expect_eq_ok hRun).2
  obtain ⟨bytes, c₁, hBehind, hNext⟩ := run_text_eq_ok hBefore hDemands h
  obtain ⟨rfl, hLast⟩ := run_expect_eq_ok hNext
  exact ⟨c₁, hBehind, hLast⟩

theorem run_words_eq_ok {f : List UInt32 → Loaded → Loaded} (hk : Demands k)
    (h : (do let ws ← words n; keep (f ws); k : Reading β).run c = (.ok b, c')) :
    ∃ ws c₁, ws.length = n ∧ Behind (before ++ ws.flatMap word) (f ws mesh) c₀ c₁ ∧ k.run c₁ = (.ok b, c') := by
  obtain ⟨ws, c₁, hWords, hKeep⟩ := run_bind_iff.mp h
  have hNext := run_keep_eq_ok hKeep
  have hMore := hk hNext
  obtain ⟨hBehind, hLength⟩ := behind_words hWords hMore
  exact ⟨ws, _, hLength, (hBefore.append hBehind).keep (f ws), hNext⟩

theorem run_layers_eq_ok {f : List (List UInt64) → Loaded → Loaded} (hk : Demands k)
    (h : (do let layers ← Reading.layers n; keep (f layers); k : Reading β).run c = (.ok b, c')) :
    ∃ (uvs : List (List Uv)) (c₁ : Cursor), uvs.length = n ∧
      Behind (before ++ uvs.flatMap (counted Uv.bytes)) (f (uvs.map readUvs) mesh) c₀ c₁ ∧
      k.run c₁ = (.ok b, c') := by
  obtain ⟨layers, c₁, hLayers, hKeep⟩ := run_bind_iff.mp h
  have hNext := run_keep_eq_ok hKeep
  have hMore := hk hNext
  obtain ⟨uvs, hLength, rfl, hBehind⟩ := behind_layers hLayers hMore
  exact ⟨uvs, _, hLength, (hBefore.append hBehind).keep _, hNext⟩

theorem run_colors_eq_ok {f : List Tint → Loaded → Loaded} (hk : Demands k) (h : (do
      let bytes ← Reading.take (4 * n)
      match tintsOf bytes with
      | some colors => keep (f colors)
      | none => throw (unevenFault bytes.length 4)
      k : Reading β).run c = (.ok b, c')) :
    ∃ colors c₁, colors.length = n ∧ Behind (before ++ colors.flatMap Tint.bytes) (f colors mesh) c₀ c₁ ∧
      k.run c₁ = (.ok b, c') := by
  obtain ⟨bytes, c₁, hTake, hMatch⟩ := run_bind_iff.mp h
  dsimp only at hMatch
  split at hMatch
  · rename_i colors hColors
    have hNext := run_keep_eq_ok hMatch
    have hMore := hk hNext
    obtain ⟨tints, hLength, rfl⟩ := exists_tints (length_take_of_more hTake hMore)
    obtain rfl := Option.some.inj ((tintsOf_flatMap tints).symm.trans hColors)
    exact ⟨tints, _, hLength, (hBefore.append (behind_take hTake).1).keep (f tints), hNext⟩
  · obtain ⟨_, _, hThrow, -⟩ := run_bind_iff.mp hMatch
    cases hThrow

theorem run_rawMesh_eq_ok (h : (do rawMesh; k : Reading β).run c = (.ok b, c')) :
    ∃ (m : Raw) (c₁ : Cursor), m.Fitting ∧ m.uvs.length = maxLayers ∧
      Behind (before ++ m.sections) m.loaded c₀ c₁ ∧ k.run c₁ = (.ok b, c') := by
  obtain ⟨_, c₁, h, hNext⟩ := run_bind_iff.mp h
  unfold rawMesh at h
  obtain ⟨triangles, _, hRead, h⟩ := run_number_eq_ok hBefore h
  obtain ⟨materials, _, hMaterials, hRead, h⟩ := run_words_eq_ok hRead demands_number.bind h
  obtain ⟨groups, _, hRead, h⟩ := run_number_eq_ok hRead h
  obtain ⟨rfl, h⟩ := run_expect_eq_ok h
  obtain ⟨smoothing, _, hSmoothing, hRead, h⟩ := run_words_eq_ok hRead demands_number.bind h
  obtain ⟨vertices, _, hRead, h⟩ := run_number_eq_ok hRead h
  obtain ⟨positions, _, hPositions, hRead, h⟩ := run_words_eq_ok hRead demands_number.bind h
  obtain ⟨wedges, _, hRead, h⟩ := run_number_eq_ok hRead h
  obtain ⟨indices, _, hIndices, hRead, h⟩ := run_words_eq_ok hRead demands_number.bind h
  obtain ⟨tangents, _, hRead, h⟩ := run_number_eq_ok hRead h
  obtain ⟨rfl, h⟩ := run_expect_eq_ok h
  obtain ⟨tangents, _, hRead, h⟩ := run_number_eq_ok hRead h
  obtain ⟨rfl, h⟩ := run_expect_eq_ok h
  obtain ⟨count, _, hRead, h⟩ := run_number_eq_ok hRead h
  obtain ⟨rfl, h⟩ := run_expect_eq_ok h
  obtain ⟨normals, _, hNormals, hRead, h⟩ := run_words_eq_ok hRead (demands_layers 7).bind h
  obtain ⟨uvs, _, hUvs, hRead, h⟩ := run_layers_eq_ok hRead demands_number.bind h
  obtain ⟨tints, _, hRead, h⟩ := run_number_eq_ok hRead h
  obtain ⟨colors, _, hColors, hRead, h⟩ := run_colors_eq_ok hRead demands_number.bind h
  obtain ⟨rows, _, hRead, h⟩ := run_number_eq_ok hRead h
  obtain ⟨rfl, rfl⟩ := behind_expect h
  obtain ⟨points, hVertices, rfl⟩ := exists_triples hPositions
  obtain ⟨directions, hWedges, rfl⟩ := exists_triples hNormals
  let m : Raw := ⟨materials, smoothing, points, indices, directions, uvs, colors⟩
  have hLayers : m.allLayers = uvs := by simp [m, allLayers, hUvs, maxLayers]
  refine ⟨m, _, ⟨hSmoothing.trans hMaterials.symm, hWedges.trans hIndices.symm, Nat.le_of_eq hUvs⟩, hUvs, ?_, hNext⟩
  rw [loaded, ← map_single_flatMap, ← map_single_flatMap, ← map_allLayers, hLayers]
  simp only [Raw.sections, counted, hLayers, flatMap_triple_bytes, m, hMaterials, hSmoothing, hVertices, hIndices,
    hWedges, hColors]
  simp only [append_assoc] at hRead ⊢
  exact hRead

end Sections

namespace Content

/-- The lists fit each other, all eight layers are there, and sizes are counted by a word. -/
structure Complete (x : Content) : Prop where
  fitting : x.raw.Fitting
  layers : x.raw.uvs.length = maxLayers
  trailer : x.trailer.length ≤ trailerSize
  size : x.body.length < 2 ^ 32

end Content

theorem demands_expectBytes {bytes : List UInt8} (h : bytes ≠ []) : Demands (expectBytes bytes) := by
  intro c u c' hRun hEnd
  have hRest := (behind_expectBytes hRun).1
  rw [hEnd] at hRest
  exact h (append_eq_nil_iff.mp hRest.symm).1

theorem run_of_read {b : List UInt8} {mesh : Loaded} (h : read b = (.ok (), mesh)) :
    ∃ c, meshFile.run ⟨b, 0, {}⟩ = (.ok (), c) ∧ c.mesh = mesh := by
  change ((meshFile.run ⟨b, 0, {}⟩).1, (meshFile.run ⟨b, 0, {}⟩).2.mesh) = _ at h
  obtain ⟨hResult, hMesh⟩ := Prod.mk.inj h
  exact ⟨_, Prod.ext hResult rfl, hMesh⟩

theorem content_of_run {c c' : Cursor} {u : Unit} (h : meshFile.run c = (.ok u, c')) :
    ∃ x, Content.Complete x ∧ Behind x.bytes x.raw.loaded c c' ∧ (x.trailer.length = trailerSize ∨ c'.rest = []) := by
  unfold meshFile at h
  obtain ⟨version, fileSize, _, hVersion, hFileSize, hHead, h⟩ := run_twoNumbers_eq_ok (.refl _) h
  obtain ⟨name, _, hRead, h⟩ := run_text_eq_ok hHead (fun _ => (demands_expectBytes (by decide)).bind) (run_get_eq_ok h)
  obtain ⟨_, hRead, h⟩ := run_expectBytes_eq_ok hRead h
  obtain ⟨_, hRead, h⟩ := run_expectText_eq_ok hRead demands_number.bind.bind.bind h
  obtain ⟨_, hRead, h⟩ := run_expectText_eq_ok hRead (demands_expectBytes (by decide)).bind h
  obtain ⟨_, hRead, h⟩ := run_expectBytes_eq_ok hRead h
  obtain ⟨_, hRead, h⟩ := run_expectText_eq_ok hRead (demands_expectBytes (by decide)).bind h
  obtain ⟨_, hRead, h⟩ := run_expectBytes_eq_ok hRead h
  obtain ⟨rawSize, again, _, -, -, hRead, h⟩ := run_twoNumbers_eq_ok hRead h
  obtain ⟨rfl, hNext⟩ := run_expect_eq_ok h
  obtain ⟨mark, mark', _, hMark, hMark', hRaw, h⟩ := run_twoNumbers_eq_ok hRead hNext
  obtain ⟨_, hRead, h⟩ := run_expectBytes_eq_ok hRaw (run_get_eq_ok h)
  obtain ⟨_, hRead, h⟩ := run_expectBytes_eq_ok hRead h
  obtain ⟨m, c₁, hFitting, hLayers, hRead, h⟩ := run_rawMesh_eq_ok hRead h
  obtain ⟨hRawSize, h⟩ := run_expect_eq_ok (run_get_eq_ok h)
  obtain ⟨trailer, c₂, hTake, h⟩ := run_bind_iff.mp h
  obtain ⟨hSize, rfl⟩ := behind_expect (run_get_eq_ok h)
  obtain ⟨hTrailer, hCut⟩ := behind_take hTake
  have hRawSize : rawSize = m.bytes.length := by
    rw [hRead.consumed_eq, hRaw.consumed_eq] at hRawSize
    simp only [bytes_eq, length_append, length_cons, length_nil] at hRawSize ⊢
    omega
  let x : Content := ⟨version.toUInt32, name, (mark.toUInt32, mark'.toUInt32), m, trailer⟩
  have hAll : Behind ((word x.version ++ size fileSize) ++ x.body) m.loaded c c' := by
    have hAll := hRead.append hTrailer
    simp only [x, Content.body, ← hRawSize, word_toUInt32 hVersion, word_toUInt32 hMark, word_toUInt32 hMark']
    simp only [append_assoc, nil_append] at hAll ⊢
    exact hAll
  have hSize : fileSize = x.body.length := by
    rw [hAll.consumed_eq, hHead.consumed_eq] at hSize
    simp only [word, little_length, length_append, length_nil, length_size] at hSize
    omega
  rw [hSize] at hAll hFileSize
  exact ⟨x, ⟨hFitting, hLayers, hCut.elim Nat.le_of_eq And.left, hFileSize⟩, hAll, hCut.imp_right And.right⟩

/-- A file that is accepted is the bytes of a content, with something behind it only where nothing
of the content is missing. -/
theorem exists_content_of_read {b : List UInt8} {mesh : Loaded} (h : read b = (.ok (), mesh)) :
    ∃ x rest, Content.Complete x ∧ b = x.bytes ++ rest ∧ mesh = x.raw.loaded ∧
      (x.trailer.length = trailerSize ∨ rest = []) := by
  obtain ⟨c, hRun, rfl⟩ := run_of_read h
  obtain ⟨x, hComplete, hBehind, hCut⟩ := content_of_run hRun
  exact ⟨x, c.rest, hComplete, hBehind.1, hBehind.mesh_eq, hCut⟩

/-- The bytes of a content are read as its mesh. The last size is compared with what was read, so
bytes behind a content that is cut short are a fault. -/
theorem read_content {x : Content} (h : x.Complete) (rest : List UInt8) : read (x.bytes ++ rest) =
      (if x.trailer.length = trailerSize ∨ rest = [] then .ok () else .error (.violated ""), x.raw.loaded) := by
  have hTrailer := h.trailer
  have hBody : x.body.length = x.front.length + x.trailer.length := by rw [x.body_eq, length_append]
  have hSize : (x.body.length == 8 + x.front.length + ((x.trailer ++ rest).take trailerSize).length - 8) =
      decide (x.trailer.length = trailerSize ∨ rest = []) := by
    rw [Bool.eq_iff_iff, beq_iff_eq, decide_eq_true_iff, hBody, length_take, length_append, ← length_eq_zero_iff]
    omega
  have hClose : (Reading.closeFile x.body.length 8).run ⟨x.trailer ++ rest, 8 + x.front.length, x.raw.loaded⟩ =
      (expect (decide (x.trailer.length = trailerSize ∨ rest = []))).run
        ⟨(x.trailer ++ rest).drop trailerSize, 8 + x.front.length + ((x.trailer ++ rest).take trailerSize).length,
          x.raw.loaded⟩ := by
    rw [← hSize]
    rfl
  rw [read, run_content h.fitting h.size, hClose]
  by_cases hWhole : x.trailer.length = trailerSize ∨ rest = []
  · simp only [hWhole, decide_true, if_true]
    rfl
  · simp only [hWhole, decide_false, if_false]
    rfl

/-- A part of a written file is not accepted: the size it begins with is that of the whole file. -/
theorem read_ne_ok_of_part {name : String} {m : Raw} {p : List UInt8} (hSize : (fileBody name m).length < 2 ^ 32)
    (hPart : p <+: file name m) (hProper : p ≠ file name m) (mesh : Loaded) : read p ≠ (.ok (), mesh) := by
  intro hRead
  obtain ⟨x, rest, hComplete, rfl, -, -⟩ := exists_content_of_read hRead
  obtain ⟨tail, hFile⟩ := hPart
  have hFields : word x.version ++ (size x.body.length ++ (x.body ++ (rest ++ tail))) =
      size 1 ++ (size (fileBody name m).length ++ fileBody name m) := by
    rw [file_eq, Content.bytes] at hFile
    simpa only [append_assoc] using hFile
  obtain ⟨-, hFields⟩ := append_inj hFields rfl
  obtain ⟨hSizes, hBody⟩ := append_inj hFields rfl
  have hLength : x.body.length = (fileBody name m).length := by
    rw [← ofLittle_size hComplete.size, hSizes, ofLittle_size hSize]
  have hNothing : rest ++ tail = [] := by
    have hCount := congrArg List.length hBody
    rw [length_append, hLength] at hCount
    exact length_eq_zero_iff.mp (by omega)
  rw [(append_eq_nil_iff.mp hNothing).2, append_nil] at hFile
  exact hProper hFile

/-- A file is accepted if and only if it begins with the bytes of a complete content, in which every
list has the declared number of elements, as many smoothing groups as materials and as many
normals as wedges are listed, and both sizes are those of what they measure; the mesh is that of
the content. What stands behind the content matters if and only if its last bytes are fewer than
they should be. No proper part of a written file is accepted. -/
theorem accepted_files_are_contents (b : List UInt8) (c : Content) (name : String) (m : Raw) :
    (∀ mesh, read b = (.ok (), mesh) ↔ ∃ x rest, Content.Complete x ∧ b = x.bytes ++ rest ∧
      mesh = x.raw.loaded ∧ (x.trailer.length = trailerSize ∨ rest = [])) ∧
    (c.Complete → ((∀ rest, read (c.bytes ++ rest) = (.ok (), c.raw.loaded)) ↔ c.trailer.length = trailerSize)) ∧
    (∀ p, (fileBody name m).length < 2 ^ 32 → p <+: file name m → p ≠ file name m →
      ∃ fault, (read p).1 = .error fault) := by
  refine ⟨?_, ?_, ?_⟩
  · intro mesh
    constructor
    · exact exists_content_of_read
    · rintro ⟨x, rest, hComplete, rfl, rfl, hWhole⟩
      rw [read_content hComplete, if_pos hWhole]
  · intro hComplete
    constructor
    · intro hAll
      have hMore := hAll [0]
      rw [read_content hComplete] at hMore
      split at hMore
      case isTrue hWhole => exact hWhole.resolve_right (cons_ne_nil _ _)
      case isFalse => cases (Prod.mk.inj hMore).1
    · intro hWhole rest
      rw [read_content hComplete, if_pos (.inl hWhole)]
  · intro p hSize hPart hProper
    have hNever := read_ne_ok_of_part hSize hPart hProper
    cases hRead : (read p).1 with
    | error fault => exact ⟨fault, rfl⟩
    | ok u =>
      have hOk : read p = (.ok (), (read p).2) := Prod.ext hRead rfl
      exact absurd hOk (hNever _)

def shortContent : Content where
  version := 1
  name := [67, 0]
  marks := (125, 0)
  raw := { sampleRaw with uvs := sampleRaw.uvs ++ List.replicate 6 [] }
  trailer := zeros 5

theorem accepted_files_are_contents_short :
    shortContent.Complete ∧ read shortContent.bytes = (.ok (), shortContent.raw.loaded) ∧
      (¬∀ rest, read (shortContent.bytes ++ rest) = (.ok (), shortContent.raw.loaded)) ∧
      ∃ fault, (read ((file "Cube" sampleRaw).take 100)).1 = .error fault := by
  obtain ⟨hAccepted, hBehind, hPart⟩ :=
    accepted_files_are_contents shortContent.bytes shortContent "Cube" sampleRaw
  have hComplete : shortContent.Complete := ⟨⟨rfl, rfl, by decide⟩, rfl, by decide, by decide +kernel⟩
  refine ⟨hComplete, ?_, ?_, ?_⟩
  · exact (hAccepted _).mpr ⟨shortContent, [], hComplete, (append_nil _).symm, rfl, .inr rfl⟩
  · rw [hBehind hComplete]
    decide
  · refine hPart _ (by decide +kernel) ⟨_, take_append_drop _ _⟩ ?_
    decide +kernel

end SceneExchange.Mesh
