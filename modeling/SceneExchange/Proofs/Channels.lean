import SceneExchange.Proofs.Handling
import SceneExchange.Proofs.Motion

/-!
# Channels of texture coordinates

When a mesh is written its active layer changes places with the first one. A node that names a layer
reads the first channel, whatever it names, so it reads the layer it names only if that is the
active one.
-/

open List

namespace SceneExchange.Mesh

/-- The layers that are written, in the order of the editor. -/
def Shape.writtenLayers (g : Shape) : List UvLayer := g.usableLayers.take maxLayers

/-- The channel that a layer is written to. -/
def channel (layers : List UvLayer) (j : Nat) : Nat :=
  if j = activeLayer layers then 0 else if j = 0 then activeLayer layers else j

variable {layers : List UvLayer} {j : Nat} {l : UvLayer}

theorem channel_eq_zero_iff : channel layers j = 0 ↔ j = activeLayer layers := by
  unfold channel
  split_ifs <;> omega

theorem foldl_active_eq (ps : List (UvLayer × Nat)) (found : Nat) :
    ps.foldl (fun found (l, i) => if l.active then i else found) found ∈ found :: ps.map (·.2) := by
  induction ps generalizing found with
  | nil => exact mem_singleton.mpr rfl
  | cons p ps ih =>
    obtain h | h := mem_cons.mp (ih (if p.1.active then p.2 else found))
    · rw [foldl_cons, h]
      split <;> simp
    · exact mem_cons_of_mem _ (mem_cons_of_mem _ h)

theorem activeLayer_lt (h : layers ≠ []) : activeLayer layers < layers.length := by
  obtain hFirst | hMem := mem_cons.mp (foldl_active_eq layers.zipIdx 0)
  · exact (congrArg (· < layers.length) hFirst).mpr (length_pos_of_ne_nil h)
  · obtain ⟨p, hp, hIndex⟩ := mem_map.mp hMem
    have hLt := snd_lt_of_mem_zipIdx hp
    rwa [hIndex, Nat.add_zero] at hLt

theorem channel_lt (h : j < layers.length) : channel layers j < layers.length := by
  have hActive := activeLayer_lt (ne_nil_of_length_pos (Nat.zero_lt_of_lt h))
  unfold channel
  split_ifs <;> omega

theorem orderedLayers_channel (h : layers[j]? = some l) : (orderedLayers layers)[channel layers j]? = some l := by
  have hLt : channel layers j < layers.length := channel_lt (List.getElem?_eq_some_iff.mp h).1
  have hBack : (if channel layers j == 0 then activeLayer layers else
      if channel layers j == activeLayer layers then 0 else channel layers j) = j := by
    simp only [beq_iff_eq]
    unfold channel
    split_ifs <;> omega
  unfold orderedLayers
  dsimp only
  rw [getElem?_map, getElem?_range hLt, Option.map_some, hBack, h, Option.getD_some]

theorem fits_eq_ok_iff {actual expected : Nat} {u : Unit} : fits actual expected = .ok u ↔ actual = expected := by
  unfold fits
  split <;> simp_all

variable {g : Shape} {raw : Raw}

/-- A raw mesh that is made of a mesh holds its numbers, and its lists fit together. -/
theorem exists_of_ofShape (h : Raw.ofShape g = .ok raw) :
    g.coordinates.length = 3 * raw.positions.length ∧ g.corners.length = g.loops ∧ g.slots.length = g.triangles ∧
    g.normals.length = 3 * g.loops ∧
    ∃ colors, raw = {
      materials := g.slots.map Nat.toUInt32
      smoothing := List.replicate g.triangles 0
      positions := writtenPoints g.coordinates
      indices := g.corners.map Nat.toUInt32
      normals := (toTriples (g.normals.map Number.toSingle)).map reversedNormal
      uvs := (orderedLayers g.writtenLayers).map fun l => writtenLayer l.coordinates
      colors := colors } := by
  unfold Raw.ofShape at h
  simp only [bind_eq_ok, fits_eq_ok_iff] at h
  obtain ⟨-, hPoints, -, hCorners, -, hSlots, -, hNormals, uvs, hUvs, h⟩ := h
  obtain rfl : uvs = (orderedLayers g.writtenLayers).map fun l => writtenLayer l.coordinates := by
    refine map_of_mapM_ok (fun l uv hl => ?_) hUvs
    obtain ⟨-, -, hl⟩ := bind_eq_ok.mp hl
    exact (Except.ok.inj hl).symm
  split at h
  · cases h
    exact ⟨hPoints, hCorners, hSlots, hNormals, _, rfl⟩
  · obtain ⟨-, -, h⟩ := bind_eq_ok.mp h
    cases h
    exact ⟨hPoints, hCorners, hSlots, hNormals, _, rfl⟩

theorem uvs_of_ofShape (h : Raw.ofShape g = .ok raw) :
    raw.uvs = (orderedLayers g.writtenLayers).map fun l => writtenLayer l.coordinates := by
  obtain ⟨-, -, -, -, colors, rfl⟩ := exists_of_ofShape h
  rfl

end SceneExchange.Mesh

namespace SceneExchange.Material

open SceneExchange.Graph Compile Mesh

variable {f : Forest} {s : Session}

/-- The expression that reads a channel. -/
def channelExpression (i : Int) : Expression :=
  ⟨"TextureCoordinate", [("Index", .int i), ("UTiling", .real 1.0), ("VTiling", .real 1.0)], []⟩

theorem outcome_firstLayer : ∃ o t rest, outcome firstLayer f s = (.ok o, t) ∧
    t.expressions.toList = s.expressions.toList ++ channelExpression 0 :: rest ∧
    ∀ e ∈ rest, e.tag ≠ "TextureCoordinate" := by
  refine ⟨_, _, [.call Function.flipY [directInput "0" s.expressions.size 0],
    ⟨"Scalar", [("constant", .text (Number.six 0.0))], []⟩,
    .plain "AppendVector" [directInput "0" (s.expressions.size + 1 : Nat) 0,
      directInput "1" (s.expressions.size + 1 + 1 : Nat) 0]], rfl, ?_, ?_⟩
  · simp [channelExpression]
  · simp [Expression.call, Expression.plain]

theorem outcome_dispatch_layer {out : SocketRef} (visit : Visit) (field : SocketRef)
    (hKind : (f.node (nodeOf out)).kind = "UVMAP") (hOwned : s.owned = true) :
    outcome (dispatch visit out field) f s = outcome firstLayer f s := by
  rw [dispatch, outcome_bind_ok (outcome_theNode out), hKind]
  change outcome (do if ← isOwned then firstLayer else fail (.propertyOfNothing "data")) f s = _
  rw [isOwned, bind_assoc, outcome_get, pure_bind, if_pos hOwned]

/-- A node that names a layer, on a material with an owner, emits one expression that reads a channel,
and that is the channel to which the mesh writes the layer if and only if the layer is the active one. -/
theorem layer_channel_iff {g : Shape} {raw : Raw} (hRaw : Raw.ofShape g = .ok raw) {j : Nat} {l : UvLayer}
    (hLayer : g.writtenLayers[j]? = some l) {out : SocketRef} (hKind : (f.node (nodeOf out)).kind = "UVMAP")
    (hOwned : s.owned = true) (visit : Visit) (field : SocketRef) :
    raw.uvs[channel g.writtenLayers j]? = some (writtenLayer l.coordinates) ∧
    ∃ o t new, outcome (dispatch visit out field) f s = (.ok o, t) ∧
      t.expressions.toList = s.expressions.toList ++ new ∧
      ∃ i : Nat, new.filter (·.tag == "TextureCoordinate") = [channelExpression i] ∧
        (i = channel g.writtenLayers j ↔ j = activeLayer g.writtenLayers) := by
  constructor
  · rw [uvs_of_ofShape hRaw, getElem?_map, orderedLayers_channel hLayer, Option.map_some]
  · obtain ⟨o, t, rest, hRun, hNew, hRest⟩ := outcome_firstLayer
    refine ⟨o, t, _, (outcome_dispatch_layer visit field hKind hOwned).trans hRun, hNew, 0, ?_, ?_⟩
    · have hOthers : rest.filter (·.tag == "TextureCoordinate") = [] := by
        simpa [filter_eq_nil_iff] using hRest
      rw [filter_cons_of_pos (by decide), hOthers]
      rfl
    · rw [eq_comm, channel_eq_zero_iff]

/-- A triangle with two layers, the first of which is active. -/
def twoLayers : Shape where
  name := "Sail"
  library := none
  materials := []
  coordinates := [0.0, 0.0, 0.0, 1.0, 0.0, 0.0, 0.0, 1.0, 0.0]
  corners := [0, 1, 2]
  faceMaterials := none
  cornerNormals := none
  layers := [⟨"Cloth", true, [0.0, 0.0, 1.0, 0.0, 0.0, 1.0]⟩, ⟨"Seams", false, [0.5, 0.5, 0.5, 0.0, 0.0, 0.5]⟩]
  colors := []
  faces := none

/-- A node that names the second layer. -/
def seams : Node := { (default : Node) with kind := "UVMAP", settings := .ofList [("uv_map", .text "Seams")] }

/-- The second layer is written to the second channel, and a node that names it reads another one. -/
theorem layer_channel_iff_seams : ∃ raw o t, Raw.ofShape twoLayers = .ok raw ∧
    raw.uvs[1]? = some (writtenLayer [0.5, 0.5, 0.5, 0.0, 0.0, 0.5]) ∧
    outcome (dispatch (compileWith 1) ⟨0, 0, 0⟩ ⟨0, 1, 0⟩) ⟨#[⟨#[seams], [], .empty⟩]⟩ { owned := true } = (.ok o, t) ∧
    ∃ i : Nat, t.expressions.toList.filter (·.tag == "TextureCoordinate") = [channelExpression i] ∧ i ≠ 1 := by
  have hKind : (Forest.node ⟨#[⟨#[seams], [], .empty⟩]⟩ (nodeOf ⟨0, 0, 0⟩)).kind = "UVMAP" := rfl
  obtain ⟨hUvs, o, t, new, hRun, hNew, i, hOnly, hIff⟩ := layer_channel_iff (g := twoLayers) rfl (j := 1) rfl hKind
    (s := { owned := true }) rfl (compileWith 1) ⟨0, 1, 0⟩
  refine ⟨_, o, t, rfl, hUvs, hRun, i, ?_, fun hi => ?_⟩
  · rw [hNew]
    exact hOnly
  · exact absurd (hIff.mp hi) (by decide)

end SceneExchange.Material
