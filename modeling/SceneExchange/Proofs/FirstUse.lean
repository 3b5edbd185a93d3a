import SceneExchange.Proofs.Retention

/-!
# Images that are read as they were first read

In the contexts of a normal map the texture of an image is decoded, elsewhere it is read as it is.
The station of an image node does not tell in which contexts it was made, so every later use of the
node reads the texture as the first use did: as its own contexts ask only if they agree with those
of the first use on whether normals are read.
-/

namespace SceneExchange.Material

open SceneExchange.Graph Compile Material.Frame Retention

def normals (contexts : List Datum) : Bool := isText (contexts.head?.getD .null) "NORMAL"

/-- The expression of a station is the given texture, as it is or decoded. -/
inductive Reads (es : List Expression) (texture : Expression) : Bool → Station → Prop
  | plain {i : Nat} (h : es[i]? = some texture) :
      Reads es texture false ⟨i, [.int 0, .int 0, .int 0, .int 0, .text "Alpha", .text "Color"]⟩
  | normal {i j : Nat} (h : es[i]? = some texture)
      (hDecoded : es[j]? = some (.call (Function.content "NormalTo01") [directInput "0" i 5])) :
      Reads es texture true ⟨j, texts ["Color", "Alpha"]⟩

namespace Reads

variable {es es' : List Expression} {texture : Expression} {b b' : Bool} {x : Station}

theorem mono (h : Reads es texture b x) (hPrefix : es <+: es') : Reads es' texture b x := by
  obtain ⟨rest, rfl⟩ := hPrefix
  have hKept {i : Nat} {e : Expression} (hGet : es[i]? = some e) : (es ++ rest)[i]? = some e := by
    rw [List.getElem?_append_left (List.getElem?_eq_some_iff.mp hGet).1]
    exact hGet
  cases h with
  | plain h => exact .plain (hKept h)
  | normal h hDecoded => exact .normal (hKept h) (hKept hDecoded)

theorem eq (h : Reads es texture b x) (h' : Reads es texture b' x) : b = b' := by
  cases h with
  | plain => cases h' with
    | plain => rfl
  | normal => cases h' with
    | normal => rfl

end Reads

/-- A reference to the output of a station with the given name. -/
def Refers (s : Session) (o : Operand) (x : Station) (name : String) : Prop :=
  ∃ (j : Nat) (i : Int), o = .bundle j ∧ stationOutput x.outputs name = .ok i ∧
    s.bundles[j]? = some (Table.ofList [("expression", .index x.expression), ("OutputIndex", .index i)])

section Steps

variable {f : Forest} {s t : Session} {o : Operand} {out field : SocketRef}

theorem refers_of_enterStation {x : Station} (h : outcome (enterStation out x) f s = (.ok o, t)) :
    t.stations.lookup (nodeOf out) = some x ∧ t.expressions = s.expressions ∧ t.heightTextures = s.heightTextures ∧
      Refers t o x (f.outputSocket out).name := by
  let u : Session := { s with stations := (nodeOf out, x) :: s.stations }
  have hEnter : outcome (rememberStation (nodeOf out) x) f s = (.ok (), u) := rfl
  have hName : outcome (outputName out) f u = (.ok (f.outputSocket out).name, u) := rfl
  rw [enterStation, outcome_bind_ok hEnter, outcome_bind_ok hName] at h
  obtain ⟨i, hIndex, ⟨⟩⟩ := outcome_lift_bind h
  exact ⟨List.lookup_cons_self, rfl, rfl, u.bundles.size, i, rfl, hIndex, Array.getElem?_push_size⟩

theorem isText_hint (d : Datum) :
    isText (if inContext d "BUMP" || !d.holds then .text Texture.defaultHint else d) "NORMAL" = isText d "NORMAL" := by
  cases hNormal : isText d "NORMAL" with
  | true =>
    unfold isText inContext at hNormal
    split at hNormal
    · obtain rfl := eq_of_beq hNormal
      rfl
    · cases hNormal
  | false =>
    split
    · rfl
    · exact hNormal

theorem reads_of_emit {texture : Expression} {asNormals isHeight : Bool} {x : Station} (h : outcome (do
      let e ← emit texture
      let e ← Handlers.decodeNormal asNormals e
      onlyIf isHeight (rememberHeight e)
      pure (Station.mk e (if asNormals then texts ["Color", "Alpha"]
        else [.int 0, .int 0, .int 0, .int 0, .text "Alpha", .text "Color"]))) f s = (.ok x, t)) :
    Reads t.expressions.toList texture asNormals x ∧ (isHeight → x.expression ∈ t.heightTextures) := by
  rw [outcome_bind_ok (outcome_emit texture)] at h
  obtain ⟨e, u, hDecode, h⟩ := outcome_bind_eq_ok h
  obtain ⟨_, v, hHeight, h⟩ := outcome_bind_eq_ok h
  cases h
  have hKept : t.expressions = u.expressions ∧ (isHeight → e ∈ t.heightTextures) := by
    cases isHeight <;> cases hHeight
    · exact ⟨rfl, nofun⟩
    · exact ⟨rfl, fun _ => List.mem_append_right _ (List.mem_singleton_self e)⟩
  refine ⟨?_, hKept.2⟩
  rw [hKept.1]
  cases asNormals with
  | false =>
    cases hDecode
    exact .plain (by simp)
  | true =>
    cases hDecode
    exact .normal (i := s.expressions.size) (by simp) (by simp)

theorem reads_of_image {visit : Visit} {image : Nat} (hImage : (f.node (nodeOf out)).image = .given image)
    (h : outcome (Handlers.image visit out) f s = (.ok o, t)) :
    ∃ name parts x, Name.legal (s.images[image]?.getD default).name = .ok name ∧
      t.stations.lookup (nodeOf out) = some x ∧
      Reads t.expressions.toList ⟨"Texture", [("PathName", .text name)], parts⟩ (normals s.contexts) x ∧
      (inContext (s.contexts.head?.getD .null) "BUMP" → x.expression ∈ t.heightTextures) ∧
      Refers t o x (f.outputSocket out).name := by
  have hContext : outcome context f s = (.ok (s.contexts.head?.getD .null), s) := rfl
  rw [Handlers.image, outcome_bind_ok (outcome_theNode out), hImage] at h
  obtain ⟨x, u, hBody, hStation⟩ := outcome_bind_eq_ok h
  obtain ⟨hKnown, hExpressions, hHeights, hRefers⟩ := refers_of_enterStation hStation
  rw [Handlers.imageStation, outcome_bind_ok hContext] at hBody
  obtain ⟨name, v, hEnter, h⟩ := outcome_bind_eq_ok hBody
  have hName : Name.legal (s.images[image]?.getD default).name = .ok name := by
    rw [outcome_enterTexture] at hEnter
    split at hEnter
    · cases hEnter
    · cases hEnter
      assumption
  rw [outcome_bind_ok outcome_read] at h
  obtain ⟨field, v, -, h⟩ := outcome_bind_eq_ok h
  obtain ⟨vector, v, -, h⟩ := outcome_bind_eq_ok h
  obtain ⟨parts, v, -, h⟩ := outcome_bind_eq_ok h
  have hReads := reads_of_emit h
  rw [isText_hint, ← hExpressions, ← hHeights] at hReads
  exact ⟨name, parts, x, hName, hKnown, hReads.1, hReads.2, hRefers⟩

theorem outcome_dispatch_image (visit : Visit) (hKind : (f.node (nodeOf out)).kind = "TEX_IMAGE") :
    outcome (dispatch visit out field) f s = outcome (Handlers.image visit out) f s := by
  rw [dispatch, outcome_bind_ok (outcome_theNode out), hKind]
  rfl

end Steps

section Runs

variable {f : Forest} {s t : Session} {fuel : Nat} {out field : SocketRef} {mode : FieldMode} {o : Operand}

theorem Session.Keeps.refers {p : Operand} {x : Station} {name : String} (hKeeps : s.Keeps f t)
    (hMixes : ¬Mixes f) (h : Refers s p x name) : Refers t p x name := by
  obtain ⟨j, i, rfl, hIndex, hGet⟩ := h
  obtain ⟨b, hGet', -, hSame⟩ := hKeeps.bundles j _ hGet
  exact ⟨j, i, rfl, hIndex, by rw [hGet', hSame hMixes]⟩

/-- The contexts in which an image is first asked for decide how its texture is read by that use
and by all that follow, whatever their contexts are. -/
theorem image_read_as_first_asked {image : Nat} (hKind : (f.node (nodeOf out)).kind = "TEX_IMAGE")
    (hImage : (f.node (nodeOf out)).image = .given image) (hSource : f.source? field = some out)
    (hEnabled : (f.outputSocket out).enabled = true) (hValued : ∀ x ∈ s.stations, HasValues f x.1)
    (hMemo : s.memo.lookup out = none) (hStation : s.stations.lookup (nodeOf out) = none)
    (hRun : outcome (compileWith (fuel + 1) field mode) f s = (.ok o, t)) :
    ∃ name parts x p, Name.legal (s.images[image]?.getD default).name = .ok name ∧ t.Follows f t ∧ ∀ u, t.Follows f u →
        (∀ b, Reads u.expressions.toList ⟨"Texture", [("PathName", .text name)], parts⟩ b x ↔ b = normals s.contexts) ∧
        (¬Mixes f → Refers u p x (f.outputSocket out).name) ∧
        (∀ visit field', outcome (outputStep visit out field') f u = (.ok p, u)) ∧
        (∀ visit out' field', nodeOf out' = nodeOf out → u.memo.lookup out' = none →
          outcome (outputStep visit out' field') f u = outcome (stationRef x (f.outputSocket out').name) f u) ∧
        ∀ contexts fuel field mode o v,
          outcome (compileWith fuel field mode) f { u with contexts := contexts } = (.ok o, v) → t.Follows f v := by
  obtain ⟨log, p, v, hOutput, hRetains⟩ := exists_output_of_compile hValued hSource hEnabled hRun
  rw [outcome_outputStep, hMemo, hStation] at hOutput
  rw [outcome_dispatch_image _ hKind] at hOutput
  obtain ⟨name, parts, x, hName, hEntered, hReads, -, hRefers⟩ := reads_of_image hImage hOutput
  refine ⟨name, parts, x, p, hName, ⟨.refl f t, hRetains.valued trivial⟩, fun u hFollows => ?_⟩
  have hKeeps := hRetains.keeps.trans hFollows.keeps
  have hKnown : u.memo.lookup out = some p := hKeeps.memo out p (by simp)
  have hFound : u.stations.lookup (nodeOf out) = some x := hKeeps.stations _ _ hEntered
  have hStill : Reads u.expressions.toList _ (normals s.contexts) x := hReads.mono hKeeps.expressions
  refine ⟨fun b => ⟨fun hOther => hOther.eq hStill, ?_⟩, fun hMixes => ?_, fun visit field' => ?_,
    fun visit out' field' hNode hNew => ?_, ?_⟩
  · rintro rfl
    exact hStill
  · exact hKeeps.refers hMixes hRefers
  · rw [outcome_outputStep, hKnown]
  · rw [outcome_outputStep, hNew, hNode, hFound]
  · intro contexts fuel field mode o v hRun
    exact (hFollows.inContexts contexts).compile hRun

end Runs

section Sample

open SceneExchange.Workload

def bothForest : Forest where
  trees := #[tree [node "BSDF_DIFFUSE" [sand "Color"] [shader "BSDF"],
      node "NORMAL_MAP" [half "Strength", sand "Color"] [computed "Normal"], imageNode "FLAT" 0]
    [⟨2, 0, 0, 0⟩, ⟨2, 0, 1, 1⟩]]

/-- Once the surface has asked for its color, the normal map is given the texture as it is. -/
theorem image_read_as_color_asked : ∃ o t q u name parts x p,
    outcome (compileWith 2 ⟨0, 0, 0⟩ .normal) bothForest { images := images } = (.ok o, t) ∧
    outcome (compileWith 2 ⟨0, 1, 1⟩ .normal) bothForest { t with contexts := [.text "NORMAL"] } = (.ok q, u) ∧
    Name.legal (image 0).name = .ok name ∧
    (∀ b, Reads u.expressions.toList ⟨"Texture", [("PathName", .text name)], parts⟩ b x ↔ b = false) ∧
    Refers u p x "Color" ∧
    ∀ visit, outcome (outputStep visit ⟨0, 2, 0⟩ ⟨0, 1, 1⟩) bothForest u = (.ok p, u) := by
  let first := outcome (compileWith 2 ⟨0, 0, 0⟩ .normal) bothForest { images := images }
  let second := outcome (compileWith 2 ⟨0, 1, 1⟩ .normal) bothForest { first.2 with contexts := [.text "NORMAL"] }
  have hRuns : (first.1.isOk, second.1.isOk) = (true, true) := by decide +kernel
  obtain ⟨hOk, hOk'⟩ := Prod.mk.inj hRuns
  obtain ⟨o, hFirst⟩ := exists_ok_of_isOk hOk
  obtain ⟨q, hSecond⟩ := exists_ok_of_isOk hOk'
  have hImage : (bothForest.node (nodeOf ⟨0, 2, 0⟩)).image = .given 0 := rfl
  obtain ⟨name, parts, x, p, hName, hFollows, hLater⟩ :=
    image_read_as_first_asked rfl hImage rfl rfl (List.forall_mem_nil _) rfl rfl hFirst
  have hEnd := (hLater _ hFollows).2.2.2.2 _ _ _ _ _ _ hSecond
  obtain ⟨hReads, hRefers, hGiven, -⟩ := hLater _ hEnd
  have hMixes : ¬Mixes bothForest := fun ⟨r, hKind⟩ => kind_ne_of_tree (by decide) (by decide) r hKind
  exact ⟨o, first.2, q, second.2, name, parts, x, p, hFirst, hSecond, hName, hReads, hRefers hMixes,
    fun visit => hGiven visit ⟨0, 1, 1⟩⟩

end Sample

end SceneExchange.Material
