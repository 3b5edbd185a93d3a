import SceneExchange.Proofs.NumberedReferences
import SceneExchange.Proofs.Shapes

/-!
# The channels that a document writes

The outputs of a material with nodes are the entries of the bundle that its surface is compiled to. Its
keys are distinct, since bundles are tables. They are channels as long as every shader has a handler: a
node without one gives a reference, and the parts of this are written as if they were channels.
-/

open List

namespace SceneExchange.Material

open SceneExchange.Graph Compile Material.Frame References

def Entry.tag? : Entry → Option String
  | .channel name _ => some name
  | _ => none

def Document.tags (d : Document) : List String := d.entries.filterMap Entry.tag?

section Runs

variable {f : Forest} {s t : Session} {m : Definition} {o : Operand} {xs : List Entry} {d : Document}

theorem source_same {k : Int} {x : Source} (h : outcome (source o k) f s = (.ok x, t)) : t = s := by
  cases o with
  | none => cases h; rfl
  | index n => cases h; rfl
  | bundle i =>
    rw [outcome_source_bundle] at h
    split at h <;> cases h
    rfl

/-- The session with one more expression, in which an entry of a bundle is another. -/
def Session.redefined (s : Session) (i : Nat) (name : String) (e : Expression) (o : Operand) : Session :=
  { s with
    expressions := s.expressions.push e
    bundles := s.bundles.setIfInBounds i ((s.bundles[i]?.getD .empty).insert name o) }

/-- The opacity of a surface may be dithered. -/
inductive Dithers (i : Nat) (s : Session) : Session → Prop
  | same : Dithers i s s
  | redefined {old : Operand} (h : (s.bundles[i]?.getD .empty).get? "Opacity" = some old) (e : Expression) (o : Operand) :
      Dithers i s (s.redefined i "Opacity" e o)

theorem optionalInput_same {name : String} {ps : List Part} (h : outcome (optionalInput name o) f s = (.ok ps, t)) :
    t = s := by
  cases o with
  | none => cases h; rfl
  | _ =>
    obtain ⟨x, u, hSource, ⟨⟩⟩ := outcome_bind_eq_ok h
    exact source_same hSource

theorem exists_present (f : Forest) (s : Session) (o : Operand) : ∃ b, outcome (present o) f s = (.ok b, s) := by
  cases o <;> exact ⟨_, rfl⟩

theorem dithers_of_ditherOpacity {i : Nat} {x : Unit} (h : outcome (ditherOpacity i) f s = (.ok x, t)) :
    Dithers i s t := by
  obtain ⟨_, _, ⟨⟩, h⟩ := outcome_bind_eq_ok h
  cases hGet : (s.bundles[i]?.getD .empty).get? "Opacity" with
  | none =>
    rw [hGet] at h
    cases h
    exact .same
  | some o =>
    rw [hGet] at h
    obtain ⟨b, hPresent⟩ := exists_present f s o
    rw [Option.getD_some, outcome_bind_ok hPresent] at h
    cases b with
    | false =>
      rw [if_neg Bool.false_ne_true] at h
      cases h
      exact .same
    | true =>
      rw [if_pos rfl] at h
      obtain ⟨ps, u, hInput, hRest⟩ := outcome_bind_eq_ok h
      obtain rfl := optionalInput_same hInput
      cases hRest
      exact .redefined hGet _ _

/-- Every entry of a bundle is written as an output. -/
structure Writes (f : Forest) (s : Session) (l : List (String × Operand)) (xs : List Entry) : Prop where
  tags : xs.filterMap Entry.tag? = l.map Prod.fst
  sources : ∀ x ∈ l, ∃ y, outcome (source x.2 0) f s = (.ok y, s) ∧ .channel x.1 y ∈ xs

theorem writes_of_outputs {l : List (String × Operand)}
    (h : outcome (l.mapM fun (channel, o) => do pure (Entry.channel channel (← source o 0))) f s = (.ok xs, t)) :
    t = s ∧ Writes f s l xs := by
  induction l generalizing xs with
  | nil =>
    rw [mapM_nil] at h
    cases h
    exact ⟨rfl, rfl, forall_mem_nil _⟩
  | cons x l ih =>
    rw [mapM_cons] at h
    obtain ⟨y, u, hFirst, h⟩ := outcome_bind_eq_ok h
    obtain ⟨ys, v, hRest, h⟩ := outcome_bind_eq_ok h
    obtain ⟨y, w, hSource, hFirst⟩ := outcome_bind_eq_ok hFirst
    cases h
    cases hFirst
    obtain rfl := source_same hSource
    obtain ⟨rfl, hTags, hSources⟩ := ih hRest
    refine ⟨rfl, congrArg (x.1 :: ·) hTags, forall_mem_cons.mpr ⟨⟨y, hSource, mem_cons_self⟩, fun z hz => ?_⟩⟩
    obtain ⟨y', hSource', hMem⟩ := hSources z hz
    exact ⟨y', hSource', mem_cons_of_mem _ hMem⟩

theorem writes_of_channelEntries (h : outcome (channelEntries o) f s = (.ok xs, t)) :
    t = s ∧ ∃ i : Nat, o = .bundle i ∧ Writes f s (s.bundles[i]?.getD .empty).entries xs := by
  cases o with
  | none => cases h
  | index n => cases h
  | bundle i =>
    obtain ⟨_, _, ⟨⟩, h⟩ := outcome_bind_eq_ok h
    obtain ⟨_, _, ⟨⟩, h⟩ := outcome_bind_eq_ok h
    obtain ⟨ys, u, hOutputs, h⟩ := outcome_bind_eq_ok h
    obtain ⟨_, _, ⟨⟩, h⟩ := outcome_bind_eq_ok h
    cases h
    obtain ⟨rfl, hTags, hSources⟩ := writes_of_outputs hOutputs
    refine ⟨rfl, i, rfl, ?_, fun x hx => ?_⟩
    · rw [filterMap_append, hTags]
      split <;> exact append_nil _
    · obtain ⟨y, hSource, hMem⟩ := hSources x hx
      exact ⟨y, hSource, mem_append_left _ hMem⟩

theorem dithers_of_blendEntries {x : List Entry × Bool} (h : outcome (blendEntries m o) f s = (.ok x, t)) :
    x.1.filterMap Entry.tag? = [] ∧ ∀ i, o = .bundle i → Dithers i s t := by
  unfold blendEntries at h
  split at h
  · obtain ⟨_, -, h⟩ := outcome_lift_bind h
    obtain ⟨_, -, ⟨⟩⟩ := outcome_lift_bind h
    exact ⟨rfl, fun _ _ => .same⟩
  split at h
  · cases o with
    | none => cases h
    | index n => cases h
    | bundle i =>
      obtain ⟨_, u, hDither, ⟨⟩⟩ := outcome_bind_eq_ok (m := ditherOpacity i) h
      refine ⟨rfl, ?_⟩
      rintro _ ⟨⟩
      exact dithers_of_ditherOpacity hDither
  split at h
  · cases h
    exact ⟨rfl, fun _ _ => .same⟩
  · cases o with
    | none => cases h
    | index n => cases h
    | bundle i =>
      cases h
      exact ⟨rfl, fun _ _ => .same⟩

theorem writes_of_surfaceDocument {name : String} {alwaysTwoSided : Bool}
    (h : outcome (surfaceDocument m name o alwaysTwoSided) f s = (.ok d, t)) :
    ∃ u v, ∃ i : Nat, outcome (tieHeights o) f s = (.ok (), u) ∧ o = .bundle i ∧ Dithers i u v ∧
      d.expressions = some v.expressions.toList ∧ t.bundles = v.bundles ∧
      Writes f v (v.bundles[i]?.getD .empty).entries d.entries := by
  obtain ⟨_, u, hTie, h⟩ := outcome_bind_eq_ok h
  obtain ⟨xs, w, hEntries, ⟨⟩⟩ := outcome_bind_eq_ok h
  obtain ⟨⟨blend, may⟩, v, hBlend, h⟩ := outcome_bind_eq_ok hEntries
  obtain ⟨outputs, w, hOutputs, h⟩ := outcome_bind_eq_ok h
  obtain ⟨sides, _, hSides, ⟨⟩⟩ := outcome_bind_eq_ok h
  obtain ⟨hTags, hBlend⟩ := dithers_of_blendEntries hBlend
  obtain ⟨rfl, i, rfl, hWrites⟩ := writes_of_channelEntries hOutputs
  have hAside : Aside (decideSides m.backfaceCulling.holds (alwaysTwoSided && may)) := aside_decideSides
  have hBeside : w.Beside t := by simpa [hSides] using hAside f w
  rw [hBeside.eq]
  refine ⟨u, w, i, hTie, rfl, hBlend i rfl, rfl, rfl, ?_, fun x hx => ?_⟩
  · rw [filterMap_append, filterMap_append, hTags, hWrites.tags]
    cases sides <;> exact append_nil _
  · obtain ⟨y, hSource, hMem⟩ := hWrites.sources x hx
    exact ⟨y, hSource, mem_append_left _ (mem_append_right _ hMem)⟩

theorem tags_of_nodeDocument {alwaysTwoSided : Bool} (h : outcome (nodeDocument m alwaysTwoSided) f s = (.ok d, t)) :
    d.tags = [] ∨ ∃ i : Nat, d.tags = (t.bundles[i]?.getD .empty).keys := by
  obtain ⟨_, -, ⟨-, rfl⟩ | ⟨_, _, _, -, -, h⟩⟩ := nodeDocument_ok h
  · exact .inl rfl
  · obtain ⟨_, _, i, -, -, -, -, hSame, hWrites⟩ := writes_of_surfaceDocument h
    exact .inr ⟨i, hSame ▸ hWrites.tags⟩

theorem tags_of_document {owned alwaysTwoSided : Bool} (hNodes : m.useNodes)
    (h : outcome (document (some m) owned alwaysTwoSided) f s = (.ok d, t)) :
    d.tags = [] ∨ ∃ i : Nat, d.tags = (t.bundles[i]?.getD .empty).keys := by
  obtain ⟨_, _, -, h⟩ := outcome_bind_eq_ok h
  dsimp only at h
  rw [if_pos hNodes] at h
  obtain ⟨_, _, -, h⟩ := outcome_bind_eq_ok h
  exact tags_of_nodeDocument h

theorem Written.channel_of_tag {care : Care} (h : Written f care d) {tag : String} (hTag : tag ∈ d.tags) :
    tag ≠ "OutputIndex" ∧ (care.handled → tag ≠ "expression") := by
  obtain ⟨x, hx, hName⟩ := mem_filterMap.mp hTag
  cases h with
  | nothing name => cases hx
  | surface name sound heights grows rest entries =>
    cases x with
    | channel name source =>
      cases hName
      exact (entries _ hx).channel _ source rfl
    | element name e => cases hName
    | text t => cases hName

end Runs

theorem mem_channelNames {tag : String} (h : tag ∈ bundleKeys) (hOutput : tag ≠ "OutputIndex")
    (hPosition : tag ≠ "expression") : tag ∈ channelNames := by
  simpa [bundleKeys, hOutput, hPosition] using h

/-- Whatever the nodes of a material, it writes no output twice, and none but channels and the parts of a
reference. In a typed forest these are channels and positions, and channels only if every shader has a
handler. -/
theorem tags_of_channels {f : Forest} {s t : Session} {m : Definition} {owned alwaysTwoSided : Bool} {d : Document}
    (hReached : s.Reached f) (hNodes : m.useNodes)
    (hRun : outcome (document (some m) owned alwaysTwoSided) f s = (.ok d, t)) :
    d.tags.Nodup ∧ (∀ tag ∈ d.tags, tag ∈ channelNames ∨ tag = "expression" ∨ tag = "OutputIndex") ∧
    (f.Typed → s.Unread f m.tree → (∀ tag ∈ d.tags, tag ∈ channelNames ∨ tag = "expression") ∧
      (f.ShadersHandled → ∀ tag ∈ d.tags, tag ∈ channelNames)) := by
  obtain ⟨names, hShaped⟩ := hReached.shaped
  obtain ⟨names', -, hFinal, -⟩ := shaped_of_document hShaped hRun
  have hTidy : d.tags.Nodup ∧ ∀ tag ∈ d.tags, tag ∈ bundleKeys := by
    obtain hNone | ⟨i, hTags⟩ := tags_of_document hNodes hRun
    · exact hNone ▸ ⟨nodup_nil, forall_mem_nil _⟩
    · have hBundle := tidy_getD hFinal.bundles i
      exact hTags ▸ ⟨hBundle.distinct, forall_mem_map.mpr hBundle.keys⟩
  refine ⟨hTidy.1, fun tag hTag => by simpa [bundleKeys] using hTidy.2 tag hTag, fun hTyped hUnread => ⟨?_, ?_⟩⟩
  · intro tag hTag
    have hWritten : Written f ⟨False, False⟩ d :=
      written_document hTyped ⟨False.elim, False.elim⟩ (by rintro _ ⟨⟩; exact hUnread) hRun
    by_cases hPosition : tag = "expression"
    · exact .inr hPosition
    · exact .inl (mem_channelNames (hTidy.2 tag hTag) (hWritten.channel_of_tag hTag).1 hPosition)
  · intro hHandled tag hTag
    have hWritten : Written f ⟨True, False⟩ d :=
      written_document hTyped (allows_of_handled hHandled False.elim) (by rintro _ ⟨⟩; exact hUnread) hRun
    obtain ⟨hOutput, hPosition⟩ := hWritten.channel_of_tag hTag
    exact mem_channelNames (hTidy.2 tag hTag) hOutput (hPosition trivial)

section Samples

open SceneExchange.Workload

/-- A surface whose shader has no handler. -/
def clothForest : Forest where
  trees := #[tree [outputNode, node "BSDF_SHEEN" [sand "Color"] [shader "BSDF"]] [⟨1, 0, 0, 0⟩]]

theorem reached_new (f : Forest) : Session.Reached f {} := .start ⟨nodup_nil, forall_mem_nil _⟩ rfl rfl rfl

theorem tags_of_channels_cloth :
    (∃ d t, outcome (document (some (nodeMaterial 0)) true false) falloffForest {} = (.ok d, t) ∧
      falloffForest.ShadersHandled ∧ d.tags.length = 1 ∧ ∀ tag ∈ d.tags, tag ∈ channelNames) ∧
    ∃ d t, outcome (document (some (nodeMaterial 0)) true false) clothForest {} = (.ok d, t) ∧ clothForest.Typed ∧
      d.tags.Nodup ∧ d.tags = ["expression"] := by
  constructor
  · obtain ⟨d, t, hRun, hLength⟩ := exists_of_map (g := fun d => d.tags.length) (b := 1)
      (x := outcome (document (some (nodeMaterial 0)) true false) falloffForest {}) (by decide +kernel)
    have hHandled : falloffForest.ShadersHandled := by decide +kernel
    obtain ⟨-, -, hTyped⟩ := tags_of_channels (reached_new _) rfl hRun
    exact ⟨d, t, hRun, hHandled, hLength, (hTyped (by decide +kernel) fun _ _ _ => rfl).2 hHandled⟩
  · obtain ⟨d, t, hRun, hTags⟩ := exists_of_map (g := Document.tags) (b := ["expression"])
      (x := outcome (document (some (nodeMaterial 0)) true false) clothForest {}) (by decide +kernel)
    obtain ⟨hNodup, -, -⟩ := tags_of_channels (reached_new _) rfl hRun
    exact ⟨d, t, hRun, by decide +kernel, hNodup, hTags⟩

end Samples

end SceneExchange.Material
