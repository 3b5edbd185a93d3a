import SceneExchange.Proofs.Documents
import SceneExchange.Proofs.MeshElements
import SceneExchange.Proofs.Shapes
import SceneExchange.Workload.Materials

/-!
# Elements of textures

Every texture that a material or the environment names is in the catalog, and every texture of the
catalog has one element in the document.
-/

open List

namespace SceneExchange.Material

open SceneExchange.Graph Compile Shaping

/-- The names of textures in an expression: of an image that it reads, or of a texture object. -/
def Expression.textureNames (e : Expression) : List Datum := e.element.valuesOf "PathName" ++ e.element.valuesOf "val"

section Names

variable {names : List String} {key : String}

theorem mem_contentValues {ps : List Part} {v : Datum} (h : v ∈ Markup.contentValues key (ps.map Part.content)) :
    ∃ p ∈ ps, v ∈ Markup.contentValues key [p.content] := by
  induction ps with
  | nil => cases h
  | cons p ps ih =>
    have hSplit : Markup.contentValues key ((p :: ps).map Part.content) =
        Markup.contentValues key [p.content] ++ Markup.contentValues key (ps.map Part.content) := by
      rw [map_cons]
      cases p.content <;> simp [Markup.contentValues]
    rw [hSplit] at h
    obtain h | h := mem_append.mp h
    · exact ⟨p, mem_cons_self, h⟩
    · obtain ⟨q, hq, hv⟩ := ih h
      exact ⟨q, mem_cons_of_mem p hq, hv⟩

theorem Part.Shaped.contentValues_eq_nil {p : Part} (h : p.Shaped) (hKey : key ∈ ["PathName", "val"]) :
    Markup.contentValues key [p.content] = [] := by
  have hOther : key ∉ ["path", "index", "name", "expression"] :=
    (by decide : ∀ k ∈ ["PathName", "val"], k ∉ ["path", "index", "name", "expression"]) key hKey
  simp only [mem_cons, not_mem_nil, or_false, not_or] at hOther
  obtain ⟨hPath, hIndex, hName, hExpression⟩ := hOther
  cases h with
  | input => rfl
  | mask => rfl
  | inert hInert =>
    rw [Part.content, Markup.contentValues, hInert.valuesOf (by simp [hPath, hIndex, hName])]
    rfl
  | coordinates e =>
    simp [Part.content, Markup.contentValues, Markup.Element.valuesOf, Markup.Element.leaf, Ne.symm hExpression]

theorem eq_of_mem_textureInput {name : String} (hKey : key ∈ ["PathName", "val"]) {v : Datum}
    (hv : v ∈ Markup.contentValues key [(textureInput name).content]) : v = .text name := by
  simp only [Part.content, Markup.contentValues, Markup.Element.valuesOf, Markup.Element.leaf, append_nil] at hv
  obtain ⟨x, hx, rfl⟩ := mem_map.mp hv
  obtain ⟨hx, hSame⟩ := mem_filter.mp hx
  have hOther : key ≠ "name" ∧ key ≠ "type" :=
    (by decide : ∀ k ∈ ["PathName", "val"], k ≠ "name" ∧ k ≠ "type") key hKey
  simp only [mem_cons, not_mem_nil, or_false] at hx
  obtain rfl | rfl | rfl := hx
  · exact absurd (eq_of_beq hSame) hOther.1.symm
  · exact absurd (eq_of_beq hSame) hOther.2.symm
  · rfl

theorem Expression.Shaped.mem_of_textureName {e : Expression} (h : e.Shaped names) {v : Datum}
    (hv : v ∈ e.textureNames) : ∃ name ∈ names, v = .text name := by
  obtain ⟨key, hKey, hv⟩ : ∃ key ∈ ["PathName", "val"], v ∈ e.element.valuesOf key := by
    simpa [textureNames] using hv
  rw [Expression.element, Markup.Element.valuesOf] at hv
  have hNone {ps : List Part} (hParts : ∀ p ∈ ps, p.Shaped) : v ∉ Markup.contentValues key (ps.map Part.content) := by
    intro hv
    obtain ⟨p, hp, hValue⟩ := mem_contentValues hv
    rw [(hParts p hp).contentValues_eq_nil hKey] at hValue
    cases hValue
  cases h with
  | ordinary _ hKeys hParts =>
    obtain hv | hv := mem_append.mp hv
    · obtain ⟨x, hx, rfl⟩ := mem_map.mp hv
      obtain ⟨hx, hSame⟩ := mem_filter.mp hx
      have hFree : ∀ keys ∈ attributeKeys, ∀ k ∈ ["PathName", "val"], k ∉ keys := by decide
      exact absurd (mem_map.mpr ⟨x, hx, eq_of_beq hSame⟩) (hFree _ hKeys key hKey)
    · exact absurd hv (hNone hParts)
  | @texture name _ hName hParts =>
    obtain hv | hv := mem_append.mp hv
    · obtain ⟨x, hx, rfl⟩ := mem_map.mp hv
      obtain rfl := mem_singleton.mp (mem_filter.mp hx).1
      exact ⟨name, hName, rfl⟩
    · exact absurd hv (hNone hParts)
  | @object name hName => exact ⟨name, hName, eq_of_mem_textureInput hKey (by simpa using hv)⟩

end Names

section Runs

variable {f : Forest} {names : List String} {s t : Session} {alwaysTwoSided : Bool}
  {l : List (Option Definition × Bool)} {ds : List Document}

theorem shaped_of_materials {T : String → Prop} (h : s.Shaped f T names)
    (hRun : outcome (l.mapM fun x => document x.1 x.2 alwaysTwoSided) f s = (.ok ds, t)) :
    ∃ names', names ⊆ names' ∧ t.Shaped f T names' ∧ ∀ d ∈ ds, d.Shaped names' := by
  induction l generalizing s names ds with
  | nil =>
    rw [mapM_nil] at hRun
    cases hRun
    exact ⟨names, List.Subset.refl _, h, by simp⟩
  | cons x l ih =>
    rw [mapM_cons] at hRun
    obtain ⟨d, u, hFirst, hRun⟩ := outcome_bind_eq_ok hRun
    obtain ⟨rest, v, hRest, hRun⟩ := outcome_bind_eq_ok hRun
    cases hRun
    obtain ⟨names₁, hNames₁, hShaped₁, hd⟩ := shaped_of_document h hFirst
    obtain ⟨names₂, hNames₂, hShaped₂, hRest⟩ := ih hShaped₁ hRest
    exact ⟨names₂, List.Subset.trans hNames₁ hNames₂, hShaped₂, forall_mem_cons.mpr ⟨hd.mono hNames₂, hRest⟩⟩

theorem promised_subset_closed (s : Session) : s.promised ⊆ s.closed.keys := by
  unfold Session.promised Session.closed
  split
  · rename_i hNone
    simp [hNone]
  · rename_i hCurve
    rw [if_pos (by simpa using hCurve)]
    apply append_subset.mpr
    constructor
    · exact Texture.keys_subset_enter _ _ _ _
    · simpa using Texture.mem_keys_enter s.textures curvesName s.curvesPlace Texture.defaultHint

theorem listed_closed (h : s.textures.Listed) : s.closed.Listed := by
  unfold Session.closed
  split
  · exact h.enter (by decide)
  · exact h

theorem shaped_of_documents (hCatalog : s.textures.Listed) (hStations : s.stations = []) (hBundles : s.bundles = #[])
    (hExpressions : s.expressions = #[]) (hRun : outcome (documents l alwaysTwoSided) f s = (.ok ds, t)) :
    t.textures.Listed ∧ s.textures.keys ⊆ t.textures.keys ∧ ∀ d ∈ ds, d.Shaped t.textures.keys := by
  rw [outcome_documents] at hRun
  obtain ⟨_, u, hMaterials, hRun⟩ := outcome_bind_eq_ok hRun
  have hStart : s.rewound.Shaped f (fun _ => True) s.textures.keys := by
    refine ⟨subset_append_left _ _, ⟨trivial, by simp⟩, by simp, hCatalog, ?_, ?_, ?_⟩
    · simp [Session.rewound, hStations]
    · simp [Session.rewound, hBundles]
    · simp [Session.rewound, hExpressions]
  obtain ⟨names, hNames, hShaped, hEach⟩ := shaped_of_materials hStart hMaterials
  obtain ⟨v, hEnter, -, -, hTextures⟩ := exists_enterCurveTexture
  rw [outcome_bind_ok hEnter] at hRun
  obtain ⟨hSame, rfl⟩ := Prod.mk.inj hRun
  cases hSame
  have hKeys : names ⊆ v.textures.keys := by
    rw [hTextures]
    exact List.Subset.trans hShaped.promised (promised_subset_closed u)
  refine ⟨?_, List.Subset.trans hNames hKeys, fun d hd => (hEach d hd).mono hKeys⟩
  rw [hTextures]
  exact listed_closed hShaped.catalog

end Runs

end SceneExchange.Material

namespace SceneExchange.Export

open Exporting Markup Scene

variable {f : Graph.Forest} {st st' st₁ st₁' : State} {base folder : String}

theorem aside_environment {world : Option World} : Material.Aside (environment world) := by
  open Material in
  unfold environment
  split
  · exact fun _ s => .refl s
  · split
    · exact fun _ s => .refl s
    · refine aside_write.bind fun _ => Aside.bind (fun _ s => .refl s) fun f => Aside.lift.bind fun source => ?_
      split
      · exact fun _ s => .refl s
      · dsimp only
        split
        · exact aside_write.bind fun _ _ s => .refl s
        · exact aside_write.bind fun _ => Aside.lift.bind fun _ => aside_enterTexture.bind fun _ _ s => .refl s

theorem mem_keys_of_environment {world : Option World} {s lit : Material.Session} {lights : List Element}
    (h : Material.outcome (environment world) f s = (.ok lights, lit)) :
    ∀ e ∈ lights, ∀ v ∈ e.valuesOf "tex", ∃ name ∈ lit.textures.keys, v = .text name := by
  obtain ⟨rfl, -⟩ | ⟨image, texture, u, hEnter, -, rfl⟩ := environment_eq h
  · simp
  · rw [Material.outcome_enterTexture] at hEnter
    split at hEnter
    · cases hEnter
    · cases hEnter
      refine fun e he v hv => ⟨texture, Texture.mem_keys_enter u.textures texture image Texture.defaultHint, ?_⟩
      simp only [mem_cons, not_mem_nil, or_false] at he
      obtain rfl | rfl := he <;> simpa [environmentElement, Element.valuesOf, contentValues, Element.leaf] using hv

theorem titles_of_textured {entries : List Texture.Entry} {textures : List Element}
    (h : Forall₂ Texture.IsElement entries textures) :
    textures.map Element.title? = entries.map fun entry => some entry.name := by
  induction h with
  | nil => rfl
  | @cons entry e _ _ hFirst _ ih =>
    obtain ⟨-, rest, hAttributes⟩ := hFirst
    rw [map_cons, map_cons, ih]
    simp [Element.title?, hAttributes]

/-- Textures are listed under the names that materials and the environment know them by, each of them
once, and each of them has its element in the document. -/
theorem texture_references_resolve {world : Option World} {images : Array Texture.Image} {hostImages : List Nat}
    {l : List (Option Material.Definition × Bool)} {alwaysTwoSided skip : Bool} {animation : Option String}
    {lights animations textures : List Element} {lit t : Material.Session} {ds : List Material.Document}
    (hLit : Material.outcome (environment world) f { images := images, hostImages := hostImages } = (.ok lights, lit))
    (hDocuments : Material.outcome (Material.documents l alwaysTwoSided) f lit = (.ok ds, t))
    (hAnimations : (saveAnimation base folder animation).run st = (.ok animations, st'))
    (hTextures : (saveTextures base folder skip t).run st₁ = (.ok textures, st₁')) :
    (∀ d ∈ ds, ∀ es ∈ d.expressions, ∀ e ∈ es, ∀ v ∈ e.textureNames, ∃ name ∈ t.textures.keys, v = .text name) ∧
    (∀ e ∈ lights, ∀ v ∈ e.valuesOf "tex", ∃ name ∈ t.textures.keys, v = .text name) ∧
    t.textures.Listed ∧
    ∀ (h : Host) (actors : String) (assets : List Mesh.Asset),
      ((Exporting.root h actors animations lights (assets.map (·.element folder)) (ds.map (·.element))
        textures).tagged "Texture").map Element.title? = t.textures.keys.map some := by
  have hBeside : Material.Session.Beside { images := images, hostImages := hostImages }
      (Material.outcome (environment world) f { images := images, hostImages := hostImages }).2 :=
    aside_environment f _
  rw [hLit] at hBeside
  have hFooting := hBeside.footing
  simp only [Material.Session.footing, Prod.mk.injEq] at hFooting
  have hListed : lit.textures.Listed := hBeside.catalog ⟨by simp [Table.keys, Table.empty], by simp [Table.empty]⟩
  obtain ⟨hListed', hKeys, hShaped⟩ :=
    Material.shaped_of_documents hListed hFooting.2.2.2.2.2.1 hFooting.2.1 hFooting.1 hDocuments
  have hTextured := (leaves_saveTextures not_isMeshFile_texture textures st₁' hTextures).1
  refine ⟨fun d hd es hes e he v hv => ((hShaped d hd).expressions es hes e he).mem_of_textureName hv,
    fun e he v hv => ?_, hListed', fun h actors assets => ?_⟩
  · obtain ⟨name, hName, rfl⟩ := mem_keys_of_environment hLit e he v hv
    exact ⟨name, hKeys hName, rfl⟩
  · rw [tagged_root (leaves_saveAnimation animations st' hAnimations) (name_of_environment hLit) name_of_meshElement
      name_of_document (name_of_textured hTextured) (by decide)]
    rw [if_neg (by decide), if_neg (by decide), if_neg (by decide), if_neg (by decide), if_pos rfl]
    simp only [nil_append]
    rw [titles_of_textured hTextured, Table.values, Table.keys, map_map, map_map]
    exact map_congr_left fun x hx => congrArg some (hListed'.named x hx).1

section Sample

open SceneExchange.Workload

/-- A surface whose color is an image sent through a ramp, under a sky that is an image too. -/
def skyForest : Graph.Forest where
  trees := #[
    tree [node "OUTPUT_WORLD" [shader "Surface", shader "Volume"] [], node "BACKGROUND" [sand "Color"] [shader "Background"],
      { node "TEX_ENVIRONMENT" [computed "Vector"] [sand "Color"] with image := .given 1 }]
      [⟨1, 0, 0, 0⟩, ⟨2, 0, 1, 0⟩],
    tree [outputNode, node "BSDF_DIFFUSE" [sand "Color", half "Roughness"] [shader "BSDF"],
      { node "VALTORGB" [half "Fac"] [sand "Color", half "Alpha"] with ramp := .given ⟨fun p => [p, p, p, 1.0]⟩ },
      imageNode "FLAT" 0]
      [⟨1, 0, 0, 0⟩, ⟨2, 0, 1, 0⟩, ⟨3, 0, 2, 0⟩]]

def skyShelf : State := ((makeFolder "out/sky_Assets").run ⟨{}, #[], #[]⟩).2

theorem texture_references_resolve_sky : ∃ lights lit ds t textures st',
    Material.outcome (environment (some ⟨true, 0⟩)) skyForest { images := images } = (.ok lights, lit) ∧
    Material.outcome (Material.documents [(some (definition "Sand" 1), true)] true) skyForest lit = (.ok ds, t) ∧
    (saveTextures "out" "sky_Assets" false t).run skyShelf = (.ok textures, st') ∧
    (∀ d ∈ ds, ∀ es ∈ d.expressions, ∀ e ∈ es, ∀ v ∈ e.textureNames, ∃ name ∈ t.textures.keys, v = .text name) ∧
    (∀ e ∈ lights, ∀ v ∈ e.valuesOf "tex", ∃ name ∈ t.textures.keys, v = .text name) ∧ t.textures.Listed ∧
    ((Exporting.root clerk "" [] lights [] (ds.map (·.element)) textures).tagged "Texture").map Element.title? =
      [some "img_1_png", some "img_0_png", some "blender_curves"] := by
  let light := Material.outcome (environment (some ⟨true, 0⟩)) skyForest { images := images }
  let compiled := Material.outcome (Material.documents [(some (definition "Sand" 1), true)] true) skyForest light.2
  have hRuns : (light.1.isOk, compiled.1.isOk, compiled.2.textures.keys) =
      (true, true, ["img_1_png", "img_0_png", "blender_curves"]) := by decide +kernel
  have hSaved : ((saveTextures "out" "sky_Assets" false compiled.2).run skyShelf).1.isOk = true := by decide +kernel
  obtain ⟨hOk, hOk', hKeys⟩ : light.1.isOk = true ∧ compiled.1.isOk = true ∧ _ := by simpa using hRuns
  obtain ⟨lights, hLit⟩ := Material.exists_ok_of_isOk hOk
  obtain ⟨ds, hDocuments⟩ := Material.exists_ok_of_isOk hOk'
  obtain ⟨textures, hTextures⟩ := Material.exists_ok_of_isOk hSaved
  have hNothing : (saveAnimation "out" "sky_Assets" none).run skyShelf = (.ok [], skyShelf) := rfl
  obtain ⟨hNames, hLights, hListed, hElements⟩ := texture_references_resolve hLit hDocuments hNothing hTextures
  refine ⟨lights, light.2, ds, compiled.2, textures, _, hLit, hDocuments, hTextures, hNames, hLights, hListed, ?_⟩
  rw [hKeys] at hElements
  exact hElements clerk "" []

end Sample

end SceneExchange.Export
