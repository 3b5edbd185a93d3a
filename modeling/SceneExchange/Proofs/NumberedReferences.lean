import SceneExchange.Proofs.Resolution

/-!
# References that are written as numbers

A document names expressions and their outputs by values that a reader takes as whole numbers. In a
typed forest in which every node with a shader output has a handler, all of them are decimal texts of
such numbers, those of outputs of natural ones, as long as no node reduces the fall-off of a light.

Such a node refers to the operand of its strength as if it were a position. What is written there is
read as a number only if the strength is a bare position, which no reference to an output is.
-/

open List

namespace SceneExchange

open Number Datum

namespace Graph.Forest

/-- Every node with a shader output is of a kind that has a handler or is passed through. -/
def ShadersHandled (f : Forest) : Prop :=
  ∀ t ∈ f.trees.toList, ∀ n ∈ t.nodes.toList, ∀ s ∈ n.outputs, s.kind = .shader → Material.Handled n.kind

def Lacks (f : Forest) (kind : String) : Prop := ∀ t ∈ f.trees.toList, ∀ n ∈ t.nodes.toList, n.kind ≠ kind

instance (f : Forest) : Decidable f.ShadersHandled :=
  inferInstanceAs (Decidable (∀ t ∈ f.trees.toList, ∀ n ∈ t.nodes.toList, ∀ s ∈ n.outputs, _ → _))

instance (f : Forest) (kind : String) : Decidable (f.Lacks kind) :=
  inferInstanceAs (Decidable (∀ t ∈ f.trees.toList, ∀ n ∈ t.nodes.toList, _))

end Graph.Forest

namespace Material

open SceneExchange.Graph Compile Material.Frame References

namespace Entry

def expressions : Entry → List Datum
  | .channel _ source => [source.expression]
  | .element _ expression => [.int expression]
  | .text _ => []

def outputs : Entry → List Datum
  | .channel _ source => [source.output]
  | .element _ _ => [.text "0"]
  | .text _ => []

end Entry

namespace Document

def expressionValues (d : Document) : List Datum :=
  (d.body.flatMap fun e => e.parts.flatMap Part.expressions) ++ d.entries.flatMap Entry.expressions

def outputValues (d : Document) : List Datum :=
  (d.body.flatMap fun e => e.parts.flatMap Part.outputs) ++ d.entries.flatMap Entry.outputs

structure Numbered (d : Document) : Prop where
  expressions : ∀ v ∈ d.expressionValues, ∃ n : Int, v.display = toString n ∧ readInteger? v.display = some n
  outputs : ∀ v ∈ d.outputValues, ∃ k : Nat, v.display = toString k ∧ readInteger? v.display = some (k : Int)

end Document

theorem exists_display_int (n : Int) :
    ∃ k : Int, (int n).display = toString k ∧ readInteger? (int n).display = some k := by
  refine ⟨n, display_int n, ?_⟩
  rw [display_int]
  exact readInteger?_toString n

theorem exists_display_nat (n : Nat) :
    ∃ k : Nat, (int n).display = toString k ∧ readInteger? (int n).display = some (k : Int) := by
  refine ⟨n, display_int n, ?_⟩
  rw [display_int]
  exact readInteger?_toString n

theorem Document.numbered_of_parts {d : Document} (hParts : ∀ e ∈ d.body, ∀ p ∈ e.parts, p.Numbered)
    (hEntries : ∀ x ∈ d.entries, x.Numbered) : d.Numbered where
  expressions v hv := by
    obtain hv | hv := mem_append.mp hv
    · obtain ⟨e, he, hv⟩ := mem_flatMap.mp hv
      obtain ⟨p, hp, hv⟩ := mem_flatMap.mp hv
      obtain ⟨n, rfl⟩ := (hParts e he p hp).expressions v hv
      exact exists_display_int n
    · obtain ⟨x, hx, hv⟩ := mem_flatMap.mp hv
      cases x with
      | channel name source =>
        obtain ⟨n, k, rfl⟩ := hEntries _ hx
        obtain rfl := mem_singleton.mp hv
        exact exists_display_int n
      | element name e =>
        obtain rfl := mem_singleton.mp hv
        exact exists_display_int e
      | text t => cases hv
  outputs v hv := by
    obtain hv | hv := mem_append.mp hv
    · obtain ⟨e, he, hv⟩ := mem_flatMap.mp hv
      obtain ⟨p, hp, hv⟩ := mem_flatMap.mp hv
      obtain ⟨k, rfl⟩ := (hParts e he p hp).outputs v hv
      exact exists_display_nat k
    · obtain ⟨x, hx, hv⟩ := mem_flatMap.mp hv
      cases x with
      | channel name source =>
        obtain ⟨n, k, rfl⟩ := hEntries _ hx
        obtain rfl := mem_singleton.mp hv
        exact exists_display_nat k
      | element name e =>
        obtain rfl := mem_singleton.mp hv
        exact ⟨0, rfl, readInteger?_toString 0⟩
      | text t => cases hv

theorem numbered_directInput (name : String) (e : Int) : (directInput name e 0).Numbered where
  expressions := forall_mem_singleton.mpr ⟨e, rfl⟩
  outputs := forall_mem_singleton.mpr ⟨0, rfl⟩

theorem heightChain_numbered (start : Int) (heights : List Int) :
    ∀ e ∈ heightChain start heights, ∀ p ∈ e.parts, p.Numbered := by
  fun_induction heightChain start heights with
  | case1 => exact forall_mem_nil _
  | case2 start e =>
    refine forall_mem_singleton.mpr (forall_mem_singleton.mpr ?_)
    exact numbered_directInput "0" e
  | case3 start e rest _ ih =>
    refine forall_mem_cons.mpr ⟨forall_mem_cons.mpr ⟨?_, forall_mem_singleton.mpr ?_⟩, ih⟩
    · exact numbered_directInput "0" e
    · exact numbered_directInput "1" (start + 1)

section Written

variable {f : Forest} {floor : Nat} {s t : Session}

theorem tied_numbered (h : Sound f (.whole ⟨True, True⟩ 0 floor) False s) {e : Expression}
    (he : e ∈ s.tied.expressions.toList) : ∀ p ∈ e.parts, p.Numbered := by
  rw [Session.tied, Array.toList_append] at he
  obtain he | he := mem_append.mp he
  · obtain ⟨i, hi⟩ := mem_iff_getElem?.mp he
    rw [Array.getElem?_toList] at hi
    exact h.numbered ⟨trivial, trivial⟩ i e (Nat.zero_le i) hi
  · exact heightChain_numbered _ _ e he

/-- What was emitted before the height textures were tied, while they were and after that. -/
theorem expressions_numbered (hBefore : Sound f (.whole ⟨True, True⟩ 0 floor) False s)
    (hGrows : s.tied.Grows (.whole ⟨True, True⟩ s.tied.expressions.size floor) t)
    (hAfter : Sound f (.whole ⟨True, True⟩ s.tied.expressions.size floor) False t) :
    ∀ e ∈ t.expressions.toList, ∀ p ∈ e.parts, p.Numbered := by
  intro e he
  obtain ⟨i, hi⟩ := mem_iff_getElem?.mp he
  by_cases hOld : i < s.tied.expressions.size
  · obtain ⟨more, hMore⟩ := hGrows.expressions
    rw [← hMore, getElem?_append_left (by simpa using hOld)] at hi
    exact tied_numbered hBefore (mem_of_getElem? hi)
  · rw [Array.getElem?_toList] at hi
    exact hAfter.numbered ⟨trivial, trivial⟩ i e (Nat.le_of_not_lt hOld) hi

theorem Written.numbered {d : Document} (h : Written f ⟨True, True⟩ d) : d.Numbered := by
  cases h with
  | nothing name => exact Document.numbered_of_parts (forall_mem_nil _) (forall_mem_nil _)
  | surface name sound heights grows rest entries =>
    refine Document.numbered_of_parts (expressions_numbered sound grows rest) fun x hx => ?_
    exact (entries x hx).numbered ⟨trivial, trivial⟩

end Written

theorem allows_of_handled {f : Forest} (hHandled : f.ShadersHandled) {straight : Prop}
    (hLacks : straight → f.Lacks "LIGHT_FALLOFF") : Allows ⟨True, straight⟩ f where
  handled _ out hKind := by
    refine Forest.forall_node ?_ hHandled
      (nodeOf out) _ (Forest.outputSocket_mem hKind) hKind
    exact forall_mem_nil _
  straight hStraight := Forest.forall_node (by decide) (hLacks hStraight)

section Falloff

theorem readInteger?_of_head {d : Datum} (c : Char) (hc : c ∈ ['N', '\x7b']) (h : d.display.toList.head? = some c) :
    readInteger? d.display = none := by
  have hKind : ∀ c ∈ ['N', '\x7b'], isAscii c ∧ Text.isAsciiBlank c = false ∧ isDigit c = false ∧
      c ∉ ['-', '+', '_'] := by decide
  obtain ⟨hAscii, hBlank, hDigit, hSign⟩ := hKind c hc
  obtain ⟨rest, hRest⟩ := head?_eq_some_iff.mp h
  exact readInteger?_eq_none hRest hAscii hBlank hDigit hSign

theorem readInteger?_datum (bundles : Array Bundle) (fuel : Nat) (visited : List Nat) (o : Operand) :
    readInteger? (o.datum bundles fuel visited).display = o.position? := by
  cases o with
  | none =>
    have hText : (Operand.none.datum bundles fuel visited).display.toList.head? = some 'N' := by
      cases fuel <;> simp [Operand.datum, display, literal]
    exact readInteger?_of_head 'N' (by decide) hText
  | index n =>
    rw [datum_index, display_int]
    exact readInteger?_toString n
  | bundle i =>
    have hText : ((Operand.bundle i).datum bundles fuel visited).display.toList.head? = some '\x7b' := by
      cases fuel with
      | zero => simp [Operand.datum, display, literal]
      | succ fuel =>
        rw [Operand.datum]
        split <;> simp [record, display, literal]
    exact readInteger?_of_head '\x7b' (by decide) hText

theorem outcome_source_wrapped (f : Forest) (s : Session) (o : Operand) (k : Int) {r : Operand} {t : Session}
    (h : outcome (newBundle [("expression", o)]) f s = (.ok r, t)) :
    outcome (source r k) f t = (.ok ⟨o.datum t.bundles t.bundles.size [s.bundles.size], .int 0⟩, t) := by
  cases h
  rw [outcome_source_bundle, Array.getElem?_push_size]
  rfl

def falloffWarning : String := "Unsupported node 'Light Falloff', returning unmodified light strength"

theorem readInteger?_of_falloff {visit : Visit} {f : Forest} {out : SocketRef} {s t : Session} {r : Operand}
    (hRun : outcome (Handlers.lightFalloff visit out) f s = (.ok r, t)) :
    ∃ u v strength, outcome (warnOnce falloffWarning) f s = (.ok (), u) ∧
      outcome (visit.named (nodeOf out) "Strength") f u = (.ok strength, v) ∧
      ∀ k, ∃ x, outcome (source r k) f t = (.ok x, t) ∧ readInteger? x.expression.display = strength.position? := by
  obtain ⟨_, u, hWarned, hRun⟩ := outcome_bind_eq_ok hRun
  obtain ⟨strength, v, hStrength, hBundle⟩ := outcome_bind_eq_ok hRun
  refine ⟨u, v, strength, hWarned, hStrength, fun k => ⟨_, outcome_source_wrapped f v strength k hBundle, ?_⟩⟩
  exact readInteger?_datum _ _ _ strength

end Falloff

theorem document_refers_by_numbers (f : Forest) : (f.Typed → f.ShadersHandled → f.Lacks "LIGHT_FALLOFF" →
      ∀ (m : Option Definition) (s t : Session) (owned alwaysTwoSided : Bool) (d : Document),
        (∀ x ∈ m, s.Unread f x.tree) → outcome (document m owned alwaysTwoSided) f s = (.ok d, t) → d.Numbered) ∧
    ∀ (visit : Visit) (out : SocketRef) (s t : Session) (r : Operand),
      outcome (Handlers.lightFalloff visit out) f s = (.ok r, t) →
      ∃ u v strength, outcome (warnOnce falloffWarning) f s = (.ok (), u) ∧
        outcome (visit.named (nodeOf out) "Strength") f u = (.ok strength, v) ∧
        ∀ k, ∃ x, outcome (source r k) f t = (.ok x, t) ∧ readInteger? x.expression.display = strength.position? := by
  constructor
  · intro hTyped hHandled hLacks m s t owned alwaysTwoSided d hUnread hRun
    exact (written_document hTyped (allows_of_handled hHandled fun _ => hLacks) hUnread hRun).numbered
  · intro visit out s t r hRun
    exact readInteger?_of_falloff hRun

section Samples

open SceneExchange.Workload

def falloffForest : Forest where
  trees := #[tree [outputNode, node "EMISSION" [sand "Color", half "Strength"] [shader "Emission"],
        node "LIGHT_FALLOFF" [half "Strength", half "Smooth"] [half "Quadratic", half "Linear", half "Constant"]]
      [⟨1, 0, 0, 0⟩, ⟨2, 1, 1, 1⟩]]

theorem document_refers_by_numbers_relief :
    (reliefForest.Typed ∧ reliefForest.ShadersHandled ∧ reliefForest.Lacks "LIGHT_FALLOFF" ∧
      ∃ d t, outcome (document (some (nodeMaterial 0)) true false) reliefForest reliefSession = (.ok d, t) ∧
        d.expressionValues.length = 22 ∧ d.Numbered) ∧
    falloffForest.Typed ∧ falloffForest.ShadersHandled ∧
      (∃ r t x, outcome (Handlers.lightFalloff (compileWith 2) ⟨0, 2, 1⟩) falloffForest {} = (.ok r, t) ∧
        outcome (source r 0) falloffForest t = (.ok x, t) ∧ readInteger? x.expression.display = none) ∧
      ∃ d t, outcome (document (some (nodeMaterial 0)) true false) falloffForest {} = (.ok d, t) ∧ ¬d.Numbered := by
  constructor
  · have hTyped : reliefForest.Typed := by decide +kernel
    have hHandled : reliefForest.ShadersHandled := by decide +kernel
    have hLacks : reliefForest.Lacks "LIGHT_FALLOFF" := by decide +kernel
    obtain ⟨d, t, hRun, hLength⟩ := exists_of_map (g := fun d => d.expressionValues.length) (b := 22)
      (x := outcome (document (some (nodeMaterial 0)) true false) reliefForest reliefSession) (by decide +kernel)
    refine ⟨hTyped, hHandled, hLacks, d, t, hRun, hLength, ?_⟩
    refine (document_refers_by_numbers reliefForest).1 hTyped hHandled hLacks (some (nodeMaterial 0)) reliefSession t
      true false d ?_ hRun
    rintro m ⟨⟩
    exact fun _ _ _ => rfl
  · refine ⟨by decide +kernel, by decide +kernel, ?_, ?_⟩
    · obtain ⟨r, t, hRun, -⟩ := exists_of_map (g := fun _ => true) (b := true)
        (x := outcome (Handlers.lightFalloff (compileWith 2) ⟨0, 2, 1⟩) falloffForest {}) (by decide +kernel)
      obtain ⟨u, v, strength, hWarned, hStrength, hRead⟩ :=
        (document_refers_by_numbers falloffForest).2 (compileWith 2) ⟨0, 2, 1⟩ {} t r hRun
      obtain ⟨x, hSource, hNone⟩ := hRead 0
      have hPosition : (outcome ((compileWith 2).named (nodeOf ⟨0, 2, 1⟩) "Strength") falloffForest
          (outcome (warnOnce falloffWarning) falloffForest {}).2).1.toOption.map Operand.position? = some none := by
        decide +kernel
      rw [hWarned, hStrength] at hPosition
      exact ⟨r, t, x, hRun, hSource, hNone.trans (Option.some.inj hPosition)⟩
    · obtain ⟨d, t, hRun, hUnread⟩ := exists_of_map
        (g := fun d => d.expressionValues.all fun v => (readInteger? v.display).isSome) (b := false)
        (x := outcome (document (some (nodeMaterial 0)) true false) falloffForest {}) (by decide +kernel)
      refine ⟨d, t, hRun, fun hNumbered => ?_⟩
      obtain ⟨v, hv, hNone⟩ := all_eq_false.mp hUnread
      obtain ⟨n, -, hSome⟩ := hNumbered.expressions v hv
      exact hNone (Option.isSome_of_eq_some hSome)

end Samples

end Material

end SceneExchange
