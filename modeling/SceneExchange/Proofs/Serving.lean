import SceneExchange.Proofs.Retention

/-!
# Inputs of groups that every field asks for itself

An input of a group that is not linked outside gives nothing to a plain vector with computed
coordinates and its default to every other field. It is remembered by the output alone, so the
first field that asks decides for all later ones. Compiling agrees with letting every field ask for
itself wherever all fields of one input would be given the same.
-/

namespace SceneExchange.Material

open SceneExchange.Graph Compile Material.Frame Retention List

/-- Compiles an output for a field; the inputs of a group are asked for anew. -/
def servedStep (visit : Visit) (out field : SocketRef) : Compile Operand := do
  if (← theNode out).kind == "GROUP_INPUT" then Handlers.groupInput out field
  else outputStep visit out field

def compileServed : Nat → Visit
  | 0 => fun _ _ => fail .tooDeep
  | fuel + 1 => fieldStep (servedStep (compileServed fuel))

section Steps

variable {f : Forest} {s : Session} {visit visit' : Visit} {out field : SocketRef}

theorem outcome_servedStep (hKind : (f.node (nodeOf out)).kind = "GROUP_INPUT") :
    outcome (servedStep visit out field) f s = (groupOperand f s.groupInputs out field, s) := by
  change outcome (if (f.node (nodeOf out)).kind == "GROUP_INPUT" then _ else _) f s = _
  rw [hKind, if_pos (beq_self_eq_true _)]
  exact outcome_groupInput_eq f s out field

theorem outcome_servedStep_of_ne (hKind : (f.node (nodeOf out)).kind ≠ "GROUP_INPUT") :
    outcome (servedStep visit out field) f s = outcome (outputStep visit out field) f s := by
  change outcome (if (f.node (nodeOf out)).kind == "GROUP_INPUT" then _ else _) f s = _
  rw [if_neg (by simpa using hKind)]

theorem outcome_outputStep_groupInput (hKind : (f.node (nodeOf out)).kind = "GROUP_INPUT")
    (hStation : s.stations.lookup (nodeOf out) = none) :
    outcome (outputStep visit out field) f s = (match s.memo.lookup out with
        | some o => .ok o
        | none => groupOperand f s.groupInputs out field, s) := by
  rw [outcome_outputStep, hStation]
  cases s.memo.lookup out with
  | some o => rfl
  | none =>
    dsimp only
    rw [dispatch, outcome_bind_ok (outcome_theNode out), hKind]
    exact outcome_groupInput_eq f s out field

theorem outputs_servedStep (hUniform : Uniform f)
    (hVisit : (compilation f True True fun _ => ⟨trivial, hUniform⟩).Visits visit visit') :
    (compilation f True True fun _ => ⟨trivial, hUniform⟩).Outputs (outputStep visit) (servedStep visit') := by
  intro P out field _ hSource w s s' hP hRelated
  change Joint w _ (outcome _ f s) (outcome _ f s')
  by_cases hKind : (f.node (nodeOf out)).kind = "GROUP_INPUT"
  · obtain ⟨rfl, h⟩ := hRelated
    have hStation : s.stations.lookup (nodeOf out) = none := by
      cases hLookup : s.stations.lookup (nodeOf out) with
      | none => rfl
      | some t => exact absurd hKind (h.valued trivial (nodeOf out, t) (Table.mem_of_lookup hLookup)).kind_ne
    rw [outcome_servedStep hKind, outcome_outputStep_groupInput hKind hStation, h.inputs]
    cases hMemo : s.memo.lookup out with
    | some o =>
      have hServes := h.served trivial (out, o) (Table.mem_of_lookup hMemo) hKind
      rw [hServes field hSource]
      refine .done rfl ⟨rfl, h⟩ ⟨fun p hp => ?_, fun _ _ => hServes⟩
      exact Option.some.inj (hMemo.symm.trans (h.keeps.memo out p hp))
    | none =>
      cases hOperand : groupOperand f w.start.groupInputs out field with
      | error e => exact .failed (show (frame f True True).Related w s s from ⟨rfl, h⟩)
      | ok o =>
        exact .done rfl ⟨rfl, h⟩ (output_of_vacant (lookup_eq_none h.keeps.memo hMemo) fun _ _ =>
          hUniform.serves hKind hSource hOperand)
  · rw [outcome_servedStep_of_ne hKind]
    exact (compilation f True True fun _ => ⟨trivial, hUniform⟩).outputs_outputStep hVisit hSource _ _ _ hP hRelated

theorem visits_compileServed (hUniform : Uniform f) (fuel : Nat) :
    (compilation f True True fun _ => ⟨trivial, hUniform⟩).Visits (compileWith fuel) (compileServed fuel) := by
  induction fuel with
  | zero => exact fun _ _ _ => .fail
  | succ fuel ih => exact Compilation.fieldStep _ (outputs_servedStep hUniform ih)

end Steps

section Runs

variable {f : Forest} {s t : Session}

theorem compile_eq_served (hUniform : Uniform f) (hMemo : s.memo = []) (hStations : s.stations = [])
    (fuel : Nat) (field : SocketRef) (mode : FieldMode) :
    outcome (compileWith fuel field mode) f s = outcome (compileServed fuel field mode) f s := by
  let H := compilation f True True fun _ => ⟨trivial, hUniform⟩
  have hRetains : Retains f True True ⟨s, field.tree⟩ s := by
    refine .refl _ (fun _ => ?_) fun _ => ?_
    · rw [hStations]
      exact forall_mem_nil _
    · rw [hMemo]
      exact forall_mem_nil _
  have hAgree := visits_compileServed hUniform fuel (P := H.inside (nodeOf field)) field mode
  have hJoint : Joint (F := frame f True True) (⟨s, field.tree⟩ : Point) _ (outcome (compileWith fuel field mode) f s)
      (outcome (compileServed fuel field mode) f s) := hAgree _ _ _ rfl ⟨rfl, hRetains⟩
  generalize outcome (compileWith fuel field mode) f s = x at hJoint
  generalize outcome (compileServed fuel field mode) f s = x' at hJoint
  cases hJoint with
  | done _ related => exact congrArg (Prod.mk _) related.1
  | failed related => exact congrArg (Prod.mk _) related.1
  | lost lenient => exact lenient.elim

theorem lookup_of_first_field {fuel : Nat} {out field : SocketRef} {mode : FieldMode} {o : Operand}
    (hMemo : s.memo = []) (hStations : s.stations = [])
    (hKind : (f.node (nodeOf out)).kind = "GROUP_INPUT") (hSource : f.source? field = some out)
    (hEnabled : (f.outputSocket out).enabled = true)
    (hRun : outcome (compileWith (fuel + 1) field mode) f s = (.ok o, t)) :
    (∀ x ∈ t.stations, HasValues f x.1) ∧
      ∃ p, groupOperand f s.groupInputs out field = .ok p ∧ t.memo.lookup out = some p := by
  have hValued : ∀ x ∈ s.stations, HasValues f x.1 := by
    rw [hStations]
    exact forall_mem_nil _
  obtain ⟨log, p, v, hOutput, hRetains⟩ := exists_output_of_compile hValued hSource hEnabled hRun
  let asking : Session := { s with log := log, depth := s.depth + 1 }
  have hNone : asking.memo.lookup out = none := congrArg (List.lookup out) hMemo
  have hFree : asking.stations.lookup (nodeOf out) = none := congrArg (List.lookup (nodeOf out)) hStations
  rw [outcome_outputStep_groupInput hKind hFree, hNone] at hOutput
  exact ⟨hRetains.valued trivial, p, (Prod.mk.inj hOutput).1, hRetains.keeps.memo out p (by simp)⟩

/-- Where the fields of each input of a group take its default alike, compiling with empty tables
gives to every field what the field would be given if it asked for itself. In every forest the
first field that asks for an input decides what all later ones are given. -/
theorem group_inputs_served_by_first (hMemo : s.memo = []) (hStations : s.stations = []) :
    (Uniform f → ∀ fuel field mode,
      outcome (compileWith fuel field mode) f s = outcome (compileServed fuel field mode) f s) ∧
    ∀ fuel out field mode o t, (f.node (nodeOf out)).kind = "GROUP_INPUT" →
      f.source? field = some out → (f.outputSocket out).enabled = true →
      outcome (compileWith (fuel + 1) field mode) f s = (.ok o, t) → t.Follows f t ∧
      ∀ u, t.Follows f u → (∀ visit field', outcome (outputStep visit out field') f u =
          (groupOperand f s.groupInputs out field, u)) ∧
        ∀ fuel field mode o v, outcome (compileWith fuel field mode) f u = (.ok o, v) → t.Follows f v := by
  refine ⟨fun hUniform => compile_eq_served hUniform hMemo hStations, ?_⟩
  intro fuel out field mode o t hKind hSource hEnabled hRun
  obtain ⟨hValued, p, hGiven, hKnown⟩ := lookup_of_first_field hMemo hStations hKind hSource hEnabled hRun
  refine ⟨⟨.refl f t, hValued⟩, fun u hFollows => ⟨fun visit field' => ?_, ?_⟩⟩
  · rw [outcome_outputStep, hFollows.keeps.memo out p hKnown, hGiven]
  · intro fuel field mode o v hRun
    exact hFollows.compile hRun

end Runs

section Sample

open SceneExchange.Workload

theorem uniform_of_links {f : Forest} (h : ∀ t < f.trees.size, ∀ l ∈ (f.tree t).links, ∀ l' ∈ (f.tree t).links,
    l.fromNode = l'.fromNode → l.fromOutput = l'.fromOutput →
    (f.node ⟨t, l.fromNode⟩).kind = "GROUP_INPUT" →
    refusesDefault f ⟨t, l.toNode, l.toInput⟩ = refusesDefault f ⟨t, l'.toNode, l'.toInput⟩) : Uniform f := by
  have hLink {field out : SocketRef} (hSource : f.source? field = some out) :
      ∃ l ∈ (f.tree field.tree).links, l.toNode = field.node ∧ l.toInput = field.socket ∧
        out = ⟨field.tree, l.fromNode, l.fromOutput⟩ := by
    obtain ⟨l, hHead, hOut⟩ := Option.map_eq_some_iff.mp hSource
    obtain ⟨hMem, hEnds⟩ := mem_filter.mp (mem_of_head? hHead)
    rw [Bool.and_eq_true, beq_iff_eq, beq_iff_eq] at hEnds
    exact ⟨l, hMem, hEnds.1, hEnds.2, hOut.symm⟩
  intro out hKind field field' hSource hSource'
  obtain ⟨l, hMem, hNode, hInput, rfl⟩ := hLink hSource
  obtain ⟨l', hMem', hNode', hInput', hSame⟩ := hLink hSource'
  obtain ⟨t, n, i⟩ := field
  obtain ⟨t', n', i'⟩ := field'
  simp only [SocketRef.mk.injEq] at hSame hNode hInput hNode' hInput'
  obtain ⟨rfl, hFrom, hOutput⟩ := hSame
  subst hNode hInput hNode' hInput'
  by_cases hLt : t < f.trees.size
  · exact h t hLt l hMem l' hMem' hFrom hOutput hKind
  · rw [Forest.tree, Array.getElem?_eq_none (Nat.le_of_not_lt hLt)] at hMem
    cases hMem

/-- An input of a group that feeds a vector with computed coordinates and then another field. -/
def inputForest (second : Socket) : Forest where
  trees := #[tree [node "GROUP_INPUT" [] [computed "Vector"], node "TEX_CHECKER" [computed "Vector"] [],
    node "TEX_CHECKER" [second] []] [⟨0, 0, 1, 0⟩, ⟨0, 0, 2, 0⟩]]

def inputSession : Session := { groupInputs := .ofList [("Vector", (.index 7, false))] }

/-- Two vectors with computed coordinates are served alike. A number that is asked for after such a
vector is given nothing, and not the default. -/
theorem group_inputs_served_by_vector : Uniform (inputForest (computed "Vector")) ∧
    outcome (compileWith 2 ⟨0, 2, 0⟩ .normal) (inputForest (computed "Vector")) inputSession =
      outcome (compileServed 2 ⟨0, 2, 0⟩ .normal) (inputForest (computed "Vector")) inputSession ∧
    groupOperand (inputForest (half "Scale")) inputSession.groupInputs ⟨0, 0, 0⟩ ⟨0, 2, 0⟩ = .ok (.index 7) ∧
    ∃ o t, outcome (compileWith 1 ⟨0, 1, 0⟩ .normal) (inputForest (half "Scale")) inputSession = (.ok o, t) ∧
      ∀ visit, outcome (outputStep visit ⟨0, 0, 0⟩ ⟨0, 2, 0⟩) (inputForest (half "Scale")) t = (.ok .none, t) := by
  have hUniform : Uniform (inputForest (computed "Vector")) := uniform_of_links (by decide)
  obtain ⟨hEqual, -⟩ := group_inputs_served_by_first (s := inputSession) rfl rfl
  obtain ⟨-, hFirst⟩ := group_inputs_served_by_first (f := inputForest (half "Scale")) (s := inputSession) rfl rfl
  refine ⟨hUniform, hEqual hUniform 2 ⟨0, 2, 0⟩ .normal, rfl, .none, _, rfl, fun visit => ?_⟩
  obtain ⟨hFollows, hLater⟩ := hFirst 0 ⟨0, 0, 0⟩ ⟨0, 1, 0⟩ .normal .none _ rfl rfl rfl rfl
  exact (hLater _ hFollows).1 visit ⟨0, 2, 0⟩

end Sample

end SceneExchange.Material
