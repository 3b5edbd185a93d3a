import SceneExchange.Proofs.Numerals
import SceneExchange.Scene.Transform

/-!
# Legal names

Making a name legal replaces one reserved character after the other, and then looks at how the result
starts. Legal names are what it makes, and what it leaves alone. The numbers of an instance stand at the
end of its name and are told by it, so that instances of one object differ in their legal names too.
-/

open List

namespace SceneExchange.Name

/-- A name without reserved characters that does not start with an underscore. -/
structure IsLegal (name : String) : Prop where
  ne_empty : name ≠ ""
  free : ∀ c ∈ name.toList, c ∉ reserved
  start : name.toList.head? ≠ some '_'

/-- Replaces one character in what has become of a name, if the name has it. -/
def replacePass (name cs : List Char) (c : Char) : List Char :=
  if c ∈ name then cs.map fun d => if d = c then '_' else d else cs

theorem foldl_replacePass (name done more : List Char) :
    more.foldl (replacePass name) (name.map fun c => if c ∈ done then '_' else c) =
      name.map fun c => if c ∈ done ++ more then '_' else c := by
  induction more generalizing done with
  | nil => simp
  | cons r more ih =>
    have hPass : replacePass name (name.map fun c => if c ∈ done then '_' else c) r =
        name.map fun c => if c ∈ done ++ [r] then '_' else c := by
      unfold replacePass
      split
      · rw [map_map]
        refine map_congr_left fun c _ => ?_
        by_cases hDone : c ∈ done <;> simp [hDone]
      · rename_i hAbsent
        refine map_congr_left fun c hc => ?_
        have hNe : c ≠ r := fun hSame => hAbsent (hSame ▸ hc)
        simp [hNe]
    rw [foldl_cons, hPass, ih, append_assoc]
    rfl

theorem replaceReserved_eq (c : Char) : replaceReserved c = if c ∈ reserved then '_' else c := by
  simp [replaceReserved]

theorem passes_eq_map (name : List Char) : reserved.foldl (replacePass name) name = name.map replaceReserved := by
  have hPasses := foldl_replacePass name [] reserved
  simp only [not_mem_nil, if_false, map_id', nil_append] at hPasses
  rw [hPasses, funext replaceReserved_eq]

theorem map_replaceReserved {cs : List Char} (h : ∀ c ∈ cs, c ∉ reserved) : cs.map replaceReserved = cs := by
  refine (map_congr_left fun c hc => ?_).trans (map_id cs)
  rw [replaceReserved_eq, if_neg (h c hc), id]

theorem legal_eq {name : String} (h : name ≠ "") : legal name = .ok (.ofList
    ((if (name.toList.map replaceReserved).head? = some '_' then ['0'] else []) ++ name.toList.map replaceReserved)) := by
  unfold legal
  split
  · rename_i hEmpty
    exact absurd (by simpa using hEmpty) h
  · rename_i rest hList
    rw [hList]
    rfl
  · rename_i hOther
    rw [if_neg]
    · rfl
    · intro hHead
      obtain ⟨rest, hList⟩ := head?_eq_some_iff.mp hHead
      exact hOther rest hList

theorem isLegal_of_legal {name title : String} (h : legal name = .ok title) : IsLegal title where
  ne_empty := ne_empty_of_legal h
  free c hc hReserved := notMem_of_legal h hReserved hc
  start := by
    have hName : name ≠ "" := by
      rintro rfl
      cases h
    cases (legal_eq hName).symm.trans h
    rw [String.toList_ofList]
    split
    · simp
    · assumption

theorem legal_of_isLegal {name : String} (h : IsLegal name) : legal name = .ok name := by
  rw [legal_eq h.ne_empty, map_replaceReserved h.free, if_neg h.start, nil_append, String.ofList_toList]

/-- Every name but the empty one is made legal: each reserved character becomes an underscore, the others
keep their places, and a zero goes in front of a leading underscore. What is legal is left alone, and
nothing else is. -/
theorem legal_projects (name : String) : (∀ e, legal name = .error e ↔ name = "" ∧ e = .sequenceOutOfRange "string") ∧
    (name ≠ "" → ∃ title cs, legal name = .ok title ∧ cs = reserved.foldl (replacePass name.toList) name.toList ∧
      (∀ k : Nat, cs[k]? = name.toList[k]?.map fun c => if c ∈ reserved then '_' else c) ∧
      title.toList = (if cs.head? = some '_' then ['0'] else []) ++ cs ∧ IsLegal title ∧ legal title = .ok title) ∧
    (legal name = .ok name ↔ IsLegal name) := by
  refine ⟨fun e => ⟨fun h => ?_, ?_⟩, fun hName => ?_, isLegal_of_legal, legal_of_isLegal⟩
  · by_cases hName : name = ""
    · subst hName
      cases h
      exact ⟨rfl, rfl⟩
    · cases (legal_eq hName).symm.trans h
  · rintro ⟨rfl, rfl⟩
    rfl
  · have hLegal := isLegal_of_legal (legal_eq hName)
    refine ⟨_, name.toList.map replaceReserved, legal_eq hName, (passes_eq_map _).symm, ?_, String.toList_ofList,
      hLegal, legal_of_isLegal hLegal⟩
    intro k
    rw [getElem?_map, funext replaceReserved_eq]

/-- What is put at the end of a name stands at the end of its legal form. -/
theorem legal_append {front : String} (h : front ≠ "") :
    ∃ start, ∀ back : String, legal (front ++ back) = .ok (.ofList (start ++ back.toList.map replaceReserved)) := by
  obtain ⟨c, cs, hFront⟩ := exists_cons_of_ne_nil (mt String.toList_eq_nil_iff.mp h)
  refine ⟨(if replaceReserved c = '_' then ['0'] else []) ++ front.toList.map replaceReserved, fun back => ?_⟩
  rw [legal_eq (by simp [h])]
  simp [hFront]

end SceneExchange.Name

namespace SceneExchange.Scene

open Name Number

def idChars (id : Int) : List Char := if id = Scene.unusedId then [] else (toString id).toList

def idsChars (ids : List Int) : List Char := ids.flatMap fun id => '_' :: idChars id

theorem instanceName_eq (s : Scene) {i : Instance} {x : Nat} (h : i.instanced = some x) :
    s.instanceName i = .ok ("_".intercalate (s.chainNames (s.objects.size + 1) i.parent) ++ "_" ++ (s.object x).name ++
      "_" ++ .ofList (idsChars i.ids)) := by
  have hJoin : String.join (i.ids.map fun id => if id == Scene.unusedId then "_" else "_" ++ toString id) =
      .ofList (idsChars i.ids) := by
    refine String.toList_injective ?_
    rw [String.toList_join, String.toList_ofList, flatMap_map]
    refine congrArg (flatMap · i.ids) (funext fun id => ?_)
    by_cases hId : id = Scene.unusedId <;> simp [idChars, hId]
  rw [Scene.instanceName, h, hJoin]
  rfl

theorem underscore_notMem_idChars (id : Int) : '_' ∉ idChars id := by
  unfold idChars
  split
  · exact not_mem_nil
  · intro hMem
    obtain hMinus | hDigit := isDigit_of_mem_toString_int hMem
    · exact absurd hMinus (by decide)
    · exact absurd hDigit (by decide)

theorem idChars_injective : Function.Injective idChars := by
  have hSome (n : Int) : (toString n).toList ≠ [] := by
    cases n with
    | ofNat n => exact toList_toString_ne_nil n
    | negSucc n =>
      rw [toList_toString_negSucc]
      exact cons_ne_nil _ _
  intro a b h
  unfold idChars at h
  split at h <;> split at h
  · simp_all
  · exact absurd h.symm (hSome b)
  · exact absurd h (hSome a)
  · have hRead := congrArg readInteger? (String.toList_injective h)
    rwa [readInteger?_toString, readInteger?_toString, Option.some_inj] at hRead

/-- The numbers of an instance are told by the underscores in front of them. -/
theorem splitOn_ids (ids : List Int) {cs : List Char} (h : '_' ∉ cs) :
    (cs ++ idsChars ids).splitOn '_' = cs :: ids.map idChars := by
  induction ids generalizing cs with
  | nil => simp [idsChars, splitOn_eq_singleton h]
  | cons id ids ih =>
    change (cs ++ '_' :: (idChars id ++ idsChars ids)).splitOn '_' = _
    rw [splitOn_append_cons_self, splitOn_eq_singleton h, ih (underscore_notMem_idChars id)]
    rfl

theorem notMem_reserved_of_mem_ids {ids : List Int} {c : Char} (h : c ∈ idsChars ids) : c ∉ reserved := by
  obtain ⟨id, -, h⟩ := mem_flatMap.mp h
  obtain rfl | h := mem_cons.mp h
  · decide
  · unfold idChars at h
    split at h
    · cases h
    · obtain rfl | hDigit := isDigit_of_mem_toString_int h
      · decide
      · have hReserved : ∀ c ∈ reserved, isDigit c = false := by decide
        intro hMem
        rw [hReserved c hMem] at hDigit
        cases hDigit

/-- The actor names of instances of one object below one parent are distinct where their numbers are. -/
theorem instance_names_tell_ids (s : Scene) {i j : Instance} {x : Nat} (hi : i.instanced = some x)
    (hj : j.instanced = some x) (hParent : i.parent = j.parent) :
    ∃ a b, s.instanceName i >>= legal = .ok a ∧ s.instanceName j >>= legal = .ok b ∧ (a = b ↔ i.ids = j.ids) := by
  let front := "_".intercalate (s.chainNames (s.objects.size + 1) j.parent) ++ "_" ++ (s.object x).name ++ "_"
  obtain ⟨start, hStart⟩ := legal_append (show front ≠ "" by simp [front])
  have hLegal (ids : List Int) : legal (front ++ .ofList (idsChars ids)) = .ok (.ofList (start ++ idsChars ids)) := by
    rw [hStart, String.toList_ofList, map_replaceReserved fun c => notMem_reserved_of_mem_ids]
  refine ⟨.ofList (start ++ idsChars i.ids), .ofList (start ++ idsChars j.ids), ?_, ?_, fun hSame => ?_,
    fun hIds => by rw [hIds]⟩
  · rw [instanceName_eq s hi, hParent]
    exact hLegal i.ids
  · rw [instanceName_eq s hj]
    exact hLegal j.ids
  · have hSplit := congrArg (splitOn '_') (append_cancel_left (String.ofList_injective hSame))
    have hIds := (splitOn_ids i.ids not_mem_nil).symm.trans (hSplit.trans (splitOn_ids j.ids not_mem_nil))
    exact (map_inj_right fun _ _ h => idChars_injective h).mp (cons.inj hIds).2

theorem instance_names_tell_ids_empty_last :
    ∃ a b, ({} : Scene).instanceName { (default : Instance) with
        instanced := some 0, ids := [-12, Scene.unusedId] } >>= legal = .ok a ∧
      ({} : Scene).instanceName { (default : Instance) with instanced := some 0, ids := [-12] } >>= legal = .ok b ∧
        a ≠ b := by
  obtain ⟨a, b, ha, hb, hIff⟩ := instance_names_tell_ids {}
    (i := { (default : Instance) with instanced := some 0, ids := [-12, Scene.unusedId] })
    (j := { (default : Instance) with instanced := some 0, ids := [-12] }) rfl rfl rfl
  exact ⟨a, b, ha, hb, fun hSame => absurd (hIff.mp hSame) (by decide)⟩

end SceneExchange.Scene
