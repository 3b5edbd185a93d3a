import SceneExchange.Fault

/-!
# Legal names

Names in a scene document hold none of thirty reserved characters and do not start with an
underscore.
-/

namespace SceneExchange.Name

def reserved : List Char :=
  [' ', '.', ',', '/', '?', '<', '>', ';', ':', Text.singleQuote, Text.doubleQuote, '~', Char.ofNat 96, '[',
    ']', '\x7b', '\x7d', Text.backslash, '|', '!', '@', '#', '$', '%', '^', '&', '*', '(', ')', '=']

def replaceReserved (c : Char) : Char := if reserved.contains c then '_' else c

/-- Reserved characters become underscores, and a zero goes in front of a leading underscore.
Only the empty name has no legal form. -/
def legal (name : String) : Except Fault String :=
  match name.toList.map replaceReserved with
  | [] => .error (.sequenceOutOfRange "string")
  | '_' :: rest => .ok (String.ofList ('0' :: '_' :: rest))
  | cs => .ok (String.ofList cs)

theorem notMem_of_legal {name title : String} (h : legal name = .ok title) {c : Char} (hc : c ∈ reserved) :
    c ∉ title.toList := by
  have hMapped : c ∉ name.toList.map replaceReserved := by
    intro hMem
    obtain ⟨d, -, hd⟩ := List.mem_map.mp hMem
    unfold replaceReserved at hd
    split at hd
    · subst hd
      exact absurd hc (by decide)
    · rename_i hFree
      subst hd
      exact hFree (by simpa using hc)
  unfold legal at h
  split at h
  · cases h
  · rename_i rest hList
    cases h
    rw [hList] at hMapped
    rw [String.toList_ofList, List.mem_cons]
    rintro (rfl | hRest)
    · exact absurd hc (by decide)
    · exact hMapped hRest
  · cases h
    rwa [String.toList_ofList]

theorem ne_empty_of_legal {name title : String} (h : legal name = .ok title) : title ≠ "" := by
  unfold legal at h
  split at h
  · cases h
  · cases h
    simp
  · rename_i hNone _
    cases h
    intro hEmpty
    exact hNone (by simpa using congrArg String.toList hEmpty)

end SceneExchange.Name
