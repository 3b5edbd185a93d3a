import SceneExchange.Proofs.MeshNames

/-!
# Labels of libraries

A library gets its label when a mesh from it is first named. Whatever the libraries are called and in
whatever order they are met, no two have one label, and none loses the label that it has; this holds
also after questions for meshes that failed.
-/

namespace SceneExchange.Scene

open Walking Table List

variable {s : Scene}

/-- The walk after questions for the meshes of objects, whether they were answered or failed. -/
def askAll (s : Scene) (w : Walk) (xs : List Nat) : Walk := xs.foldl (fun w x => (outcome (meshName x) s w).2) w

theorem labels_askAll (s : Scene) (w : Walk) (xs : List Nat) : ∃ libraries : List Nat,
    (askAll s w xs).labels = libraries.foldl (giveLabel s.called) w.labels := by
  induction xs generalizing w with
  | nil => exact ⟨[], rfl⟩
  | cons x xs ih =>
    obtain ⟨first, hFirst⟩ : ∃ first : List Nat,
        (outcome (meshName x) s w).2.labels = first.foldl (giveLabel s.called) w.labels := by
      generalize hRun : outcome (meshName x) s w = run
      obtain ⟨r, w'⟩ := run
      cases answers_of_meshName hRun with
      | untitled => exact ⟨_, rfl⟩
      | titled _ _ _ collects => exact ⟨_, collects.labels_eq⟩
    obtain ⟨more, hMore⟩ := ih (outcome (meshName x) s w).2
    refine ⟨first ++ more, ?_⟩
    rw [foldl_append, ← hFirst]
    exact hMore

/-- The search for a label ends at the first free one. Whatever the libraries are called, no two of them
have one label and each keeps its own; so it is after any questions for meshes. -/
theorem library_labels_distinct_and_kept (s : Scene) (called : Nat → String) (libraries xs more : List Nat) :
    (∀ base taken, ∃ n ≤ taken.length, freeLabel base taken (taken.length + 1) 0 = triedLabel base n ∧
      triedLabel base n ∉ taken ∧ ∀ k < n, triedLabel base k ∈ taken) ∧
    (libraries.foldl (giveLabel called) .empty).IsInjective ∧
    (libraries.foldl (giveLabel called) .empty).IsWithin ((libraries ++ more).foldl (giveLabel called) .empty) ∧
    (∃ asked : List Nat, (askAll s {} xs).labels = asked.foldl (giveLabel s.called) .empty) ∧
    (askAll s {} xs).labels.IsInjective ∧ (askAll s {} xs).labels.IsWithin (askAll s {} (xs ++ more)).labels := by
  have hEmpty : (Table.empty : Table Nat String).IsInjective := nofun
  obtain ⟨asked, hAsked⟩ := labels_askAll s {} xs
  obtain ⟨later, hLater⟩ := labels_askAll s (askAll s {} xs) more
  refine ⟨freeLabel_first, isInjective_giveLabels called libraries hEmpty, ?_, ⟨asked, hAsked⟩, ?_, ?_⟩
  · rw [foldl_append]
    exact isWithin_giveLabels called more _
  · rw [hAsked]
    exact isInjective_giveLabels s.called asked hEmpty
  · rw [show askAll s {} (xs ++ more) = askAll s (askAll s {} xs) more from foldl_append, hLater]
    exact isWithin_giveLabels s.called later _

end SceneExchange.Scene
