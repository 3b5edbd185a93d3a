import Mathlib.Data.Finset.Card
import Mathlib.Logic.Relation

/-!
# Ranks

A relation without cycles that leads into a finite set ranks its elements.
-/

namespace SceneExchange

variable {α : Type} {r : α → α → Prop}

theorem exists_rank (N : Finset α) (hN : ∀ a b, r a b → b ∈ N) (hAcyclic : ∀ a, ¬Relation.TransGen r a a) :
    ∃ rank : α → Nat, (∀ a b, r a b → rank a < rank b) ∧ ∀ a, rank a ≤ N.card := by
  classical
  -- An element is ranked by how many of the set lead to it. It is one of these if anything is before it.
  refine ⟨fun b => (N.filter fun a => Relation.ReflTransGen r a b).card, fun a b hab => ?_,
    fun _ => Finset.card_filter_le _ _⟩
  refine Finset.card_lt_card ((Finset.ssubset_iff_of_subset fun x hx => ?_).mpr ⟨b, ?_, fun hb => ?_⟩)
  · obtain ⟨hMem, hWay⟩ := Finset.mem_filter.mp hx
    exact Finset.mem_filter.mpr ⟨hMem, hWay.tail hab⟩
  · exact Finset.mem_filter.mpr ⟨hN a b hab, .refl⟩
  · exact hAcyclic b (.tail' (Finset.mem_filter.mp hb).2 hab)

theorem acyclic_of_rank (rank : α → Nat) (h : ∀ a b, r a b → rank a < rank b) (a : α) : ¬Relation.TransGen r a a := by
  intro hCycle
  have hLess := hCycle.lift rank h
  rw [Relation.transGen_eq_self] at hLess
  exact Nat.lt_irrefl _ hLess

end SceneExchange
