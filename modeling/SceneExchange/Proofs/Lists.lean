import SceneExchange.Fault
import Mathlib.Data.List.Forall2
import Mathlib.Data.List.Nodup

/-!
# Lists and arrays
-/

namespace SceneExchange

open List

section Related

variable {α β γ : Type} {R : α → β → Prop} {l : List α} {m : List β}

theorem exists_mem_of_forall₂ (h : Forall₂ R l m) {b : β} (hb : b ∈ m) : ∃ a ∈ l, R a b := by
  induction h with
  | nil => cases hb
  | cons hFirst _ ih =>
    obtain rfl | hb := mem_cons.mp hb
    · exact ⟨_, mem_cons_self, hFirst⟩
    · obtain ⟨a, ha, hR⟩ := ih hb
      exact ⟨a, mem_cons_of_mem _ ha, hR⟩

theorem exists_forall₂ (h : ∀ a ∈ l, ∃ b, R a b) : ∃ l', Forall₂ R l l' := by
  induction l with
  | nil => exact ⟨[], .nil⟩
  | cons a l ih =>
    obtain ⟨⟨b, hb⟩, hRest⟩ := forall_mem_cons.mp h
    obtain ⟨l', hl'⟩ := ih hRest
    exact ⟨b :: l', .cons hb hl'⟩

theorem exists_append_of_forall₂ {l' : List α} (h : Forall₂ R (l ++ l') m) :
    ∃ n n', m = n ++ n' ∧ Forall₂ R l n ∧ Forall₂ R l' n' := by
  induction l generalizing m with
  | nil => exact ⟨[], m, rfl, .nil, h⟩
  | cons a l ih =>
    cases h with
    | cons hFirst hRest =>
      obtain ⟨n, n', rfl, hn, hn'⟩ := ih hRest
      exact ⟨_ :: n, n', rfl, .cons hFirst hn, hn'⟩

theorem exists_of_forall₂_singleton {a : α} (h : Forall₂ R [a] m) : ∃ b, R a b ∧ m = [b] := by
  cases h with
  | cons hFirst hRest =>
    cases hRest
    exact ⟨_, hFirst, rfl⟩

theorem forall₂_trans {S : β → γ → Prop} {n : List γ} (h : Forall₂ R l m) (h' : Forall₂ S m n) :
    Forall₂ (fun a c => ∃ b, R a b ∧ S b c) l n := by
  induction h generalizing n with
  | nil =>
    cases h'
    exact .nil
  | cons hFirst _ ih =>
    cases h' with
    | cons hFirst' hRest' => exact .cons ⟨_, hFirst, hFirst'⟩ (ih hRest')

theorem exists_pairs {f : β → Option γ} {S : α → β → γ → Prop}
    (h : Forall₂ (fun a b => ∃ c, f b = some c ∧ S a b c) l m) :
    ∃ ps : List (β × γ), m = ps.map Prod.fst ∧ m.mapM f = some (ps.map Prod.snd) ∧
      Forall₂ (fun a p => S a p.1 p.2) l ps := by
  induction h with
  | nil => exact ⟨[], rfl, rfl, .nil⟩
  | @cons a b l m hFirst _ ih =>
    obtain ⟨c, hc, hS⟩ := hFirst
    obtain ⟨ps, rfl, hMap, hEach⟩ := ih
    refine ⟨(b, c) :: ps, rfl, ?_, .cons hS hEach⟩
    rw [mapM_cons, hc, hMap]
    rfl

theorem forall_zip_iff (h : Forall₂ R l m) {P : γ → α → Prop} {Q : γ → β → Prop}
    (hPQ : ∀ c a b, R a b → (P c a ↔ Q c b)) (n : List γ) :
    (∀ x ∈ n.zip l, P x.1 x.2) ↔ ∀ x ∈ n.zip m, Q x.1 x.2 := by
  induction h generalizing n with
  | nil => simp
  | cons hHead _ ih =>
    cases n with
    | nil => simp
    | cons c n =>
      rw [zip_cons_cons, zip_cons_cons, forall_mem_cons, forall_mem_cons, ih]
      exact and_congr_left' (hPQ c _ _ hHead)

end Related

section Mapped

variable {ε α β : Type} {g : α → Except ε β} {l : List α}

theorem forall₂_of_mapM {bs : List β} (h : l.mapM g = .ok bs) :
    Forall₂ (fun a b => g a = .ok b) l bs := by
  induction l generalizing bs with
  | nil =>
    cases h
    exact .nil
  | cons a l ih =>
    rw [mapM_cons, bind_eq_ok] at h
    obtain ⟨c, hHead, h⟩ := h
    obtain ⟨cs, hTail, ⟨⟩⟩ := bind_eq_ok.mp h
    exact .cons hHead (ih hTail)

theorem mem_of_mapM_ok {bs : List β} (h : l.mapM g = .ok bs)
    {b : β} : b ∈ bs ↔ ∃ a ∈ l, g a = .ok b := by
  replace h := forall₂_of_mapM h
  induction h with
  | nil => simp
  | cons hHead _ ih => simp [ih, hHead, eq_comm]

theorem map_of_mapM_ok {k : α → β} (hg : ∀ a b, g a = .ok b → b = k a)
    {bs : List β} (h : l.mapM g = .ok bs) : bs = l.map k := by
  replace h := forall₂_of_mapM h
  induction h with
  | nil => rfl
  | cons hHead _ ih => rw [map_cons, ← hg _ _ hHead, ← ih]

end Mapped

theorem filter_fst_eq {α : Type} {n : Int} {l : List (Int × α)} (hNodup : (l.map Prod.fst).Nodup) {a : α}
    (h : (n, a) ∈ l) : l.filter (fun x => x.1 == n) = [(n, a)] := by
  induction l with
  | nil => cases h
  | cons x l ih =>
    obtain ⟨hNew, hRest⟩ := nodup_cons.mp hNodup
    obtain rfl | hTail := mem_cons.mp h
    · have hOthers : l.filter (fun x => x.1 == n) = [] := by
        rw [filter_eq_nil_iff]
        intro y hy hSame
        exact hNew (mem_map.mpr ⟨y, hy, eq_of_beq hSame⟩)
      rw [filter_cons, hOthers, if_pos (beq_self_eq_true n)]
    · have hNe : (x.1 == n) = false := by
        refine beq_false_of_ne ?_
        rintro rfl
        exact hNew (mem_map.mpr ⟨_, hTail, rfl⟩)
      rw [filter_cons, hNe, if_neg Bool.false_ne_true, ih hRest hTail]

theorem filterMap_filter_eq_iff {ι κ : Type} (f : ι → Option κ) (g : ι → Bool) (items : List ι) :
    items.filterMap f = (items.filter g).filterMap f ↔ ∀ i ∈ items, g i = false → f i = none := by
  induction items with
  | nil => simp
  | cons i items ih =>
    cases hKept : g i with
    | true => cases hFound : f i <;> simp [hKept, hFound, ih]
    | false =>
      cases hFound : f i with
      | none => simp [hKept, hFound, ih]
      | some b =>
        have hFewer : ((items.filter g).filterMap f).length ≤ (items.filterMap f).length :=
          (filter_sublist.filterMap f).length_le
        simp only [filterMap_cons_some hFound, filter_cons_of_neg (by simp [hKept] : ¬g i = true)]
        constructor
        · intro hSame
          have := congrArg List.length hSame
          simp only [length_cons] at this
          omega
        · intro hNone
          simpa [hFound] using hNone i mem_cons_self hKept

theorem getElem?_concat {α : Type} {l : List α} {a c : α} {n : Nat} :
    (l ++ [a])[n]? = some c ↔ l[n]? = some c ∨ n = l.length ∧ c = a := by
  obtain hLt | hEq | hGt := Nat.lt_trichotomy n l.length
  · rw [getElem?_append_left hLt]
    constructor
    · exact .inl
    · rintro (h | ⟨rfl, -⟩)
      · exact h
      · omega
  · subst hEq
    simp [eq_comm]
  · rw [getElem?_eq_none (by simp; omega), getElem?_eq_none (by omega)]
    simp
    omega

/-- A list is cut into parts of one width, if any list of that width is the part of something. -/
theorem exists_flatMap_of_length {α β : Type} {f : α → List β} {width : Nat}
    (hf : ∀ part, part.length = width → ∃ a, f a = part) {n : Nat} {bs : List β} (h : bs.length = width * n) :
    ∃ as : List α, as.length = n ∧ as.flatMap f = bs := by
  induction n generalizing bs with
  | zero => exact ⟨[], rfl, (length_eq_zero_iff.mp h).symm⟩
  | succ n ih =>
    rw [Nat.mul_succ] at h
    have hDrop : (bs.drop width).length = width * n := by
      rw [length_drop]
      omega
    obtain ⟨as, hLength, hMore⟩ := ih hDrop
    obtain ⟨a, hPart⟩ := hf (bs.take width) (by rw [length_take]; omega)
    exact ⟨a :: as, congrArg (· + 1) hLength, by rw [flatMap_cons, hPart, hMore, take_append_drop]⟩

theorem getElem?_push_of_some {α : Type} {as : Array α} {i : Nat} {a : α} (h : as[i]? = some a) (b : α) :
    (as.push b)[i]? = some a := by
  obtain ⟨hLt, -⟩ := Array.getElem?_eq_some_iff.mp h
  rwa [Array.getElem?_push_lt hLt, ← Array.getElem?_eq_getElem hLt]

theorem push_modify_size {α : Type} (as : Array α) (a : α) (f : α → α) :
    (as.push a).modify as.size f = as.push (f a) := by
  apply Array.ext
  · simp
  · intro i hi _
    simp only [Array.size_modify, Array.size_push] at hi
    simp only [Array.getElem_modify, Array.getElem_push]
    split <;> rename_i h <;> grind

end SceneExchange
