/-!
# Tables that remember the order of insertion

A key written again keeps its place and takes the new value.
-/

namespace SceneExchange

universe u v

structure Table (κ : Type u) (α : Type v) where
  entries : List (κ × α)
  deriving Inhabited, Repr

namespace Table

variable {κ : Type u} {α : Type v}

def empty : Table κ α := ⟨[]⟩

def isEmpty (t : Table κ α) : Bool := t.entries.isEmpty

def size (t : Table κ α) : Nat := t.entries.length

def keys (t : Table κ α) : List κ := t.entries.map Prod.fst

def values (t : Table κ α) : List α := t.entries.map Prod.snd

variable [BEq κ]

def get? (t : Table κ α) (k : κ) : Option α := t.entries.lookup k

def contains (t : Table κ α) (k : κ) : Bool := t.entries.any (·.1 == k)

def insertEntry (k : κ) (a : α) : List (κ × α) → List (κ × α)
  | [] => [(k, a)]
  | (k', b) :: rest => if k' == k then (k', a) :: rest else (k', b) :: insertEntry k a rest

def insert (t : Table κ α) (k : κ) (a : α) : Table κ α := ⟨insertEntry k a t.entries⟩

def ofList (entries : List (κ × α)) : Table κ α :=
  entries.foldl (fun t e => t.insert e.1 e.2) empty

theorem mem_of_lookup [LawfulBEq κ] {k : κ} {a : α} {l : List (κ × α)} (h : l.lookup k = some a) :
    (k, a) ∈ l := by
  obtain ⟨front, back, rfl, -⟩ := List.lookup_eq_some_iff.mp h
  exact List.mem_append_right front List.mem_cons_self

theorem keys_subset_insert (t : Table κ α) (k : κ) (a : α) : t.keys ⊆ (t.insert k a).keys := by
  obtain ⟨l⟩ := t
  change l.map Prod.fst ⊆ (insertEntry k a l).map Prod.fst
  induction l with
  | nil => simp
  | cons x l ih =>
    obtain ⟨k', b⟩ := x
    rw [insertEntry]
    split
    · simp
    · exact List.cons_subset_cons k' ih

section Insertion

variable [LawfulBEq κ]

theorem lookup_insertEntry_self (k : κ) (a : α) (l : List (κ × α)) :
    (insertEntry k a l).lookup k = some a := by
  induction l with
  | nil => simp [insertEntry]
  | cons e rest ih =>
    obtain ⟨k', b⟩ := e
    by_cases h : k' = k
    · subst h
      simp [insertEntry]
    · have h' : (k == k') = false := by simpa using fun e => h e.symm
      simp [insertEntry, h, List.lookup_cons, h', ih]

theorem lookup_insertEntry_of_ne {k k' : κ} (h : k' ≠ k) (a : α) (l : List (κ × α)) :
    (insertEntry k a l).lookup k' = l.lookup k' := by
  have hNe : (k' == k) = false := beq_false_of_ne h
  induction l with
  | nil => simp [insertEntry, List.lookup_cons, hNe]
  | cons e rest ih =>
    obtain ⟨k₀, b⟩ := e
    by_cases hk : k₀ = k
    · subst hk
      simp [insertEntry, List.lookup_cons, hNe]
    · simp [insertEntry, hk, List.lookup_cons, ih]

@[simp] theorem get?_insert_self (t : Table κ α) (k : κ) (a : α) : (t.insert k a).get? k = some a :=
  lookup_insertEntry_self k a t.entries

theorem get?_insert_of_ne (t : Table κ α) {k k' : κ} (h : k' ≠ k) (a : α) :
    (t.insert k a).get? k' = t.get? k' :=
  lookup_insertEntry_of_ne h a t.entries

theorem mem_insertEntry {k : κ} {a : α} {l : List (κ × α)} {e : κ × α} (h : e ∈ insertEntry k a l) :
    e = (k, a) ∨ e ∈ l := by
  induction l with
  | nil => exact .inl (List.mem_singleton.mp h)
  | cons x l ih =>
    obtain ⟨k', b⟩ := x
    rw [insertEntry] at h
    split at h
    · obtain rfl := eq_of_beq ‹(k' == k) = true›
      obtain rfl | hMem := List.mem_cons.mp h
      · exact .inl rfl
      · exact .inr (List.mem_cons_of_mem _ hMem)
    · obtain rfl | hMem := List.mem_cons.mp h
      · exact .inr List.mem_cons_self
      · exact (ih hMem).imp_right (List.mem_cons_of_mem _)

theorem mem_ofList {l : List (κ × α)} {e : κ × α} (h : e ∈ (ofList l).entries) : e ∈ l := by
  suffices hFold : ∀ t : Table κ α, e ∈ (l.foldl (fun t e => t.insert e.1 e.2) t).entries →
      e ∈ t.entries ∨ e ∈ l from (hFold .empty h).resolve_left (by simp [empty])
  clear h
  induction l with
  | nil => exact fun t => .inl
  | cons x l ih =>
    intro t h
    obtain hInsert | hMem := ih _ h
    · obtain rfl | hMem := mem_insertEntry hInsert
      · exact .inr List.mem_cons_self
      · exact .inl hMem
    · exact .inr (List.mem_cons_of_mem _ hMem)

theorem nodup_keys_insert {t : Table κ α} (h : t.keys.Nodup) (k : κ) (a : α) : (t.insert k a).keys.Nodup := by
  obtain ⟨l⟩ := t
  change (l.map Prod.fst).Nodup at h
  change ((insertEntry k a l).map Prod.fst).Nodup
  induction l with
  | nil => simp [insertEntry]
  | cons x l ih =>
    obtain ⟨k', b⟩ := x
    obtain ⟨hNew, hRest⟩ := List.nodup_cons.mp h
    rw [insertEntry]
    split
    · exact List.nodup_cons.mpr ⟨hNew, hRest⟩
    · next hNe =>
      refine List.nodup_cons.mpr ⟨fun hMem => ?_, ih hRest⟩
      obtain ⟨e, he, rfl⟩ := List.mem_map.mp hMem
      obtain rfl | he := mem_insertEntry he
      · exact hNe (beq_self_eq_true _)
      · exact hNew (List.mem_map.mpr ⟨e, he, rfl⟩)

theorem mem_entries_iff {t : Table κ α} (h : t.keys.Nodup) {k : κ} {a : α} :
    (k, a) ∈ t.entries ↔ t.get? k = some a := by
  obtain ⟨l⟩ := t
  change (l.map Prod.fst).Nodup at h
  refine ⟨fun hMem => ?_, mem_of_lookup⟩
  change l.lookup k = some a
  induction l with
  | nil => cases hMem
  | cons x l ih =>
    obtain ⟨k', b⟩ := x
    obtain ⟨hNew, hRest⟩ := List.nodup_cons.mp h
    obtain hHead | hTail := List.mem_cons.mp hMem
    · cases hHead
      simp
    · have hNe : (k == k') = false := by
        refine beq_false_of_ne ?_
        rintro rfl
        exact hNew (List.mem_map.mpr ⟨(k, a), hTail, rfl⟩)
      rw [List.lookup_cons, hNe]
      exact ih hRest hTail

end Insertion

end Table

end SceneExchange
