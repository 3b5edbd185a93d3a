import SceneExchange.Proofs.Marks
import SceneExchange.Proofs.Recursion

/-!
# Following a stream

A computation on the marks of an element follows recursive reading of its tree: where the tree gives an
answer the computation gives it too and leaves the marks after the end of the element, and where the tree
gives none the computation fails. The marks have to be told apart, which those of a document are.
-/

open List Nat

namespace SceneExchange.Import

open Recursive Number

open Markup (Tag Tree)

/-- No mark comes twice, whatever the names and attributes. -/
def Distinct (ms : List Mark) : Prop := (ms.map fun m => (m.ends, m.tag.place)).Nodup

instance (ms : List Mark) : Decidable (Distinct ms) := inferInstanceAs (Decidable (List.Nodup _))

theorem Distinct.sublist {ms ms' : List Mark} (h : Distinct ms) (hSub : ms'.Sublist ms) : Distinct ms' :=
  List.Nodup.sublist (hSub.map _) h

theorem Distinct.ne {m n : Mark} {ms : List Mark} (h : Distinct (m :: ms)) (hMem : n ∈ ms) :
    n.ends ≠ m.ends ∨ n.tag.place ≠ m.tag.place := by
  have hTail := (nodup_cons.mp h).1
  by_contra hSame
  simp only [not_or, not_not] at hSame
  exact hTail (mem_map.mpr ⟨n, hMem, by rw [hSame.1, hSame.2]⟩)

def marksInside (e : Element) (rest : List Mark) : List Mark := marksOf e.2 ++ ⟨true, e.1⟩ :: rest

theorem sublist_marksInside (e : Element) (rest : List Mark) : rest.Sublist (marksInside e rest) := by
  simp [marksInside]

theorem marksInside_sublist (e : Element) {rest rest' : List Mark} (h : rest.Sublist rest') :
    (marksInside e rest).Sublist (marksInside e rest') :=
  (h.cons_cons _).append_left _

theorem take_one_marksInside (e : Element) (rest : List Mark) :
    ((marksInside e rest).take 1).Sublist (marksInside e []) := by
  rw [marksInside, marksInside]
  cases marksOf e.2 <;> simp

theorem marksInside_nil {e : Element} (h : elements e.2 = []) (rest : List Mark) :
    marksInside e rest = ⟨true, e.1⟩ :: rest := by
  obtain ⟨tag, ts⟩ := e
  induction ts with
  | nil => rfl
  | cons t ts ih =>
    cases t with
    | text _ => exact ih h
    | element _ _ => cases h

theorem marksInside_cons {e child : Element} {more : List Element} (h : elements e.2 = child :: more) :
    ∃ ts, elements ts = more ∧
      ∀ rest, marksInside e rest = ⟨false, child.1⟩ :: marksInside child (marksInside (e.1, ts) rest) := by
  obtain ⟨tag, ts⟩ := e
  induction ts with
  | nil => cases h
  | cons t ts ih =>
    cases t with
    | text _ => exact ih h
    | element _ _ =>
      cases h
      exact ⟨ts, rfl, fun rest => by simp [marksInside]⟩

theorem place_ne_of_mem_marksOf {e : Element} (h : Distinct (⟨false, e.1⟩ :: marksInside e []))
    {m : Mark} (hMem : m ∈ marksOf e.2) : m.tag.place ≠ e.1.place := by
  intro hPlace
  have hStart := h.ne (n := m) (by simp [marksInside, hMem])
  obtain ⟨before, after, hSplit⟩ := append_of_mem hMem
  rw [marksInside, hSplit, append_assoc] at h
  have hEnd := (h.sublist (.cons _ (sublist_append_right before _))).ne (n := ⟨true, e.1⟩) (by simp)
  simp only [hPlace, ne_eq, not_true_eq_false, or_false] at hStart hEnd
  cases hEnds : m.ends <;> simp_all

def State.world (s : State) : World := ⟨s.parts, s.stage, s.reached⟩

def State.moved (s : State) (w : World) (ms : List Mark) (log : Array LogLine) : State :=
  { s with marks := ms, parts := w.parts, stage := w.stage, reached := w.reached, log := log }

namespace Importing

variable {α β : Type} {p : Place} {before between after : List Mark}
variable {γ : Type} {embed : γ → α} {m : Importing α} {k : α → Importing β} {g : α → Option β}
  {ms : List Mark} {a : α} {o : Option α}

/-- From the marks `before` a computation comes to the marks `after` with the answer and the world of a
recursive one, or fails together with it. -/
def Follows (p : Place) (before after : List Mark) (m : Importing α) (f : Recursive α) : Prop :=
  ∀ s, s.marks = before → match f s.world with
    | some (a, w) => ∃ log, result m p s = (.ok a, s.moved w after log)
    | none => ∃ e t, result m p s = (.error e, t)

def Gives (p : Place) (before after : List Mark) (m : Importing α) (o : Option α) : Prop :=
  Follows p before after m (StateT.lift o)

theorem Follows.eq_some {f : Recursive α} (h : Follows p before after m f) {s t : State} (hMarks : s.marks = before)
    (hRun : result m p s = (.ok a, t)) : ∃ w log, f s.world = some (a, w) ∧ t = s.moved w after log := by
  have hFollows := h s hMarks
  rw [hRun] at hFollows
  cases hAnswer : f s.world with
  | none =>
    rw [hAnswer] at hFollows
    obtain ⟨_, _, ⟨⟩⟩ := hFollows
  | some answer =>
    rw [hAnswer] at hFollows
    obtain ⟨log, ⟨⟩⟩ := hFollows
    exact ⟨_, log, rfl, rfl⟩

theorem Follows.bind_map {f : Recursive γ} {g : γ → Recursive β}
    (h : Follows p before between m (embed <$> f)) (hNext : ∀ a, Follows p between after (k (embed a)) (g a)) :
    Follows p before after (m >>= k) (f >>= g) := by
  intro s hMarks
  have hFirst := h s hMarks
  have hMap : (embed <$> f) s.world = (f s.world).bind fun (a, w) => some (embed a, w) := rfl
  change match (f s.world).bind fun (a, w) => g a w with
    | some (a, w) => _
    | none => _
  rw [hMap] at hFirst
  cases hRead : f s.world with
  | none =>
    rw [hRead] at hFirst
    obtain ⟨e, t, hRun⟩ := hFirst
    exact ⟨e, t, result_bind_error hRun⟩
  | some answer =>
    obtain ⟨a, w⟩ := answer
    rw [hRead] at hFirst
    obtain ⟨log, hRun⟩ := hFirst
    rw [result_bind_ok hRun]
    exact hNext a (s.moved w between log) rfl

theorem Follows.bind {f : Recursive α} {g : α → Recursive β} (h : Follows p before between m f)
    (hNext : ∀ a, Follows p between after (k a) (g a)) : Follows p before after (m >>= k) (f >>= g) := by
  rw [← id_map f] at h
  exact h.bind_map hNext

theorem Takes.follows {f : Recursive β} (hTakes : Takes p ms m a) (h : Follows p before after (k a) f) :
    Follows p (ms ++ before) after (m >>= k) f := by
  intro s hMarks
  obtain ⟨log, hRun⟩ := hTakes s before hMarks
  rw [result_bind_ok hRun]
  exact h { s with marks := before, log := log } rfl

theorem lift_bind (o : Option α) (g : α → Option β) :
    (StateT.lift (o >>= g) : Recursive β) = StateT.lift o >>= fun a => StateT.lift (g a) := by
  cases o <;> rfl

theorem lift_map (embed : α → β) (o : Option α) : (StateT.lift (embed <$> o) : Recursive β) = embed <$> StateT.lift o := by
  cases o <;> rfl

theorem Gives.bind_map {o : Option γ} {g : γ → Option β} (h : Gives p before between m (embed <$> o))
    (hNext : ∀ a, Gives p between after (k (embed a)) (g a)) : Gives p before after (m >>= k) (o >>= g) := by
  rw [Gives, lift_bind]
  rw [Gives, lift_map] at h
  exact h.bind_map hNext

theorem Gives.bind (h : Gives p before between m o) (hNext : ∀ a, Gives p between after (k a) (g a)) :
    Gives p before after (m >>= k) (o >>= g) := by
  rw [← id_map o] at h
  exact h.bind_map hNext

theorem Gives.none_bind (h : Gives p before between m none) (k : α → Importing β) :
    Gives p before after (m >>= k) none := by
  intro s hMarks
  obtain ⟨e, t, hRun⟩ := h s hMarks
  exact ⟨e, t, result_bind_error hRun⟩

theorem gives_of_takes (h : Takes p ms m a) (rest : List Mark) :
    Gives p (ms ++ rest) rest m (some a) := fun s hMarks => h s rest hMarks

theorem gives_of_fails (h : Fails p ms m) (rest after : List Mark) :
    Gives p (ms ++ rest) after m none := fun s hMarks => h s rest hMarks

theorem gives_pure (a : α) : Gives p before before (pure a) (some a) := gives_of_takes (takes_pure a) before

theorem gives_throw (e : Fault) : Gives p before after (throw e : Importing α) none :=
  gives_of_fails (fails_throw e) before after

theorem gives_write (level : LogLevel) (message : String) : Gives p before before (write level message) (some ()) :=
  gives_of_takes (takes_write level message) before

theorem gives_attributeOf (tag : Tag) (key : String) :
    Gives p before before (attributeOf tag key) (tag.attribute? key) := by
  rw [attributeOf]
  cases tag.attribute? key with
  | none => exact gives_throw _
  | some v => exact gives_pure v

theorem gives_integer (text : String) : Gives p before before (integer text) (readInteger? text) := by
  rw [integer]
  cases readInteger? text with
  | none => exact gives_throw _
  | some n => exact gives_pure n

theorem gives_real (text : String) : Gives p before before (real text) (readReal? text) := by
  rw [real]
  cases readReal? text with
  | none => exact gives_throw _
  | some x => exact gives_pure x

theorem gives_integerAttribute (tag : Tag) (key : String) :
    Gives p before before (integerAttribute tag key) (integer? tag key) :=
  (gives_attributeOf tag key).bind gives_integer

theorem gives_realAttribute (tag : Tag) (key : String) :
    Gives p before before (realAttribute tag key) (real? tag key) :=
  (gives_attributeOf tag key).bind gives_real

theorem gives_mapM {f : α → Importing β} (h : ∀ a, Gives p before before (f a) (g a)) (as : List α) :
    Gives p before before (as.mapM f) (as.mapM g) := by
  induction as with
  | nil => exact gives_pure []
  | cons a as ih =>
    rw [mapM_cons, mapM_cons]
    exact (h a).bind fun b => ih.bind fun bs => gives_pure (b :: bs)

theorem gives_lift (r : Except Fault α) : Gives p before before (lift r) r.toOption := by
  cases r with
  | error e => exact gives_throw e
  | ok a => exact gives_pure a

/-! ## Inside an element -/

/-- Just after the start of an element a computation follows a recursive one up to the end of the element. -/
def Reads (p : Place) (e : Element) (m : Importing α) (f : Recursive α) : Prop :=
  ∀ rest, Distinct (⟨false, e.1⟩ :: marksInside e rest) → Follows p (marksInside e rest) rest m f

/-- Just after the start of an element a computation gives an answer, or fails, at the end of the element. -/
def Finds (p : Place) (e : Element) (m : Importing α) (o : Option α) : Prop := Reads p e m (StateT.lift o)

/-- Where the marks of an element are told apart from each other, a computation follows a recursive one up to its end,
whatever comes after it. -/
def Scans (p : Place) (e : Element) (m : Importing α) (f : Recursive α) : Prop :=
  Distinct (⟨false, e.1⟩ :: marksInside e []) → ∀ rest, Follows p (marksInside e rest) rest m f

def Spots (p : Place) (e : Element) (m : Importing α) (o : Option α) : Prop := Scans p e m (StateT.lift o)

variable {e : Element}

theorem Scans.reads {f : Recursive α} (h : Scans p e m f) : Reads p e m f :=
  fun rest hDistinct => h (hDistinct.sublist (.cons_cons _ (marksInside_sublist e (nil_sublist rest)))) rest

theorem Spots.bind_map {o : Option γ} {g : γ → Option β} (h : Spots p e m (embed <$> o))
    (hNext : ∀ rest a, Gives p rest rest (k (embed a)) (g a)) : Spots p e (m >>= k) (o >>= g) :=
  fun hDistinct rest => Gives.bind_map (h hDistinct rest) (hNext rest)

theorem Spots.bind (h : Spots p e m o) (hNext : ∀ rest a, Gives p rest rest (k a) (g a)) :
    Spots p e (m >>= k) (o >>= g) :=
  fun hDistinct rest => Gives.bind (h hDistinct rest) (hNext rest)

theorem Takes.spots {o : Option β} (h : Takes p [] m a) (hNext : Spots p e (k a) o) :
    Spots p e (m >>= k) o := fun hDistinct rest => h.follows (hNext hDistinct rest)

theorem Spots.prepend (hFirst : ∀ before, Gives p before before m o) (h : ∀ a, Spots p e (k a) (g a)) :
    Spots p e (m >>= k) (o >>= g) :=
  fun hDistinct rest => (hFirst _).bind fun a => h a hDistinct rest

theorem gives_close_none {tag : Tag} (last : List Mark)
    (h : ∀ m ∈ ms.head?, m.ends ≠ true ∨ m.tag.place ≠ tag.place) : Gives p ms last (close tag) none := by
  cases ms with
  | nil =>
    intro s hMarks
    have hNext : result next p s = (.error (s.ending.getD .endOfEvents), s) := by
      rw [next, result_bind_ok (result_get s), hMarks]
      rfl
    exact ⟨_, s, result_bind_error hNext⟩
  | cons m ms =>
    refine gives_of_fails ((takes_next m).fails_nil ?_) ms last
    cases hPlace : m.tag.place == tag.place with
    | false => exact (fails_throw _).bind _
    | true =>
      have hEnds : m.ends = false := by simpa [beq_iff_eq.mp hPlace] using h m rfl
      rw [hEnds]
      exact takes_expect.fails_nil (fails_throw _)

theorem gives_close (e : Element) (rest : List Mark) : Gives p (marksInside e rest) rest (close e.1) (bare? e.2) := by
  cases hInside : elements e.2 with
  | nil =>
    rw [marksInside_nil hInside, bare?, hInside]
    exact gives_of_takes (takes_close e.1) rest
  | cons child more =>
    obtain ⟨later, -, hMarks⟩ := marksInside_cons hInside
    rw [hMarks, bare?, hInside]
    exact gives_close_none rest (by simp)

theorem spots_close (e : Element) : Spots p e (close e.1) (bare? e.2) := fun _ => gives_close e

theorem marksAfter?_append {place : Nat} (h : ∀ m ∈ ms, m.tag.place ≠ place) {m : Mark}
    (hPlace : m.tag.place = place) (rest : List Mark) : marksAfter? place (ms ++ m :: rest) = some (m, rest) := by
  induction ms with
  | nil => simp [marksAfter?, hPlace]
  | cons n ms ih =>
    have hFirst : (n.tag.place == place) = false := by simpa using h n mem_cons_self
    rw [cons_append, marksAfter?, hFirst, if_neg (by decide)]
    exact ih fun m hMem => h m (mem_cons_of_mem _ hMem)

theorem spots_ignore (e : Element) : Spots p e (ignore e.1) (some ()) := by
  intro hDistinct rest s hMarks
  have hAfter : marksAfter? e.1.place s.marks = some (⟨true, e.1⟩, rest) := by
    rw [hMarks]
    exact marksAfter?_append (fun m hMem => place_ne_of_mem_marksOf hDistinct hMem) rfl rest
  have hSkip : result (skip e.1) p s = (.ok true, { s with marks := rest }) := by
    rw [skip, result_bind_ok (result_get s), hAfter]
    rfl
  exact ⟨s.log, result_bind_ok hSkip⟩

/-! ## The children of an element -/

section Children

variable {σ τ : Type} {embed : τ → σ} {f : σ → Tag → Importing σ} {g : τ → Element → Recursive τ}

/-- A loop over the children of an element passes a child: what follows the child comes after it. -/
def Passes (p : Place) (tag : Tag) (embed : τ → σ) (f : σ → Tag → Importing σ) (g : τ → Element → Recursive τ)
    (child : Element) : Prop :=
  ∀ known fuel rest last (h : τ → Recursive σ),
    Distinct (⟨false, tag⟩ :: ⟨false, child.1⟩ :: marksInside child (rest.take 1)) →
    (∀ known, Follows p rest last (foldChildren tag f fuel (embed known)) (h known)) →
    Follows p (⟨false, child.1⟩ :: marksInside child rest) last (foldChildren tag f (fuel + 1) (embed known))
      (g known child >>= h)

theorem passes_of_follows {tag : Tag} {child : Element}
    (h : ∀ known rest, Distinct (⟨false, child.1⟩ :: marksInside child (rest.take 1)) →
      Follows p (marksInside child rest) rest (f (embed known) child.1) (embed <$> g known child)) :
    Passes p tag embed f g child := by
  intro known fuel rest last next hDistinct hNext
  have hInside := h known rest (hDistinct.sublist (sublist_cons_self _ _))
  exact (takes_next ⟨false, child.1⟩).follows (hInside.bind_map hNext)

theorem passes_of_scans {tag : Tag} {child : Element}
    (h : ∀ known, Scans p child (f (embed known) child.1) (embed <$> g known child)) : Passes p tag embed f g child :=
  passes_of_follows fun known rest hDistinct =>
    h known (hDistinct.sublist (.cons_cons _ (marksInside_sublist child (nil_sublist _)))) rest

theorem follows_foldChildren_end (tag : Tag) (acc : σ) (fuel : Nat) (rest : List Mark) :
    Follows p (⟨true, tag⟩ :: rest) rest (foldChildren tag f (fuel + 1) acc) (pure acc) := by
  refine (takes_next ⟨true, tag⟩).follows ?_
  simp only [if_true, beq_self_eq_true]
  exact takes_expect.follows (gives_pure acc)

theorem follows_foldChildren {tag : Tag} {ts : List Tree} (hPasses : ∀ child ∈ elements ts, Passes p tag embed f g child)
    (known : τ) {fuel : Nat} (hFuel : (elements ts).length < fuel)
    (hDistinct : Distinct (⟨false, tag⟩ :: marksInside (tag, ts) [])) (rest : List Mark) :
    Follows p (marksInside (tag, ts) rest) rest (foldChildren tag f fuel (embed known))
      (embed <$> (elements ts).foldlM g known) := by
  obtain ⟨fuel, rfl⟩ := exists_eq_add_one.mpr (zero_lt_of_lt hFuel)
  induction ts generalizing known fuel with
  | nil => exact follows_foldChildren_end tag (embed known) fuel rest
  | cons t ts ih =>
    cases t with
    | text _ => exact ih hPasses known hDistinct fuel hFuel
    | element child inside =>
      have hMarks (rest : List Mark) : marksInside (tag, .element child inside :: ts) rest =
          ⟨false, child⟩ :: marksInside (child, inside) (marksInside (tag, ts) rest) := by
        simp [marksInside]
      rw [hMarks] at hDistinct ⊢
      have hFirst := hPasses (child, inside) mem_cons_self known fuel _ rest
        (fun known => embed <$> (elements ts).foldlM g known)
        (hDistinct.sublist (.cons_cons _ (.cons_cons _ (marksInside_sublist _ (take_one_marksInside (tag, ts) rest)))))
      rw [elements, foldlM_cons, map_bind]
      apply hFirst
      intro known
      obtain ⟨fuel, rfl⟩ := exists_eq_add_one.mpr (zero_lt_of_lt (lt_of_succ_lt_succ hFuel))
      refine ih (fun child hMem => hPasses child (mem_cons_of_mem _ hMem)) known ?_ fuel (lt_of_succ_lt_succ hFuel)
      exact hDistinct.sublist (.cons_cons _ (.cons _ (sublist_marksInside _ _)))

theorem length_elements_le (ts : List Tree) : (elements ts).length ≤ (marksOf ts).length := by
  induction ts with
  | nil => exact Nat.le_refl _
  | cons t ts ih => cases t <;> simp [elements] <;> omega

theorem scans_children {init : τ} (hPasses : ∀ child ∈ elements e.2, Passes p e.1 embed f g child) :
    Scans p e (children e.1 (embed init) f) (embed <$> (elements e.2).foldlM g init) := by
  intro hDistinct rest s hMarks
  have hFuel : (elements e.2).length < s.marks.length + 1 := by
    have hElements := length_elements_le e.2
    rw [hMarks, marksInside, length_append]
    omega
  rw [children, result_bind_ok (result_get s)]
  exact follows_foldChildren hPasses init hFuel hDistinct rest s hMarks

theorem foldlM_lift {g : τ → Element → Option τ} (init : τ) (es : List Element) :
    es.foldlM (fun known e => (StateT.lift (g known e) : Recursive τ)) init = StateT.lift (es.foldlM g init) := by
  induction es generalizing init with
  | nil => rfl
  | cons e es ih => simp only [foldlM_cons, lift_bind, ih]

theorem spots_children_of_passes {g : τ → Element → Option τ} {init : τ}
    (hPasses : ∀ child ∈ elements e.2, Passes p e.1 embed f (fun known child => StateT.lift (g known child)) child) :
    Spots p e (children e.1 (embed init) f) (embed <$> (elements e.2).foldlM g init) := by
  rw [Spots, lift_map, ← foldlM_lift]
  exact scans_children hPasses

theorem passes_of_spots {g : τ → Element → Option τ} {tag : Tag} {child : Element}
    (h : ∀ known, Spots p child (f (embed known) child.1) (embed <$> g known child)) :
    Passes p tag embed f (fun known child => StateT.lift (g known child)) child :=
  passes_of_scans fun known => by simpa only [Spots, lift_map] using h known

theorem spots_children {f : τ → Tag → Importing τ} {g : τ → Element → Option τ} {init : τ}
    (h : ∀ child ∈ elements e.2, ∀ known, Spots p child (f known child.1) (g known child)) :
    Spots p e (children e.1 init f) ((elements e.2).foldlM g init) := by
  rw [← id_map ((elements e.2).foldlM g init)]
  have hPasses : ∀ child ∈ elements e.2, Passes p e.1 id f (fun known child => StateT.lift (g known child)) child :=
    fun child hMem => passes_of_spots fun known => by
      rw [id_map]
      exact h child hMem known
  exact spots_children_of_passes hPasses

theorem foldlM_append (g : Element → Option α) (es : List Element) (known : List α) :
    es.foldlM (fun as e => do pure (as ++ [← g e])) known = (known ++ ·) <$> es.mapM g := by
  induction es generalizing known with
  | nil => simp
  | cons e es ih =>
    rw [foldlM_cons, mapM_cons]
    cases g e with
    | none => rfl
    | some a =>
      change es.foldlM _ (known ++ [a]) = (known ++ ·) <$> (es.mapM g >>= fun as => pure (a :: as))
      rw [ih]
      cases es.mapM g <;> simp

theorem spots_collected {f : Tag → Importing α} {g : Element → Option α} (known : List α)
    (h : ∀ child ∈ elements e.2, ∀ rest, Distinct (⟨false, child.1⟩ :: marksInside child (rest.take 1)) →
      Gives p (marksInside child rest) rest (f child.1) (g child)) :
    Spots p e (children e.1 known.toArray fun as child => do pure (as.push (← f child)))
      ((fun as => (known ++ as).toArray) <$> (elements e.2).mapM g) := by
  rw [← Functor.map_map, ← foldlM_append]
  refine spots_children_of_passes fun child hMem => passes_of_follows fun known rest hDistinct => ?_
  rw [← lift_map, map_bind]
  refine Gives.bind (h child hMem rest hDistinct) fun a => ?_
  rw [push_toArray]
  exact gives_pure _

end Children

end Importing

end SceneExchange.Import
