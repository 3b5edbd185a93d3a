import SceneExchange.Material.Compile
import Mathlib.Data.List.Forall2

/-!
# Two runs of a compilation side by side

A frame relates the sessions of two runs in one forest. What is known of their results are facts
about the present point of the runs that stay true at every later one, so a fact that was found
once can be used from there on. Two computations agree when, from related sessions, both return
the same or both fail for the same cause. Where they return, a frame may know more of the point that
was reached than of those on the way. A frame that is lenient of a fault says nothing of the second
run once the first one failed for it.

Nothing here says which facts hold; that is the choice of a frame.
-/

namespace SceneExchange.Material

open SceneExchange.Graph Compile List

def outcome {α : Type} (m : Compile α) (f : Forest) (s : Session) : Except Fault α × Session := m f s

section Outcome

variable {α β : Type} {f : Forest} {s t : Session}
variable {m : Compile α} {k : α → Compile β}

theorem outcome_bind_ok {a : α} (h : outcome m f s = (.ok a, t)) : outcome (m >>= k) f s = outcome (k a) f t :=
  run_bind_of_ok h

theorem outcome_bind_error {e : Fault} (h : outcome m f s = (.error e, t)) : outcome (m >>= k) f s = (.error e, t) :=
  run_bind_of_error h

theorem outcome_bind_eq_ok {b : β} (h : outcome (m >>= k) f s = (.ok b, t)) :
    ∃ a u, outcome m f s = (.ok a, u) ∧ outcome (k a) f u = (.ok b, t) :=
  (run_bind_iff).mp h

theorem outcome_bind_congr {m : Compile α} {k k' : α → Compile β} (h : ∀ a t, outcome (k a) f t = outcome (k' a) f t) :
    outcome (m >>= k) f s = outcome (m >>= k') f s := by
  generalize hRun : outcome m f s = r
  obtain ⟨_ | a, t⟩ := r
  · rw [outcome_bind_error hRun, outcome_bind_error hRun]
  · rw [outcome_bind_ok hRun, outcome_bind_ok hRun, h]

theorem exists_ok_of_isOk {σ : Type} {x : Except Fault α × σ} (h : x.1.isOk = true) : ∃ a, x = (.ok a, x.2) := by
  obtain ⟨r, t⟩ := x
  cases r with
  | ok a => exact ⟨a, rfl⟩
  | error e => cases h

@[simp] theorem outcome_lift (r : Except Fault α) : outcome (lift r) f s = (r, s) := by
  cases r <;> rfl

theorem outcome_lift_bind {r : Except Fault α} {b : β} (h : outcome (lift r >>= k) f s = (.ok b, t)) :
    ∃ a, r = .ok a ∧ outcome (k a) f s = (.ok b, t) := by
  cases r with
  | ok a => exact ⟨a, rfl, h⟩
  | error e => cases h

theorem outcome_emit (e : Expression) : outcome (emit e) f s =
    (.ok s.expressions.size, { s with expressions := s.expressions.push e }) := rfl

theorem outcome_read : outcome read f s = (.ok f, s) := rfl

theorem outcome_modify (g : Session → Session) : outcome (modify g) f s = (.ok (), g s) := rfl

theorem outcome_get (k : Session → Compile β) : outcome (get >>= k) f s = outcome (k s) f s := rfl

/-- A computation that does not read or change the session. -/
class Steady (m : Compile α) : Prop where
  steady : ∀ f, ∃ r, ∀ s, outcome m f s = (r, s)

namespace Steady

instance (a : α) : Steady (pure a) := ⟨fun _ => ⟨.ok a, fun _ => rfl⟩⟩

instance (e : Fault) : Steady (fail e : Compile α) := ⟨fun _ => ⟨.error e, fun _ => rfl⟩⟩

instance (r : Except Fault α) : Steady (lift r) := ⟨fun _ => ⟨r, fun _ => outcome_lift r⟩⟩

instance : Steady (read : Compile Forest) := ⟨fun f => ⟨.ok f, fun _ => rfl⟩⟩

instance (m : Compile α) (k : α → Compile β) [Steady m] [∀ a, Steady (k a)] : Steady (m >>= k) where
  steady f := by
    obtain ⟨r, hr⟩ := Steady.steady (m := m) f
    cases r with
    | ok a =>
      obtain ⟨r', hr'⟩ := Steady.steady (m := k a) f
      exact ⟨r', fun s => (outcome_bind_ok (hr s)).trans (hr' s)⟩
    | error e => exact ⟨.error e, fun s => outcome_bind_error (hr s)⟩

instance (c : Prop) [Decidable c] (m n : Compile α) [Steady m] [Steady n] : Steady (if c then m else n) := by
  split <;> infer_instance

instance (output : SocketRef) : Steady (theNode output) := by
  unfold theNode
  infer_instance

instance (output : SocketRef) : Steady (outputName output) := by
  unfold outputName
  infer_instance

instance (output : SocketRef) (name : String) : Steady (setting output name) := by
  unfold setting
  infer_instance

instance (choices : List (String × α)) (d : Datum) : Steady (choose choices d) := by
  unfold choose
  split
  · split <;> infer_instance
  · infer_instance

instance (choices : List String) (d : Datum) : Steady (position choices d) := by
  unfold position
  split
  · split <;> infer_instance
  · infer_instance

instance (c : Bool) (message : String) : Steady (require c message) := by
  unfold require
  infer_instance

end Steady

end Outcome

structure Frame where
  forest : Forest
  /-- The faults of the first run with which the second one may go on. -/
  lenient : Fault → Prop
  World : Type
  Related : World → Session → Session → Prop
  /-- A point that may be met inside of a computation. -/
  Later : World → World → Prop
  /-- A point at which a computation may return. -/
  Returns : World → World → Prop
  later_of_returns : ∀ {w w'}, Returns w w' → Later w w'
  returns_refl : ∀ w, Returns w w
  returns_trans : ∀ {w₁ w₂ w₃}, Returns w₁ w₂ → Returns w₂ w₃ → Returns w₁ w₃

namespace Frame

/-- What holds at a point of two runs and at every later one. -/
structure Fact (F : Frame) where
  holds : F.World → Prop
  stable : ∀ {w w'}, F.Later w w' → holds w → holds w'

variable {F : Frame}

namespace Fact

def pure (p : Prop) : F.Fact := ⟨fun _ => p, fun _ h => h⟩

def and (P Q : F.Fact) : F.Fact :=
  ⟨fun w => P.holds w ∧ Q.holds w, fun hw h => ⟨P.stable hw h.1, Q.stable hw h.2⟩⟩

/-- What is said of the member of an option, or else of an empty one. -/
def option {α : Type} (N : F.Fact) (A : α → F.Fact) : Option α → F.Fact
  | none => N
  | some a => A a

def each {α : Type} (A : α → F.Fact) (as : List α) : F.Fact where
  holds w := ∀ a ∈ as, (A a).holds w
  stable hw h a ha := (A a).stable hw (h a ha)

end Fact

/-- One fact follows from another; the instances find what the facts at hand imply. -/
class Entails (P Q : F.Fact) : Prop where
  entails : ∀ {w}, P.holds w → Q.holds w

namespace Entails

instance refl (P : F.Fact) : Entails P P := ⟨id⟩

instance left {P Q R : F.Fact} [Entails P R] : Entails (P.and Q) R := ⟨fun h => entails h.1⟩

instance right {P Q R : F.Fact} [Entails Q R] : Entails (P.and Q) R := ⟨fun h => entails h.2⟩

instance both {P Q R : F.Fact} [Entails P Q] [Entails P R] : Entails P (Q.and R) :=
  ⟨fun h => ⟨entails h, entails h⟩⟩

instance top {P : F.Fact} : Entails P (.pure True) := ⟨fun _ => trivial⟩

section Each

variable {α : Type} {A : α → F.Fact} {P : F.Fact} {as bs : List α}

instance nil : Entails P (.each A []) := ⟨fun _ => forall_mem_nil _⟩

instance cons {a : α} [h : Entails P (A a)] [h' : Entails P (.each A as)] : Entails P (.each A (a :: as)) :=
  ⟨fun hP => forall_mem_cons.mpr ⟨h.entails hP, h'.entails hP⟩⟩

instance append [h : Entails P (.each A as)] [h' : Entails P (.each A bs)] : Entails P (.each A (as ++ bs)) :=
  ⟨fun hP => forall_mem_append.mpr ⟨h.entails hP, h'.entails hP⟩⟩

instance flatten {as : List (List α)} [h : Entails P (.each (.each A) as)] : Entails P (.each A as.flatten) :=
  ⟨fun hP => forall_mem_flatten.mpr (h.entails hP)⟩

theorem of_mem [h : Entails P (.each A as)] {a : α} (ha : a ∈ as) : Entails P (A a) := ⟨fun hP => h.entails hP a ha⟩

end Each

end Entails

/-- What two computations that ran from a point lead to. -/
inductive Joint {α : Type} (w : F.World) (A : α → F.Fact) : Except Fault α × Session → Except Fault α × Session → Prop
  | done {w' : F.World} {a : α} {t t' : Session} (returns : F.Returns w w')
      (related : F.Related w' t t') (fact : (A a).holds w') : Joint w A (.ok a, t) (.ok a, t')
  | failed {w' : F.World} {e : Fault} {t t' : Session} (related : F.Related w' t t') :
      Joint w A (.error e, t) (.error e, t')
  | lost {e : Fault} {t : Session} {x' : Except Fault α × Session} (lenient : F.lenient e) :
      Joint w A (.error e, t) x'

namespace Joint

variable {α β : Type} {w : F.World} {A B : α → F.Fact} {C : β → F.Fact} {x x' : Except Fault α × Session}
  {m m' : Compile α} {s s' : Session}

theorem imp (h : Joint w A x x') (hAB : ∀ {w' a}, F.Later w w' → (A a).holds w' → (B a).holds w') : Joint w B x x' := by
  cases h with
  | done returns related fact => exact .done returns related (hAB (F.later_of_returns returns) fact)
  | failed related => exact .failed related
  | lost lenient => exact .lost lenient

theorem since {w₀ : F.World} (h : Joint w A x x') (hw : F.Returns w₀ w) : Joint w₀ A x x' := by
  cases h with
  | done returns related fact => exact .done (F.returns_trans hw returns) related fact
  | failed related => exact .failed related
  | lost lenient => exact .lost lenient

theorem around {inner : F.World} {n n' : Compile β} {t t' : Session}
    (h : Joint inner A (outcome m F.forest t) (outcome m' F.forest t'))
    (hError : ∀ {e u}, outcome m F.forest t = (.error e, u) → outcome n F.forest s = (.error e, u))
    (hError' : ∀ {e u}, outcome m' F.forest t' = (.error e, u) → outcome n' F.forest s' = (.error e, u))
    (hDone : ∀ {v a u u'}, F.Returns inner v → F.Related v u u' → (A a).holds v →
      outcome m F.forest t = (.ok a, u) → outcome m' F.forest t' = (.ok a, u') →
      Joint w C (outcome n F.forest s) (outcome n' F.forest s')) :
    Joint w C (outcome n F.forest s) (outcome n' F.forest s') := by
  generalize hRun : outcome m F.forest t = x at h
  generalize hRun' : outcome m' F.forest t' = x' at h
  cases h with
  | done returns related fact => exact hDone returns related fact hRun hRun'
  | failed related =>
    rw [hError hRun, hError' hRun']
    exact .failed related
  | lost lenient =>
    rw [hError hRun]
    exact .lost lenient

theorem bind {k k' : α → Compile β} (h : Joint w A (outcome m F.forest s) (outcome m' F.forest s'))
    (hk : ∀ {w' a t t'}, F.Returns w w' → F.Related w' t t' → (A a).holds w' →
      Joint w' C (outcome (k a) F.forest t) (outcome (k' a) F.forest t')) :
    Joint w C (outcome (m >>= k) F.forest s) (outcome (m' >>= k') F.forest s') := by
  refine h.around outcome_bind_error outcome_bind_error fun returns related fact hRun hRun' => ?_
  rw [outcome_bind_ok hRun, outcome_bind_ok hRun']
  exact (hk returns related fact).since returns

end Joint

/-- Two computations agree on a fact of their result wherever a given fact holds. -/
def Agree {α : Type} (P : F.Fact) (m m' : Compile α) (A : α → F.Fact) : Prop :=
  ∀ w s s', P.holds w → F.Related w s s' → Joint w A (outcome m F.forest s) (outcome m' F.forest s')

/-- A computation agrees with itself. -/
abbrev Agrees {α : Type} (P : F.Fact) (m : Compile α) (A : α → F.Fact) : Prop := Agree P m m A

/-- Two runs of a computation give numbers that may differ, as far as a fact of both allows it. -/
structure Numbers (P : F.Fact) (m : Compile Int) (R : Int → Int → F.Fact) : Prop where
  bind : ∀ {β : Type} {k k' : Int → Compile β} {C : β → F.Fact},
    (∀ n n', Agree (P.and (R n n')) (k n) (k' n') C) → Agree P (m >>= k) (m >>= k') C

theorem Numbers.fail {P : F.Fact} {e : Fault} {R : Int → Int → F.Fact} : Numbers P (Compile.fail e) R :=
  ⟨fun _ _ _ _ _ r => .failed r⟩

namespace Agree

variable {α β γ : Type} {P Q : F.Fact} {A B : α → F.Fact} {C : β → F.Fact} {m m' n n' : Compile α}
  {k k' : α → Compile β}

protected theorem pure {a : α} [Entails P (A a)] : Agrees P (Pure.pure a) A :=
  fun w _ _ h r => .done (F.returns_refl w) r (Entails.entails h)

theorem fail {e : Fault} : Agrees P (Compile.fail e) A := fun _ _ _ _ r => .failed r

theorem imp (hm : Agree P m m' A) (h : ∀ {w a}, (A a).holds w → (B a).holds w) : Agree P m m' B :=
  fun w s s' hP r => (hm w s s' hP r).imp fun _ => h

theorem mono [h : ∀ a, Entails (A a) (B a)] (hm : Agree P m m' A) : Agree P m m' B :=
  hm.imp (h _).entails

theorem of_entails [Entails P Q] (hm : Agree Q m m' A) : Agree P m m' A :=
  fun w s s' h => hm w s s' (Entails.entails h)

theorem bind (hm : Agree P m m' A) (hk : ∀ a, Agree (P.and (A a)) (k a) (k' a) C) :
    Agree P (m >>= k) (m' >>= k') C := by
  intro w s s' hP r
  refine (hm w s s' hP r).bind fun returns related fact => ?_
  exact hk _ _ _ _ ⟨P.stable (F.later_of_returns returns) hP, fact⟩ related

theorem seq (hm : Agree P m m' A) (hk : ∀ {a}, Agree (P.and (A a)) (k a) (k' a) C) : Agree P (m >>= k) (m' >>= k') C :=
  hm.bind fun _ => hk

theorem given {p : Prop} [Entails P (.pure p)] (h : p → Agree P m m' A) : Agree P m m' A :=
  fun w s s' hP => h (Entails.entails (Q := .pure p) hP) w s s' hP

theorem ite {c : Prop} [Decidable c] (hm : c → Agree P m m' A) (hn : ¬c → Agree P n n' A) :
    Agree P (if c then m else n) (if c then m' else n') A := by
  split
  · exact hm ‹_›
  · exact hn ‹_›

theorem bindOption {N : F.Fact} {R : γ → F.Fact} {m m' : Compile (Option γ)} {k k' : Option γ → Compile β}
    (hm : Agree P m m' (.option N R)) (hNone : Agree (P.and N) (k none) (k' none) C)
    (hSome : ∀ a, Agree (P.and (R a)) (k (some a)) (k' (some a)) C) : Agree P (m >>= k) (m' >>= k') C := by
  refine hm.bind fun x => ?_
  cases x with
  | none => exact hNone
  | some a => exact hSome a

theorem numbers {m : Compile Int} {A : Int → F.Fact} (hm : Agrees P m A) :
    Numbers P m fun n n' => (Fact.pure (n = n')).and (A n) := by
  refine ⟨fun hk => hm.bind fun n => ?_⟩
  have : Entails (P.and (A n)) (P.and ((Fact.pure (n = n)).and (A n))) := ⟨fun h => ⟨h.1, rfl, h.2⟩⟩
  exact (hk n n).of_entails

theorem iteBind {c : Prop} [Decidable c] (hm : c → Agree P m m' A) (hn : ¬c → Agree P n n' A)
    (hk : ∀ a, Agree (P.and (A a)) (k a) (k' a) C) :
    Agree P (if c then m >>= k else n >>= k) (if c then m' >>= k' else n' >>= k') C :=
  .ite (fun hc => (hm hc).bind hk) fun hc => (hn hc).bind hk

theorem bindRead {k k' : Forest → Compile β} (h : Agree P (k F.forest) (k' F.forest) C) :
    Agree P (read >>= k) (read >>= k') C :=
  h

theorem bindNode {out : SocketRef} {k k' : Node → Compile β}
    (h : Agree P (k (F.forest.node (nodeOf out))) (k' (F.forest.node (nodeOf out))) C) :
    Agree P (theNode out >>= k) (theNode out >>= k') C :=
  h

theorem bindLift {r : Except Fault α} (h : ∀ a, r = .ok a → Agree P (k a) (k' a) C) :
    Agree P (lift r >>= k) (lift r >>= k') C := by
  cases r with
  | ok a => exact h a rfl
  | error e => exact fail

theorem bindSteady [Steady n] (h : ∀ a, Agree P (k a) (k' a) C) : Agree P (n >>= k) (n >>= k') C := by
  intro w s s' hP r
  obtain ⟨x, hx⟩ := Steady.steady (m := n) F.forest
  cases x with
  | ok a =>
    rw [outcome_bind_ok (hx s), outcome_bind_ok (hx s')]
    exact h a w s s' hP r
  | error e =>
    rw [outcome_bind_error (hx s), outcome_bind_error (hx s')]
    exact .failed r

theorem bindChoose {choices : List (String × α)} {d : Datum} (h : ∀ x ∈ choices, Agree P (k x.2) (k' x.2) C) :
    Agree P (choose choices d >>= k) (choose choices d >>= k') C := by
  unfold choose
  split
  · split
    · rename_i a hGet
      exact h (_, a) (Table.mem_of_lookup hGet)
    · exact fail
  · exact fail

theorem steady [Steady n] : Agrees P n fun _ => .pure True := by
  have h : Agrees P (n >>= Pure.pure) fun _ => .pure True := .bindSteady fun _ => .pure
  rwa [bind_pure] at h

theorem mapM {xs : List γ} {g g' : γ → Compile β} (hg : ∀ x ∈ xs, Agree P (g x) (g' x) C) :
    Agree P (xs.mapM g) (xs.mapM g') (.each C) := by
  induction xs with
  | nil =>
    rw [mapM_nil, mapM_nil]
    exact .pure
  | cons x xs ih =>
    rw [mapM_cons, mapM_cons]
    refine (hg x mem_cons_self).bind fun _ => ?_
    exact (ih fun y hy => hg y (mem_cons_of_mem x hy)).of_entails.bind fun _ => .pure

theorem mapEach {R : γ → F.Fact} {xs : List γ} {g g' : γ → Compile β} [Entails P (.each R xs)]
    (hg : ∀ x, Agree (P.and (R x)) (g x) (g' x) C) : Agree P (xs.mapM g) (xs.mapM g') (.each C) :=
  .mapM fun x hx => have : Entails P (R x) := .of_mem hx; (hg x).of_entails

theorem forM {xs : List γ} {g g' : γ → Compile Unit} (hg : ∀ x ∈ xs, Agree P (g x) (g' x) fun _ => .pure True) :
    Agree P (xs.forM g) (xs.forM g') fun _ => .pure True := by
  induction xs with
  | nil => exact .pure
  | cons x xs ih =>
    refine (hg x mem_cons_self).bind fun _ => ?_
    exact (ih fun y hy => hg y (mem_cons_of_mem x hy)).of_entails

end Agree

end Frame

end SceneExchange.Material
