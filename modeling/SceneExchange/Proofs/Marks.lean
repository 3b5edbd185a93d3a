import Mathlib.Data.List.Forall2
import SceneExchange.Import.Materials

/-!
# Reading elements from their marks

A reader takes the marks of an element: it answers, and what is left are the marks after the element.
Nothing else of a state changes but the log.
-/

open List

namespace SceneExchange.Import

open Markup (Tag Tree)

/-- The starts and the ends of elements in a tree. -/
def marks (t : Tree) : List Mark := t.events.filterMap Mark.ofEvent?

def marksOf (ts : List Tree) : List Mark := (Tree.eventsOf ts).filterMap Mark.ofEvent?

@[simp] theorem marksOf_cons (t : Tree) (ts : List Tree) : marksOf (t :: ts) = marks t ++ marksOf ts := by
  simp [marksOf, marks, Tree.eventsOf]

@[simp] theorem marksOf_append (ts us : List Tree) : marksOf (ts ++ us) = marksOf ts ++ marksOf us := by
  induction ts with
  | nil => rfl
  | cons t ts ih => simp [ih]

@[simp] theorem marks_element (tag : Tag) (children : List Tree) :
    marks (.element tag children) = ⟨false, tag⟩ :: (marksOf children ++ [⟨true, tag⟩]) := by
  simp [marks, marksOf, Tree.events, Mark.ofEvent?]

namespace Importing

variable {α β : Type} {p : Place} {ms ms' : List Mark}
variable {m : Importing α} {k : α → Importing β} {a : α} {b : β}

def result (m : Importing α) (p : Place) (s : State) : Except Fault α × State := m p s

theorem result_bind_ok {s t : State} (h : result m p s = (.ok a, t)) : result (m >>= k) p s = result (k a) p t :=
  run_bind_of_ok h

theorem result_bind_error {s t : State} {e : Fault} (h : result m p s = (.error e, t)) :
    result (m >>= k) p s = (.error e, t) :=
  run_bind_of_error h

def Takes (p : Place) (ms : List Mark) (m : Importing α) (a : α) : Prop :=
  ∀ s rest, s.marks = ms ++ rest → ∃ log, result m p s = (.ok a, { s with marks := rest, log := log })

def Fails (p : Place) (ms : List Mark) (m : Importing α) : Prop :=
  ∀ s rest, s.marks = ms ++ rest → ∃ e t, result m p s = (.error e, t)

theorem takes_pure (a : α) : Takes p [] (pure a) a := by
  rintro s rest hMarks
  refine ⟨s.log, ?_⟩
  rw [← (show s.marks = rest from hMarks)]
  rfl

theorem Takes.bind (h : Takes p ms m a) (h' : Takes p ms' (k a) b) : Takes p (ms ++ ms') (m >>= k) b := by
  intro s rest hMarks
  obtain ⟨log, hFirst⟩ := h s (ms' ++ rest) (by rw [hMarks, append_assoc])
  rw [result_bind_ok hFirst]
  exact h' _ rest rfl

theorem Takes.then (h : Takes p [] m a) (h' : Takes p ms (k a) b) : Takes p ms (m >>= k) b :=
  h.bind h'

theorem Takes.bind_nil (h : Takes p ms m a) (h' : Takes p [] (k a) b) : Takes p ms (m >>= k) b :=
  append_nil ms ▸ h.bind h'

theorem Takes.fails (h : Takes p ms m a) (h' : Fails p ms' (k a)) : Fails p (ms ++ ms') (m >>= k) := by
  intro s rest hMarks
  obtain ⟨log, hFirst⟩ := h s (ms' ++ rest) (by rw [hMarks, append_assoc])
  rw [result_bind_ok hFirst]
  exact h' _ rest rfl

theorem Takes.fails_nil (h : Takes p ms m a) (h' : Fails p [] (k a)) : Fails p ms (m >>= k) :=
  append_nil ms ▸ h.fails h'

theorem Fails.bind (h : Fails p ms m) (k : α → Importing β) : Fails p ms (m >>= k) := by
  intro s rest hMarks
  obtain ⟨e, t, hFirst⟩ := h s rest hMarks
  exact ⟨e, t, result_bind_error hFirst⟩

theorem Fails.append (h : Fails p ms m) (ms' : List Mark) : Fails p (ms ++ ms') m :=
  fun s rest hMarks => h s (ms' ++ rest) (by rw [hMarks, append_assoc])

theorem fails_throw (e : Fault) : Fails p [] (throw e : Importing α) := fun s _ _ => ⟨e, s, rfl⟩

theorem takes_write (level : LogLevel) (message : String) : Takes p [] (write level message) () := by
  rintro s rest hMarks
  refine ⟨s.log.push ⟨level, message⟩, ?_⟩
  rw [← (show s.marks = rest from hMarks)]
  rfl

theorem result_get (s : State) : result get p s = (.ok s, s) := rfl

theorem takes_next (m : Mark) : Takes p [m] next m := by
  rintro s rest hMarks
  refine ⟨s.log, ?_⟩
  rw [next, result_bind_ok (result_get s), hMarks]
  rfl

theorem takes_expect : Takes p [] (expect true) () := takes_pure ()

theorem takes_close (tag : Tag) : Takes p [⟨true, tag⟩] (close tag) () := by
  refine (takes_next ⟨true, tag⟩).bind_nil ?_
  rw [beq_self_eq_true]
  exact takes_expect.then takes_expect

def inputKey (tag : Tag) : Importing String :=
  match tag.name with
  | "Input" => attributeOf tag "Name"
  | "Coordinates" => pure "0"
  | name => pure name

def outputIndex (tag : Tag) : Importing Int :=
  match tag.attribute? "OutputIndex" with
  | some text => integer text
  | none => pure 0

theorem input_eq (inputs : Table String Source) (tag : Tag) : input inputs tag = (do
      close tag
      let key ← inputKey tag
      let expression ← integerAttribute tag "expression"
      let output ← outputIndex tag
      pure (inputs.insert key ⟨expression, output⟩)) := by
  rw [input, outputIndex, inputKey]
  refine bind_congr fun _ => ?_
  cases tag.attribute? "OutputIndex" <;> dsimp only <;> split <;> simp only [*]

theorem fails_foldChildren_end {σ : Type} {tag child : Tag} {f : σ → Tag → Importing σ}
    (hPlace : child.place ≠ tag.place) (fuel : Nat) (acc : σ) :
    Fails p [⟨true, child⟩] (foldChildren tag f fuel acc) := by
  cases fuel with
  | zero => exact (fails_throw _).append _
  | succ fuel =>
    refine (takes_next ⟨true, child⟩).fails_nil ?_
    have hOther : (child.place == tag.place) = false := by simpa using hPlace
    simp only [if_true, hOther]
    exact (fails_throw _).bind _

end Importing

end SceneExchange.Import
