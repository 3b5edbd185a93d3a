import SceneExchange.Scene.Walk

/-!
# Where parts of a walk end

A part of a walk returns something or fails, and leaves a walk either way. Mostly only parts that return matter:
what they return, and the walk that they leave.
-/

namespace SceneExchange.Scene

open Walking

def outcome {α : Type} (m : Walking α) (s : Scene) (w : Walk) : Except Fault α × Walk := m s w

/-- Where the part of a walk returns, this holds of its result and of the walk then. -/
def Ends {α : Type} (m : Walking α) (s : Scene) (w : Walk) (Q : α → Walk → Prop) : Prop :=
  ∀ a w', outcome m s w = (.ok a, w') → Q a w'

namespace Ends

variable {α β : Type} {s : Scene} {w : Walk} {m : Walking α} {k : α → Walking β} {Q R : α → Walk → Prop}
  {T : β → Walk → Prop}

protected theorem pure {a : α} (h : Q a w) : Ends (pure a) s w Q := by
  rintro a w' ⟨⟩
  exact h

protected theorem throw {e : Fault} : Ends (throw e) s w Q := by
  rintro a w' ⟨⟩

protected theorem bind (h : Ends m s w fun a u => Ends (k a) s u T) : Ends (m >>= k) s w T := by
  intro b w' hRun
  obtain ⟨a, u, hFirst, hRest⟩ := (run_bind_iff).mp hRun
  exact h a u hFirst b w' hRest

theorem imp (h : Ends m s w Q) (hQ : ∀ a u, Q a u → R a u) : Ends m s w R :=
  fun a u hRun => hQ a u (h a u hRun)

protected theorem lift {r : Except Fault α} (h : ∀ a, r = .ok a → Q a w) : Ends (lift r) s w Q := by
  cases r with
  | ok a => exact .pure (h a rfl)
  | error e => exact .throw

protected theorem modify {g : Walk → Walk} {Q : Unit → Walk → Prop} (h : Q () (g w)) : Ends (modify g) s w Q := by
  rintro a w' ⟨⟩
  exact h

protected theorem set {u : Walk} {Q : Unit → Walk → Prop} (h : Q () u) : Ends (set u) s w Q := by
  rintro a w' ⟨⟩
  exact h

theorem bindRead {k : Scene → Walking β} (h : Ends (k s) s w T) : Ends (read >>= k) s w T := h

theorem bindGet {k : Walk → Walking β} (h : Ends (k w) s w T) : Ends (get >>= k) s w T := h

theorem bindLift {r : Except Fault α} (h : ∀ a, r = .ok a → Ends (k a) s w T) : Ends (lift r >>= k) s w T :=
  .bind (.lift h)

end Ends

variable {s : Scene} {w : Walk}

theorem ends_self {α : Type} {m : Walking α} : Ends m s w fun a w' => outcome m s w = (.ok a, w') :=
  fun _ _ h => h

section Outcome

variable {α β : Type} {m : Walking α} {k : α → Walking β} {u : Walk}

theorem outcome_bind {a : α} (h : outcome m s w = (.ok a, u)) : outcome (m >>= k) s w = outcome (k a) s u :=
  run_bind_of_ok h

theorem outcome_bind_error {e : Fault} (h : outcome m s w = (.error e, u)) : outcome (m >>= k) s w = (.error e, u) :=
  run_bind_of_error h

theorem outcome_read {k : Scene → Walking β} : outcome (read >>= k) s w = outcome (k s) s w := rfl

theorem outcome_get {k : Walk → Walking β} : outcome (get >>= k) s w = outcome (k w) s w := rfl

end Outcome

end SceneExchange.Scene
