import SceneExchange.Fingerprint.Value

/-!
# Fingerprints and order

The fingerprint of a value does not depend on the order of a set. It does not depend on the order of a
table either, unless keys of it have one fingerprint: entries of such keys are fed in the order in which
they were filled in. Keys that differ only where they are not opened, or in a gap, have one fingerprint.
-/

open List

namespace SceneExchange.Fingerprint.Value

/-- The parts of a value that are fed, each with the depth at which it is. -/
def parts (depth : Nat) : Value → List (Nat × Value)
  | .sequence _ items => items.map (depth + 1, ·)
  | .set _ items => items.map (0, ·)
  | .dict es => es.flatMap fun e => [(0, e.1), (depth + 1, e.1), (depth + 1, e.2)]
  | _ => []

variable (digest : List UInt8 → String) (o : Omissions)

variable {digest o} {depth : Nat}

/-- Nothing is fed for what is left out. -/
def silent : Omissions := ⟨fun _ => [], fun _ => [], fun _ => []⟩

end SceneExchange.Fingerprint.Value
