import SceneExchange.Proofs.Compilation
import SceneExchange.Proofs.Entries

/-!
# References to expressions that exist

A run is compared with itself: at every point the operands of a session name expressions and
bundles that exist already, so an expression refers only to earlier ones. Bundles with an output
index are no shaders, since an output index is a number and names no expression.

A scope tells which of the expressions and bundles that stood in a session before may be named.
In an exact scope every reference is written as a number: no handler is missing, and no node refers
to an operand as if it were a position.
-/

open List

namespace SceneExchange

open Table Datum

def Datum.int? : Datum → Option Int
  | .int n => some n
  | _ => none

namespace Material

open SceneExchange.Graph Compile Material.Frame

/-- The numbers that stand for expressions in a part; its texts name none. -/
def Part.references : Part → List Int
  | .input _ source => source.expression.int?.toList
  | .text _ => []
  | .element e => (e.valuesOf "expression").filterMap int?

def Expression.references (e : Expression) : List Int := e.parts.flatMap Part.references

theorem mem_int? {d : Datum} {n : Int} : n ∈ d.int?.toList ↔ d = .int n := by
  cases d <;> simp [int?, eq_comm]

def Part.expressions : Part → List Datum
  | .input _ source => [source.expression]
  | .text _ => []
  | .element e => e.valuesOf "expression"

def Part.outputs : Part → List Datum
  | .input _ source => [source.output]
  | .text _ => []
  | .element e => e.valuesOf "OutputIndex"

def Source.Numbered (s : Source) : Prop := ∃ (n : Int) (k : Nat), s = ⟨.int n, .int k⟩

/-- A part that refers by numbers. -/
structure Part.Numbered (p : Part) : Prop where
  expressions : ∀ d ∈ p.expressions, ∃ n : Int, d = .int n
  outputs : ∀ d ∈ p.outputs, ∃ k : Nat, d = .int k

/-- What is asked of references: that no part of one is taken for a channel, which needs a handler of every
shader, and that none has an operand for its position. -/
structure Care where
  handled : Prop
  straight : Prop

/-- What operands may name, and how references are written. -/
structure Scope where
  /-- Expressions from here on are looked at and may be named. -/
  base : Nat
  /-- Bundles from here on are looked at and may be named. -/
  floor : Nat
  /-- Positions of earlier expressions that may be named. -/
  position : Int → Prop
  /-- Earlier bundles that may be named. -/
  bundle : Nat → Prop
  care : Care

namespace Scope

/-- The scope of a material: all its expressions, and the bundles that it makes. -/
def whole (care : Care) (base floor : Nat) : Scope where
  base := base
  floor := floor
  position _ := True
  bundle _ := False
  care := care

variable (c : Scope)

def exact : Prop := c.care.handled ∧ c.care.straight

def Names (n : Int) : Prop := n = -1 ∨ c.base ≤ n ∨ c.position n

def Holds (i : Nat) : Prop := c.floor ≤ i ∨ c.bundle i

/-- A name of a channel: no part of a reference. -/
def Channel (name : String) : Prop := name ≠ "OutputIndex" ∧ (c.care.handled → name ≠ "expression")

def Plain (s : Session) (i : Nat) : Prop := ∀ e ∈ (s.bundles[i]?.getD .empty).entries, c.Channel e.1

end Scope

namespace Session

/-- The position of an expression that exists, or the mark of none. -/
def Placed (s : Session) (n : Int) : Prop := n = -1 ∨ 0 ≤ n ∧ n < s.expressions.size

/-- Expressions and bundles are added, and a bundle of channels stays one. -/
structure Grows (c : Scope) (s t : Session) : Prop where
  expressions : s.expressions.toList <+: t.expressions.toList
  bundles : s.bundles.size ≤ t.bundles.size
  plain : ∀ i < s.bundles.size, c.Plain s i → c.Plain t i
  groupInputs : t.groupInputs = s.groupInputs

variable {c : Scope}

theorem Grows.refl (s : Session) : s.Grows c s where
  expressions := prefix_rfl
  bundles := Nat.le_refl _
  plain _ _ h := h
  groupInputs := rfl

theorem Grows.trans {s t u : Session} (h : s.Grows c t) (h' : t.Grows c u) : s.Grows c u where
  expressions := h.expressions.trans h'.expressions
  bundles := Nat.le_trans h.bundles h'.bundles
  plain i hi hPlain := h'.plain i (Nat.lt_of_lt_of_le hi h.bundles) (h.plain i hi hPlain)
  groupInputs := h'.groupInputs.trans h.groupInputs

theorem Grows.size_le {s t : Session} (h : s.Grows c t) : s.expressions.size ≤ t.expressions.size := by
  simpa using h.expressions.length_le

theorem Placed.grows {s t : Session} {n : Int} (h : s.Placed n) (hGrows : s.Grows c t) : t.Placed n := by
  have := hGrows.size_le
  unfold Placed at *
  omega

end Session

namespace Operand

/-- The number that an operand is, if it is a bare position. -/
def position? : Operand → Option Int
  | .index n => some n
  | _ => Option.none

variable (c : Scope)

/-- An operand that names what exists and may be named. -/
def Fine (s : Session) : Operand → Prop
  | .none => True
  | .index n => s.Placed n ∧ c.Names n
  | .bundle i => c.Holds i ∧ i < s.bundles.size

/-- An operand whose entries are channels. -/
def Shading (s : Session) : Operand → Prop
  | .bundle i => c.Holds i ∧ i < s.bundles.size ∧ c.Plain s i
  | _ => True

variable {c} {s t : Session} {o : Operand}

theorem Fine.grows (h : o.Fine c s) (hGrows : s.Grows c t) : o.Fine c t := by
  cases o with
  | none => trivial
  | index n => exact ⟨h.1.grows hGrows, h.2⟩
  | bundle i => exact ⟨h.1, Nat.lt_of_lt_of_le h.2 hGrows.bundles⟩

theorem Shading.grows (h : o.Shading c s) (hGrows : s.Grows c t) : o.Shading c t := by
  cases o with
  | none => trivial
  | index n => trivial
  | bundle i => exact ⟨h.1, Nat.lt_of_lt_of_le h.2.1 hGrows.bundles, hGrows.plain i h.2.1 h.2.2⟩

end Operand

/-- An operand that fits a socket of the given kind. -/
def Operand.Fits (c : Scope) (s : Session) (kind : SocketKind) (o : Operand) : Prop :=
  o.Fine c s ∧ (kind = .shader → o.Shading c s)

theorem Operand.Fits.grows {c : Scope} {s t : Session} {kind : SocketKind} {o : Operand}
    (h : o.Fits c s kind) (hGrows : s.Grows c t) : o.Fits c t kind :=
  ⟨h.1.grows hGrows, fun hKind => (h.2 hKind).grows hGrows⟩

/-- An entry of a bundle: a number of an output, or else an operand. -/
structure Scope.Entry (c : Scope) (s : Session) (e : String × Operand) : Prop where
  output : e.1 = "OutputIndex" → ∃ k : Nat, e.2 = .index k
  fine : e.1 ≠ "OutputIndex" → e.2.Fine c s
  position : c.exact → e.1 = "expression" → ∃ n, e.2 = .index n

theorem Scope.Entry.grows {c : Scope} {s t : Session} {e : String × Operand} (h : c.Entry s e)
    (hGrows : s.Grows c t) : c.Entry t e :=
  ⟨h.output, fun hName => (h.fine hName).grows hGrows, h.position⟩

theorem Scope.Entry.of_channel {c : Scope} {s : Session} {e : String × Operand} (hName : c.Channel e.1)
    (h : e.2.Fine c s) : c.Entry s e :=
  ⟨(absurd · hName.1), fun _ => h, fun hExact hPosition => absurd hPosition (hName.2 hExact.1)⟩

structure Scope.Part (c : Scope) (s : Session) (p : Material.Part) : Prop where
  placed : ∀ n ∈ p.references, s.Placed n ∧ c.Names n
  numbered : c.exact → p.Numbered

theorem Part.references_eq (p : Part) : p.references = p.expressions.filterMap int? := by
  cases p with
  | input name source => cases h : source.expression.int? <;> simp [references, expressions, h]
  | text t => rfl
  | element e => rfl

theorem Scope.part_of_nil {c : Scope} {s : Session} {p : Material.Part} (hExpressions : p.expressions = [])
    (hOutputs : p.outputs = []) : c.Part s p := by
  refine ⟨?_, fun _ => ⟨?_, ?_⟩⟩
  · rw [p.references_eq, hExpressions]
    exact forall_mem_nil _
  · rw [hExpressions]
    exact forall_mem_nil _
  · rw [hOutputs]
    exact forall_mem_nil _

/-- The tables of a session hold operands and positions that exist. -/
structure Tables (f : Forest) (c : Scope) (s : Session) : Prop where
  memo : ∀ x ∈ s.memo, x.2.Fits c s (f.outputSocket x.1).kind
  nodes : ∀ x ∈ s.nodeMemo, s.Placed x.2 ∧ c.Names x.2
  stations : ∀ x ∈ s.stations, (s.Placed x.2.expression ∧ c.Names x.2.expression) ∧ HasValues f x.1
  heights : ∀ n ∈ s.heightTextures, s.Placed n

/-- Expressions refer to earlier ones, and bundles hold what exists. The tables count only while a
field is compiled. -/
structure Sound (f : Forest) (c : Scope) (compiling : Prop) (s : Session) : Prop where
  base_le : c.base ≤ s.expressions.size
  floor_le : c.floor ≤ s.bundles.size
  expressions : ∀ i e, c.base ≤ i → s.expressions[i]? = some e → ∀ n ∈ e.references,
    (n = -1 ∨ 0 ≤ n ∧ n < i) ∧ c.Names n
  numbered : c.exact → ∀ i e, c.base ≤ i → s.expressions[i]? = some e → ∀ p ∈ e.parts, p.Numbered
  bundles : ∀ i, c.Holds i → ∀ e ∈ (s.bundles[i]?.getD .empty).entries, c.Entry s e
  tables : compiling → Tables f c s

section Steps

variable {f : Forest} {c : Scope} {compiling : Prop} {s t : Session}

theorem Session.grows_of_eq
    (h : (t.expressions, t.bundles, t.groupInputs) = (s.expressions, s.bundles, s.groupInputs)) : s.Grows c t := by
  simp only [Prod.mk.injEq] at h
  obtain ⟨hExpressions, hBundles, hInputs⟩ := h
  refine ⟨hExpressions ▸ prefix_rfl, hBundles ▸ Nat.le_refl _, fun i _ hPlain => ?_, hInputs⟩
  unfold Scope.Plain
  rwa [hBundles]

theorem Session.grows_of_footing (h : t.footing = s.footing) : s.Grows c t := by
  simp only [Session.footing, Prod.mk.injEq] at h
  exact grows_of_eq (by rw [h.1, h.2.1, h.2.2.1])

theorem Tables.grows (h : Tables f c s) (hGrows : s.Grows c t)
    (hSame : (t.memo, t.nodeMemo, t.stations) = (s.memo, s.nodeMemo, s.stations))
    (hHeights : ∀ n ∈ t.heightTextures, n ∈ s.heightTextures ∨ t.Placed n) : Tables f c t := by
  simp only [Prod.mk.injEq] at hSame
  obtain ⟨hMemo, hNodes, hStations⟩ := hSame
  refine ⟨fun x hx => (h.memo x (hMemo ▸ hx)).grows hGrows, fun x hx => ?_, fun x hx => ?_, fun n hn => ?_⟩
  · exact (h.nodes x (hNodes ▸ hx)).imp_left (·.grows hGrows)
  · exact (h.stations x (hStations ▸ hx)).imp_left (·.imp_left (·.grows hGrows))
  · exact (hHeights n hn).elim (fun hOld => (h.heights n hOld).grows hGrows) id

/-- A session stays sound if no expression is added, and nothing to bundles but what exists. -/
theorem Sound.rebundled {compiling' : Prop} (h : Sound f c compiling s) (hGrows : s.Grows c t)
    (hExpressions : t.expressions = s.expressions) (hBundles : ∀ (i : Nat), ∀ e ∈ (t.bundles[i]?.getD .empty).entries,
      e ∈ (s.bundles[i]?.getD .empty).entries ∨ c.Entry t e) (hTables : compiling' → Tables f c t) :
    Sound f c compiling' t where
  base_le := hExpressions ▸ h.base_le
  floor_le := Nat.le_trans h.floor_le hGrows.bundles
  expressions := hExpressions ▸ h.expressions
  numbered := hExpressions ▸ h.numbered
  bundles i hi e he := (hBundles i e he).elim (fun hOld => (h.bundles i hi e hOld).grows hGrows) id
  tables := hTables

theorem Sound.retabled {compiling' : Prop} (h : Sound f c compiling s)
    (hSame : (t.expressions, t.bundles, t.groupInputs) = (s.expressions, s.bundles, s.groupInputs))
    (hTables : compiling' → Tables f c t) : Sound f c compiling' t := by
  refine h.rebundled (Session.grows_of_eq hSame) (Prod.mk.inj hSame).1 (fun i e he => .inl ?_) hTables
  rwa [(Prod.mk.inj (Prod.mk.inj hSame).2).1] at he

theorem Sound.of_footing (h : Sound f c compiling s) (hSame : t.footing = s.footing) : Sound f c compiling t := by
  have hGrows : s.Grows c t := Session.grows_of_footing hSame
  simp only [Session.footing, Prod.mk.injEq] at hSame
  obtain ⟨hExpressions, hBundles, hInputs, hMemo, hNodes, hStations, hHeights, -⟩ := hSame
  refine h.retabled (by rw [hExpressions, hBundles, hInputs]) fun hc => ?_
  exact (h.tables hc).grows hGrows (by rw [hMemo, hNodes, hStations]) fun n hn => .inl (hHeights ▸ hn)

theorem Sound.emit (h : Sound f c compiling s) {e : Expression} (hParts : ∀ p ∈ e.parts, c.Part s p) :
    s.Grows c { s with expressions := s.expressions.push e } ∧
      Sound f c compiling { s with expressions := s.expressions.push e } := by
  have hGrows : s.Grows c { s with expressions := s.expressions.push e } :=
    ⟨by simp, Nat.le_refl _, fun _ _ hPlain => hPlain, rfl⟩
  refine ⟨hGrows, Nat.le_trans h.base_le hGrows.size_le, h.floor_le, ?_, ?_, fun i hi x hx => ?_,
    fun hc => (h.tables hc).grows hGrows rfl fun _ => .inl⟩
  · intro i e' hi hGet n hn
    simp only [Array.getElem?_push] at hGet
    split at hGet
    · obtain rfl := Option.some.inj hGet
      rename_i hLast
      obtain ⟨p, hp, hn⟩ := mem_flatMap.mp hn
      rw [hLast]
      exact (hParts p hp).placed n hn
    · exact h.expressions i e' hi hGet n hn
  · intro hExact i e' hi hGet p hp
    simp only [Array.getElem?_push] at hGet
    split at hGet
    · obtain rfl := Option.some.inj hGet
      exact (hParts p hp).numbered hExact
    · exact h.numbered hExact i e' hi hGet p hp
  · exact (h.bundles i hi x hx).grows hGrows

theorem Sound.newBundle (h : Sound f c compiling s) {b : Bundle} (hEntries : ∀ e ∈ b.entries, c.Entry s e) :
    s.Grows c { s with bundles := s.bundles.push b } ∧ Sound f c compiling { s with bundles := s.bundles.push b } := by
  have hGrows : s.Grows c { s with bundles := s.bundles.push b } := by
    refine ⟨prefix_rfl, by simp, fun i hi hPlain => ?_, rfl⟩
    unfold Scope.Plain at *
    rwa [Array.getElem?_push_lt hi, ← Array.getElem?_eq_getElem hi]
  refine ⟨hGrows, h.rebundled hGrows rfl (fun i e he => ?_) fun hc => (h.tables hc).grows hGrows rfl fun _ => .inl⟩
  simp only [Array.getElem?_push] at he
  split at he
  · exact .inr ((hEntries e he).grows hGrows)
  · exact .inl he

theorem Sound.setBundle (h : Sound f c compiling s) {i : Nat} {b : Bundle}
    (hEntries : ∀ e ∈ b.entries, c.Channel e.1 ∧ e.2.Fine c s) :
    s.Grows c { s with bundles := s.bundles.setIfInBounds i b } ∧
      Sound f c compiling { s with bundles := s.bundles.setIfInBounds i b } := by
  have hGrows : s.Grows c { s with bundles := s.bundles.setIfInBounds i b } := by
    refine ⟨prefix_rfl, by simp, fun j hj hPlain => ?_, rfl⟩
    unfold Scope.Plain at *
    simp only [Array.getElem?_setIfInBounds]
    split
    · rw [if_pos (by omega)]
      exact fun e he => (hEntries e he).1
    · exact hPlain
  refine ⟨hGrows, h.rebundled hGrows rfl (fun j e he => ?_) fun hc => (h.tables hc).grows hGrows rfl fun _ => .inl⟩
  simp only [Array.getElem?_setIfInBounds] at he
  split at he
  · split at he
    · exact .inr (.of_channel (hEntries e he).1 ((hEntries e he).2.grows hGrows))
    · cases he
  · exact .inl he

end Steps

namespace References

variable (f : Forest) (c : Scope) (compiling : Prop)

/-- A run that is compared with itself. -/
def frame : Frame where
  forest := f
  lenient _ := False
  World := Session
  Related w s s' := w = s ∧ w = s' ∧ Sound f c compiling w
  Later := Session.Grows c
  Returns := Session.Grows c
  later_of_returns := id
  returns_refl := .refl
  returns_trans := .trans

def vocabulary : Vocabulary where
  toFrame := frame f c compiling
  position e := ⟨fun w => w.Placed e ∧ c.Names e, fun hw h => ⟨h.1.grows hw, h.2⟩⟩
  value o := ⟨fun w => o.Fine c w, fun hw h => h.grows hw⟩
  shader o := ⟨fun w => o.Shading c w, fun hw h => h.grows hw⟩
  rough o := ⟨fun w => ¬c.care.handled → o.Shading c w, fun hw h hLoose => (h hLoose).grows hw⟩
  source s := ⟨fun w => (∀ n, s.expression = .int n → w.Placed n ∧ c.Names n) ∧ (c.exact → s.Numbered),
    fun hw h => ⟨fun n hn => ⟨(h.1 n hn).1.grows hw, (h.1 n hn).2⟩, h.2⟩⟩
  texture _ := .pure True
  Channel := c.Channel

variable {f c compiling}

section Facts

variable {w : Session}

theorem part_holds {p : Part} (h : ((vocabulary f c compiling).part p).holds w) : c.Part w p := by
  cases h with
  | input hName hSource =>
    obtain ⟨hPlaced, hNumbered⟩ := hSource
    refine ⟨fun n hn => hPlaced n (mem_int?.mp hn), fun hExact => ?_⟩
    obtain ⟨n, k, rfl⟩ := hNumbered hExact
    exact ⟨forall_mem_singleton.mpr ⟨n, rfl⟩, forall_mem_singleton.mpr ⟨k, rfl⟩⟩
  | text => exact Scope.part_of_nil rfl rfl
  | element hInert => exact Scope.part_of_nil (hInert.valuesOf (by decide)) (hInert.valuesOf (by decide))
  | @coordinates e hPosition =>
    refine ⟨fun n hn => ?_, fun _ => ⟨fun d hd => ?_, fun d hd => nomatch hd⟩⟩
    · obtain rfl : n = e := mem_singleton.mp hn
      exact hPosition
    · exact ⟨e, mem_singleton.mp hd⟩

end Facts

instance : (frame f c compiling).Flat where
  eq_of_related h := h.1.symm.trans h.2.1
  beside := by
    rintro w _ t ⟨rfl, -, hSound⟩ hBeside
    exact ⟨t, Session.grows_of_footing hBeside.footing, rfl, rfl, hSound.of_footing hBeside.footing⟩
  level := by
    rintro w _ contexts depth ⟨rfl, -, hSound⟩
    exact ⟨{ w with contexts := contexts, depth := depth }, Session.grows_of_footing rfl, rfl, rfl, hSound.of_footing rfl⟩

instance : (vocabulary f c compiling).Flat :=
  inferInstanceAs (frame f c compiling).Flat

section Operands

theorem newBundle_joint {w : Session} (hSound : Sound f c compiling w)
    {es : List (String × Operand)} (hEntries : ∀ e ∈ es, c.Entry w e)
    {A : Operand → (frame f c compiling).Fact}
    (hA : ∀ t : Session, t.bundles = w.bundles.push (ofList es) → (A (.bundle w.bundles.size)).holds t) :
    Joint w A (outcome (newBundle es) f w) (outcome (newBundle es) f w) := by
  obtain ⟨hGrows, hNext⟩ := hSound.newBundle fun e he => hEntries e (mem_ofList he)
  exact .done hGrows ⟨rfl, rfl, hNext⟩ (hA _ rfl)

theorem fine_push {w t : Session} (hSound : Sound f c compiling w) {b : Bundle}
    (h : t.bundles = w.bundles.push b) : (Operand.bundle w.bundles.size).Fine c t := by
  refine ⟨.inl hSound.floor_le, ?_⟩
  rw [h, Array.size_push]
  exact Nat.lt_succ_self _

theorem shading_push {w t : Session} (hSound : Sound f c compiling w)
    {es : List (String × Operand)} (h : t.bundles = w.bundles.push (ofList es))
    (hPlain : ∀ e ∈ es, c.Channel e.1) : (Operand.bundle w.bundles.size).Shading c t := by
  obtain ⟨hHolds, hSize⟩ := fine_push hSound h
  refine ⟨hHolds, hSize, fun e he => hPlain e (mem_ofList ?_)⟩
  rwa [h, Array.getElem?_push_size] at he

theorem datum_eq_int {bundles : Array Bundle} {fuel : Nat} {visited : List Nat} {o : Operand} {n : Int}
    (h : o.datum bundles fuel visited = .int n) : o = .index n := by
  cases o with
  | none => cases fuel <;> cases h
  | index m =>
    cases fuel <;> cases h <;> rfl
  | bundle i =>
    cases fuel with
    | zero => cases h
    | succ fuel =>
      rw [Operand.datum] at h
      split at h <;> cases h

theorem datum_index {bundles : Array Bundle} {fuel : Nat} {visited : List Nat} (n : Int) :
    (Operand.index n).datum bundles fuel visited = .int n := by
  cases fuel <;> rfl

theorem expression_ne_output : "expression" ≠ "OutputIndex" := by decide

theorem source_joint {w : Session} (hSound : Sound f c compiling w) {o : Operand} {k : Int} [OutputNumber k]
    (hFine : o.Fine c w) :
    Joint w (vocabulary f c compiling).source
      (outcome (source o k) f w) (outcome (source o k) f w) := by
  have hRelated : (frame f c compiling).Related w w w := ⟨rfl, rfl, hSound⟩
  obtain ⟨m, rfl⟩ := Int.eq_ofNat_of_zero_le (OutputNumber.nonneg (k := k))
  cases o with
  | none =>
    refine .done (.refl w) hRelated ⟨fun n hn => ?_, fun _ => ⟨-1, m, rfl⟩⟩
    cases hn
    exact ⟨.inl rfl, .inl rfl⟩
  | index n =>
    refine .done (.refl w) hRelated ⟨fun n' hn => ?_, fun _ => ⟨n, m, rfl⟩⟩
    cases hn
    exact hFine
  | bundle i =>
    have hEntry {name : String} {o : Operand} (h : (w.bundles[i]?.getD .empty).get? name = some o) :
        c.Entry w (name, o) := hSound.bundles i hFine.1 _ (Table.mem_of_lookup h)
    rw [outcome_source_bundle]
    split
    · rename_i o hGet
      have hExpression := hEntry hGet
      refine .done (.refl w) hRelated ⟨fun n hn => ?_, fun hExact => ?_⟩
      · obtain rfl := datum_eq_int hn
        exact hExpression.fine expression_ne_output
      · obtain ⟨n, rfl⟩ := hExpression.position hExact rfl
        rw [datum_index]
        cases hOutput : (w.bundles[i]?.getD .empty).get? "OutputIndex" with
        | none => exact ⟨n, 0, rfl⟩
        | some o =>
          obtain ⟨j, rfl⟩ := (hEntry hOutput).output rfl
          exact ⟨n, j, by rw [Option.map_some, Option.getD_some, datum_index]⟩
    · exact .failed (show (frame f c compiling).Related _ _ _ from ⟨rfl, rfl, hSound.of_footing rfl⟩)

theorem emit_joint {w : Session} (hSound : Sound f c compiling w) {e : Expression}
    (hParts : ∀ p ∈ e.parts, c.Part w p) :
    Joint w (vocabulary f c compiling).position (outcome (emit e) f w) (outcome (emit e) f w) := by
  obtain ⟨hGrows, hNext⟩ := hSound.emit hParts
  have hBase := hSound.base_le
  refine .done hGrows ⟨rfl, rfl, hNext⟩ ⟨.inr ?_, .inr (.inl ?_)⟩
  · simp only [Array.size_push]
    omega
  · omega

theorem emit_agree {P : (frame f c compiling).Fact} {tag : String} {attributes : List (String × Datum)}
    {ps : List Part} (hParts : Entails P ((vocabulary f c compiling).parts ps)) :
    Agrees P (emit ⟨tag, attributes, ps⟩) (vocabulary f c compiling).position := by
  rintro w _ _ hP ⟨rfl, rfl, hSound⟩
  exact emit_joint hSound fun p hp => part_holds (hParts.entails hP p hp)

end Operands

theorem channel_of_channelNames : ∀ n ∈ channelNames, c.Channel n := by
  have h : ∀ n ∈ channelNames, n ≠ "OutputIndex" ∧ n ≠ "expression" := by decide
  exact fun n hn => ⟨(h n hn).1, fun _ => (h n hn).2⟩

theorem entry_position {w : Session} {e : Int} (h : w.Placed e ∧ c.Names e) : c.Entry w ("expression", .index e) :=
  ⟨(absurd · expression_ne_output), fun _ => h, fun _ _ => ⟨e, rfl⟩⟩

variable (f c compiling)

def emission : Emission where
  toVocabulary := vocabulary f c compiling
  position_nothing := ⟨.inl rfl, .inl rfl⟩
  rough_of_shader h _ := h
  value_none := trivial
  value_index := id
  source_position := by
    intro w e k hNumber hPlaced
    obtain ⟨m, rfl⟩ := Int.eq_ofNat_of_zero_le hNumber.nonneg
    exact ⟨fun n hn => int.inj hn ▸ hPlaced, fun _ => ⟨e, m, rfl⟩⟩
  channel_of_mem := channel_of_channelNames
  write := @fun _ _ _ => aside_write.agree
  warnOnceAs := @fun _ _ _ => aside_warnOnceAs.agree
  errorOnce := @fun _ _ => aside_errorOnce.agree
  emit := @fun _ _ _ _ hParts _ => emit_agree hParts
  emitTexture := @fun _ _ _ _ hParts => emit_agree hParts
  textureObject := by
    rintro P name _ w _ _ hP ⟨rfl, rfl, hSound⟩
    refine emit_joint hSound fun p hp => ?_
    obtain rfl := mem_singleton.mp hp
    exact Scope.part_of_nil rfl rfl
  roughRef := by
    rintro P e hPosition w _ _ hP ⟨rfl, rfl, hSound⟩
    have hEntry := entry_position (hPosition.entails hP)
    refine newBundle_joint hSound (forall_mem_singleton.mpr hEntry) fun t ht => ?_
    refine ⟨fine_push hSound ht, fun hLoose => shading_push hSound ht ?_⟩
    exact forall_mem_singleton.mpr ⟨expression_ne_output, fun hExact => absurd hExact hLoose⟩
  refOutput := by
    rintro P e k hNumber hPosition w _ _ hP ⟨rfl, rfl, hSound⟩
    have hEntry := entry_position (hPosition.entails hP)
    obtain ⟨m, rfl⟩ := Int.eq_ofNat_of_zero_le hNumber.nonneg
    refine newBundle_joint hSound (forall_mem_cons.mpr ⟨hEntry, ?_⟩) fun t ht => fine_push hSound ht
    refine forall_mem_singleton.mpr ⟨fun _ => ⟨m, rfl⟩, fun hName => absurd rfl hName, fun _ hName => ?_⟩
    exact absurd hName.symm expression_ne_output
  newShader := by
    rintro P es hChannels w _ _ hP ⟨rfl, rfl, hSound⟩
    have hFine := hChannels.entails hP
    refine newBundle_joint hSound (fun e he => .of_channel (hFine e he).1 (hFine e he).2) fun t ht => ?_
    exact ⟨fine_push hSound ht, shading_push hSound ht fun e he => (hFine e he).1⟩
  sourceStep := by
    rintro P o k _ hValue w _ _ hP ⟨rfl, rfl, hSound⟩
    exact source_joint hSound (hValue.entails hP)
  present := by
    rintro P o hValue w _ _ hP ⟨rfl, rfl, hSound⟩
    have hRelated : (frame f c compiling).Related w w w := ⟨rfl, rfl, hSound⟩
    cases o with
    | none => exact .done (.refl w) hRelated fun _ => trivial
    | index n => exact .done (.refl w) hRelated fun _ => trivial
    | bundle i =>
      obtain ⟨hHolds, hSize⟩ := hValue.entails hP
      refine .done (.refl w) hRelated fun hAbsent => ⟨hHolds, hSize, fun e he => ?_⟩
      rw [Bool.not_eq_false', Table.isEmpty, List.isEmpty_iff] at hAbsent
      rw [hAbsent] at he
      cases he
  bundle := by
    rintro P i hShader w _ _ hP ⟨rfl, rfl, hSound⟩
    obtain ⟨hHolds, -, hPlain⟩ := hShader.entails hP
    refine .done (.refl w) ⟨rfl, rfl, hSound⟩ fun e he => ?_
    exact ⟨hPlain e he, (hSound.bundles i hHolds e he).fine (hPlain e he).1⟩
  entry := by
    rintro P i name hValue hName w _ _ hP ⟨rfl, rfl, hSound⟩
    refine .done (.refl w) ⟨rfl, rfl, hSound⟩ ?_
    cases hGet : (w.bundles[i]?.getD .empty).get? name with
    | none => trivial
    | some o =>
      have hEntry := hSound.bundles i (hValue.entails hP).1 _ (mem_of_lookup hGet)
      exact hEntry.fine (channel_of_channelNames (c := c) name hName).1
  alters := True
  setEntry := by
    rintro P i name o hShader hValue _ hName w _ _ hP ⟨rfl, rfl, hSound⟩
    obtain ⟨hHolds, -, hPlain⟩ := hShader.entails hP
    obtain ⟨hGrows, hNext⟩ := hSound.setBundle fun e he => by
        obtain rfl | he := mem_insertEntry he
        · exact ⟨hName, hValue.entails hP⟩
        · exact ⟨hPlain e he, (hSound.bundles i hHolds e he).fine (hPlain e he).1⟩
    exact .done hGrows ⟨rfl, rfl, hNext⟩ trivial

instance : (emission f c compiling).Flat :=
  inferInstanceAs (frame f c compiling).Flat

/-- The inputs of the group at hand fit the sockets of the given tree that read them. -/
def inside (t : Nat) : (frame f c compiling).Fact where
  holds w := ∀ out : SocketRef, out.tree = t → (f.node (nodeOf out)).kind = "GROUP_INPUT" →
    ∀ o linked, w.groupInputs.get? (f.outputSocket out).identifier = some (o, linked) →
      o.Fits c w (f.outputSocket out).kind
  stable hw h out hTree hKind o linked hGet := by
    rw [hw.groupInputs] at hGet
    exact (h out hTree hKind o linked hGet).grows hw

section Tables

variable {f c compiling} {w t : Session}

theorem retabled_joint (hSound : Sound f c True w)
    (hSame : (t.expressions, t.bundles, t.groupInputs) = (w.expressions, w.bundles, w.groupInputs))
      (hTables : Tables f c t) :
    Joint (F := frame f c True) w (fun _ => .pure True) (.ok (), t) (.ok (), t) :=
  .done (Session.grows_of_eq hSame) ⟨rfl, rfl, hSound.retabled hSame fun _ => hTables⟩ trivial

theorem inside_of_captured (hTyped : f.Typed) {r : NodeRef} {inputs : Table String (Operand × Bool)}
    (h : ((vocabulary f c compiling).captured (f.node r) inputs).holds w)
    (hKind : (f.node r).kind = "GROUP") :
    ((f.node r).innerTree?.elim (.pure True) (inside f c compiling)).holds (w.entered inputs) := by
  cases hTree : (f.node r).innerTree? with
  | none => trivial
  | some t =>
    rintro out rfl hInput o linked hGet
    obtain ⟨s, hs, hIdentifier, hOperand⟩ := h _ (mem_of_lookup hGet)
    refine ⟨hOperand.1, fun hOut => hOperand.2 ?_⟩
    have hInner : f.node (nodeOf out) ∈ (f.tree out.tree).nodes.toList :=
      Forest.node_mem (by rw [hInput]; decide)
    exact (hTyped.node r).groupInputs hKind out.tree hTree _ hInner hInput _
      (Forest.outputSocket_mem hOut) hOut s hs hIdentifier

theorem sound_entered (h : Sound f c True w) (inputs : Table String (Operand × Bool)) : Sound f c True (w.entered inputs) :=
  { h with
    bundles := fun i hi e he => { h.bundles i hi e he with }
    tables := fun _ => ⟨forall_mem_nil _, forall_mem_nil _, forall_mem_nil _, (h.tables trivial).heights⟩ }

theorem sound_restored (h : Sound f c True w) (h' : Sound f c True t)
    (hGrows : w.Grows c (t.restored w)) : Sound f c True (t.restored w) :=
  { h' with
    bundles := fun i hi e he => { h'.bundles i hi e he with }
    tables := fun _ => (h.tables trivial).grows hGrows rfl fun n hn => .inr ((h'.tables trivial).heights n hn) }

theorem groupInput_joint (hSound : Sound f c True w) {out field : SocketRef}
    (hFits : ∀ o linked, w.groupInputs.get? (f.outputSocket out).identifier = some (o, linked) →
      o.Fits c w (f.outputSocket out).kind) :
    Joint w ((vocabulary f c True).operand (f.outputSocket out).kind)
      (outcome (Handlers.groupInput out field) f w) (outcome (Handlers.groupInput out field) f w) := by
  have hRelated : (frame f c True).Related w w w := ⟨rfl, rfl, hSound⟩
  rw [outcome_groupInput]
  split
  · exact .failed hRelated
  · rename_i o linked hGet
    refine .done (.refl w) hRelated ?_
    split
    · exact ⟨trivial, fun _ => trivial⟩
    · exact hFits o linked hGet

theorem operand_of_given {out : SocketRef} (hHandled : c.care.handled → (f.outputSocket out).kind = .shader →
      Handled (f.node (nodeOf out)).kind) {o : Operand}
    (h : ((vocabulary f c compiling).given (Handled (f.node (nodeOf out)).kind) (f.outputSocket out).kind o).holds w) :
    ((vocabulary f c compiling).operand (f.outputSocket out).kind o).holds w := by
  refine ⟨h.1, fun hKind => ?_⟩
  obtain ⟨hRough, hShader⟩ := h.2 hKind
  by_cases hCare : c.care.handled
  · exact hShader (hHandled hCare hKind)
  · exact hRough hCare

end Tables

/-- A forest allows what is asked: no handler of shaders is missing, and no operand is wrapped. -/
structure Allows (care : Care) (f : Forest) : Prop where
  handled : care.handled → ∀ out, (f.outputSocket out).kind = .shader → Handled (f.node (nodeOf out)).kind
  straight : care.straight → ∀ r, (f.node r).kind ≠ "LIGHT_FALLOFF"

variable (hTyped : f.Typed) (hAllows : Allows c.care f)

def compilation : Compilation where
  toEmission := emission f c True
  inside r := inside f c True r.tree
  inside_tree {w _ r'} hTree h := by
    change (inside f c True r'.tree).holds w
    rw [hTree]
    exact h
  admits kind := c.care.straight → kind ≠ "LIGHT_FALLOFF"
  admits_of_inside {_ r} _ h := hAllows.straight h r
  curve n n' := (Fact.pure (n = n')).and (.pure True)
  output out := (vocabulary f c True).operand (f.outputSocket out).kind
  operand_of_output := id
  vacant _ := .pure True
  free _ := .pure True
  output_of_given _ _ h := operand_of_given (fun hCare => hAllows.handled hCare _) h
  stands := HasValues f
  output_of_station hValues _ h := ⟨h, (absurd · (hValues.output_ne_shader hTyped))⟩
  typed := .inl hTyped
  wrap := by
    rintro P o hValue hAdmits w _ _ hP ⟨rfl, rfl, hSound⟩
    refine newBundle_joint hSound (forall_mem_singleton.mpr ?_) fun t ht => fine_push hSound ht
    exact ⟨(absurd · expression_ne_output), fun _ => hValue.entails hP, fun hExact => absurd rfl (hAdmits hExact.2)⟩
  context := @fun _ => Aside.agree fun _ s => .refl s
  within _ hm := hm.within
  nested hm := hm.nested
  announce := @fun _ _ _ => Aside.agree fun _ _ => .of_eq rfl rfl rfl rfl
  recalled := by
    rintro P out w _ _ hP ⟨rfl, rfl, hSound⟩
    refine .done (.refl w) ⟨rfl, rfl, hSound⟩ ?_
    cases hGet : w.memo.lookup out with
    | none => trivial
    | some o => exact (hSound.tables trivial).memo _ (mem_of_lookup hGet)
  remember := by
    rintro P out o _ hOperand w _ _ hP ⟨rfl, rfl, hSound⟩
    have hFits := hOperand.entails hP
    have h := hSound.tables trivial
    exact retabled_joint hSound rfl ⟨forall_mem_cons.mpr ⟨hFits, h.memo⟩, h.nodes, h.stations, h.heights⟩
  recalledNode := by
    rintro P r w _ _ hP ⟨rfl, rfl, hSound⟩
    refine .done (.refl w) ⟨rfl, rfl, hSound⟩ ?_
    cases hGet : w.nodeMemo.lookup r with
    | none => trivial
    | some e => exact (hSound.tables trivial).nodes _ (mem_of_lookup hGet)
  rememberNode := by
    rintro P r e _ hPosition w _ _ hP ⟨rfl, rfl, hSound⟩
    have hPlaced := hPosition.entails hP
    have h := hSound.tables trivial
    exact retabled_joint hSound rfl ⟨h.memo, forall_mem_cons.mpr ⟨hPlaced, h.nodes⟩, h.stations, h.heights⟩
  station? := by
    rintro P r w _ _ hP ⟨rfl, rfl, hSound⟩
    refine .done (.refl w) ⟨rfl, rfl, hSound⟩ ?_
    cases hGet : w.stations.lookup r with
    | none => trivial
    | some t => exact (hSound.tables trivial).stations _ (mem_of_lookup hGet)
  rememberStation := by
    rintro P r t _ hStation _ hValues w _ _ hP ⟨rfl, rfl, hSound⟩
    have hPlaced := hStation.entails hP
    have h := hSound.tables trivial
    exact retabled_joint hSound rfl ⟨h.memo, h.nodes, forall_mem_cons.mpr ⟨⟨hPlaced, hValues⟩, h.stations⟩, h.heights⟩
  rememberHeight := by
    rintro P e hPosition w _ _ hP ⟨rfl, rfl, hSound⟩
    have h := hSound.tables trivial
    refine retabled_joint hSound rfl ⟨h.memo, h.nodes, h.stations, ?_⟩
    exact forall_mem_append.mpr ⟨h.heights, forall_mem_singleton.mpr (hPosition.entails hP).1⟩
  showBothSides := @fun _ => Aside.agree fun _ _ => .of_eq rfl rfl rfl rfl
  isOwned := @fun _ => Aside.agree fun _ s => .refl s
  enterTexture := @fun _ _ _ => aside_enterTexture.agree
  addCurve _ := aside_addCurve.agree.numbers
  addBlankCurve := aside_addBlankCurve.agree.numbers
  lookUp := by
    intro P path o n n' hValue hCurve _
    have : Entails (.pure True) ((emission f c True).texture curvesName) := ⟨id⟩
    exact (emission f c True).lookUpSame hCurve @fun _ _ hParts => emit_agree hParts
  insideGroup := by
    rintro P r inputs kind m m' hCaptured hKind hm w _ _ hP ⟨rfl, rfl, hSound⟩
    have hJoint := hm _ _ _ (inside_of_captured hTyped (hCaptured.entails hP) hKind) ⟨rfl, rfl, sound_entered hSound inputs⟩
    refine hJoint.around outcome_insideGroup_error outcome_insideGroup_error ?_
    rintro _ a _ _ grows ⟨rfl, rfl, hNext⟩ fact hRun hRun'
    rw [outcome_insideGroup_ok hRun, outcome_insideGroup_ok hRun']
    have hGrows : w.Grows c (Session.restored _ w) := ⟨grows.expressions, grows.bundles, grows.plain, rfl⟩
    exact .done hGrows ⟨rfl, rfl, sound_restored hSound hNext hGrows⟩ fact
  groupInput := by
    rintro P out field hInside _ hKind _ w _ _ hP ⟨rfl, rfl, hSound⟩
    exact groupInput_joint hSound (hInside.entails hP out rfl hKind)
  alters_of_mix _ := trivial

end References

end Material

end SceneExchange
