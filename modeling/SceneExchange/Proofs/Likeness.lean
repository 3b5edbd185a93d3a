import SceneExchange.Proofs.Compilation
import SceneExchange.Proofs.Entries
import SceneExchange.Proofs.Renumbering

/-!
# Sessions that differ where no result shows it

The log, the depth and all contexts but the innermost one are never read into a result. Two runs
whose sessions are otherwise alike give the same results, and when they return they have the
inputs of groups, the images and the contexts that they had before.

What a run yields, it hardly reads: of the expressions, the curves and the textures only their
numbers show. So the curves of the first run may be numbered higher than those of the second one,
and only the numbers of curves differ then.

The tables need not be equal for the steps that emit expressions; those that read fields need
equal tables.
-/

namespace SceneExchange.Material

open SceneExchange.Graph Compile Material.Frame Handlers Expression

/-- What a session knows about the nodes it compiled, on which sides the material shows, and what it notes. -/
structure Ledger where
  memo : List (SocketRef × Operand)
  nodeMemo : List (NodeRef × Int)
  stations : List (NodeRef × Station)
  heightTextures : List Int
  twoSided : Bool
  notes : List Nat

/-- What the materials of a run add to in turn: the curve texture and the catalog. -/
structure Stores where
  curveCount : Nat
  curveRows : Table Nat CurveRow
  textures : Texture.Catalog

namespace Stores

def counted (c : Stores) : Stores := { c with curveCount := c.curveCount + 1 }

def baked (c : Stores) (place : Nat) (row : CurveRow) : Stores :=
  { c.counted with curveRows := c.curveRows.insert place row }

def entered (c : Stores) (name : String) (image : Nat) (hint : String) : Stores :=
  { c with textures := (Texture.enter c.textures name image hint).1 }

end Stores

structure Yield extends Stores where
  expressions : Array Expression

/-- What a computation finds around it and leaves as it was. -/
structure Around where
  inputs : Table String (Operand × Bool)
  images : Array Texture.Image
  hostImages : List Nat
  contexts : List Datum
  depth : Nat

namespace Session

def ledger (s : Session) : Ledger := ⟨s.memo, s.nodeMemo, s.stations, s.heightTextures, s.twoSided, s.notes⟩

def stores (s : Session) : Stores := ⟨s.curveCount, s.curveRows, s.textures⟩

def yield (s : Session) : Yield := ⟨s.stores, s.expressions⟩

def around (s : Session) : Around := ⟨s.groupInputs, s.images, s.hostImages, s.contexts, s.depth⟩

/-- A session without its log, its depth, its contexts, its ledger and its yield. -/
def core (s : Session) : Session :=
  { s with
    log := #[]
    depth := 0
    contexts := []
    memo := []
    nodeMemo := []
    stations := []
    heightTextures := []
    twoSided := false
    notes := []
    expressions := #[]
    curveCount := 0
    curveRows := .empty
    textures := .empty }

def kept (s : Session) : Session :=
  { s with
    bundles := #[]
    reportedWarnings := []
    reportedErrors := []
    log := #[] }

end Session

/-- A computation whose result and effect show only what is in the core of a session. -/
structure Blind {α : Type} (m : Compile α) : Prop where
  result : ∀ f s, (outcome m f s).1 = (outcome m f s.core).1
  core : ∀ f s, (outcome m f s).2.core = (outcome m f s.core).2.core
  kept : ∀ f s, (outcome m f s).2.kept = s.kept

namespace Blind

variable {α β : Type} {m n : Compile α} {k : α → Compile β}
variable {message : String} {i : Nat} {o : Operand}

theorem of_eq (h : ∀ f s, ((outcome m f s).1, (outcome m f s).2.core, (outcome m f s).2.kept) =
    ((outcome m f s.core).1, (outcome m f s.core).2.core, s.kept)) : Blind m := by
  simp only [Prod.mk.injEq] at h
  exact ⟨fun f s => (h f s).1, fun f s => (h f s).2.1, fun f s => (h f s).2.2⟩

theorem alike (h : Blind m) {f : Forest} {s s' : Session} (hCore : s.core = s'.core) :
    (outcome m f s).1 = (outcome m f s').1 ∧ (outcome m f s).2.core = (outcome m f s').2.core := by
  rw [h.result f s, h.result f s', h.core f s, h.core f s', hCore]
  exact ⟨rfl, rfl⟩

theorem alike_bind (hm : Blind m) (hk : ∀ a, Blind (k a)) {f : Forest} {s s' : Session}
    (hCore : s.core = s'.core) : (outcome (m >>= k) f s).1 = (outcome (m >>= k) f s').1 ∧
      (outcome (m >>= k) f s).2.core = (outcome (m >>= k) f s').2.core := by
  have hAlike := hm.alike (f := f) hCore
  generalize hRun : outcome m f s = x at hAlike
  generalize hRun' : outcome m f s' = x' at hAlike
  obtain ⟨r, t⟩ := x
  obtain ⟨r', t'⟩ := x'
  obtain ⟨rfl, hNext⟩ := hAlike
  cases r with
  | ok a =>
    rw [outcome_bind_ok hRun, outcome_bind_ok hRun']
    exact (hk a).alike hNext
  | error e =>
    rw [outcome_bind_error hRun, outcome_bind_error hRun']
    exact ⟨rfl, hNext⟩

theorem bind (hm : Blind m) (hk : ∀ a, Blind (k a)) : Blind (m >>= k) where
  result f s := (hm.alike_bind hk (show s.core = s.core.core from rfl)).1
  core f s := (hm.alike_bind hk (show s.core = s.core.core from rfl)).2
  kept f s := by
    have hKept := hm.kept f s
    generalize hRun : outcome m f s = x at hKept
    obtain ⟨r, t⟩ := x
    cases r with
    | ok a =>
      rw [outcome_bind_ok hRun]
      exact ((hk a).kept f t).trans hKept
    | error e =>
      rw [outcome_bind_error hRun]
      exact hKept

protected theorem pure {a : α} : Blind (Pure.pure a) := of_eq fun _ _ => rfl

theorem fail {e : Fault} : Blind (fail e : Compile α) := of_eq fun _ _ => rfl

theorem lift {r : Except Fault α} : Blind (lift r) := by
  cases r with
  | ok a => exact .pure
  | error e => exact .fail

theorem ofGet {g : Session → β} (h : ∀ s, g s = g s.core) : Blind (do pure (g (← get))) :=
  of_eq fun _ s => congrArg (fun b => (Except.ok b, _)) (h s)

theorem write {level : LogLevel} : Blind (Compile.write level message) := of_eq fun _ _ => rfl

theorem newBundle {es : List (String × Operand)} : Blind (newBundle es) := of_eq fun _ _ => rfl

theorem bundle : Blind (bundle i) := ofGet fun _ => rfl

theorem setEntry {name : String} : Blind (setEntry i name o) := of_eq fun _ _ => rfl

theorem isOwned : Blind isOwned := ofGet fun _ => rfl

theorem writeFrom {level : LogLevel} {g : Session → String} :
    Blind (do Compile.write level (g (← get))) := of_eq fun _ _ => rfl

theorem announce {n : Node} {socket : Socket} : Blind (Material.announce n socket) :=
  writeFrom (g := fun s => String.join (List.replicate s.depth "|   ") ++ n.kind ++ ":" ++ n.name ++ "/" ++
    socket.kind.name ++ ":" ++ socket.name)

theorem present : Blind (present o) := by
  cases o with
  | none => exact .pure
  | index n => exact .pure
  | bundle i => exact bundle.bind fun _ => .pure

theorem source {k : Int} : Blind (source o k) := by
  cases o with
  | none => exact .pure
  | index n => exact .pure
  | bundle i =>
    refine of_eq fun f s => ?_
    simp only [outcome_source_bundle]
    dsimp only [Session.core]
    split <;> rfl

theorem entry {name : String} : Blind (entry i name) := bundle.bind fun _ => .pure

theorem choose {c : Session → Prop} [∀ s, Decidable (c s)] {m n : Session → Compile α}
    (hc : ∀ s, c s ↔ c s.core) (hm : Blind (get >>= m)) (hn : Blind (get >>= n)) :
    Blind (do let s ← get; if c s then m s else n s) := by
  have hRun (f : Forest) (s : Session) : outcome (do let s ← get; if c s then m s else n s) f s =
      if c s then outcome (get >>= m) f s else outcome (get >>= n) f s := by
    rw [outcome_get, outcome_get, outcome_get]
    split <;> rfl
  refine of_eq fun f s => ?_
  simp only [hRun, ← hc]
  split
  · rw [hm.result, hm.core, hm.kept]
  · rw [hn.result, hn.core, hn.kept]

theorem warnOnceAs {template : String} : Blind (warnOnceAs template message) :=
  choose (fun _ => .rfl) (of_eq fun _ _ => rfl) (of_eq fun _ _ => rfl)

theorem errorOnce : Blind (errorOnce message) :=
  choose (fun _ => .rfl) (of_eq fun _ _ => rfl) (of_eq fun _ _ => rfl)

end Blind

/-- Whether a curve fills a row of the texture. -/
def fillsRow (row : CurveRow) : Bool := row.misfit?.isNone

/-- How far two runs may differ: by how much the curves of the first one are numbered higher, and what
their stores have in common, which stays so when both are added to. Where that is everything, they fail
alike. The first run began in the outer contexts. -/
structure Shift where
  amount : Nat
  exact : Prop
  outer : List Datum
  images : Array Texture.Image
  stores : Stores → Stores → Prop
  eq_of_exact : ∀ {c c'}, exact → stores c c' → c = c'
  counted : ∀ {c c'}, (exact ∨ ∃ place, curveRow c.curveCount = .ok place) → stores c c' → stores c.counted c'.counted
  baked : ∀ {c c' place place' row}, fillsRow row → curveRow c.curveCount = .ok place →
    curveRow c'.curveCount = .ok place' → stores c c' → stores (c.baked place row) (c'.baked place' row)
  entered : ∀ {c c' name image hint}, Name.legal (images[image]?.getD default).name = .ok name → stores c c' →
    stores (c.entered name image hint) (c'.entered name image hint)

structure Shifted (δ : Shift) (y y' : Yield) : Prop where
  expressions : Raised δ.amount y.expressions.toList y'.expressions.toList
  curveCount : y.curveCount = y'.curveCount + δ.amount
  stores : δ.stores y.toStores y'.toStores

theorem Shifted.amount_eq {δ : Shift} {y y' : Yield} (h : Shifted δ y y') (hExact : δ.exact) : δ.amount = 0 := by
  have hCount := h.curveCount
  rw [δ.eq_of_exact hExact h.stores] at hCount
  omega

/-- What is around the first of two runs, and the contexts of the second one. -/
structure Surroundings where
  first : Around
  otherContexts : List Datum

/-- Only normals and heights have contexts of their own. -/
def Contextual (ds : List Datum) : Prop := ∀ d ∈ ds, d = normalContext ∨ d = bumpContext

/-- Two sessions that show the same, with related ledgers and yields. -/
structure Like (δ : Shift) (R : Ledger → Ledger → Prop) (w : Surroundings) (s s' : Session) : Prop where
  core : s.core = s'.core
  ledgers : R s.ledger s'.ledger
  yields : Shifted δ s.yield s'.yield
  around : s.around = w.first
  otherContexts : s'.contexts = w.otherContexts
  innermost : w.first.contexts.head? = w.otherContexts.head?
  began : w.first.images = δ.images ∧ ∃ ds, Contextual ds ∧ w.first.contexts = ds ++ δ.outer

namespace Like

variable {δ : Shift} {R : Ledger → Ledger → Prop} {w : Surroundings} {s s' t t' : Session}

theorem of_kept (h : Like δ R w s s') (hCore : t.core = t'.core) (hKept : t.kept = s.kept)
    (hKept' : t'.kept = s'.kept) : Like δ R w t t' := by
  refine ⟨hCore, ?_, ?_, (congrArg Session.around hKept).trans h.around,
    (congrArg Session.contexts hKept').trans h.otherContexts, h.innermost, h.began⟩
  · exact (congrArg₂ R (congrArg Session.ledger hKept) (congrArg Session.ledger hKept')).mpr h.ledgers
  · exact (congrArg₂ (Shifted δ) (congrArg Session.yield hKept) (congrArg Session.yield hKept')).mpr h.yields

theorem relate (h : Like δ R w s s') {R' : Ledger → Ledger → Prop} (hCore : t.core = t'.core)
    (hAround : t.around = s.around) (hContexts' : t'.contexts = s'.contexts)
    (hLedgers : R' t.ledger t'.ledger) (hYields : Shifted δ t.yield t'.yield) : Like δ R' w t t' :=
  ⟨hCore, hLedgers, hYields, hAround.trans h.around, hContexts'.trans h.otherContexts, h.innermost, h.began⟩

theorem size_eq (h : Like δ R w s s') : s.expressions.size = s'.expressions.size := by
  rw [← Array.length_toList, ← Array.length_toList]
  exact h.yields.expressions.length

theorem inputs_eq (h : Like δ R w s s') : s.groupInputs = s'.groupInputs :=
  show s.core.groupInputs = s'.core.groupInputs from congrArg Session.groupInputs h.core

theorem images_eq (h : Like δ R w s s') : s.images = s'.images :=
  show s.core.images = s'.core.images from congrArg Session.images h.core

end Like

namespace Likeness

variable (f : Forest) (δ : Shift) (R : Ledger → Ledger → Prop)

def frame : Frame where
  forest := f
  lenient _ := ¬δ.exact
  World := Surroundings
  Related := Like δ R
  Later _ _ := True
  Returns := Eq
  later_of_returns _ := trivial
  returns_refl _ := rfl
  returns_trans := .trans

def vocabulary : Vocabulary where
  toFrame := frame f δ R
  position _ := .pure True
  value _ := .pure True
  shader _ := .pure True
  rough _ := .pure True
  source _ := .pure True
  texture _ := .pure True
  Channel _ := True

variable {f δ R} {α β : Type} {P : (frame f δ R).Fact}

theorem agree_of_blind {m : Compile α} (h : Blind m) : Agrees P m fun _ => .pure True := by
  intro w s s' _ hLike
  change Joint w _ (outcome m f s) (outcome m f s')
  obtain ⟨hResult, hCore⟩ := h.alike hLike.core
  have hNext := hLike.of_kept hCore (h.kept f s) (h.kept f s')
  generalize outcome m f s = x at *
  generalize outcome m f s' = x' at *
  obtain ⟨r, t⟩ := x
  obtain ⟨r', t'⟩ := x'
  obtain rfl : r = r' := hResult
  cases r with
  | ok a => exact .done rfl hNext trivial
  | error e => exact .failed hNext

section Yields

theorem emit_agree {e : Expression} (he : ¬e.LooksUp) : Agrees P (emit e) fun _ => .pure True := by
  intro w s s' _ h
  have hEmitted : Raised δ.amount (s.expressions.push e).toList (s'.expressions.push e).toList := by
    rw [Array.toList_push, Array.toList_push]
    exact h.yields.expressions.append (List.forall_mem_singleton.mpr he)
  rw [outcome_emit, outcome_emit, h.size_eq]
  exact .done rfl (h.relate h.core rfl rfl h.ledgers ⟨hEmitted, h.yields.curveCount, h.yields.stores⟩) trivial

theorem lt_of_curveRow {n row : Nat} (h : curveRow n = .ok row) : n < 2 * curvesSize := by
  unfold curveRow at h
  dsimp only at h
  split at h
  · omega
  · split at h
    · omega
    · cases h

theorem exists_curveRow {n : Nat} (h : n < 2 * curvesSize) : ∃ row, curveRow n = .ok row := by
  unfold curveRow
  dsimp only
  split
  · exact ⟨_, rfl⟩
  · rw [if_pos (by omega)]
    exact ⟨_, rfl⟩

def counted (s : Session) : Session :=
  { s with
    curveCount := s.curveCount + 1
    log := s.log.push ⟨.info, "writing curve:" ++ toString s.curveCount⟩ }

theorem outcome_nextCurve {k : Nat × Nat → Compile α} (s : Session) : outcome (nextCurve >>= k) f s =
    match curveRow s.curveCount with
    | .error e => (.error e, counted s)
    | .ok place => outcome (k (s.curveCount, place)) f (counted s) := by
  have hNext : outcome nextCurve f s = outcome (lift (curveRow s.curveCount) >>= fun place =>
    pure (s.curveCount, place)) f (counted s) := rfl
  cases hRow : curveRow s.curveCount with
  | error e =>
    rw [hRow] at hNext
    exact outcome_bind_error hNext
  | ok place =>
    rw [hRow] at hNext
    exact outcome_bind_ok hNext

theorem outcome_addCurve (row : CurveRow) : ∃ misfit, ∀ s : Session, outcome (addCurve row) f s =
    match curveRow s.curveCount with
    | .error e => (.error e, counted s)
    | .ok place =>
      if fillsRow row then (.ok s.curveCount, { counted s with curveRows := s.curveRows.insert place row })
      else (.error misfit, counted s) := by
  cases hMisfit : row.misfit? with
  | none =>
    refine ⟨.tooDeep, fun s => ?_⟩
    rw [addCurve, outcome_nextCurve, fillsRow, hMisfit]
    cases curveRow s.curveCount <;> rfl
  | some fault =>
    refine ⟨fault, fun s => ?_⟩
    rw [addCurve, outcome_nextCurve, fillsRow, hMisfit]
    cases curveRow s.curveCount <;> rfl

def curve (δ : Shift) (n n' : Int) : Prop :=
  ∃ m : Nat, n' = m ∧ n = m + δ.amount ∧ m + δ.amount < 2 * curvesSize

theorem counted_like {w : Surroundings} {s s' : Session} (h : Like δ R w s s')
    (hRow : δ.exact ∨ ∃ place, curveRow s.curveCount = .ok place) : Like δ R w (counted s) (counted s') := by
  refine h.relate h.core rfl rfl h.ledgers ⟨h.yields.expressions, ?_, δ.counted hRow h.yields.stores⟩
  have hCount : s.curveCount = s'.curveCount + δ.amount := h.yields.curveCount
  change s.curveCount + 1 = s'.curveCount + 1 + δ.amount
  omega

theorem addition_numbers {m : Compile Int} (hError : ∀ {s e}, curveRow s.curveCount = .error e →
      outcome m f s = (.error e, counted s))
    (hOk : ∀ {w s s' place place'} {β : Type} {k k' : Int → Compile β} {C : β → (frame f δ R).Fact},
      curveRow s.curveCount = .ok place → curveRow s'.curveCount = .ok place' → Like δ R w s s' →
      (∀ {t t'}, Like δ R w t t' → Joint w C (outcome (k s.curveCount) f t) (outcome (k' s'.curveCount) f t')) →
      Joint w C (outcome (m >>= k) f s) (outcome (m >>= k') f s')) :
    Frame.Numbers P m fun n n' => .pure (curve δ n n') := by
  refine ⟨fun {β k k' C} hk w s s' hP h => ?_⟩
  have hCount : s.curveCount = s'.curveCount + δ.amount := h.yields.curveCount
  change Joint w C (outcome (m >>= k) f s) (outcome (m >>= k') f s')
  cases hRow : curveRow s.curveCount with
  | error e =>
    rw [outcome_bind_error (hError hRow)]
    by_cases hExact : δ.exact
    · rw [hCount, h.yields.amount_eq hExact] at hRow
      rw [outcome_bind_error (hError hRow)]
      exact .failed (counted_like h (.inl hExact))
    · exact .lost hExact
  | ok place =>
    have hLt := lt_of_curveRow hRow
    obtain ⟨place', hRow'⟩ := exists_curveRow (n := s'.curveCount) (by omega)
    have hCurve : curve δ s.curveCount s'.curveCount := ⟨_, rfl, by omega, by omega⟩
    exact hOk hRow hRow' h fun hNext => hk _ _ _ _ _ ⟨hP, hCurve⟩ hNext

theorem addCurve_numbers (row : CurveRow) : Frame.Numbers P (addCurve row) fun n n' => .pure (curve δ n n') := by
  obtain ⟨misfit, hRun⟩ := outcome_addCurve row
  refine addition_numbers (fun hRow => by rw [hRun, hRow]) fun {_ s s' _ _ _ _ _ _} hRow hRow' h hk => ?_
  have hNext := counted_like h (.inr ⟨_, hRow⟩)
  have hFirst := hRun s
  have hSecond := hRun s'
  rw [hRow] at hFirst
  rw [hRow'] at hSecond
  dsimp only at hFirst hSecond
  split at hFirst
  · rw [if_pos ‹_›] at hSecond
    rw [outcome_bind_ok hFirst, outcome_bind_ok hSecond]
    exact hk (hNext.relate hNext.core rfl rfl h.ledgers
      ⟨h.yields.expressions, hNext.yields.curveCount, δ.baked ‹_› hRow hRow' h.yields.stores⟩)
  · rw [if_neg ‹_›] at hSecond
    rw [outcome_bind_error hFirst, outcome_bind_error hSecond]
    exact .failed hNext

theorem addBlankCurve_numbers : Frame.Numbers P addBlankCurve fun n n' => .pure (curve δ n n') := by
  have hRun {s : Session} {place : Nat} (hRow : curveRow s.curveCount = .ok place) :
      outcome addBlankCurve f s = (.ok s.curveCount, counted s) := by
    rw [addBlankCurve, outcome_nextCurve, hRow]
    rfl
  refine addition_numbers (fun hRow => by rw [addBlankCurve, outcome_nextCurve, hRow]) fun hRow hRow' h hk => ?_
  rw [outcome_bind_ok (hRun hRow), outcome_bind_ok (hRun hRow')]
  exact hk (counted_like h (.inr ⟨_, hRow⟩))

theorem enterTexture_agree {image : Nat} {hint : String} : Agrees P (enterTexture image hint) fun _ => .pure True := by
  intro w s s' _ h
  have hImages : s.images = δ.images := (congrArg Around.images h.around).trans h.began.1
  change Joint w _ (outcome _ f s) (outcome _ f s')
  rw [outcome_enterTexture, outcome_enterTexture, ← h.images_eq, hImages]
  cases hName : Name.legal (δ.images[image]?.getD default).name with
  | error e => exact .failed h
  | ok name =>
    exact .done rfl (h.relate h.core rfl rfl h.ledgers ⟨h.yields.expressions, h.yields.curveCount,
      δ.entered hName h.yields.stores⟩) trivial

theorem lookUp_agree {path : String} (hPath : path ∈ lookUps) {o : Operand} {n n' : Int} (hCurve : curve δ n n') :
    Agree P (lookUp path o n) (lookUp path o n') fun _ => .pure True := by
  obtain ⟨m, rfl, rfl, hLt⟩ := hCurve
  unfold lookUp input
  rw [bind_assoc, bind_assoc]
  refine (agree_of_blind .source).bind fun source => ?_
  rw [pure_bind, pure_bind]
  intro w s s' _ h
  obtain ⟨number, hNumber⟩ := exists_sixPlaces hLt
  obtain ⟨number', hNumber'⟩ := exists_sixPlaces (n := m) (by omega)
  obtain ⟨size, hSize⟩ := exists_sixPlaces (n := curvesSize) (by decide)
  rw [Int.natCast_add] at hNumber
  change Joint w _ (outcome _ f s) (outcome _ f s')
  rw [outcome_lookUpTail hNumber hSize, outcome_lookUpTail hNumber' hSize, ← h.size_eq]
  refine .done rfl (h.relate h.core rfl rfl h.ledgers ⟨?_, h.yields.curveCount, h.yields.stores⟩) trivial
  change Raised δ.amount (s.expressions ++ (lookUpTail ..).toArray).toList
    (s'.expressions ++ (lookUpTail ..).toArray).toList
  rw [Array.toList_append, Array.toList_append]
  exact h.yields.expressions.lookUp hPath hNumber hNumber'

end Yields

variable (f δ R)

def emission : Emission where
  toVocabulary := vocabulary f δ R
  position_nothing := trivial
  rough_of_shader := id
  value_none := trivial
  value_index := id
  source_position := id
  channel_of_mem _ _ := trivial
  write := @fun _ _ _ => agree_of_blind .write
  warnOnceAs := @fun _ _ _ => agree_of_blind .warnOnceAs
  errorOnce := @fun _ _ => agree_of_blind .errorOnce
  emit := @fun _ _ _ _ _ hOrdinary => emit_agree (not_looksUp_of_ordinary hOrdinary)
  emitTexture := @fun _ _ _ _ _ => emit_agree (by simp [Expression.LooksUp, call])
  textureObject := @fun _ _ _ => emit_agree (by simp [Expression.LooksUp, call])
  roughRef := @fun _ _ _ => (agree_of_blind .newBundle).imp fun _ => ⟨trivial, trivial⟩
  refOutput := @fun _ _ _ _ _ => agree_of_blind .newBundle
  newShader := @fun _ _ _ => (agree_of_blind .newBundle).imp fun _ => ⟨trivial, trivial⟩
  sourceStep := @fun _ _ _ _ _ => agree_of_blind .source
  present := @fun _ _ _ => (agree_of_blind .present).imp fun _ _ => trivial
  bundle := @fun _ _ _ => (agree_of_blind .bundle).imp fun _ _ _ => ⟨trivial, trivial⟩
  entry := @fun _ _ _ _ _ => agree_of_blind .entry
  alters := True
  setEntry := @fun _ _ _ _ _ _ _ _ => agree_of_blind .setEntry

/-- Ledgers that differ in their notes at most. How these may differ depends on the heights, of which there may
be more. -/
structure Kin (K : List Int → List Nat → List Nat → Prop) (l l' : Ledger) : Prop where
  same : { l with notes := l'.notes } = l'
  notes : K l.heightTextures l.notes l'.notes

section Tables

variable {f δ} {K : List Int → List Nat → List Nat → Prop}

theorem lookup_agree {κ γ : Type} [BEq κ] {g : Ledger → List (κ × γ)} (k : κ)
    {A : Option γ → (frame f δ (Kin K)).Fact} {w : Surroundings} {s s' : Session}
    (h : Like δ (Kin K) w s s') (hg : g { s.ledger with notes := s'.notes } = g s.ledger)
    (hA : ∀ known, (A known).holds w) : Joint w A (.ok ((g s.ledger).lookup k), s)
      (.ok ((g s'.ledger).lookup k), s') := by
  rw [← h.ledgers.same, show g { s.ledger with notes := s'.ledger.notes } = _ from hg]
  exact .done rfl h (hA _)

end Tables

section Contexts

variable {f δ R} {m n : Compile α} {d : Datum} {P : (frame f δ R).Fact} {A : α → (frame f δ R).Fact}

theorem within_agree (hKnown : d = normalContext ∨ d = bumpContext) (hm : Agree P m n A) :
    Agree P (within d m) (within d n) A := by
  intro w s s' hP h
  obtain ⟨hImages, ds, hContextual, hOuter⟩ := h.began
  let deeper (a : Around) : Around := { a with contexts := d :: a.contexts }
  let inner : Surroundings := { w with first := deeper w.first, otherContexts := d :: w.otherContexts }
  have hInner : Like δ R inner { s with contexts := d :: s.contexts } { s' with contexts := d :: s'.contexts } :=
    ⟨h.core, h.ledgers, h.yields, congrArg deeper h.around, congrArg (d :: ·) h.otherContexts, rfl,
      hImages, d :: ds, List.forall_mem_cons.mpr ⟨hKnown, hContextual⟩, congrArg (d :: ·) hOuter⟩
  have hLater : (frame f δ R).Later w inner := trivial
  have hJoint : Joint inner A (outcome m f { s with contexts := d :: s.contexts })
      (outcome n f { s' with contexts := d :: s'.contexts }) := hm _ _ _ (P.stable hLater hP) hInner
  refine hJoint.around outcome_within_error outcome_within_error ?_
  rintro _ a u u' rfl related fact hRun hRun'
  rw [outcome_within_ok hRun (congrArg Around.contexts related.around), outcome_within_ok hRun' related.otherContexts]
  have hLater : (frame f δ R).Later inner w := trivial
  have hAround := congrArg (fun a : Around => { a with contexts := w.first.contexts }) related.around
  exact .done rfl ⟨related.core, related.ledgers, related.yields, hAround, rfl, h.innermost, h.began⟩
    ((A _).stable hLater fact)

theorem nested_agree (hm : Agree P m n A) : Agree P (nested m) (nested n) A := by
  intro w s s' hP h
  let deeper (a : Around) : Around := { a with depth := a.depth + 1 }
  let inner : Surroundings := { w with first := deeper w.first }
  have hInner : Like δ R inner { s with depth := s.depth + 1 } { s' with depth := s'.depth + 1 } :=
    ⟨h.core, h.ledgers, h.yields, congrArg deeper h.around, h.otherContexts, h.innermost, h.began⟩
  have hLater : (frame f δ R).Later w inner := trivial
  have hJoint : Joint inner A (outcome m f { s with depth := s.depth + 1 })
      (outcome n f { s' with depth := s'.depth + 1 }) := hm _ _ _ (P.stable hLater hP) hInner
  refine hJoint.around outcome_nested_error outcome_nested_error ?_
  rintro _ a u u' rfl related fact hRun hRun'
  rw [outcome_nested_ok hRun, outcome_nested_ok hRun']
  have hLater : (frame f δ R).Later inner w := trivial
  have hAround := congrArg₂ (fun a b : Around => { a with depth := b.depth }) related.around h.around
  exact .done rfl ⟨related.core, related.ledgers, related.yields, hAround, related.otherContexts, h.innermost, h.began⟩
    ((A _).stable hLater fact)

end Contexts

section Groups

variable {f δ} {K : List Int → List Nat → List Nat → Prop} {P : (frame f δ (Kin K)).Fact}

theorem insideGroup_agree (c : Table String (Operand × Bool)) {Q : (frame f δ (Kin K)).Fact}
    {m n : Compile Operand} {A : Operand → (frame f δ (Kin K)).Fact} (hQ : ∀ w, Q.holds w)
    (hm : Agree Q m n A) : Agree P (insideGroup c m) (insideGroup c n) A := by
  intro w s s' hP h
  let inside (a : Around) : Around := { a with inputs := c }
  let inner : Surroundings := { w with first := inside w.first }
  have hInner : Like δ (Kin K) inner (s.entered c) (s'.entered c) := by
    refine ⟨congrArg (fun t : Session => t.entered c) h.core, ?_, h.yields,
      congrArg inside h.around, h.otherContexts, h.innermost, h.began⟩
    exact ⟨congrArg (fun l : Ledger => { l with memo := [], nodeMemo := [], stations := [] }) h.ledgers.same,
      h.ledgers.notes⟩
  have hJoint : Joint inner A (outcome m f (s.entered c))
      (outcome n f (s'.entered c)) := hm _ _ _ (hQ inner) hInner
  refine hJoint.around outcome_insideGroup_error outcome_insideGroup_error ?_
  rintro _ a u u' rfl related fact hRun hRun'
  rw [outcome_insideGroup_ok hRun, outcome_insideGroup_ok hRun']
  have hLater : (frame f δ (Kin K)).Later inner w := trivial
  have hAround := congrArg₂ (fun a b : Around => { a with inputs := b.inputs }) related.around h.around
  refine .done rfl ⟨?_, ?_, related.yields, hAround, related.otherContexts, h.innermost,
    h.began⟩ ((A _).stable hLater fact)
  · exact congrArg₂ (fun t u : Session => { t with groupInputs := u.groupInputs }) related.core h.core
  · exact ⟨congrArg₂ (fun l k : Ledger => { l with memo := k.memo, nodeMemo := k.nodeMemo, stations := k.stations })
      related.ledgers.same h.ledgers.same, related.ledgers.notes⟩

theorem groupInput_agree {out field : SocketRef} : Agrees P (groupInput out field) fun _ => .pure True := by
  intro w s s' hP h
  change Joint w _ (outcome _ f s) (outcome _ f s')
  rw [outcome_groupInput, outcome_groupInput, ← h.inputs_eq]
  split
  · exact .failed h
  · exact .done rfl h trivial

end Groups

def compilation {K : List Int → List Nat → List Nat → Prop} (hK : ∀ {heights notes notes'} e, K heights notes notes' →
    K (heights ++ [e]) notes notes') : Compilation where
  toEmission := emission f δ (Kin K)
  inside _ := .pure True
  inside_tree _ _ := trivial
  admits _ := True
  admits_of_inside _ := trivial
  curve n n' := .pure (curve δ n n')
  output _ _ := .pure True
  operand_of_output h := ⟨h, fun _ => h⟩
  vacant _ := .pure True
  free _ := .pure True
  output_of_given _ _ h := h.1
  stands _ := True
  output_of_station _ _ h := h
  typed := .inr id
  wrap := @fun _ _ _ _ => agree_of_blind .newBundle
  context := by
    intro P w s s' hP h
    change Joint w _ (.ok (s.contexts.head?.getD .null), s) (.ok (s'.contexts.head?.getD .null), s')
    rw [show s.contexts = _ from congrArg Around.contexts h.around, h.otherContexts, h.innermost]
    exact .done rfl h trivial
  within := within_agree
  nested := nested_agree
  announce := @fun _ _ _ => agree_of_blind .announce
  recalled := by
    intro P out w s s' hP h
    refine lookup_agree (g := Ledger.memo) out h rfl fun known => ?_
    cases known <;> trivial
  remember := by
    intro P out o _ _ w s s' _ h
    exact .done rfl (h.relate h.core rfl rfl ⟨congrArg
      (fun l : Ledger => { l with memo := (out, o) :: l.memo }) h.ledgers.same,
      h.ledgers.notes⟩ h.yields) trivial
  recalledNode := by
    intro P r w s s' hP h
    refine lookup_agree (g := Ledger.nodeMemo) r h rfl fun known => ?_
    cases known <;> trivial
  rememberNode := by
    intro P r e _ _ w s s' _ h
    exact .done rfl (h.relate h.core rfl rfl ⟨congrArg (fun l : Ledger => { l with nodeMemo := (r, e) :: l.nodeMemo })
      h.ledgers.same,
      h.ledgers.notes⟩ h.yields) trivial
  station? := by
    intro P r w s s' hP h
    refine lookup_agree (g := Ledger.stations) r h rfl fun known => ?_
    cases known with
    | none => trivial
    | some t => exact ⟨trivial, trivial⟩
  rememberStation := by
    intro P r t _ _ _ _ w s s' _ h
    exact .done rfl (h.relate h.core rfl rfl ⟨congrArg (fun l : Ledger => { l with stations := (r, t) :: l.stations })
      h.ledgers.same,
      h.ledgers.notes⟩ h.yields) trivial
  rememberHeight := by
    intro P e _ w s s' _ h
    exact .done rfl (h.relate h.core rfl rfl ⟨congrArg
      (fun l : Ledger => { l with heightTextures := l.heightTextures ++ [e] }) h.ledgers.same,
      hK e h.ledgers.notes⟩ h.yields) trivial
  showBothSides := by
    intro P w s s' hP h
    exact .done rfl (h.relate h.core rfl rfl ⟨congrArg (fun l : Ledger => { l with twoSided := true }) h.ledgers.same,
      h.ledgers.notes⟩ h.yields) trivial
  isOwned := @fun _ => agree_of_blind .isOwned
  enterTexture := @fun _ _ _ => enterTexture_agree
  addCurve := addCurve_numbers
  addBlankCurve := addBlankCurve_numbers
  lookUp := by
    intro P path o n n' _ hCurve hPath w s s' hP h
    exact lookUp_agree hPath (hCurve.entails hP) _ _ _ hP h
  insideGroup := by
    intro P r c kind m m' _ _ hm
    refine insideGroup_agree c (fun w => ?_) hm
    generalize Node.innerTree? _ = inner
    cases inner <;> trivial
  groupInput := @fun _ _ _ _ _ _ _ => groupInput_agree
  alters_of_mix _ := trivial

end Likeness

end SceneExchange.Material
