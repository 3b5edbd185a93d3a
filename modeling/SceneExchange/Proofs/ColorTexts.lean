import SceneExchange.Color
import SceneExchange.Proofs.Decimals
import SceneExchange.Proofs.Simulation

/-!
# Colors that are written and read

A color is read from four numerals, each between a mark and a character that ends it. The end of one
numeral is the first character of the next mark, so the numerals of a text are told by the text alone.
What is written of a color with six places has this form.
-/

namespace SceneExchange

open List Number

namespace Color

section Component

variable {mark : String} {stop : Char} {cs rest : List Char} {x : Float}

theorem component_spelled (hMark : mark.toList.length = 3) {numeral : List Char} (hNumeral : stop ∉ numeral) :
    component mark stop (mark.toList ++ (numeral ++ stop :: rest)) = match readReal? (String.ofList numeral) with
      | some x => .ok (x, stop :: rest)
      | none => .error (.malformedReal (String.ofList numeral)) := by
  have hOther : ∀ c ∈ numeral, decide (c ≠ stop) = true := fun c hc => decide_eq_true (ne_of_mem_of_not_mem hc hNumeral)
  rw [component, if_neg (by rw [take_left' hMark]; simp), drop_left' hMark]
  simp only [takeWhile_append_of_pos hOther, dropWhile_append_of_pos hOther]
  cases hRead : readReal? (String.ofList numeral) <;> simp [hRead]

/-- A component is read just where a numeral stands between the mark and the end. -/
theorem component_eq_ok_iff (hMark : mark.toList.length = 3) : component mark stop cs = .ok (x, rest) ↔
    ∃ numeral : String, cs = mark.toList ++ (numeral.toList ++ rest) ∧ rest.head? = some stop ∧
      stop ∉ numeral.toList ∧ readReal? numeral = some x := by
  constructor
  · intro h
    by_cases hTake : cs.take 3 = mark.toList
    · by_cases hStop : stop ∈ cs.drop 3
      · obtain ⟨numeral, more, hBody, hNumeral⟩ := eq_append_cons_of_mem hStop
        obtain rfl : cs = mark.toList ++ (numeral ++ stop :: more) := by rw [← hTake, ← hBody, take_append_drop]
        rw [component_spelled hMark hNumeral] at h
        split at h
        · cases h
          exact ⟨.ofList numeral, by simp, rfl, by simpa using hNumeral, ‹_›⟩
        · cases h
      · rw [component, if_neg (not_not.mpr hTake)] at h
        simp [hStop] at h
    · rw [component, if_pos hTake] at h
      cases h
  · rintro ⟨numeral, rfl, hStop, hNumeral, hRead⟩
    obtain ⟨more, rfl⟩ := head?_eq_some_iff.mp hStop
    rw [component_spelled hMark hNumeral, String.ofList_toList, hRead]

theorem kind_of_component {e : Fault} (h : component mark stop cs = .error e) : e.kind = .assertion ∨ e.kind = .value := by
  unfold component at h
  split at h
  · cases h
    exact .inl rfl
  · dsimp only at h
    split at h
    · cases h
      exact .inr rfl
    · split at h <;> cases h
      exact .inr rfl

end Component

/-- A text of the form of a color, with its numerals and with what follows it. -/
structure Spells (text x y z w rest : String) : Prop where
  text_eq : text = "(R=" ++ x ++ ",G=" ++ y ++ ",B=" ++ z ++ ",A=" ++ w ++ ")" ++ rest
  red : ',' ∉ x.toList
  green : ',' ∉ y.toList
  blue : ',' ∉ z.toList
  alpha : ')' ∉ w.toList

theorem read_eq_ok_iff {text : String} {c : Color} : read text = .ok c ↔ ∃ x y z w rest, Spells text x y z w rest ∧
    readReal? x = some c.red ∧ readReal? y = some c.green ∧ readReal? z = some c.blue ∧ readReal? w = some c.alpha := by
  simp only [read, bind_eq_ok, Prod.exists]
  constructor
  · rintro ⟨red, rest₁, hRed, green, rest₂, hGreen, blue, rest₃, hBlue, alpha, rest₄, hAlpha, ⟨⟩⟩
    obtain ⟨x, hx, -, hStopx, hReadx⟩ := (component_eq_ok_iff (by decide)).mp hRed
    obtain ⟨y, rfl, -, hStopy, hReady⟩ := (component_eq_ok_iff (by decide)).mp hGreen
    obtain ⟨z, rfl, -, hStopz, hReadz⟩ := (component_eq_ok_iff (by decide)).mp hBlue
    obtain ⟨w, rfl, hEnd, hStopw, hReadw⟩ := (component_eq_ok_iff (by decide)).mp hAlpha
    obtain ⟨more, rfl⟩ := head?_eq_some_iff.mp hEnd
    refine ⟨x, y, z, w, .ofList more, ⟨String.toList_injective ?_, hStopx, hStopy, hStopz, hStopw⟩, hReadx, hReady,
      hReadz, hReadw⟩
    rw [hx]
    simp
  · rintro ⟨x, y, z, w, rest, ⟨rfl, hStopx, hStopy, hStopz, hStopw⟩, hReadx, hReady, hReadz, hReadw⟩
    refine ⟨c.red, _, (component_eq_ok_iff (by decide)).mpr ⟨x, ?_, rfl, hStopx, hReadx⟩,
      c.green, _, (component_eq_ok_iff (by decide)).mpr ⟨y, rfl, rfl, hStopy, hReady⟩,
      c.blue, _, (component_eq_ok_iff (by decide)).mpr ⟨z, rfl, rfl, hStopz, hReadz⟩,
      c.alpha, ')' :: rest.toList, (component_eq_ok_iff (by decide)).mpr ⟨w, rfl, rfl, hStopw, hReadw⟩, rfl⟩
    simp

theorem kind_of_read {text : String} {e : Fault} (h : read text = .error e) : e.kind = .assertion ∨ e.kind = .value := by
  have hStep {mark : String} {stop : Char} {cs : List Char} {k : Float × List Char → Except Fault Color}
      (hk : ∀ x, k x = .error e → e.kind = .assertion ∨ e.kind = .value) (h : component mark stop cs >>= k = .error e) :
      e.kind = .assertion ∨ e.kind = .value := by
    cases hComponent : component mark stop cs with
    | ok x =>
      rw [hComponent] at h
      exact hk x h
    | error e' =>
      rw [hComponent] at h
      cases h
      exact kind_of_component hComponent
  rw [read] at h
  exact hStep (fun _ => hStep fun _ => hStep fun _ => hStep fun _ h => by cases h) h

end Color

namespace Material

open Color Compile

def double? : Datum → Option Float
  | .real x => some x
  | .flag b => some (if b then 1.0 else 0.0)
  | .int n => ofInt? n
  | _ => none

theorem sixPlaces_eq_ok_iff {d : Datum} {text : String} :
    sixPlaces d = .ok text ↔ ∃ x, double? d = some x ∧ six x = text := by
  unfold sixPlaces double?
  split
  · simp
  · simp
  · split <;> simp [*]
  · simp

theorem sixPlacesEach_eq_ok_iff {n : Nat} {items : List Datum} {texts : List String} :
    sixPlacesEach n items = .ok texts ↔
      ∃ xs : List Float, xs.length = n ∧ items.map double? = xs.map some ∧ texts = xs.map six := by
  fun_induction sixPlacesEach n items generalizing texts with
  | case1 =>
    constructor
    · rintro ⟨⟩
      exact ⟨[], rfl, rfl, rfl⟩
    · rintro ⟨xs, hLength, -, rfl⟩
      rw [length_eq_zero_iff.mp hLength, map_nil]
  | case2 d rest =>
    refine iff_of_false (fun h => nomatch h) ?_
    rintro ⟨xs, hLength, hItems, -⟩
    cases length_eq_zero_iff.mp hLength
    cases hItems
  | case3 n =>
    refine iff_of_false (fun h => nomatch h) ?_
    rintro ⟨_ | ⟨x, xs⟩, hLength, hItems, -⟩
    · cases hLength
    · cases hItems
  | case4 n d rest ih =>
    constructor
    · intro h
      obtain ⟨text, hText, h⟩ := bind_eq_ok.mp h
      obtain ⟨tail, hTail, ⟨⟩⟩ := bind_eq_ok.mp h
      obtain ⟨x, hx, rfl⟩ := sixPlaces_eq_ok_iff.mp hText
      obtain ⟨xs, rfl, hItems, rfl⟩ := ih.mp hTail
      exact ⟨x :: xs, rfl, by simp [hx, hItems], rfl⟩
    · rintro ⟨_ | ⟨x, xs⟩, hLength, hItems, rfl⟩
      · cases hLength
      · obtain ⟨hx, hItems⟩ := cons.inj hItems
        refine bind_eq_ok.mpr ⟨six x, sixPlaces_eq_ok_iff.mpr ⟨x, hx, rfl⟩, ?_⟩
        exact bind_eq_ok.mpr ⟨_, ih.mpr ⟨xs, Nat.succ.inj hLength, hItems, rfl⟩, rfl⟩

theorem notMem_six {c : Char} (h : isNumeric c = false) (x : Float) : c ∉ (six x).toList := by
  intro hMem
  rw [isNumeric_of_mem_six hMem] at h
  cases h

theorem read_six {text w : String} {x y z a : Float} (hStop : ')' ∉ w.toList) (hw : readReal? w = some a)
    (hText : text = "(R=" ++ six x ++ ",G=" ++ six y ++ ",B=" ++ six z ++ ",A=" ++ w ++ ")" ++ "") :
    Color.read text = .ok ⟨rounded x, rounded y, rounded z, a⟩ :=
  read_eq_ok_iff.mpr ⟨six x, six y, six z, w, "", ⟨hText, notMem_six (by decide) x, notMem_six (by decide) y,
    notMem_six (by decide) z, hStop⟩, readReal?_six x, readReal?_six y, readReal?_six z, hw⟩

theorem colorText_eq_ok_iff {items : List Datum} {text : String} : colorText items = .ok text ↔
    ∃ r g b a, items.map double? = [some r, some g, some b, some a] ∧
      text = "(R=" ++ six r ++ ",G=" ++ six g ++ ",B=" ++ six b ++ ",A=" ++ six a ++ ")" := by
  constructor
  · intro h
    obtain ⟨texts, hTexts, h⟩ := bind_eq_ok.mp h
    obtain ⟨xs, hLength, hItems, rfl⟩ := sixPlacesEach_eq_ok_iff.mp hTexts
    obtain ⟨r, g, b, a, rfl⟩ := length_eq_four.mp hLength
    cases h
    exact ⟨r, g, b, a, hItems, rfl⟩
  · rintro ⟨r, g, b, a, hItems, rfl⟩
    exact bind_eq_ok.mpr ⟨_, sixPlacesEach_eq_ok_iff.mpr ⟨[r, g, b, a], rfl, hItems, rfl⟩, rfl⟩

theorem readReal?_one : readReal? "1.0" = some (nearest false 1 1) := by
  have hBits : nearestBits false 10 10 = nearestBits false 1 1 := by decide +kernel
  rw [nearest, ← hBits]
  rfl

theorem vectorText_eq_ok_iff {items : List Datum} {text : String} : vectorText items = .ok text ↔
    ∃ x y z, items.map double? = [some x, some y, some z] ∧
      text = "(R=" ++ six x ++ ",G=" ++ six y ++ ",B=" ++ six z ++ ",A=1.0)" := by
  constructor
  · intro h
    obtain ⟨texts, hTexts, h⟩ := bind_eq_ok.mp h
    obtain ⟨xs, hLength, hItems, rfl⟩ := sixPlacesEach_eq_ok_iff.mp hTexts
    obtain ⟨x, y, z, rfl⟩ := length_eq_three.mp hLength
    cases h
    exact ⟨x, y, z, hItems, rfl⟩
  · rintro ⟨x, y, z, hItems, rfl⟩
    exact bind_eq_ok.mpr ⟨_, sixPlacesEach_eq_ok_iff.mpr ⟨[x, y, z], rfl, hItems, rfl⟩, rfl⟩

/-- The text of the color that an expression stands for. -/
def Shows (s : Session) (n : Nat) (text : String) : Prop :=
  ∃ more parts, s.expressions[n]? = some ⟨"Color", ("constant", .text text) :: more, parts⟩

section Emitted

variable (f : Graph.Forest) (s : Session) (items : List Datum)

/-- A color is emitted with its text if it has one. Its alpha is emitted once more, and that cannot fail then. -/
theorem emitColor_shows (name : Datum) : match outcome (emitColor items name) f s with
    | (.ok _, t) => ∃ text, colorText items = .ok text ∧ Shows t s.expressions.size text
    | (.error e, _) => colorText items = .error e := by
  rw [emitColor]
  cases hText : colorText items with
  | error e => rfl
  | ok text =>
    obtain ⟨r, g, b, a, hItems, -⟩ := colorText_eq_ok_iff.mp hText
    obtain ⟨d₀, d₁, d₂, d₃, rfl⟩ := length_eq_four.mp (by simpa using congrArg length hItems)
    simp only [map_cons, cons.injEq] at hItems
    have hAlpha : scalarText (.single d₃) = .ok (six a) := sixPlaces_eq_ok_iff.mpr ⟨a, hItems.2.2.2.1, rfl⟩
    simp only [emitScalar, emitScalarValue, getElem?_cons_succ, getElem?_cons_zero, Option.getD_some, hAlpha]
    refine ⟨text, rfl, if name.holds then [("Name", name)] else [], [], ?_⟩
    simp only [Array.getElem?_push, Array.size_push]
    rw [if_neg (by omega), if_neg (by omega)]
    rfl

theorem emitVector_shows : match outcome (emitVector items) f s with
    | (.ok _, t) => ∃ text, vectorText items = .ok text ∧ Shows t s.expressions.size text
    | (.error e, _) => vectorText items = .error e := by
  rw [emitVector]
  cases hText : vectorText items with
  | error e => rfl
  | ok text => exact ⟨text, rfl, [], [], Array.getElem?_push_size⟩

end Emitted

/-- Colors are read from the texts of one form, and only from these; every other text is a fault of an
assertion or of a value. A color is written if it has four numbers, a vector if it has three, and what is
written is read as these numbers rounded. -/
theorem colors_of_texts (text : String) :
    (∀ c, Color.read text = .ok c ↔ ∃ x y z w rest, Spells text x y z w rest ∧ readReal? x = some c.red ∧
      readReal? y = some c.green ∧ readReal? z = some c.blue ∧ readReal? w = some c.alpha) ∧
    (∀ e, Color.read text = .error e → e.kind = .assertion ∨ e.kind = .value) ∧
    (∀ f s items name, match outcome (emitColor items name) f s with
      | (.ok _, t) => ∃ text r g b a, Shows t s.expressions.size text ∧
          items.map double? = [some r, some g, some b, some a] ∧
          Color.read text = .ok ⟨rounded r, rounded g, rounded b, rounded a⟩
      | (.error _, _) => ∀ r g b a, items.map double? ≠ [some r, some g, some b, some a]) ∧
    ∀ f s items, match outcome (emitVector items) f s with
      | (.ok _, t) => ∃ text x y z, Shows t s.expressions.size text ∧ items.map double? = [some x, some y, some z] ∧
          Color.read text = .ok ⟨rounded x, rounded y, rounded z, nearest false 1 1⟩
      | (.error _, _) => ∀ x y z, items.map double? ≠ [some x, some y, some z] := by
  refine ⟨fun c => read_eq_ok_iff, fun e => kind_of_read, fun f s items name => ?_, fun f s items => ?_⟩
  · have hShows := emitColor_shows f s items name
    split at hShows
    · obtain ⟨text, hText, hShows⟩ := hShows
      obtain ⟨r, g, b, a, hItems, rfl⟩ := colorText_eq_ok_iff.mp hText
      exact ⟨_, r, g, b, a, hShows, hItems, read_six (notMem_six (by decide) a) (readReal?_six a) (by simp)⟩
    · intro r g b a hItems
      rw [colorText_eq_ok_iff.mpr ⟨r, g, b, a, hItems, rfl⟩] at hShows
      cases hShows
  · have hShows := emitVector_shows f s items
    split at hShows
    · obtain ⟨text, hText, hShows⟩ := hShows
      obtain ⟨x, y, z, hItems, rfl⟩ := vectorText_eq_ok_iff.mp hText
      have hText : "(R=" ++ six x ++ ",G=" ++ six y ++ ",B=" ++ six z ++ ",A=1.0)" =
          "(R=" ++ six x ++ ",G=" ++ six y ++ ",B=" ++ six z ++ ",A=" ++ "1.0" ++ ")" ++ "" :=
        String.toList_injective (by simp)
      exact ⟨_, x, y, z, hShows, hItems, read_six (by decide) readReal?_one hText⟩
    · intro x y z hItems
      rw [vectorText_eq_ok_iff.mpr ⟨x, y, z, hItems, rfl⟩] at hShows
      cases hShows

/-- Black is emitted, and what is written of it is read as black. -/
theorem colors_of_texts_black : ∃ i t text, outcome
    (emitColor [.flag false, .flag false, .flag false, .flag true] .null) ⟨#[]⟩ {} = (.ok i, t) ∧
    Shows t 0 text ∧ Color.read text = .ok ⟨rounded 0.0, rounded 0.0, rounded 0.0, rounded 1.0⟩ := by
  have hItems : [Datum.flag false, .flag false, .flag false, .flag true].map double? =
      [some 0.0, some 0.0, some 0.0, some 1.0] := rfl
  have h := (colors_of_texts "").2.2.1 ⟨#[]⟩ {} [.flag false, .flag false, .flag false, .flag true] .null
  split at h
  · rename_i i t hRun
    obtain ⟨text, r, g, b, a, hShows, hSame, hRead⟩ := h
    cases hItems.symm.trans hSame
    exact ⟨i, t, text, hRun, hShows, hRead⟩
  · exact absurd hItems (h _ _ _ _)

end Material

end SceneExchange
