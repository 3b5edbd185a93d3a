import Mathlib.Data.List.Forall2
import SceneExchange.Markup.Event

/-!
# Reading start tags

A start tag is a name and attributes. A reader takes the value of an attribute for a text: blanks
become spaces, and references the characters that they stand for. A value with a character that may
not stand there is taken for nothing, and this is all that can be wrong with a start tag whose names
are names.
-/

open List

namespace SceneExchange.Markup

open Text Reference

variable {w : Option (List Char)} {c : Char} {s : String}

/-! ## Values -/

/-- The character that a reference stands for. -/
def Reference.char? : Reference → Option Char
  | number c => c
  | entity name => knownEntity? name

/-- What a reader takes an attribute value for. Inside a reference, `pending` holds what has been
read of it. -/
def valueChars? : (pending : Option (List Char)) → List Char → Option (List Char)
  | none, [] => some []
  | some _, [] => none
  | none, c :: rest =>
    if c == '&' then valueChars? (some []) rest
    else if c == '<' || !isLegal c then none
    else (valueChars? none rest).map ((if isSpace c then ' ' else c) :: ·)
  | some soFar, c :: rest =>
    if c == ';' && isComplete soFar then
      (ofText soFar).char?.bind fun d => (valueChars? none rest).map (d :: ·)
    else if goesOn soFar c then valueChars? (some (soFar ++ [c])) rest
    else none

def valueText? (v : String) : Option String := (valueChars? none v.toList).map String.ofList

def isPlain (c : Char) : Bool := isLegal c && !isSpace c && c != '<' && c != '&'

/-- Characters of a text that holds no markup. -/
def isProse (c : Char) : Bool := isLegal c && c != '<' && c != '&' && c != ']'

theorem valueChars?_plain {cs : List Char} (h : ∀ c ∈ cs, isPlain c = true ∨ c = ' ') :
    valueChars? none cs = some cs := by
  induction cs with
  | nil => rfl
  | cons c cs ih =>
    obtain ⟨hc, hcs⟩ := forall_mem_cons.mp h
    obtain hc | rfl := hc
    · simp only [isPlain, Bool.and_eq_true, Bool.not_eq_true', bne_iff_ne, ne_eq] at hc
      simp [valueChars?, ih hcs, hc]
    · simp [valueChars?, ih hcs, isSpace, isLegal]

def Comes (pieces : List Piece) : Option (List Char) → Prop
  | some w => ∀ tag, resolveValue tag pieces = .ok w
  | none => ∀ tag, ∃ t, resolveValue tag pieces = .error t

/-- A value is scanned up to its closing quote and comes to the given text; one that comes to none
may fail on the way. -/
def Scans (r : Except Lapse (List Piece × List Char)) (rest : List Char) (w : Option (List Char)) : Prop :=
  (∃ pieces, r = .ok (pieces, rest) ∧ Comes pieces w) ∨ (w = none ∧ ∃ lapse, r = .error lapse)

theorem Comes.cons {pieces pieces' : List Piece} (h : Comes pieces w)
    (hFirst : ∀ tag, resolveValue tag pieces' = (resolveValue tag pieces).map (c :: ·)) :
    Comes pieces' (w.map (c :: ·)) := by
  cases w with
  | some w => exact fun tag => by rw [hFirst, h tag]; rfl
  | none =>
    intro tag
    obtain ⟨t, ht⟩ := h tag
    exact ⟨t, by rw [hFirst, ht]; rfl⟩

theorem resolveValue_char (tag : List Char) (c : Char) (pieces : List Piece) :
    resolveValue tag (.char c :: pieces) = (resolveValue tag pieces).map (c :: ·) := by
  rw [resolveValue]
  cases resolveValue tag pieces <;> rfl

theorem Comes.cons_reference {pieces : List Piece} (h : Comes pieces w) (r : Reference) (start : List Char) :
    Comes (.reference r start :: pieces) (r.char?.bind fun d => w.map (d :: ·)) := by
  cases r with
  | number c =>
    cases c with
    | some c => exact h.cons fun tag => resolveValue_char tag c pieces
    | none => exact fun tag => ⟨_, rfl⟩
  | entity name =>
    rw [char?]
    cases hKnown : knownEntity? name with
    | some c => exact h.cons fun tag => by simp only [resolveValue, hKnown, ← resolveValue_char]
    | none => exact fun tag => ⟨⟨.undefinedEntity, tag⟩, by simp only [resolveValue, hKnown]⟩

theorem Scans.cons {r : Except Lapse (List Piece × List Char)} {rest : List Char} {w' : Option (List Char)}
    (h : Scans r rest w) {piece : Piece} (hNone : w = none → w' = none)
    (hPiece : ∀ pieces, Comes pieces w → Comes (piece :: pieces) w') : Scans (consFirst piece r) rest w' := by
  obtain ⟨pieces, rfl, hComes⟩ | ⟨hw, lapse, rfl⟩ := h
  · exact .inl ⟨piece :: pieces, rfl, hPiece pieces hComes⟩
  · exact .inr ⟨hNone hw, lapse, rfl⟩

theorem scans_value {v : List Char} (hQuote : doubleQuote ∉ v) (pending : Option (List Char × List Char))
    (rest : List Char) :
    Scans (scanValue doubleQuote pending (v ++ doubleQuote :: rest)) rest (valueChars? (pending.map Prod.fst) v) := by
  induction v generalizing pending with
  | nil =>
    cases pending with
    | none => exact .inl ⟨[], rfl, fun _ => rfl⟩
    | some p =>
      obtain ⟨soFar, start⟩ := p
      have hEnd : goesOn soFar doubleQuote = false := by
        unfold goesOn
        split <;> decide
      have hOther : (doubleQuote == ';') = false := by decide
      exact .inr ⟨rfl, .invalid (doubleQuote :: rest), by simp [scanValue, hEnd, hOther]⟩
  | cons c v ih =>
    obtain ⟨hc, hv⟩ := not_or.mp (mt mem_cons.mpr hQuote)
    cases pending with
    | none =>
      rw [cons_append, scanValue, if_neg (by simpa using Ne.symm hc), Option.map_none, valueChars?]
      split
      · exact ih hv _
      · split
        · exact .inr ⟨rfl, _, rfl⟩
        · refine (ih hv none).cons (by simp +contextual) fun pieces hComes => ?_
          exact hComes.cons fun tag => resolveValue_char tag _ pieces
    | some p =>
      obtain ⟨soFar, start⟩ := p
      rw [cons_append, scanValue, Option.map_some, valueChars?]
      split
      · refine (ih hv none).cons ?_ fun pieces hComes => hComes.cons_reference _ start
        rintro (hNone : valueChars? none v = none)
        simp [hNone]
      · split
        · exact ih hv _
        · exact .inr ⟨rfl, _, rfl⟩

/-! ## Tags -/

def isName (s : String) : Bool :=
  match s.toList with
  | [] => false
  | c :: rest => isNameStart c && rest.all isNameChar

theorem isName_iff : isName s ↔ ∃ c rest, s.toList = c :: rest ∧ isNameStart c ∧ ∀ d ∈ rest, isNameChar d := by
  cases hList : s.toList with
  | nil => simp [isName, hList]
  | cons c rest => simp [isName, hList]

theorem isNameChar_of_isName (h : isName s) (hc : c ∈ s.toList) : isNameChar c := by
  obtain ⟨d, rest, hList, hd, hRest⟩ := isName_iff.mp h
  rw [hList] at hc
  obtain rfl | hc := mem_cons.mp hc
  · simp [isNameChar, hd]
  · exact hRest c hc

theorem notMem_of_isName (h : isName s) (hc : isNameChar c = false) : c ∉ s.toList := by
  intro hMem
  simp [isNameChar_of_isName h hMem] at hc

theorem scanName_append {cs : List Char} (h : ∀ c ∈ cs, isNameChar c) (colon : Bool) {d : Char}
    (hd : isNameChar d = false) (hColon : d ≠ ':') (rest : List Char) :
    scanName colon (cs ++ d :: rest) = .ok (cs, d :: rest) := by
  induction cs with
  | nil =>
    rw [nil_append, scanName.eq_def]
    simp [hd, hColon]
  | cons c cs ih =>
    obtain ⟨hc, hcs⟩ := forall_mem_cons.mp h
    rw [cons_append, scanName.eq_def]
    simp [hc, ih hcs, consFirst]

structure Head where
  name : String
  attributes : List (String × String)

namespace Head

def attributeChars (a : String × String) : List Char :=
  ' ' :: (a.1.toList ++ '=' :: doubleQuote :: (a.2.toList ++ [doubleQuote]))

def chars (h : Head) : List Char := '<' :: (h.name.toList ++ h.attributes.flatMap attributeChars)

/-- A start tag that is one, whatever is read of its values. -/
structure Sound (h : Head) : Prop where
  name : isName h.name
  keys : ∀ a ∈ h.attributes, isName a.1 ∧ a.1.toList ≠ namespaceWord
  values : ∀ a ∈ h.attributes, doubleQuote ∉ a.2.toList

def readAttribute? (a : String × String) : Option (String × String) := (valueText? a.2).map (a.1, ·)

def Distinct (h : Head) : Prop := (h.attributes.map Prod.fst).Nodup

instance (h : Head) : Decidable h.Distinct := inferInstanceAs (Decidable (List.Nodup _))

def tag? (place : Nat) (h : Head) : Option Tag :=
  if h.Distinct then (h.attributes.mapM readAttribute?).map (⟨place, h.name, ·⟩) else none

end Head

def closing (isEmpty : Bool) : List Char := if isEmpty then ['/', '>'] else ['>']

theorem scanAttributes_blank {c : Char} (hc : isSpace c) (fuel : Nat) {cs : List Char} {d : Char} {more : List Char}
    (hDrop : cs.dropWhile isSpace = d :: more) : scanAttributes (fuel + 1) (c :: cs) =
      if isNameStart d then do
        let (name, after) ← scanName false more
        let (value, after) ← scanAssignment after
        let ((others, isEmpty), after) ← scanAttributes fuel after
        pure ((⟨d :: name, value, d :: more⟩ :: others, isEmpty), after)
      else scanAttributes fuel (d :: more) := by
  simp only [isSpace, Bool.or_eq_true, beq_iff_eq] at hc
  rw [scanAttributes.eq_def]
  obtain ((rfl | rfl) | rfl) | rfl := hc
  all_goals
    change (match cs.dropWhile isSpace with
      | [] => Except.error Lapse.ended
      | d :: more => _) = _
    rw [hDrop]

theorem scanAttributes_closing {gap : List Char} (hGap : ∀ c ∈ gap, isSpace c) (isEmpty : Bool) (fuel : Nat)
    (rest : List Char) :
    scanAttributes (fuel + 2) (gap ++ (closing isEmpty ++ rest)) = .ok (([], isEmpty), rest) := by
  cases gap with
  | nil => cases isEmpty <;> rfl
  | cons c gap =>
    obtain ⟨hc, hGap⟩ := forall_mem_cons.mp hGap
    have hDrop : (gap ++ (closing isEmpty ++ rest)).dropWhile isSpace = closing isEmpty ++ rest := by
      rw [dropWhile_append_of_pos hGap]
      cases isEmpty <;> rfl
    rw [cons_append]
    cases isEmpty with
    | false => rw [scanAttributes_blank hc _ hDrop, if_neg (by decide)]; rfl
    | true => rw [scanAttributes_blank hc _ hDrop, if_neg (by decide)]; rfl

theorem scanAttributes_attribute {a : String × String} (hName : isName a.1) (fuel : Nat) (rest : List Char) :
    ∃ start, scanAttributes (fuel + 1) (Head.attributeChars a ++ rest) = (do
      let (value, after) ← scanValue doubleQuote none (a.2.toList ++ doubleQuote :: rest)
      let ((others, isEmpty), after) ← scanAttributes fuel after
      pure ((⟨a.1.toList, value, start⟩ :: others, isEmpty), after)) := by
  obtain ⟨key, value⟩ := a
  have hChars : Head.attributeChars (key, value) ++ rest =
      ' ' :: (key.toList ++ '=' :: doubleQuote :: (value.toList ++ doubleQuote :: rest)) := by
    simp [Head.attributeChars]
  rw [hChars]
  obtain ⟨d, more, hList, hd, hMore⟩ := isName_iff.mp hName
  have hSolid : isSpace d = false := by
    cases hSpace : isSpace d with
    | false => rfl
    | true =>
      simp only [isSpace, Bool.or_eq_true, beq_iff_eq] at hSpace
      obtain ((rfl | rfl) | rfl) | rfl := hSpace <;> revert hd <;> decide
  refine ⟨d :: (more ++ '=' :: doubleQuote :: (value.toList ++ doubleQuote :: rest)), ?_⟩
  rw [hList, cons_append, scanAttributes_blank (by decide) fuel (dropWhile_cons_of_neg (by simp [hSolid])),
    if_pos hd, scanName_append hMore false (by decide) (by decide)]
  rfl

def Reads (a : String × String) (raw : RawAttribute) : Prop :=
  raw.name = a.1.toList ∧ Comes raw.value (valueChars? none a.2.toList)

theorem scanAttributes_spelt {as : List (String × String)} (hNames : ∀ a ∈ as, isName a.1)
    (hQuotes : ∀ a ∈ as, doubleQuote ∉ a.2.toList) {gap : List Char} (hGap : ∀ c ∈ gap, isSpace c)
    (isEmpty : Bool) (fuel : Nat) (rest : List Char) :
    let r := scanAttributes (fuel + as.length + 2) (as.flatMap Head.attributeChars ++ (gap ++ (closing isEmpty ++ rest)))
    (∃ raws, r = .ok ((raws, isEmpty), rest) ∧ Forall₂ Reads as raws) ∨
      (∃ lapse, r = .error lapse) ∧ ∃ a ∈ as, valueChars? none a.2.toList = none := by
  induction as with
  | nil => exact .inl ⟨[], scanAttributes_closing hGap isEmpty fuel rest, .nil⟩
  | cons a as ih =>
    obtain ⟨hName, hNames⟩ := forall_mem_cons.mp hNames
    obtain ⟨hQuote, hQuotes⟩ := forall_mem_cons.mp hQuotes
    rw [flatMap_cons, append_assoc]
    obtain ⟨start, hStep⟩ := scanAttributes_attribute hName (fuel + as.length + 2)
      (as.flatMap Head.attributeChars ++ (gap ++ (closing isEmpty ++ rest)))
    rw [length_cons, show fuel + (as.length + 1) + 2 = fuel + as.length + 2 + 1 by omega, hStep]
    obtain ⟨pieces, hScan, hComes⟩ | ⟨hNone, lapse, hScan⟩ := scans_value hQuote none
      (as.flatMap Head.attributeChars ++ (gap ++ (closing isEmpty ++ rest)))
    · rw [hScan]
      obtain ⟨raws, hRest, hReads⟩ | ⟨⟨lapse, hRest⟩, b, hb, hNone⟩ := ih hNames hQuotes
      · exact .inl ⟨⟨a.1.toList, pieces, start⟩ :: raws, by simp [bind, Except.bind, hRest, pure, Except.pure],
          .cons ⟨rfl, hComes⟩ hReads⟩
      · exact .inr ⟨⟨lapse, by simp [bind, Except.bind, hRest]⟩, b, mem_cons_of_mem a hb, hNone⟩
    · exact .inr ⟨⟨lapse, by simp [bind, Except.bind, hScan]⟩, a, mem_cons_self, hNone⟩

namespace Head

variable {h : Head}

theorem mapM_readAttribute?_eq_none_iff (as : List (String × String)) :
    as.mapM readAttribute? = none ↔ ∃ a ∈ as, valueChars? none a.2.toList = none := by
  induction as with
  | nil => simp
  | cons a as ih =>
    rw [mapM_cons]
    cases hValue : valueChars? none a.2.toList with
    | none => simp [readAttribute?, valueText?, hValue]
    | some w =>
      cases hRest : as.mapM readAttribute? with
      | none => simpa [readAttribute?, valueText?, hValue, hRest] using ih
      | some bs => simpa [readAttribute?, valueText?, hValue, hRest] using ih

theorem tag?_eq_some_iff {place : Nat} {tag : Tag} :
    h.tag? place = some tag ↔ h.Distinct ∧ ∃ as, h.attributes.mapM readAttribute? = some as ∧ ⟨place, h.name, as⟩ = tag := by
  rw [tag?]
  split
  · rename_i hDistinct
    simp [hDistinct]
  · rename_i hDouble
    simp [hDouble]

theorem tag?_eq_none_iff (place : Nat) :
    h.tag? place = none ↔ ¬h.Distinct ∨ ∃ a ∈ h.attributes, valueChars? none a.2.toList = none := by
  have hValues : h.attributes.mapM readAttribute? = none ↔ ∃ a ∈ h.attributes, valueChars? none a.2.toList = none :=
    mapM_readAttribute?_eq_none_iff h.attributes
  rw [tag?]
  split
  · rename_i hDistinct
    rw [Option.map_eq_none_iff, hValues]
    simp [hDistinct]
  · rename_i hDouble
    simp [hDouble]

theorem exists_after (as : List (String × String)) {gap : List Char} (hGap : ∀ c ∈ gap, isSpace c) (isEmpty : Bool)
    (rest : List Char) : ∃ d more, as.flatMap attributeChars ++ (gap ++ (closing isEmpty ++ rest)) = d :: more ∧
      isNameChar d = false ∧ d ≠ ':' := by
  cases as with
  | cons a as => exact ⟨' ', _, rfl, by decide, by decide⟩
  | nil =>
    cases gap with
    | cons c gap =>
      refine ⟨c, _, rfl, ?_⟩
      have hc := hGap c mem_cons_self
      simp only [isSpace, Bool.or_eq_true, beq_iff_eq] at hc
      obtain ((rfl | rfl) | rfl) | rfl := hc <;> decide
    | nil =>
      cases isEmpty with
      | false => exact ⟨'>', _, rfl, by decide, by decide⟩
      | true => exact ⟨'/', _, rfl, by decide, by decide⟩

theorem length_le_attributeChars (as : List (String × String)) : as.length ≤ (as.flatMap attributeChars).length := by
  induction as with
  | nil => simp
  | cons a as ih =>
    simp only [flatMap_cons, length_append, length_cons, attributeChars]
    omega

theorem Sound.scanToken (hSound : h.Sound) {gap : List Char} (hGap : ∀ c ∈ gap, isSpace c) (isEmpty : Bool)
    (rest : List Char) :
    let r := Markup.scanToken (h.name.toList ++ (h.attributes.flatMap attributeChars ++ (gap ++ (closing isEmpty ++ rest))))
    (∃ raws, r = .ok (.startTag h.name.toList raws isEmpty, rest) ∧ Forall₂ Reads h.attributes raws) ∨
      (∃ lapse, r = .error lapse) ∧ ∃ a ∈ h.attributes, valueChars? none a.2.toList = none := by
  obtain ⟨c, more, hList, hc, hMore⟩ := isName_iff.mp hSound.name
  obtain ⟨d, tail, hTail, hd, hColon⟩ := exists_after h.attributes hGap isEmpty rest
  have hStart : Markup.scanToken (c :: (more ++ d :: tail)) = (do
      let ((attributes, isEmpty), rest) ← scanAttributes ((d :: tail).length + 1) (d :: tail)
      pure (.startTag (c :: more) attributes isEmpty, rest)) := by
    have hToken : Markup.scanToken (c :: (more ++ d :: tail)) = scanStartTag c (more ++ d :: tail) := by
      have hOther : c ≠ '/' ∧ c ≠ '?' ∧ c ≠ '!' := by
        refine ⟨?_, ?_, ?_⟩ <;> rintro rfl <;> revert hc <;> decide
      rw [Markup.scanToken.eq_def]
      split <;> simp_all
    rw [hToken, scanStartTag, scanName_append hMore false hd hColon]
    rfl
  have hFuel : ∃ fuel, (d :: tail).length + 1 = fuel + h.attributes.length + 2 := by
    have hLength := length_le_attributeChars h.attributes
    have hEnd : 0 < (closing isEmpty).length := by cases isEmpty <;> decide
    rw [← hTail]
    simp only [length_append]
    exact ⟨(h.attributes.flatMap attributeChars).length - h.attributes.length + gap.length + (closing isEmpty).length +
      rest.length - 1, by omega⟩
  obtain ⟨fuel, hFuel⟩ := hFuel
  rw [hTail, hList, cons_append, hStart, hFuel, ← hTail]
  obtain ⟨raws, hRaws, hReads⟩ | ⟨⟨lapse, hLapse⟩, hNone⟩ := scanAttributes_spelt (fun a ha => (hSound.keys a ha).1)
    hSound.values hGap isEmpty fuel rest
  · exact .inl ⟨raws, by rw [hRaws]; rfl, hReads⟩
  · exact .inr ⟨⟨lapse, by rw [hLapse]; rfl⟩, hNone⟩

end Head

theorem splitName_of_isName (h : isName s) : splitName s.toList = (none, s.toList) := by
  have hColon : s.toList.contains ':' = false := by simpa using notMem_of_isName h (by decide)
  rw [splitName, hColon, if_neg Bool.false_ne_true]

theorem boundPart?_of_isName (h : isName s) (hOther : s.toList ≠ namespaceWord) : boundPart? s.toList = none := by
  rw [boundPart?, splitName_of_isName h]
  simpa using hOther

namespace Head

variable {as : List (String × String)} {raws : List RawAttribute}

def charsOf (a : String × String) : List Char × List Char := (a.1.toList, a.2.toList)

/-- The attributes are resolved as they are read, if none of their names was seen before or stands twice. -/
theorem foldlM_resolveAttribute (h : Forall₂ Reads as raws)
    (hKeys : ∀ a ∈ as, isName a.1 ∧ a.1.toList ≠ namespaceWord) (cs : List Char) (r : Resolved) :
    match if (as.map Prod.fst).Nodup ∧ ∀ a ∈ as, a.1.toList ∉ r.seen then as.mapM readAttribute? else none with
    | some bs => ∃ seen, raws.foldlM (resolveAttribute cs) r = .ok ⟨seen, r.attributes ++ bs.map charsOf, r.scope⟩
    | none => ∃ t, raws.foldlM (resolveAttribute cs) r = .error t := by
  induction h generalizing r with
  | nil => exact ⟨r.seen, by simp [pure, Except.pure]⟩
  | @cons a raw as raws hFirst _ ih =>
    obtain ⟨hName, hComes⟩ := hFirst
    obtain ⟨⟨hKey, hOther⟩, hKeys⟩ := forall_mem_cons.mp hKeys
    rw [foldlM_cons, resolveAttribute, hName, boundPart?_of_isName hKey hOther]
    by_cases hSeen : a.1.toList ∈ r.seen
    · rw [if_neg (by simp [hSeen])]
      exact ⟨⟨.duplicateAttribute, raw.start⟩, by simp [hSeen, throw, throwThe, MonadExceptOf.throw, bind, Except.bind]⟩
    have hNew : (((a :: as).map Prod.fst).Nodup ∧ ∀ b ∈ a :: as, b.1.toList ∉ r.seen) ↔
        (as.map Prod.fst).Nodup ∧ ∀ b ∈ as, b.1.toList ∉ a.1.toList :: r.seen := by
      simp only [map_cons, nodup_cons, mem_cons, not_or, String.toList_inj, mem_map, not_exists]
      grind
    have hRead : (a :: as).mapM readAttribute? = (valueChars? none a.2.toList).bind fun w =>
        (as.mapM readAttribute?).map ((a.1, String.ofList w) :: ·) := by
      cases hValue : valueChars? none a.2.toList <;>
        simp [readAttribute?, valueText?, hValue, Option.map_eq_bind, Function.comp_def]
    rw [hRead]
    simp only [hNew]
    cases hValue : valueChars? none a.2.toList with
    | none =>
      rw [hValue] at hComes
      obtain ⟨t, ht⟩ := hComes cs
      rw [Option.bind_none, ite_self]
      exact ⟨t, by simp [hSeen, ht, bind, Except.bind]⟩
    | some w =>
      rw [hValue] at hComes
      have hRest := ih hKeys { r with seen := a.1.toList :: r.seen, attributes := r.attributes ++ [(a.1.toList, w)] }
      by_cases hAll : (as.map Prod.fst).Nodup ∧ ∀ b ∈ as, b.1.toList ∉ a.1.toList :: r.seen
      · rw [if_pos hAll] at hRest ⊢
        cases hOthers : as.mapM readAttribute? with
        | none => simpa [hOthers, hSeen, hComes cs, bind, Except.bind, pure, Except.pure] using hRest
        | some bs => simpa [hOthers, hSeen, hComes cs, charsOf, bind, Except.bind, pure, Except.pure] using hRest
      · rw [if_neg hAll] at hRest ⊢
        simpa [hSeen, hComes cs, bind, Except.bind, pure, Except.pure] using hRest

theorem keys_of_readAttributes {bs : List (String × String)} (h : as.mapM readAttribute? = some bs) :
    bs.map Prod.fst = as.map Prod.fst := by
  induction as generalizing bs with
  | nil =>
    rw [mapM_nil] at h
    cases h
    rfl
  | cons a as ih =>
    rw [mapM_cons] at h
    obtain ⟨b, hb, h⟩ := Option.bind_eq_some_iff.mp h
    obtain ⟨bs, hbs, h⟩ := Option.bind_eq_some_iff.mp h
    cases h
    obtain ⟨w, -, rfl⟩ := Option.map_eq_some_iff.mp hb
    simp [ih hbs]

theorem expandAttributes_of_names {bs : List (String × String)} (hNames : ∀ b ∈ bs, isName b.1)
    (hDistinct : (bs.map Prod.fst).Nodup) (cs : List Char) (scope : Scope) :
    expandAttributes cs scope (bs.map charsOf) = .ok bs := by
  induction bs with
  | nil => rfl
  | cons b bs ih =>
    obtain ⟨hName, hNames⟩ := forall_mem_cons.mp hNames
    rw [map_cons, nodup_cons] at hDistinct
    have hOthers : bs.any (·.1 == b.1) = false := by
      rw [any_eq_false]
      intro c hc hSame
      exact hDistinct.1 (mem_map.mpr ⟨c, hc, eq_of_beq hSame⟩)
    rw [map_cons, charsOf, expandAttributes, Scope.expandAttribute?, splitName_of_isName hName]
    simp [ih hNames hDistinct.2, bind, Except.bind, hOthers, pure, Except.pure]

theorem Sound.openTag {h : Head} (hSound : h.Sound) (hReads : Forall₂ Reads h.attributes raws)
    (cs : List Char) (place : Nat) : match h.tag? place with
    | some tag => Markup.openTag .empty cs h.name.toList raws = .ok (tag.name, tag.attributes, .empty) ∧
        tag.place = place
    | none => ∃ t, Markup.openTag .empty cs h.name.toList raws = .error t := by
  have hFold := foldlM_resolveAttribute hReads hSound.keys cs ⟨[], [], .empty⟩
  simp only [not_mem_nil, not_false_eq_true, implies_true, and_true] at hFold
  have hTag : h.tag? place = (if (h.attributes.map Prod.fst).Nodup then h.attributes.mapM readAttribute? else none).map
      (⟨place, h.name, ·⟩) := (apply_ite _ _ _ none).symm
  rw [hTag]
  cases hRead : (if (h.attributes.map Prod.fst).Nodup then h.attributes.mapM readAttribute? else none) with
  | none =>
    rw [hRead] at hFold
    obtain ⟨t, ht⟩ := hFold
    exact ⟨t, by simp [Markup.openTag, ht, bind, Except.bind]⟩
  | some bs =>
    rw [hRead] at hFold
    obtain ⟨hDistinct, hRead⟩ := Option.ite_none_right_eq_some.mp hRead
    obtain ⟨seen, ht⟩ := hFold
    have hKeys := keys_of_readAttributes hRead
    have hNames : ∀ b ∈ bs, isName b.1 := by
      intro b hb
      have hMem : b.1 ∈ h.attributes.map Prod.fst := hKeys ▸ mem_map.mpr ⟨b, hb, rfl⟩
      obtain ⟨a, ha, hSame⟩ := mem_map.mp hMem
      exact hSame ▸ (hSound.keys a ha).1
    refine ⟨?_, rfl⟩
    have hExpand := expandAttributes_of_names hNames (hKeys ▸ hDistinct) cs .empty
    have hElement : Scope.expandElement? .empty h.name.toList = some h.name.toList := by
      rw [Scope.expandElement?, splitName_of_isName hSound.name]
      rfl
    simp [Markup.openTag, ht, hExpand, hElement, bind, Except.bind, pure, Except.pure]

end Head

end SceneExchange.Markup
