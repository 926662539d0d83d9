/-
  File:      Anjay/Downloader/ContentRange.lean
  Subject:   The texts that `read_start_byte_from_content_range` accepts, with what `errno` was before.

  * `lexContentRange`: how the chain of calls takes a text apart; `ContentRange`: the form a text should have.
  * `lexContentRange_iff_proper`: the texts of that form are those whose parts are proper.
  * `readStartByte_iff_harmless`: exactly these texts are accepted, with exactly their first number, iff nothing in
    the text or in `errno` misleads one of the calls.
-/
import Anjay.Downloader.Http
import Mathlib.Data.List.TakeWhile

namespace Anjay.Http

open Text

/-! ## 1. The code, with errno -/

/-- `parse_number`; `rangeError`: `errno` is `ERANGE` before the call, which `strtoull` does not reset. -/
def parseNumberAfter (rangeError : Bool) (text : List UInt8) : Option (Nat × List UInt8) :=
  if text.head? = some 0x2D then none
  else
    match strtoull text 10 with
    | some converted =>
        if converted.value = ullongMax ∧ (converted.erange || rangeError) = true then none
        else some (converted.value, converted.rest)
    | none => none

/-- The last part of `read_start_byte_from_content_range`: what is behind the slash. -/
def checkCompleteLength (last : Nat) (text : List UInt8) : Bool :=
  if text = [] then false
  else if text = [0x2A] then true
  else if text.head? = some 0x2D then false
  else
    match safeStrtoull text with
    | some completeLength => decide (1 ≤ completeLength ∧ completeLength - 1 = last)
    | none => false

/-- `read_start_byte_from_content_range`; a number that is accepted leaves `errno` as it was. -/
def readStartByteAfter (rangeError : Bool) (contentRange : List UInt8) : Option Nat := do
  let text ← matchToken contentRange (ascii "bytes")
  let (start, text) ← parseNumberAfter rangeError text
  let text ← expectChar 0x2D text
  let (last, text) ← parseNumberAfter rangeError text
  let text ← expectChar 0x2F text
  if checkCompleteLength last text then some start else none

/-! ## 2. The form of a text -/

/-- The number that decimal digits spell. -/
def digitsValue (digits : List UInt8) : Nat := digits.foldl (fun v c => v * 10 + (digitValue c).getD 0) 0

/-- A plain decimal number that fits 64 bits. -/
def decimalValue (text : List UInt8) : Option Nat :=
  if text ≠ [] ∧ text.all (isDigitOf 10) = true ∧ digitsValue text ≤ ullongMax then some (digitsValue text) else none

/-- A range as it should be written; the complete length may be unknown. -/
structure ContentRange where
  first : List UInt8
  last : List UInt8
  complete : Option (List UInt8)

namespace ContentRange

/-- `bytes first-last/complete`, or `*` for the complete length. -/
def text (r : ContentRange) : List UInt8 :=
  ascii "bytes" ++ 0x20 :: (r.first ++ 0x2D :: (r.last ++ 0x2F :: r.complete.getD [0x2A]))

/-- Its numbers: the first is not greater than the last, and the file ends with the last. -/
def Denotes (r : ContentRange) (start : Nat) : Prop :=
  ∃ last, decimalValue r.first = some start ∧ decimalValue r.last = some last ∧ start ≤ last ∧
    ∀ complete, r.complete = some complete → decimalValue complete = some (last + 1)

end ContentRange

/-! ## 3. The parts of a text -/

/-- What `strtoull` takes for a number. -/
structure Numeral where
  spaces : List UInt8
  sign : List UInt8
  digits : List UInt8
  deriving DecidableEq, Repr

def lexSign : List UInt8 → List UInt8 × List UInt8
  | [] => ([], [])
  | c :: rest => if c = 0x2D ∨ c = 0x2B then ([c], rest) else ([], c :: rest)

def lexNumber (text : List UInt8) : Option (Numeral × List UInt8) :=
  let signed := lexSign (text.dropWhile isSpace)
  if signed.2.takeWhile (isDigitOf 10) = [] then none
  else some (⟨text.takeWhile isSpace, signed.1, signed.2.takeWhile (isDigitOf 10)⟩, signed.2.dropWhile (isDigitOf 10))

namespace Numeral

def overflows (n : Numeral) : Bool := decide (ullongMax < digitsValue n.digits)

/-- The value that `strtoull` returns. -/
def value (n : Numeral) : Nat :=
  if ullongMax < digitsValue n.digits then ullongMax
  else if n.sign = [0x2D] then (2 ^ 64 - digitsValue n.digits) % 2 ^ 64
  else digitsValue n.digits

/-- Nothing but digits. -/
def Plain (n : Numeral) : Prop := n.spaces = [] ∧ n.sign = []

/-- `parse_number` takes the number. -/
def Taken (rangeError : Bool) (n : Numeral) : Prop :=
  ¬(n.spaces = [] ∧ n.sign = [0x2D]) ∧ ¬(n.value = ullongMax ∧ (n.overflows || rangeError) = true)

instance instDecidableTaken (rangeError : Bool) (n : Numeral) : Decidable (n.Taken rangeError) :=
  inferInstanceAs (Decidable (_ ∧ _))

end Numeral

/-- The parts that the calls take a text apart into. -/
structure Parts where
  blank : List UInt8
  unit : List UInt8
  separator : UInt8
  first : Numeral
  last : Numeral
  complete : List UInt8
  deriving DecidableEq, Repr

def lexUnit (text : List UInt8) : Option (UInt8 × List UInt8) :=
  if caseEqual (text.take 5) (ascii "bytes") then
    match text.drop 5 with
    | [] => none
    | c :: rest => if isSpace c then some (c, rest) else none
  else none

/-- The text as the calls take it apart. -/
def lexContentRange (text : List UInt8) : Option Parts := do
  let unit := text.dropWhile isSpace
  let (separator, rest) ← lexUnit unit
  let (first, rest) ← lexNumber rest
  let rest ← expectChar 0x2D rest
  let (last, rest) ← lexNumber rest
  let complete ← expectChar 0x2F rest
  some ⟨text.takeWhile isSpace, unit.take 5, separator, first, last, complete⟩

namespace Parts

/-- The code accepts the parts. -/
def Taken (rangeError : Bool) (p : Parts) : Prop :=
  p.first.Taken rangeError ∧ p.last.Taken rangeError ∧ checkCompleteLength p.last.value p.complete = true

/-- Something stands where the form has nothing, or the unit or the blank behind it is written otherwise. -/
def Decorated (p : Parts) : Prop :=
  ¬(p.blank = [] ∧ p.unit = ascii "bytes" ∧ p.separator = 0x20 ∧ p.first.Plain ∧ p.last.Plain)

/-- The range ends before it starts. -/
def Inverted (p : Parts) : Prop := p.last.value < p.first.value

/-- The base that its prefix tells gives the complete length another value than its decimal digits. -/
def Prefixed (p : Parts) : Prop := p.complete ≠ [0x2A] ∧ safeStrtoull p.complete ≠ decimalValue p.complete

/-- A number is the greatest one, and `errno` is left over from another call. -/
def Stale (rangeError : Bool) (p : Parts) : Prop :=
  rangeError = true ∧ (p.first.value = ullongMax ∨ p.last.value = ullongMax)

/-- The parts are those of a text in the right form. -/
def Proper (p : Parts) : Prop :=
  ¬p.Decorated ∧ ¬p.Inverted ∧ p.first.overflows = false ∧ p.last.overflows = false ∧
    (p.complete = [0x2A] ∨ decimalValue p.complete = some (p.last.value + 1))

end Parts

/-! ## 4. The code takes a text apart -/

theorem splitSign_eq (text : List UInt8) :
    splitSign text = (decide ((lexSign text).1 = [0x2D]), (lexSign text).2) := by
  cases text with
  | nil => rfl
  | cons c rest =>
      unfold splitSign lexSign
      dsimp only
      by_cases hminus : c = 0x2D
      · subst hminus
        rfl
      · by_cases hplus : c = 0x2B
        · subst hplus
          rfl
        · have hnone : (if c = 0x2D ∨ c = 0x2B then ([c], rest) else ([], c :: rest)) = ([], c :: rest) :=
            if_neg (not_or.mpr ⟨hminus, hplus⟩)
          rw [if_neg hminus, if_neg hplus]
          simp only [hnone]
          rfl

/-- **What `strtoull` makes of a text.** -/
theorem strtoull_eq (text : List UInt8) :
    strtoull text 10 = (lexNumber text).map fun x => ⟨x.1.value, x.1.overflows, x.2⟩ := by
  unfold strtoull
  rw [splitSign_eq]
  dsimp only
  rw [if_neg (by decide : ¬(10 : Nat) = 0)]
  unfold convertDigits lexNumber
  dsimp only
  by_cases hdigits : (lexSign (text.dropWhile isSpace)).2.takeWhile (isDigitOf 10) = []
  · rw [if_pos hdigits, if_pos hdigits]
    rfl
  · rw [if_neg hdigits, if_neg hdigits, Option.map_some]
    unfold Numeral.value Numeral.overflows
    by_cases hmax : ullongMax < digitsValue ((lexSign (text.dropWhile isSpace)).2.takeWhile (isDigitOf 10))
    · rw [if_pos hmax, decide_eq_true hmax]
      exact if_pos hmax
    · rw [if_neg hmax, decide_eq_false hmax]
      refine (if_neg hmax).trans ?_
      by_cases hsign : (lexSign (text.dropWhile isSpace)).1 = [0x2D]
      · rw [if_pos hsign, decide_eq_true hsign]
        rfl
      · rw [if_neg hsign, decide_eq_false hsign]
        rfl

/-- The check for a minus sign only sees one at the very start. -/
theorem head_minus_iff (text : List UInt8) :
    text.head? = some 0x2D ↔ text.takeWhile isSpace = [] ∧ (lexSign (text.dropWhile isSpace)).1 = [0x2D] := by
  cases text with
  | nil => exact ⟨fun h => (nomatch h), fun h => (nomatch h.2)⟩
  | cons c rest =>
      rw [List.head?_cons]
      by_cases hspace : isSpace c = true
      · rw [List.takeWhile_cons_of_pos hspace]
        refine ⟨fun h => ?_, fun h => (nomatch h.1)⟩
        rw [Option.some.inj h] at hspace
        exact absurd hspace (by decide)
      · rw [List.takeWhile_cons_of_neg hspace, List.dropWhile_cons_of_neg hspace]
        unfold lexSign
        dsimp only
        by_cases hsign : c = 0x2D ∨ c = 0x2B
        · rw [if_pos hsign]
          exact ⟨fun h => ⟨rfl, by rw [Option.some.inj h]⟩, fun h => congrArg some (List.cons.inj h.2).1⟩
        · rw [if_neg hsign]
          exact ⟨fun h => absurd (Or.inl (Option.some.inj h)) hsign, fun h => (nomatch h.2)⟩

theorem parseNumberAfter_eq (rangeError : Bool) (text : List UInt8) :
    parseNumberAfter rangeError text =
      (lexNumber text).bind fun x => if x.1.Taken rangeError then some (x.1.value, x.2) else none := by
  unfold parseNumberAfter
  rw [strtoull_eq]
  cases hlex : lexNumber text with
  | none =>
      by_cases hminus : text.head? = some 0x2D
      · rw [if_pos hminus]
        rfl
      · rw [if_neg hminus]
        rfl
  | some x =>
      obtain ⟨n, rest⟩ := x
      have hminus : text.head? = some 0x2D ↔ n.spaces = [] ∧ n.sign = [0x2D] := by
        unfold lexNumber at hlex
        dsimp only at hlex
        split at hlex
        · cases hlex
        · cases hlex
          exact head_minus_iff text
      show (if text.head? = some 0x2D then none
        else if n.value = ullongMax ∧ (n.overflows || rangeError) = true then none else some (n.value, rest)) =
          if n.Taken rangeError then some (n.value, rest) else none
      by_cases h1 : n.spaces = [] ∧ n.sign = [0x2D]
      · rw [if_pos (hminus.mpr h1), if_neg fun h : n.Taken rangeError => h.1 h1]
      · rw [if_neg (mt hminus.mp h1)]
        by_cases h2 : n.value = ullongMax ∧ (n.overflows || rangeError) = true
        · rw [if_pos h2, if_neg fun h : n.Taken rangeError => h.2 h2]
        · rw [if_neg h2, if_pos (show n.Taken rangeError from ⟨h1, h2⟩)]

theorem length_bytes : (ascii "bytes").length = 5 := rfl

theorem lexNumber_nil : lexNumber [] = none := rfl

theorem matchToken_of_lexUnit {text rest : List UInt8} {separator : UInt8}
    (h : lexUnit (text.dropWhile isSpace) = some (separator, rest)) : matchToken text (ascii "bytes") = some rest := by
  unfold lexUnit at h
  unfold matchToken
  rw [length_bytes]
  dsimp only
  split at h
  · next hunit =>
    rw [if_pos hunit]
    cases hdrop : (text.dropWhile isSpace).drop 5 with
    | nil =>
        rw [hdrop] at h
        cases h
    | cons c rest' =>
        rw [hdrop] at h
        dsimp only at h ⊢
        by_cases hspace : isSpace c = true
        · rw [if_pos hspace] at h ⊢
          cases h
          rfl
        · rw [if_neg hspace] at h
          cases h
  · cases h

theorem lexUnit_of_matchToken {text rest : List UInt8} (h : matchToken text (ascii "bytes") = some rest)
    (hrest : rest ≠ []) : ∃ separator, lexUnit (text.dropWhile isSpace) = some (separator, rest) := by
  unfold matchToken at h
  rw [length_bytes] at h
  unfold lexUnit
  dsimp only at h
  split at h
  · next hunit =>
    rw [if_pos hunit]
    cases hdrop : (text.dropWhile isSpace).drop 5 with
    | nil =>
        rw [hdrop] at h
        exact absurd (Option.some.inj h).symm hrest
    | cons c rest' =>
        rw [hdrop] at h
        dsimp only at h ⊢
        by_cases hspace : isSpace c = true
        · rw [if_pos hspace] at h ⊢
          exact ⟨c, by rw [Option.some.inj h]⟩
        · rw [if_neg hspace] at h
          cases h
  · cases h

/-- **The code accepts a text iff it takes its parts**, and returns the first number. -/
theorem readStartByteAfter_eq_some (rangeError : Bool) (text : List UInt8) (start : Nat) :
    readStartByteAfter rangeError text = some start ↔
      ∃ p, lexContentRange text = some p ∧ p.Taken rangeError ∧ p.first.value = start := by
  unfold readStartByteAfter lexContentRange
  simp only [Option.bind_eq_bind, Option.bind_eq_some_iff, parseNumberAfter_eq, Prod.exists,
    Option.ite_none_right_eq_some]
  constructor
  · rintro ⟨rest, hmatch, _, _, ⟨n1, r1, hlex1, htaken1, heq1⟩, r2, hexp1, _, _, ⟨n2, r3, hlex2, htaken2, heq2⟩,
      complete, hexp2, hcheck, heq3⟩
    cases heq1
    cases heq2
    have hrest : rest ≠ [] := by
      rintro rfl
      rw [lexNumber_nil] at hlex1
      cases hlex1
    obtain ⟨separator, hunit⟩ := lexUnit_of_matchToken hmatch hrest
    exact ⟨_, ⟨separator, rest, hunit, n1, _, hlex1, r2, hexp1, n2, _, hlex2, complete, hexp2, rfl⟩,
      ⟨htaken1, htaken2, hcheck⟩, Option.some.inj heq3⟩
  · rintro ⟨p, ⟨separator, rest, hunit, n1, r1, hlex1, r2, hexp1, n2, r3, hlex2, complete, hexp2, hp⟩,
      htaken, hstart⟩
    cases hp
    obtain ⟨htaken1, htaken2, hcheck⟩ := htaken
    exact ⟨rest, matchToken_of_lexUnit hunit, n1.value, r1, ⟨n1, r1, hlex1, htaken1, rfl⟩, r2, hexp1, n2.value, r3,
      ⟨n2, r3, hlex2, htaken2, rfl⟩, complete, hexp2, hcheck, congrArg some hstart⟩

theorem parseNumberAfter_false (text : List UInt8) : parseNumberAfter false text = parseNumber text := by
  have herange : ∀ converted, strtoull text 10 = some converted → converted.erange = true →
      converted.value = ullongMax := by
    intro converted hread hrange
    rw [strtoull_eq] at hread
    obtain ⟨x, -, rfl⟩ := Option.map_eq_some_iff.mp hread
    exact if_pos (of_decide_eq_true hrange)
  unfold parseNumberAfter parseNumber
  cases hread : strtoull text 10 with
  | none => rfl
  | some converted =>
      dsimp only
      rw [Bool.or_false]
      cases hrange : converted.erange with
      | true =>
          have hmax : converted.value = ullongMax ∧ true = true := ⟨herange converted hread hrange, rfl⟩
          rw [if_pos hmax]
          rfl
      | false =>
          have hmax : ¬(converted.value = ullongMax ∧ false = true) := fun h => Bool.false_ne_true h.2
          rw [if_neg hmax]
          rfl

/-- The downloader's reading of the field is that without a range error left over. -/
theorem readStartByteAfter_false (text : List UInt8) :
    readStartByteAfter false text = readStartByteFromContentRange text := by
  unfold readStartByteAfter readStartByteFromContentRange
  simp only [parseNumberAfter_false]
  refine Option.bind_congr fun rest _ => Option.bind_congr fun first _ => Option.bind_congr fun rest _ =>
    Option.bind_congr fun last _ => Option.bind_congr fun rest _ => ?_
  unfold checkCompleteLength
  split
  · exact if_neg Bool.false_ne_true
  split
  · exact if_pos rfl
  split
  · exact if_neg Bool.false_ne_true
  · cases safeStrtoull rest with
    | none => exact if_neg Bool.false_ne_true
    | some completeLength =>
        dsimp only
        simp only [decide_eq_true_eq]

/-! ## 5. The texts of the right form -/

theorem decimalValue_eq_some {text : List UInt8} {n : Nat} :
    decimalValue text = some n ↔
      text ≠ [] ∧ (∀ c ∈ text, isDigitOf 10 c = true) ∧ digitsValue text ≤ ullongMax ∧ digitsValue text = n := by
  unfold decimalValue
  rw [Option.ite_none_right_eq_some, List.all_eq_true, Option.some.injEq]
  exact ⟨fun ⟨⟨h1, h2, h3⟩, h4⟩ => ⟨h1, h2, h3, h4⟩, fun ⟨h1, h2, h3, h4⟩ => ⟨⟨h1, h2, h3⟩, h4⟩⟩

theorem not_space_of_digit {c : UInt8} (h : isDigitOf 10 c = true) : isSpace c = false ∧ c ≠ 0x2D ∧ c ≠ 0x2B := by
  have hrange : 0x30 ≤ c.toNat ∧ c.toNat ≤ 0x39 := by
    unfold isDigitOf digitValue at h
    dsimp only at h
    split_ifs at h with h1 h2 h3
    · exact h1
    all_goals simp at h
  refine ⟨?_, ?_, ?_⟩
  · simp [isSpace, ← UInt8.toNat_inj]
    omega
  · rintro rfl
    exact absurd hrange.1 (by decide)
  · rintro rfl
    exact absurd hrange.1 (by decide)

theorem takeWhile_append_digits {p : UInt8 → Bool} {front rest : List UInt8} (hfront : ∀ c ∈ front, p c = true)
    (hrest : ∀ c ∈ rest.head?, p c = false) :
    (front ++ rest).takeWhile p = front ∧ (front ++ rest).dropWhile p = rest := by
  have hnone : rest.takeWhile p = [] ∧ rest.dropWhile p = rest := by
    cases rest with
    | nil => exact ⟨rfl, rfl⟩
    | cons c cs =>
        have hc : ¬p c = true := Bool.eq_false_iff.mp (hrest c rfl)
        exact ⟨List.takeWhile_cons_of_neg hc, List.dropWhile_cons_of_neg hc⟩
  rw [List.takeWhile_append_of_pos hfront, List.dropWhile_append_of_pos hfront, hnone.1, hnone.2, List.append_nil]
  exact ⟨rfl, rfl⟩

/-- Digits are taken for a plain number. -/
theorem lexNumber_digits {digits : List UInt8} (rest : List UInt8) (hne : digits ≠ [])
    (hdigits : ∀ c ∈ digits, isDigitOf 10 c = true) (hrest : ∀ c ∈ rest.head?, isDigitOf 10 c = false) :
    lexNumber (digits ++ rest) = some (⟨[], [], digits⟩, rest) := by
  obtain ⟨c, cs, rfl⟩ := List.exists_cons_of_ne_nil hne
  obtain ⟨hspace, hminus, hplus⟩ := not_space_of_digit (hdigits c List.mem_cons_self)
  have hnotspace : ¬isSpace c = true := Bool.eq_false_iff.mp hspace
  have hsign : lexSign (c :: (cs ++ rest)) = ([], c :: (cs ++ rest)) := if_neg (not_or.mpr ⟨hminus, hplus⟩)
  obtain ⟨htake, hdrop⟩ := takeWhile_append_digits hdigits hrest
  unfold lexNumber
  rw [List.cons_append] at htake hdrop ⊢
  rw [List.dropWhile_cons_of_neg hnotspace, List.takeWhile_cons_of_neg hnotspace, hsign]
  dsimp only
  rw [htake, hdrop, if_neg hne]

theorem lexSign_text (text : List UInt8) : text = (lexSign text).1 ++ (lexSign text).2 := by
  cases text with
  | nil => rfl
  | cons c rest =>
      unfold lexSign
      dsimp only
      split <;> rfl

theorem lexNumber_text {text rest : List UInt8} {n : Numeral} (h : lexNumber text = some (n, rest)) :
    text = n.spaces ++ (n.sign ++ (n.digits ++ rest)) ∧ n.digits ≠ [] ∧ ∀ c ∈ n.digits, isDigitOf 10 c = true := by
  unfold lexNumber at h
  dsimp only at h
  split at h
  · cases h
  next hne =>
  cases h
  refine ⟨?_, hne, fun c hc => List.mem_takeWhile_imp hc⟩
  dsimp only
  rw [List.takeWhile_append_dropWhile, ← lexSign_text, List.takeWhile_append_dropWhile]

theorem expectChar_eq_some {c : UInt8} {text rest : List UInt8} :
    expectChar c text = some rest ↔ text = c :: rest := by
  cases text with
  | nil => exact ⟨fun h => (nomatch h), fun h => (nomatch h)⟩
  | cons d text =>
      unfold expectChar
      dsimp only
      rw [Option.ite_none_right_eq_some, List.cons.injEq, Option.some.injEq]

theorem plain_value {n : Numeral} (hplain : n.Plain) (hfits : n.overflows = false) :
    digitsValue n.digits ≤ ullongMax ∧ n.value = digitsValue n.digits := by
  have hle : ¬ullongMax < digitsValue n.digits := of_decide_eq_false hfits
  refine ⟨Nat.not_lt.mp hle, ?_⟩
  unfold Numeral.value
  rw [if_neg hle, hplain.2]
  exact if_neg (by decide)

theorem lexUnit_bytes (c : UInt8) (rest : List UInt8) (hc : isSpace c = true) :
    lexUnit (ascii "bytes" ++ c :: rest) = some (c, rest) ∧ (ascii "bytes" ++ c :: rest).take 5 = ascii "bytes" := by
  have htake : (ascii "bytes" ++ c :: rest).take 5 = ascii "bytes" := List.take_left' length_bytes
  have hdrop : (ascii "bytes" ++ c :: rest).drop 5 = c :: rest := List.drop_left' length_bytes
  refine ⟨?_, htake⟩
  unfold lexUnit
  rw [htake, hdrop, if_pos (show caseEqual (ascii "bytes") (ascii "bytes") = true from rfl)]
  exact if_pos hc

theorem lexUnit_text {text rest : List UInt8} {separator : UInt8} (h : lexUnit text = some (separator, rest)) :
    text = text.take 5 ++ separator :: rest := by
  unfold lexUnit at h
  split at h
  · split at h
    · cases h
    next c rest' hdrop =>
    rw [Option.ite_none_right_eq_some] at h
    cases h.2
    rw [← hdrop, List.take_append_drop]
  · cases h

theorem lexContentRange_eq_some {text : List UInt8} {p : Parts} :
    lexContentRange text = some p ↔ ∃ rest₁ rest₂,
      lexUnit (text.dropWhile isSpace) = some (p.separator, rest₁) ∧ lexNumber rest₁ = some (p.first, 0x2D :: rest₂) ∧
        lexNumber rest₂ = some (p.last, 0x2F :: p.complete) ∧ p.blank = text.takeWhile isSpace ∧
          p.unit = (text.dropWhile isSpace).take 5 := by
  unfold lexContentRange
  simp only [Option.bind_eq_bind, Option.bind_eq_some_iff, Prod.exists, expectChar_eq_some]
  constructor
  · rintro ⟨separator, rest₁, hunit, first, _, hfirst, rest₂, rfl, last, _, hlast, complete, rfl, hp⟩
    cases hp
    exact ⟨rest₁, rest₂, hunit, hfirst, hlast, rfl, rfl⟩
  · rintro ⟨rest₁, rest₂, hunit, hfirst, hlast, hblank, hunittext⟩
    refine ⟨p.separator, rest₁, hunit, p.first, _, hfirst, rest₂, rfl, p.last, _, hlast, p.complete, rfl, ?_⟩
    rw [← hblank, ← hunittext]

/-- How the calls take a text of the right form apart. -/
theorem lexContentRange_text {r : ContentRange} {start last : Nat} (hfirst : decimalValue r.first = some start)
    (hlast : decimalValue r.last = some last) :
    lexContentRange r.text =
      some ⟨[], ascii "bytes", 0x20, ⟨[], [], r.first⟩, ⟨[], [], r.last⟩, r.complete.getD [0x2A]⟩ := by
  obtain ⟨hne1, hdigits1, -, -⟩ := decimalValue_eq_some.mp hfirst
  obtain ⟨hne2, hdigits2, -, -⟩ := decimalValue_eq_some.mp hlast
  have hnotspace : ∀ rest : List UInt8, (ascii "bytes" ++ rest).takeWhile isSpace = [] ∧
      (ascii "bytes" ++ rest).dropWhile isSpace = ascii "bytes" ++ rest := fun rest => ⟨rfl, rfl⟩
  obtain ⟨hunit, htake⟩ := lexUnit_bytes 0x20 (r.first ++ 0x2D :: (r.last ++ 0x2F :: r.complete.getD [0x2A])) (by decide)
  refine lexContentRange_eq_some.mpr ⟨r.first ++ 0x2D :: (r.last ++ 0x2F :: r.complete.getD [0x2A]),
    r.last ++ 0x2F :: r.complete.getD [0x2A], ?_, ?_, ?_, ?_, ?_⟩
  · rw [ContentRange.text, (hnotspace _).2]
    exact hunit
  · exact lexNumber_digits _ hne1 hdigits1 fun c hc => by cases hc; decide
  · exact lexNumber_digits _ hne2 hdigits2 fun c hc => by cases hc; decide
  · exact (hnotspace _).1.symm
  · rw [ContentRange.text, (hnotspace _).2]
    exact htake.symm

theorem overflows_plain {digits : List UInt8} {n : Nat} (h : decimalValue digits = some n) :
    (⟨[], [], digits⟩ : Numeral).overflows = false ∧ (⟨[], [], digits⟩ : Numeral).value = n := by
  obtain ⟨-, -, hle, hvalue⟩ := decimalValue_eq_some.mp h
  have hfits : (⟨[], [], digits⟩ : Numeral).overflows = false := decide_eq_false (Nat.not_lt.mpr hle)
  exact ⟨hfits, ((plain_value ⟨rfl, rfl⟩ hfits).2).trans hvalue⟩

/-- **The texts of the right form are those whose parts are proper.** -/
theorem lexContentRange_iff_proper (text : List UInt8) (start : Nat) :
    (∃ r : ContentRange, r.text = text ∧ r.Denotes start) ↔
      ∃ p, lexContentRange text = some p ∧ p.Proper ∧ p.first.value = start := by
  constructor
  · rintro ⟨r, rfl, l, hfirst, hlast, hle, hcomplete⟩
    obtain ⟨hfit1, hvalue1⟩ := overflows_plain hfirst
    obtain ⟨hfit2, hvalue2⟩ := overflows_plain hlast
    refine ⟨_, lexContentRange_text hfirst hlast, ⟨?_, ?_, hfit1, hfit2, ?_⟩, hvalue1⟩
    · exact fun h => h ⟨rfl, rfl, rfl, ⟨rfl, rfl⟩, rfl, rfl⟩
    · exact fun h : Numeral.value _ < Numeral.value _ => absurd h (by rw [hvalue1, hvalue2]; exact Nat.not_lt.mpr hle)
    · cases hc : r.complete with
      | none => exact Or.inl rfl
      | some complete => exact Or.inr ((hcomplete complete hc).trans (by rw [hvalue2]))
  · rintro ⟨p, hlex, ⟨hdec, hinv, hfit1, hfit2, hcomplete⟩, hstart⟩
    obtain ⟨hblank, hunit, hsep, hplain1, hplain2⟩ := not_not.mp hdec
    obtain ⟨rest₁, rest₂, hlexunit, hfirst, hlast, hblank', hunit'⟩ := lexContentRange_eq_some.mp hlex
    obtain ⟨htext1, hne1, hdigits1⟩ := lexNumber_text hfirst
    obtain ⟨htext2, hne2, hdigits2⟩ := lexNumber_text hlast
    obtain ⟨hle1, hvalue1⟩ := plain_value hplain1 hfit1
    obtain ⟨hle2, hvalue2⟩ := plain_value hplain2 hfit2
    rw [hplain1.1, hplain1.2, List.nil_append, List.nil_append] at htext1
    rw [hplain2.1, hplain2.2, List.nil_append, List.nil_append] at htext2
    have hshape : text = ascii "bytes" ++ 0x20 :: (p.first.digits ++ 0x2D :: (p.last.digits ++ 0x2F :: p.complete)) := by
      have hdrop : text.dropWhile isSpace = text := by
        have hsplit := List.takeWhile_append_dropWhile (p := isSpace) (l := text)
        rw [← hblank', hblank, List.nil_append] at hsplit
        exact hsplit
      have htext := lexUnit_text hlexunit
      rw [← hunit', hunit, hsep, htext1, htext2, hdrop] at htext
      exact htext
    refine ⟨⟨p.first.digits, p.last.digits, if p.complete = [0x2A] then none else some p.complete⟩, ?_, p.last.value,
      ?_, ?_, ?_, ?_⟩
    · rw [hshape, ContentRange.text]
      dsimp only
      by_cases hstar : p.complete = [0x2A]
      · rw [if_pos hstar, hstar]
        rfl
      · rw [if_neg hstar]
        rfl
    · exact decimalValue_eq_some.mpr ⟨hne1, hdigits1, hle1, hvalue1.symm.trans hstart⟩
    · exact decimalValue_eq_some.mpr ⟨hne2, hdigits2, hle2, hvalue2.symm⟩
    · rw [← hstart]
      exact Nat.not_lt.mp hinv
    · intro complete hc
      by_cases hstar : p.complete = [0x2A]
      · rw [if_pos hstar] at hc
        cases hc
      · rw [if_neg hstar] at hc
        rw [← Option.some.inj hc]
        exact hcomplete.resolve_left hstar

/-! ## 6. When exactly these texts are accepted -/

/-- Nothing misleads the code: what it takes has no decoration, is not inverted and has no prefix, and a text in the
    right form meets no `errno` that is left over and no prefix. -/
def Harmless (rangeError : Bool) (text : List UInt8) : Prop :=
  ∀ p, lexContentRange text = some p →
    (p.Taken rangeError → ¬p.Decorated ∧ ¬p.Inverted ∧ ¬p.Prefixed) ∧
      (p.Proper → ¬p.Stale rangeError ∧ ¬p.Prefixed)

theorem checkCompleteLength_iff {last : Nat} {text : List UInt8} :
    checkCompleteLength last text = true ↔
      text = [0x2A] ∨ text.head? ≠ some 0x2D ∧ safeStrtoull text = some (last + 1) := by
  unfold checkCompleteLength
  by_cases hnil : text = []
  · subst hnil
    exact ⟨fun h => (nomatch h), fun h => h.elim (fun h => (nomatch h)) fun h => (nomatch h.2)⟩
  rw [if_neg hnil]
  by_cases hstar : text = [0x2A]
  · rw [if_pos hstar]
    exact ⟨fun _ => Or.inl hstar, fun _ => rfl⟩
  rw [if_neg hstar]
  by_cases hminus : text.head? = some 0x2D
  · rw [if_pos hminus]
    exact ⟨fun h => (nomatch h), fun h => absurd hminus (h.resolve_left hstar).1⟩
  rw [if_neg hminus]
  cases hread : safeStrtoull text with
  | none => exact ⟨fun h => (nomatch h), fun h => (nomatch (h.resolve_left hstar).2)⟩
  | some completeLength =>
      dsimp only
      rw [decide_eq_true_eq]
      refine ⟨fun ⟨hpos, hlast⟩ => Or.inr ⟨hminus, congrArg some (by omega)⟩, fun h => ?_⟩
      have hlen := Option.some.inj (h.resolve_left hstar).2
      exact ⟨by omega, by omega⟩

namespace Parts

theorem taken_of_proper {rangeError : Bool} {p : Parts} (h : p.Proper) (hstale : ¬p.Stale rangeError)
    (hprefixed : ¬p.Prefixed) : p.Taken rangeError := by
  obtain ⟨hdec, -, hfit1, hfit2, hcomplete⟩ := h
  obtain ⟨-, -, -, hplain1, hplain2⟩ := not_not.mp hdec
  have htaken : ∀ n : Numeral, n.Plain → n.overflows = false → (rangeError = true → n.value ≠ ullongMax) →
      n.Taken rangeError := fun n hplain hfit hmax =>
    ⟨fun h => absurd (hplain.2.symm.trans h.2) (by decide), fun h => by
      rw [hfit, Bool.false_or] at h
      exact hmax h.2 h.1⟩
  refine ⟨htaken _ hplain1 hfit1 fun h hmax => hstale ⟨h, Or.inl hmax⟩,
    htaken _ hplain2 hfit2 fun h hmax => hstale ⟨h, Or.inr hmax⟩, checkCompleteLength_iff.mpr ?_⟩
  by_cases hstar : p.complete = [0x2A]
  · exact Or.inl hstar
  have hvalue := hcomplete.resolve_left hstar
  obtain ⟨hne, hdigits, -, -⟩ := decimalValue_eq_some.mp hvalue
  refine Or.inr ⟨fun hminus => ?_, (not_not.mp fun h => hprefixed ⟨hstar, h⟩).trans hvalue⟩
  obtain ⟨c, cs, hcs⟩ := List.exists_cons_of_ne_nil hne
  rw [hcs] at hminus hdigits
  exact (not_space_of_digit (hdigits c List.mem_cons_self)).2.1 (Option.some.inj hminus)

theorem proper_of_taken {rangeError : Bool} {p : Parts} (h : p.Taken rangeError) (hdec : ¬p.Decorated)
    (hinv : ¬p.Inverted) (hprefixed : ¬p.Prefixed) : p.Proper := by
  obtain ⟨h1, h2, hcomplete⟩ := h
  have hfits : ∀ n : Numeral, n.Taken rangeError → n.overflows = false := by
    intro n hn
    cases hover : n.overflows with
    | false => rfl
    | true => exact absurd ⟨if_pos (of_decide_eq_true hover), by rw [hover]; rfl⟩ hn.2
  refine ⟨hdec, hinv, hfits _ h1, hfits _ h2, ?_⟩
  rcases checkCompleteLength_iff.mp hcomplete with hstar | ⟨-, hread⟩
  · exact Or.inl hstar
  · by_cases hstar : p.complete = [0x2A]
    · exact Or.inl hstar
    · exact Or.inr ((not_not.mp fun h => hprefixed ⟨hstar, h⟩).symm.trans hread)

theorem not_prefixed {rangeError : Bool} {p : Parts} (htaken : p.Taken rangeError) (hproper : p.Proper) :
    ¬p.Prefixed := by
  rintro ⟨hstar, hne⟩
  have hread := ((checkCompleteLength_iff.mp htaken.2.2).resolve_left hstar).2
  exact hne (hread.trans (hproper.2.2.2.2.resolve_left hstar).symm)

theorem not_stale {rangeError : Bool} {p : Parts} (htaken : p.Taken rangeError) : ¬p.Stale rangeError := by
  rintro ⟨hrange, hmax | hmax⟩
  · exact htaken.1.2 ⟨hmax, by rw [hrange, Bool.or_true]⟩
  · exact htaken.2.1.2 ⟨hmax, by rw [hrange, Bool.or_true]⟩

end Parts

/-- **A text is accepted exactly if it has the form `bytes first-last/complete` with plain decimal numbers that fit
    64 bits, in order and with the file ending at the last byte, and then gives exactly its first number, iff the
    text is harmless.** -/
theorem readStartByte_iff_harmless (rangeError : Bool) (text : List UInt8) :
    (∀ start, readStartByteAfter rangeError text = some start ↔
        ∃ r : ContentRange, r.text = text ∧ r.Denotes start) ↔
      Harmless rangeError text := by
  constructor
  · intro h p hlex
    have hsame : p.Taken rangeError ↔ p.Proper := by
      have hstart := (readStartByteAfter_eq_some rangeError text p.first.value).symm.trans
        ((h p.first.value).trans (lexContentRange_iff_proper text p.first.value))
      constructor
      · intro htaken
        obtain ⟨q, hq, hproper, -⟩ := hstart.mp ⟨p, hlex, htaken, rfl⟩
        rwa [Option.some.inj (hlex.symm.trans hq)]
      · intro hproper
        obtain ⟨q, hq, htaken, -⟩ := hstart.mpr ⟨p, hlex, hproper, rfl⟩
        rwa [Option.some.inj (hlex.symm.trans hq)]
    refine ⟨fun htaken => ?_, fun hproper => ?_⟩
    · have hproper := hsame.mp htaken
      exact ⟨hproper.1, hproper.2.1, Parts.not_prefixed htaken hproper⟩
    · have htaken := hsame.mpr hproper
      exact ⟨Parts.not_stale htaken, Parts.not_prefixed htaken hproper⟩
  · intro h start
    rw [readStartByteAfter_eq_some, lexContentRange_iff_proper]
    refine exists_congr fun p => and_congr_right fun hlex => and_congr_left fun _ => ?_
    obtain ⟨htaken, hproper⟩ := h p hlex
    refine ⟨fun ht => ?_, fun hp => ?_⟩
    · obtain ⟨hdec, hinv, hprefixed⟩ := htaken ht
      exact Parts.proper_of_taken ht hdec hinv hprefixed
    · obtain ⟨hstale, hprefixed⟩ := hproper hp
      exact Parts.taken_of_proper hp hstale hprefixed

/-- A range that ends before it starts. -/
def invertedRange : List UInt8 := ascii "bytes 10-5/6"

/-- It is accepted, with its first number. -/
theorem readStartByte_inverted : ¬∀ (rangeError : Bool) (text : List UInt8) (start : Nat),
    readStartByteAfter rangeError text = some start ↔ ∃ r : ContentRange, r.text = text ∧ r.Denotes start := by
  intro h
  have hform := (h false invertedRange 10).mp (by decide +kernel)
  obtain ⟨p, hlex, hproper, -⟩ := (lexContentRange_iff_proper invertedRange 10).mp hform
  have hparts : lexContentRange invertedRange = some ⟨[], ascii "bytes", 0x20, ⟨[], [], ascii "10"⟩,
      ⟨[], [], ascii "5"⟩, ascii "6"⟩ := by decide +kernel
  obtain rfl := Option.some.inj (hparts.symm.trans hlex)
  exact hproper.2.1 (show Numeral.value _ < Numeral.value _ by decide +kernel)

end Anjay.Http
