/-
  File:      Anjay/Commons/Notation.lean
  Subject:   Numbers in the decimal notation against the notation of the C language, where a leading zero means octal.

  * `numeralValue_eq_iff`: digits mean the same in both bases exactly if all but the last are zero.
  * `UnsignedText`, `DecimalText`: the texts in the decimal notation.
  * `natural_of_unsigned`, `unsigned_of_natural`, `natural_agrees`: when the two notations agree on digits.
  * `decimal_of_integer`, `integer_of_decimal`, `integer_agrees`: **and when they agree on a number with a sign.**
-/
import Anjay.Commons.Integer
import Mathlib.Data.List.Induction

namespace Anjay.Text

/-! ## 1. Two bases -/

theorem numeralValue_append (base : Nat) (cs : List UInt8) (c : UInt8) :
    numeralValue base (cs ++ [c]) = numeralValue base cs * base + (digitValue c).getD 0 := by
  unfold numeralValue
  rw [List.foldl_append]
  rfl

theorem numeralValue_octal_le (cs : List UInt8) : numeralValue 8 cs ≤ numeralValue 10 cs := by
  induction cs using List.reverseRecOn with
  | nil => exact Nat.le_refl _
  | append_singleton cs c ih =>
      rw [numeralValue_append, numeralValue_append]
      omega

/-- Digits that denote zero are zeros. -/
theorem numeralValue_eq_zero_iff {cs : List UInt8} (h : ∀ c ∈ cs, isDigitOf 10 c = true) :
    numeralValue 10 cs = 0 ↔ ∀ c ∈ cs, c = 0x30 := by
  induction cs using List.reverseRecOn with
  | nil => exact ⟨fun _ c hc => (nomatch hc), fun _ => rfl⟩
  | append_singleton cs c ih =>
      have hfront := ih fun d hd => h d (List.mem_append_left _ hd)
      have hlast := (decimal_digit (h c (List.mem_append_right _ (List.mem_singleton.mpr rfl)))).2.2
      rw [numeralValue_append]
      constructor
      · intro hzero d hd
        rcases List.mem_append.mp hd with hd | hd
        · exact hfront.mp (by omega) d hd
        · rw [List.mem_singleton.mp hd]
          exact hlast (by omega)
      · intro hall
        have hc : c = 0x30 := hall c (List.mem_append_right _ (List.mem_singleton.mpr rfl))
        have hdigit : (digitValue 0x30).getD 0 = 0 := rfl
        rw [hfront.mpr fun d hd => hall d (List.mem_append_left _ hd), hc, hdigit]

/-- **Digits mean the same in both bases exactly if all but the last are zero.** -/
theorem numeralValue_eq_iff {cs : List UInt8} (h : ∀ c ∈ cs, isDigitOf 10 c = true) :
    numeralValue 8 cs = numeralValue 10 cs ↔ ∀ c ∈ cs.dropLast, c = 0x30 := by
  induction cs using List.reverseRecOn with
  | nil => exact ⟨fun _ c hc => (nomatch hc), fun _ => rfl⟩
  | append_singleton cs c _ =>
      have hfront : ∀ d ∈ cs, isDigitOf 10 d = true := fun d hd => h d (List.mem_append_left _ hd)
      have hle := numeralValue_octal_le cs
      rw [numeralValue_append, numeralValue_append, List.dropLast_concat, ← numeralValue_eq_zero_iff hfront]
      omega

/-! ## 2. The decimal notation -/

/-- Decimal digits, and the number they denote. -/
def UnsignedText (text : List UInt8) (n : Nat) : Prop :=
  text ≠ [] ∧ (∀ c ∈ text, isDigitOf 10 c = true) ∧ n = numeralValue 10 text

/-- A minus sign, and what is behind it. -/
def splitMinus : List UInt8 → Bool × List UInt8
  | [] => (false, [])
  | c :: rest => if c = 0x2D then (true, rest) else (false, c :: rest)

/-- An optional minus sign and decimal digits, and the number they denote. -/
def DecimalText (text : List UInt8) (n : Int) : Prop :=
  ∃ m, UnsignedText (splitMinus text).2 m ∧ n = signed (splitMinus text).1 m

/-- Behind a leading zero there are zeros only, up to the last character. -/
def ZerosBehindZero (text : List UInt8) : Prop := ∀ cs, text = 0x30 :: cs → ∀ c ∈ cs.dropLast, c = 0x30

/-- Behind a leading zero there is no 8 and no 9. -/
def OctalBehindZero (text : List UInt8) : Prop :=
  ∀ cs, text = 0x30 :: cs → ∀ c ∈ cs, isDigitOf 10 c = true → isDigitOf 8 c = true

theorem UnsignedText.unique {text : List UInt8} {n m : Nat} (hn : UnsignedText text n) (hm : UnsignedText text m) :
    n = m :=
  hn.2.2.trans hm.2.2.symm

/-- A leading zero changes nothing but the base. -/
theorem numeralValue_zero_cons (base : Nat) (cs : List UInt8) : numeralValue base (0x30 :: cs) = numeralValue base cs := by
  have hdigit : 0 * base + (digitValue 0x30).getD 0 = 0 := by
    rw [Nat.zero_mul]
    rfl
  unfold numeralValue
  rw [List.foldl_cons, hdigit]

/-- **Decimal digits are a number in C**, unless there is an 8 or a 9 behind a leading zero; it is not larger. -/
theorem natural_of_unsigned {text : List UInt8} {n : Nat} (h : UnsignedText text n) (hoctal : OctalBehindZero text) :
    ∃ m, NaturalText text m ∧ m ≤ n := by
  obtain ⟨hne, hdigits, rfl⟩ := h
  obtain ⟨c, cs, rfl⟩ := List.exists_cons_of_ne_nil hne
  by_cases hc : c = 0x30
  · subst hc
    have hcs : ∀ d ∈ cs, isDigitOf 8 d = true := fun d hd =>
      hoctal cs rfl d hd (hdigits d (List.mem_cons_of_mem _ hd))
    exact ⟨_, NaturalText.octal hcs, numeralValue_octal_le _⟩
  · exact ⟨_, NaturalText.decimal hc hdigits, Nat.le_refl _⟩

/-- **A number in C is decimal digits with that value**, if behind a leading zero there are zeros only. -/
theorem unsigned_of_natural {text : List UInt8} {n : Nat} (h : NaturalText text n) (hzeros : ZerosBehindZero text) :
    UnsignedText text n := by
  cases h with
  | decimal hc hdigits => exact ⟨List.cons_ne_nil _ _, hdigits, rfl⟩
  | @octal cs hdigits =>
      have hdecimal : ∀ c ∈ cs, isDigitOf 10 c = true := fun c hc => isDigitOf_mono (by decide) (hdigits c hc)
      refine ⟨List.cons_ne_nil _ _, List.forall_mem_cons.mpr ⟨by decide, hdecimal⟩, ?_⟩
      rw [numeralValue_zero_cons, numeralValue_zero_cons, (numeralValue_eq_iff hdecimal).mpr (hzeros cs rfl)]
  | @hex x cs hx hcs hdigits =>
      obtain ⟨d, ds, rfl⟩ := List.exists_cons_of_ne_nil hcs
      have hzero := hzeros (x :: d :: ds) rfl x List.mem_cons_self
      rw [hzero] at hx
      exact absurd hx (by decide)

/-- Where both notations give the same number, there is nothing behind a leading zero on which they differ. -/
theorem natural_agrees {text : List UInt8} {n : Nat} (h : NaturalText text n) (hu : UnsignedText text n) :
    ZerosBehindZero text ∧ OctalBehindZero text := by
  cases h with
  | decimal hc hdigits =>
      exact ⟨fun cs heq => absurd (List.cons.inj heq).1 hc, fun cs heq => absurd (List.cons.inj heq).1 hc⟩
  | @octal cs hdigits =>
      have hdecimal : ∀ c ∈ cs, isDigitOf 10 c = true := fun c hc => isDigitOf_mono (by decide) (hdigits c hc)
      have hvalue := hu.2.2
      rw [numeralValue_zero_cons, numeralValue_zero_cons] at hvalue
      refine ⟨fun cs' heq => ?_, fun cs' heq c hc _ => ?_⟩
      · rw [← (List.cons.inj heq).2]
        exact (numeralValue_eq_iff hdecimal).mp hvalue
      · rw [← (List.cons.inj heq).2] at hc
        exact hdigits c hc
  | @hex x cs hx hcs hdigits =>
      have hdigit := hu.2.1 x (List.mem_cons_of_mem _ List.mem_cons_self)
      rcases hx with rfl | rfl
      · exact absurd hdigit (by decide)
      · exact absurd hdigit (by decide)

/-! ## 3. Signs -/

theorem splitMinus_natural {text : List UInt8} {n : Nat} (h : NaturalText text n) : splitMinus text = (false, text) := by
  obtain ⟨c, cs, rfl, hc⟩ := h.head
  exact if_neg (digit_plain hc).2.1

/-- An integer in C without a plus sign is a natural number, with a minus sign or without. -/
theorem integerText_iff {text : List UInt8} (hplus : text.head? ≠ some 0x2B) (n : Int) :
    IntegerText text n ↔ ∃ m, NaturalText (splitMinus text).2 m ∧ n = signed (splitMinus text).1 m := by
  constructor
  · intro h
    cases h with
    | @plain _ m h =>
        rw [splitMinus_natural h]
        exact ⟨m, h, rfl⟩
    | plus h => exact absurd rfl hplus
    | @minus text m h => exact ⟨m, h, rfl⟩
  · rintro ⟨m, hm, rfl⟩
    cases text with
    | nil =>
        obtain ⟨c, cs, heq, -⟩ := hm.head
        cases heq
    | cons c rest =>
        by_cases hc : c = 0x2D
        · subst hc
          exact IntegerText.minus hm
        · have hsplit : splitMinus (c :: rest) = (false, c :: rest) := if_neg hc
          rw [hsplit] at hm ⊢
          exact IntegerText.plain hm

/-- Decimal digits begin with no sign. -/
theorem UnsignedText.head {text : List UInt8} {n : Nat} (h : UnsignedText text n) :
    splitMinus text = (false, text) ∧ text.head? ≠ some 0x2B ∧ text.head? ≠ some 0x2D ∧ 0 ∉ text ∧ 0x3A ∉ text := by
  obtain ⟨hne, hdigits, -⟩ := h
  obtain ⟨c, cs, rfl⟩ := List.exists_cons_of_ne_nil hne
  have hc := digit_plain (isDigitOf_mono (by decide) (hdigits c List.mem_cons_self))
  refine ⟨if_neg hc.2.1, fun heq => hc.2.2.1 (Option.some.inj heq), fun heq => hc.2.1 (Option.some.inj heq), ?_, ?_⟩
  · exact fun hmem => absurd (hdigits 0 hmem) (by decide)
  · exact fun hmem => absurd (hdigits 0x3A hmem) (by decide)

/-- A number in the decimal notation has no plus sign and no NUL. -/
theorem DecimalText.plain {text : List UInt8} {n : Int} (h : DecimalText text n) : text.head? ≠ some 0x2B ∧ 0 ∉ text := by
  obtain ⟨m, hm, -⟩ := h
  cases text with
  | nil => exact absurd rfl hm.1
  | cons c rest =>
      by_cases hc : c = 0x2D
      · subst hc
        refine ⟨fun heq => absurd (Option.some.inj heq) (by decide), fun hmem => ?_⟩
        rcases List.mem_cons.mp hmem with h | hmem
        · exact absurd h (by decide)
        · exact hm.head.2.2.2.1 hmem
      · have hsplit : splitMinus (c :: rest) = (false, c :: rest) := if_neg hc
        rw [hsplit] at hm
        exact ⟨hm.head.2.1, hm.head.2.2.2.1⟩

theorem signed_inj {negative : Bool} {n m : Nat} (h : signed negative n = signed negative m) : n = m := by
  unfold signed at h
  cases negative with
  | true => exact Int.natCast_inj.mp (Int.neg_inj.mp h)
  | false => exact Int.natCast_inj.mp h

/-- **An integer in C is one in the decimal notation**, if it has no plus sign and behind a leading zero zeros only. -/
theorem decimal_of_integer {text : List UInt8} {n : Int} (h : IntegerText text n) (hplus : text.head? ≠ some 0x2B)
    (hzeros : ZerosBehindZero (splitMinus text).2) : DecimalText text n := by
  obtain ⟨m, hm, hn⟩ := (integerText_iff hplus n).mp h
  exact ⟨m, unsigned_of_natural hm hzeros, hn⟩

/-- **An integer in the decimal notation is one in C**, unless there is an 8 or a 9 behind a leading zero; if the one fits
    into a range around zero, so does the other. -/
theorem integer_of_decimal {text : List UInt8} {n : Int} (h : DecimalText text n)
    (hoctal : OctalBehindZero (splitMinus text).2) :
    ∃ n', IntegerText text n' ∧ (llongMin ≤ n ∧ n ≤ llongMax → llongMin ≤ n' ∧ n' ≤ llongMax) := by
  obtain ⟨m, hm, rfl⟩ := h
  obtain ⟨m', hm', hle⟩ := natural_of_unsigned hm hoctal
  refine ⟨signed (splitMinus text).1 m', (integerText_iff (DecimalText.plain ⟨m, hm, rfl⟩).1 _).mpr ⟨m', hm', rfl⟩, ?_⟩
  have hmin : llongMin ≤ 0 := by decide
  have hmax : 0 ≤ llongMax := by decide
  unfold signed
  cases (splitMinus text).1 with
  | true =>
      rw [if_pos rfl, if_pos rfl]
      omega
  | false =>
      rw [if_neg Bool.false_ne_true, if_neg Bool.false_ne_true]
      omega

/-- Where both notations give the same integer, there is nothing on which they differ. -/
theorem integer_agrees {text : List UInt8} {n : Int} (h : IntegerText text n) (hdecimal : DecimalText text n) :
    ZerosBehindZero (splitMinus text).2 ∧ OctalBehindZero (splitMinus text).2 := by
  obtain ⟨m, hm, hn⟩ := (integerText_iff hdecimal.plain.1 n).mp h
  obtain ⟨m', hm', hn'⟩ := hdecimal
  obtain rfl : m = m' := signed_inj (hn.symm.trans hn')
  exact natural_agrees hm hm'

end Anjay.Text
