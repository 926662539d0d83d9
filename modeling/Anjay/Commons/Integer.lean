/-
  File:      Anjay/Commons/Integer.lean
  Subject:   Integers as text: `_anjay_safe_strtoll`, which takes the base from the prefix of the number.

  * `IntegerText`: the texts that denote an integer, in the notation of the C language.
  * `safeStrtoll_iff`: read are these, as far as the integer fits into a `long long`.
-/
import Anjay.Commons.Parse
import Mathlib.Data.List.TakeWhile

namespace Anjay.Text

/-! ## 1. Conversion -/

/-- `LLONG_MAX` and `LLONG_MIN`. -/
def llongMax : Int := 2 ^ 63 - 1

def llongMin : Int := -2 ^ 63

/-- What a call of `strtoll` gives, as `Converted` for `strtoull`. -/
structure ConvertedSigned where
  value : Int
  erange : Bool
  rest : List UInt8
  deriving DecidableEq, Repr

/-- The number that digits denote. -/
def numeralValue (base : Nat) (digits : List UInt8) : Nat :=
  digits.foldl (fun v c => v * base + (digitValue c).getD 0) 0

/-- The number with its sign. -/
def signed (negative : Bool) (n : Nat) : Int := if negative then -(n : Int) else n

def convertSigned (base : Nat) (negative : Bool) (text : List UInt8) : Option ConvertedSigned :=
  let digits := text.takeWhile (isDigitOf base)
  if digits = [] then none
  else
    let value := signed negative (numeralValue base digits)
    let rest := text.dropWhile (isDigitOf base)
    if value < llongMin then some ⟨llongMin, true, rest⟩
    else if llongMax < value then some ⟨llongMax, true, rest⟩
    else some ⟨value, false, rest⟩

/-- `strtoll` with the base 0. -/
def strtoll (text : List UInt8) : Option ConvertedSigned :=
  let (negative, text) := splitSign (text.dropWhile isSpace)
  let (base, text) := splitBase text
  convertSigned base negative text

/-- `_anjay_safe_strtoll`. -/
def safeStrtoll (text : List UInt8) : Option Int :=
  match text with
  | [] => none
  | c :: _ =>
      if isSpace c then none
      else
        match strtoll text with
        | some converted => if converted.erange || !converted.rest.isEmpty then none else some converted.value
        | none => none

/-! ## 2. The notation -/

/-- The texts that denote a natural number, in the notation of the C language. -/
inductive NaturalText : List UInt8 → Nat → Prop
  | decimal {c : UInt8} {cs : List UInt8} (hc : c ≠ 0x30) (hdigits : ∀ d ∈ c :: cs, isDigitOf 10 d = true) :
      NaturalText (c :: cs) (numeralValue 10 (c :: cs))
  | octal {cs : List UInt8} (hdigits : ∀ d ∈ cs, isDigitOf 8 d = true) :
      NaturalText (0x30 :: cs) (numeralValue 8 (0x30 :: cs))
  | hex {x : UInt8} {cs : List UInt8} (hx : x = 0x78 ∨ x = 0x58) (hcs : cs ≠ [])
      (hdigits : ∀ d ∈ cs, isDigitOf 16 d = true) : NaturalText (0x30 :: x :: cs) (numeralValue 16 cs)

/-- The texts that denote an integer. -/
inductive IntegerText : List UInt8 → Int → Prop
  | plain {text : List UInt8} {n : Nat} (h : NaturalText text n) : IntegerText text n
  | plus {text : List UInt8} {n : Nat} (h : NaturalText text n) : IntegerText (0x2B :: text) n
  | minus {text : List UInt8} {n : Nat} (h : NaturalText text n) : IntegerText (0x2D :: text) (-(n : Int))

/-! ## 3. Digits -/

theorem isDigitOf_mono {base base' : Nat} (hbase : base ≤ base') {c : UInt8} (h : isDigitOf base c = true) :
    isDigitOf base' c = true := by
  unfold isDigitOf at h ⊢
  split at h
  · exact decide_eq_true (Nat.lt_of_lt_of_le (of_decide_eq_true h) hbase)
  · cases h

/-- No digit is a sign or a space. -/
theorem digit_plain {c : UInt8} (h : isDigitOf 16 c = true) :
    isSpace c = false ∧ c ≠ 0x2D ∧ c ≠ 0x2B ∧ c ≠ 0x78 ∧ c ≠ 0x58 := by
  have hall : ∀ n : Fin 256, isDigitOf 16 (UInt8.ofNat n.val) = true →
      isSpace (UInt8.ofNat n.val) = false ∧ UInt8.ofNat n.val ≠ 0x2D ∧ UInt8.ofNat n.val ≠ 0x2B ∧
        UInt8.ofNat n.val ≠ 0x78 ∧ UInt8.ofNat n.val ≠ 0x58 := by
    decide +kernel
  have hc := hall ⟨c.toNat, c.toNat_lt⟩
  rw [UInt8.ofNat_toNat] at hc
  exact hc h

/-- The first byte of a natural number is a digit. -/
theorem NaturalText.head {text : List UInt8} {n : Nat} (h : NaturalText text n) :
    ∃ c cs, text = c :: cs ∧ isDigitOf 16 c = true := by
  cases h with
  | decimal hc hdigits => exact ⟨_, _, rfl, isDigitOf_mono (by decide) (hdigits _ List.mem_cons_self)⟩
  | octal hdigits => exact ⟨_, _, rfl, by decide⟩
  | hex hx hcs hdigits => exact ⟨_, _, rfl, by decide⟩

/-- What the prefix tells, and the digits behind it. -/
theorem splitBase_natural {text : List UInt8} {n : Nat} (h : NaturalText text n) :
    ∃ base digits, splitBase text = (base, digits) ∧ digits ≠ [] ∧ (∀ d ∈ digits, isDigitOf base d = true) ∧
      numeralValue base digits = n := by
  cases h with
  | @decimal c cs hc hdigits =>
      refine ⟨10, c :: cs, ?_, List.cons_ne_nil _ _, hdigits, rfl⟩
      rw [splitBase.eq_def]
      split
      · next heq => cases heq; exact if_pos hc
      · next heq => cases heq; exact if_pos hc
      · next heq => cases heq
  | @octal cs hdigits =>
      refine ⟨8, 0x30 :: cs, ?_, List.cons_ne_nil _ _, List.forall_mem_cons.mpr ⟨by decide, hdigits⟩, rfl⟩
      rw [splitBase.eq_def]
      split
      · next x d rest heq =>
        obtain ⟨rfl, rfl⟩ := List.cons.inj heq
        have hx := digit_plain (isDigitOf_mono (by decide) (hdigits x List.mem_cons_self))
        rw [if_neg (fun h => h rfl), if_neg fun h => h.1.elim hx.2.2.2.1 hx.2.2.2.2]
      · next heq => cases heq; exact if_neg fun h => h rfl
      · next heq => cases heq
  | @hex x cs hx hcs hdigits =>
      refine ⟨16, cs, ?_, hcs, hdigits, rfl⟩
      obtain ⟨d, ds, rfl⟩ := List.exists_cons_of_ne_nil hcs
      rw [splitBase.eq_def]
      dsimp only
      rw [if_neg (fun h => h rfl), if_pos ⟨hx, hdigits d List.mem_cons_self⟩]

/-- Where digits of the base that the prefix tells are all there is, the text denotes a natural number. -/
theorem natural_of_splitBase {text digits : List UInt8} {base : Nat} (h : splitBase text = (base, digits))
    (hne : digits ≠ []) (hdigits : ∀ d ∈ digits, isDigitOf base d = true) :
    NaturalText text (numeralValue base digits) := by
  rw [splitBase.eq_def] at h
  split at h
  · next c x d rest =>
    split at h
    · next hc =>
      obtain ⟨rfl, rfl⟩ := Prod.mk.inj h
      exact NaturalText.decimal hc hdigits
    next hc =>
    obtain rfl : c = 0x30 := Decidable.not_not.mp hc
    split at h
    · next hx =>
      obtain ⟨rfl, rfl⟩ := Prod.mk.inj h
      exact NaturalText.hex hx.1 hne hdigits
    · obtain ⟨rfl, rfl⟩ := Prod.mk.inj h
      exact NaturalText.octal fun b hb => hdigits b (List.mem_cons_of_mem _ hb)
  · next c rest _ =>
    split at h
    · next hc =>
      obtain ⟨rfl, rfl⟩ := Prod.mk.inj h
      exact NaturalText.decimal hc hdigits
    · next hc =>
      obtain rfl : c = 0x30 := Decidable.not_not.mp hc
      obtain ⟨rfl, rfl⟩ := Prod.mk.inj h
      exact NaturalText.octal fun b hb => hdigits b (List.mem_cons_of_mem _ hb)
  · obtain ⟨-, rfl⟩ := Prod.mk.inj h
    exact absurd rfl hne

theorem NaturalText.unique {text : List UInt8} {n m : Nat} (hn : NaturalText text n) (hm : NaturalText text m) :
    n = m := by
  obtain ⟨base, digits, hsplit, -, -, rfl⟩ := splitBase_natural hn
  obtain ⟨base', digits', hsplit', -, -, rfl⟩ := splitBase_natural hm
  obtain ⟨rfl, rfl⟩ := Prod.mk.inj (hsplit.symm.trans hsplit')
  rfl

/-- A natural number has no sign of its own. -/
theorem NaturalText.no_sign {text : List UInt8} {n : Nat} :
    ¬NaturalText (0x2B :: text) n ∧ ¬NaturalText (0x2D :: text) n := by
  constructor <;>
  · intro h
    obtain ⟨c, cs, heq, hc⟩ := h.head
    obtain ⟨rfl, -⟩ := List.cons.inj heq
    exact absurd hc (by decide)

/-- **A text denotes one integer only.** -/
theorem IntegerText.unique {text : List UInt8} {n m : Int} (hn : IntegerText text n) (hm : IntegerText text m) :
    n = m := by
  cases hn with
  | plain h =>
      cases hm with
      | plain h' => rw [h.unique h']
      | plus h' => exact absurd h NaturalText.no_sign.1
      | minus h' => exact absurd h NaturalText.no_sign.2
  | plus h =>
      cases hm with
      | plain h' => exact absurd h' NaturalText.no_sign.1
      | plus h' => rw [h.unique h']
  | minus h =>
      cases hm with
      | plain h' => exact absurd h' NaturalText.no_sign.2
      | minus h' => rw [h.unique h']

theorem NaturalText.noNul {text : List UInt8} {n : Nat} (h : NaturalText text n) : 0 ∉ text := by
  have hdigit : ∀ base, isDigitOf base 0 = false := fun _ => rfl
  intro hmem
  cases h with
  | decimal hc hdigits => exact absurd (hdigits 0 hmem) (by rw [hdigit]; decide)
  | octal hdigits =>
      rcases List.mem_cons.mp hmem with h | hmem
      · exact absurd h (by decide)
      · exact absurd (hdigits 0 hmem) (by rw [hdigit]; decide)
  | hex hx hcs hdigits =>
      rcases List.mem_cons.mp hmem with h | hmem
      · exact absurd h (by decide)
      rcases List.mem_cons.mp hmem with rfl | hmem
      · exact absurd hx (by decide)
      · exact absurd (hdigits 0 hmem) (by rw [hdigit]; decide)

theorem IntegerText.noNul {text : List UInt8} {n : Int} (h : IntegerText text n) : 0 ∉ text := by
  cases h with
  | plain h => exact h.noNul
  | plus h => exact fun hmem => (List.mem_cons.mp hmem).elim (by decide) h.noNul
  | minus h => exact fun hmem => (List.mem_cons.mp hmem).elim (by decide) h.noNul

/-! ## 4. What is read -/

theorem takeWhile_all {p : UInt8 → Bool} {cs : List UInt8} (h : ∀ c ∈ cs, p c = true) :
    cs.takeWhile p = cs ∧ cs.dropWhile p = [] := by
  have htake : (cs ++ []).takeWhile p = cs ++ [].takeWhile p := List.takeWhile_append_of_pos h
  have hdrop : (cs ++ []).dropWhile p = [].dropWhile p := List.dropWhile_append_of_pos h
  rw [List.append_nil, List.takeWhile_nil, List.append_nil] at htake
  rw [List.append_nil, List.dropWhile_nil] at hdrop
  exact ⟨htake, hdrop⟩

/-- A conversion succeeds, with nothing left, iff there are digits only and the number fits. -/
theorem convertSigned_iff (base : Nat) (negative : Bool) (text : List UInt8) (n : Int) :
    convertSigned base negative text = some ⟨n, false, []⟩ ↔
      text ≠ [] ∧ (∀ c ∈ text, isDigitOf base c = true) ∧ n = signed negative (numeralValue base text) ∧
        llongMin ≤ n ∧ n ≤ llongMax := by
  constructor
  · intro h
    unfold convertSigned at h
    dsimp only at h
    split at h
    · cases h
    next hne =>
    split at h
    · cases h
    next hmin =>
    split at h
    · cases h
    next hmax =>
    obtain ⟨hvalue, -, hrest⟩ := ConvertedSigned.mk.inj (Option.some.inj h)
    have hall : ∀ c ∈ text, isDigitOf base c = true := List.dropWhile_eq_nil_iff.mp hrest
    rw [(takeWhile_all hall).1] at hvalue hmin hmax hne
    rw [hvalue] at hmin hmax
    exact ⟨hne, hall, hvalue.symm, Int.not_lt.mp hmin, Int.not_lt.mp hmax⟩
  · rintro ⟨hne, hall, hvalue, hmin, hmax⟩
    unfold convertSigned
    dsimp only
    rw [(takeWhile_all hall).1, (takeWhile_all hall).2, if_neg hne]
    rw [← hvalue, if_neg (Int.not_lt.mpr hmin), if_neg (Int.not_lt.mpr hmax)]

theorem safeStrtoll_eq_some_iff (c : UInt8) (cs : List UInt8) (n : Int) :
    safeStrtoll (c :: cs) = some n ↔ isSpace c = false ∧ strtoll (c :: cs) = some ⟨n, false, []⟩ := by
  constructor
  · intro h
    unfold safeStrtoll at h
    dsimp only at h
    split at h
    · cases h
    next hspace =>
    split at h
    · next converted hconv =>
      split at h
      · cases h
      · next hok =>
        rw [Bool.or_eq_true, not_or, Bool.not_eq_true, Bool.not_eq_true, Bool.not_eq_false', List.isEmpty_iff] at hok
        obtain ⟨value, erange, rest⟩ := converted
        obtain ⟨rfl, rfl⟩ := hok
        rw [← Option.some.inj h]
        exact ⟨eq_false_of_ne_true hspace, hconv⟩
    · cases h
  · rintro ⟨hspace, hconv⟩
    unfold safeStrtoll
    dsimp only
    rw [if_neg (by simp [hspace]), hconv]
    rfl

/-- Behind the sign. -/
theorem strtoll_iff {text rest : List UInt8} {negative : Bool} (hspace : text.dropWhile isSpace = text)
    (hsign : splitSign text = (negative, rest)) (n : Int) :
    strtoll text = some ⟨n, false, []⟩ ↔
      ∃ m, NaturalText rest m ∧ n = signed negative m ∧ llongMin ≤ n ∧ n ≤ llongMax := by
  unfold strtoll
  rw [hspace, hsign]
  dsimp only
  rw [convertSigned_iff]
  constructor
  · rintro ⟨hne, hdigits, hvalue, hrange⟩
    exact ⟨_, natural_of_splitBase rfl hne hdigits, hvalue, hrange⟩
  · rintro ⟨m, hm, hvalue, hrange⟩
    obtain ⟨base, digits, hsplit, hne, hdigits, rfl⟩ := splitBase_natural hm
    rw [hsplit]
    exact ⟨hne, hdigits, hvalue, hrange⟩

/-- **Read are the texts that denote an integer, as far as it fits into a `long long`.** -/
theorem safeStrtoll_iff (text : List UInt8) (n : Int) :
    safeStrtoll text = some n ↔ IntegerText text n ∧ llongMin ≤ n ∧ n ≤ llongMax := by
  cases text with
  | nil =>
      refine ⟨fun h => (nomatch h), fun ⟨h, _⟩ => ?_⟩
      cases h with
      | plain hnatural =>
          obtain ⟨c, cs, hcs, -⟩ := hnatural.head
          cases hcs
  | cons c cs =>
      rw [safeStrtoll_eq_some_iff]
      constructor
      · rintro ⟨hspace, hconv⟩
        have hdrop : (c :: cs).dropWhile isSpace = c :: cs := List.dropWhile_cons_of_neg (by simp [hspace])
        by_cases hminus : c = 0x2D
        · subst hminus
          obtain ⟨m, hm, rfl, hrange⟩ := (strtoll_iff hdrop rfl n).mp hconv
          exact ⟨IntegerText.minus hm, hrange⟩
        by_cases hplus : c = 0x2B
        · subst hplus
          obtain ⟨m, hm, rfl, hrange⟩ := (strtoll_iff hdrop rfl n).mp hconv
          exact ⟨IntegerText.plus hm, hrange⟩
        · have hsign : splitSign (c :: cs) = (false, c :: cs) := by
            rw [splitSign, if_neg hminus, if_neg hplus]
          obtain ⟨m, hm, rfl, hrange⟩ := (strtoll_iff hdrop hsign n).mp hconv
          exact ⟨IntegerText.plain hm, hrange⟩
      · rintro ⟨h, hrange⟩
        cases h with
        | plain h =>
            obtain ⟨d, ds, heq, hd⟩ := h.head
            obtain ⟨rfl, rfl⟩ := List.cons.inj heq
            obtain ⟨hspace, hminus, hplus, -⟩ := digit_plain hd
            have hsign : splitSign (c :: cs) = (false, c :: cs) := by
              rw [splitSign, if_neg hminus, if_neg hplus]
            have hdrop : (c :: cs).dropWhile isSpace = c :: cs := List.dropWhile_cons_of_neg (by simp [hspace])
            exact ⟨hspace, (strtoll_iff hdrop hsign _).mpr ⟨_, h, rfl, hrange⟩⟩
        | plus h =>
            refine ⟨by decide, (strtoll_iff ?_ rfl _).mpr ⟨_, h, rfl, hrange⟩⟩
            exact List.dropWhile_cons_of_neg (by decide)
        | minus h =>
            refine ⟨by decide, (strtoll_iff ?_ rfl _).mpr ⟨_, h, rfl, hrange⟩⟩
            exact List.dropWhile_cons_of_neg (by decide)

/-! ## 5. Plain decimal numbers -/

theorem naturalText_decimal (n : Nat) : NaturalText (decimal n) n := by
  by_cases hn : n = 0
  · subst hn
    exact NaturalText.octal (List.forall_mem_nil _)
  · obtain ⟨d, cs, hd, hd0, hcs⟩ := decimal_eq_cons hn
    have hdigits : ∀ c ∈ decimal n, isDigitOf 10 c = true := fun c hc => isDigitOf_of_mem_decimal hc
    have hvalue : numeralValue 10 (decimal n) = n := foldl_decimal n
    rw [hcs] at hdigits hvalue ⊢
    have hfirst : digitByte d ≠ 0x30 := by
      intro h
      exact hd0 (Option.some.inj (by rw [← digitValue_digitByte hd, h]; rfl))
    have htext := NaturalText.decimal hfirst hdigits
    rwa [hvalue] at htext

theorem decimal_digit {c : UInt8} (h : isDigitOf 10 c = true) :
    digitByte ((digitValue c).getD 0) = c ∧ (digitValue c).getD 0 < 10 ∧ ((digitValue c).getD 0 = 0 → c = 0x30) := by
  have hall : ∀ n : Fin 256, isDigitOf 10 (UInt8.ofNat n.val) = true →
      digitByte ((digitValue (UInt8.ofNat n.val)).getD 0) = UInt8.ofNat n.val ∧
        (digitValue (UInt8.ofNat n.val)).getD 0 < 10 ∧
        ((digitValue (UInt8.ofNat n.val)).getD 0 = 0 → UInt8.ofNat n.val = 0x30) := by
    decide +kernel
  have hc := hall ⟨c.toNat, c.toNat_lt⟩
  rw [UInt8.ofNat_toNat] at hc
  exact hc h

theorem numeralValue_eq_ofDigits (cs : List UInt8) :
    numeralValue 10 cs = Nat.ofDigits 10 (cs.map fun c => (digitValue c).getD 0).reverse := by
  rw [Nat.ofDigits_eq_foldr, List.foldr_reverse, List.foldl_map, numeralValue]
  refine List.foldl_ext _ _ 0 fun v c _ => ?_
  show v * 10 + _ = ((digitValue c).getD 0 : Nat) + 10 * v
  omega

/-- **Digits without a superfluous zero are the decimal representation of their number.** -/
theorem decimal_numeralValue {c : UInt8} {cs : List UInt8} (hc : c ≠ 0x30)
    (hdigits : ∀ d ∈ c :: cs, isDigitOf 10 d = true) : decimal (numeralValue 10 (c :: cs)) = c :: cs := by
  let values := (c :: cs).map fun c => (digitValue c).getD 0
  have hbound : ∀ v ∈ values.reverse, v < 10 := by
    intro v hv
    obtain ⟨d, hd, rfl⟩ := List.mem_map.mp (List.mem_reverse.mp hv)
    exact (decimal_digit (hdigits d hd)).2.1
  have hlead : (digitValue c).getD 0 ≠ 0 := fun h => hc ((decimal_digit (hdigits c List.mem_cons_self)).2.2 h)
  have hlast : ∀ h : values.reverse ≠ [], values.reverse.getLast h ≠ 0 := by
    intro h
    rw [List.getLast_reverse]
    exact hlead
  have hds := Nat.digits_ofDigits 10 (by decide) values.reverse hbound hlast
  have hvalue : numeralValue 10 (c :: cs) = Nat.ofDigits 10 values.reverse := numeralValue_eq_ofDigits (c :: cs)
  have hne : numeralValue 10 (c :: cs) ≠ 0 := by
    intro h0
    rw [← hvalue, h0, Nat.digits_zero] at hds
    exact absurd (congrArg List.length hds) (by simp [values])
  rw [decimal, if_neg hne, hvalue, hds, List.reverse_reverse, List.map_map]
  have hmap := List.map_congr_left fun d hd => (decimal_digit (hdigits d hd)).1
  rw [List.map_id'] at hmap
  exact hmap

/-- A natural number whose text has no superfluous zero is written in decimal digits. -/
theorem NaturalText.eq_decimal {c : UInt8} {cs : List UInt8} {n : Nat} (h : NaturalText (c :: cs) n)
    (hzero : c = 0x30 → cs = []) : c :: cs = Text.decimal n := by
  cases h with
  | decimal hc hdigits => exact (decimal_numeralValue hc hdigits).symm
  | octal hdigits =>
      rw [hzero rfl]
      rfl
  | hex hx hcs hdigits => cases hzero rfl

end Anjay.Text
