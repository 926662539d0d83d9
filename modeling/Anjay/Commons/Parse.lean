/-
  File:      Anjay/Commons/Parse.lean
  Subject:   The text functions of the C library and of `avs_commons` the header fields of HTTP are read
             with. A text is the bytes in front of its terminating NUL.

  * `strtoull_decimal`: the digits of a number are read as that number.
-/
import Mathlib.Data.Nat.Digits.Lemmas

namespace Anjay.Text

/-- `isspace`. -/
def isSpace (c : UInt8) : Bool := c == 0x20 || (decide (9 ≤ c.toNat) && decide (c.toNat ≤ 13))

/-- The value of a digit, in any base. -/
def digitValue (c : UInt8) : Option Nat :=
  let n := c.toNat
  if 0x30 ≤ n ∧ n ≤ 0x39 then some (n - 0x30)
  else if 0x61 ≤ n ∧ n ≤ 0x7A then some (n - 0x61 + 10)
  else if 0x41 ≤ n ∧ n ≤ 0x5A then some (n - 0x41 + 10)
  else none

def isDigitOf (base : Nat) (c : UInt8) : Bool :=
  match digitValue c with
  | some d => decide (d < base)
  | none => false

/-- `ULLONG_MAX`. -/
def ullongMax : Nat := 2 ^ 64 - 1

/-- What a call of `strtoull` gives: the value, whether it sets `ERANGE`, and `*endptr`; nothing is
    given when there is nothing to convert. -/
structure Converted where
  value : Nat
  erange : Bool
  rest : List UInt8
  deriving DecidableEq, Repr

/-- The digits of a number in the given base. -/
def convertDigits (base : Nat) (negative : Bool) (text : List UInt8) : Option Converted :=
  let digits := text.takeWhile (isDigitOf base)
  if digits = [] then none
  else
    let value := digits.foldl (fun v c => v * base + (digitValue c).getD 0) 0
    let rest := text.dropWhile (isDigitOf base)
    if ullongMax < value then some ⟨ullongMax, true, rest⟩
    else some ⟨if negative then (2 ^ 64 - value) % 2 ^ 64 else value, false, rest⟩

/-- The sign of a number, and what is behind it. -/
def splitSign : List UInt8 → Bool × List UInt8
  | [] => (false, [])
  | c :: rest => if c = 0x2D then (true, rest) else if c = 0x2B then (false, rest) else (false, c :: rest)

/-- The base that the prefix of a number tells, and what is behind the prefix. -/
def splitBase : List UInt8 → Nat × List UInt8
  | c :: x :: d :: rest =>
      if c ≠ 0x30 then (10, c :: x :: d :: rest)
      else if (x = 0x78 ∨ x = 0x58) ∧ isDigitOf 16 d = true then (16, d :: rest)
      else (8, c :: x :: d :: rest)
  | c :: rest => if c ≠ 0x30 then (10, c :: rest) else (8, c :: rest)
  | [] => (10, [])

/-- `strtoull`; the base 0 stands for the base the prefix of the number tells. -/
def strtoull (text : List UInt8) (base : Nat) : Option Converted :=
  let (negative, text) := splitSign (text.dropWhile isSpace)
  let (base, text) := if base = 0 then splitBase text else (base, text)
  convertDigits base negative text

/-- `_anjay_safe_strtoull`. -/
def safeStrtoull (text : List UInt8) : Option Nat :=
  match text with
  | [] => none
  | c :: _ =>
      if isSpace c then none
      else
        match strtoull text 0 with
        | some converted => if converted.erange || !converted.rest.isEmpty then none else some converted.value
        | none => none

/-- `tolower`. -/
def toLower (c : UInt8) : UInt8 := if 0x41 ≤ c.toNat ∧ c.toNat ≤ 0x5A then c + 0x20 else c

/-- `avs_strcasecmp(a, b) == 0`. -/
def caseEqual (a b : List UInt8) : Bool := a.map toLower == b.map toLower

/-- `avs_match_token` with the delimiters `AVS_SPACES`: what is behind the token and one delimiter. -/
def matchToken (text token : List UInt8) : Option (List UInt8) :=
  let text := text.dropWhile isSpace
  if caseEqual (text.take token.length) token then
    match text.drop token.length with
    | [] => some []
    | c :: rest => if isSpace c then some rest else none
  else none

/-! ## Numbers as text -/

def digitByte (d : Nat) : UInt8 := UInt8.ofNat (0x30 + d)

/-- A number in decimal digits. -/
def decimal (n : Nat) : List UInt8 := if n = 0 then [0x30] else ((Nat.digits 10 n).reverse).map digitByte

theorem digitValue_digitByte {d : Nat} (hd : d < 10) : digitValue (digitByte d) = some d := by
  have hn : (digitByte d).toNat = 0x30 + d := by
    rw [digitByte, UInt8.toNat_ofNat']
    omega
  rw [digitValue, hn, if_pos (by omega), Nat.add_sub_cancel_left]

theorem digitByte_not_space : ∀ d < 10,
    isSpace (digitByte d) = false ∧ digitByte d ≠ 0x2D ∧ digitByte d ≠ 0x2B := by decide

theorem mem_decimal {n : Nat} {c : UInt8} (hc : c ∈ decimal n) : ∃ d < 10, c = digitByte d := by
  rw [decimal] at hc
  split at hc
  · exact ⟨0, by decide, List.mem_singleton.mp hc⟩
  · obtain ⟨d, hd, rfl⟩ := List.mem_map.mp hc
    exact ⟨d, Nat.digits_lt_base (by decide) (List.mem_reverse.mp hd), rfl⟩

theorem isDigitOf_of_mem_decimal {n : Nat} {c : UInt8} (hc : c ∈ decimal n) : isDigitOf 10 c = true := by
  obtain ⟨d, hd, rfl⟩ := mem_decimal hc
  rw [isDigitOf, digitValue_digitByte hd]
  exact decide_eq_true hd

theorem decimal_ne_nil (n : Nat) : decimal n ≠ [] := by
  rw [decimal]
  split
  · exact List.cons_ne_nil _ _
  · next hn =>
    intro h
    exact hn (Nat.digits_eq_nil_iff_eq_zero.mp (List.reverse_eq_nil_iff.mp (List.map_eq_nil_iff.mp h)))

/-- The digits of a number denote it. -/
theorem foldl_decimal (n : Nat) :
    (decimal n).foldl (fun v c => v * 10 + (digitValue c).getD 0) 0 = n := by
  rw [decimal]
  split
  · next hn => rw [hn]; decide
  · rw [List.foldl_map, List.foldl_reverse]
    have hdigits : ∀ ds : List Nat, (∀ d ∈ ds, d < 10) →
        ds.foldr (fun d v => v * 10 + (digitValue (digitByte d)).getD 0) 0 = Nat.ofDigits 10 ds := by
      intro ds hds
      induction ds with
      | nil => rfl
      | cons d ds ih =>
          obtain ⟨hd, hds⟩ := List.forall_mem_cons.mp hds
          rw [List.foldr_cons, ih hds, digitValue_digitByte hd, Nat.ofDigits_cons, Option.getD_some]
          omega
    rw [hdigits _ fun d hd => Nat.digits_lt_base (by decide) hd, Nat.ofDigits_digits]

theorem convertDigits_decimal {n : Nat} (hn : n ≤ ullongMax) (rest : List UInt8)
    (hrest : ∀ c ∈ rest.head?, isDigitOf 10 c = false) :
    convertDigits 10 false (decimal n ++ rest) = some ⟨n, false, rest⟩ := by
  have hnone : rest.takeWhile (isDigitOf 10) = [] ∧ rest.dropWhile (isDigitOf 10) = rest := by
    cases rest with
    | nil => exact ⟨rfl, rfl⟩
    | cons c cs =>
        have hc := hrest c rfl
        exact ⟨by simp [hc], by simp [hc]⟩
  have htake : (decimal n ++ rest).takeWhile (isDigitOf 10) = decimal n := by
    rw [List.takeWhile_append_of_pos fun c hc => isDigitOf_of_mem_decimal hc, hnone.1, List.append_nil]
  have hdrop : (decimal n ++ rest).dropWhile (isDigitOf 10) = rest := by
    rw [List.dropWhile_append_of_pos fun c hc => isDigitOf_of_mem_decimal hc, hnone.2]
  rw [convertDigits, htake, hdrop]
  simp only [decimal_ne_nil, if_false, foldl_decimal]
  rw [if_neg (Nat.not_lt.mpr hn)]
  rfl

/-- **A number in decimal digits is read as that number.** -/
theorem strtoull_decimal {n : Nat} (hn : n ≤ ullongMax) (rest : List UInt8)
    (hrest : ∀ c ∈ rest.head?, isDigitOf 10 c = false) :
    strtoull (decimal n ++ rest) 10 = some ⟨n, false, rest⟩ := by
  have hconv := convertDigits_decimal hn rest hrest
  obtain ⟨c, cs, hcs⟩ := List.exists_cons_of_ne_nil (decimal_ne_nil n)
  obtain ⟨d, hd, rfl⟩ := mem_decimal (n := n) (c := c) (by rw [hcs]; exact List.mem_cons_self)
  rw [hcs, List.cons_append] at hconv ⊢
  obtain ⟨hspace, hminus, hplus⟩ := digitByte_not_space d hd
  rw [strtoull, List.dropWhile_cons_of_neg (by simp [hspace]), splitSign, if_neg hminus, if_neg hplus]
  exact hconv

/-- The first digit of a number that is not 0. -/
theorem decimal_eq_cons {n : Nat} (hn : n ≠ 0) :
    ∃ d cs, d < 10 ∧ d ≠ 0 ∧ decimal n = digitByte d :: cs := by
  have hne : Nat.digits 10 n ≠ [] := Nat.digits_ne_nil_iff_ne_zero.mpr hn
  have hlast := Nat.getLast_digit_ne_zero 10 hn
  have hlt := Nat.digits_lt_base (m := n) (by decide : 1 < 10) (List.getLast_mem hne)
  refine ⟨(Nat.digits 10 n).getLast hne, ((Nat.digits 10 n).dropLast.reverse).map digitByte, hlt, hlast, ?_⟩
  rw [decimal, if_neg hn]
  conv_lhs => rw [← List.dropLast_append_getLast hne]
  rw [List.reverse_append]
  rfl

theorem safeStrtoull_decimal {n : Nat} (hn : n ≠ 0) (hmax : n ≤ ullongMax) :
    safeStrtoull (decimal n) = some n := by
  have hconv := convertDigits_decimal hmax [] (fun c hc => by cases hc)
  obtain ⟨d, cs, hd, hd0, hcs⟩ := decimal_eq_cons hn
  obtain ⟨hspace, hminus, hplus⟩ := digitByte_not_space d hd
  rw [List.append_nil, hcs] at hconv
  have hzero : digitByte d ≠ 0x30 := by
    intro h
    exact hd0 (Option.some.inj (by rw [← digitValue_digitByte hd, h]; rfl))
  have hbase : splitBase (digitByte d :: cs) = (10, digitByte d :: cs) := by
    rw [splitBase.eq_def]
    split
    · next h => cases h; rw [if_pos hzero]
    · next h => cases h; rw [if_pos hzero]
    · next h => cases h
  rw [hcs, safeStrtoull]
  simp only [hspace, strtoull, List.dropWhile_cons_of_neg (by simp [hspace] : ¬isSpace (digitByte d) = true),
    splitSign, hminus, hplus, if_false, if_true, hbase, hconv]
  rfl

end Anjay.Text
