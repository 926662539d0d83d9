/-
  File:      Anjay/Commons/DoubleArith.lean
  Subject:   Sums of `double` values, rounded to nearest, and the numbers that they stand for.

  * `Double.add`, `Double.twice`: the operations of the C language that the client uses.
  * `Double.exact`: the number, an infinity being one.
  * `Double.toInt_le_round`, `Double.exact_lt_of_sum_lt`: a rounded sum that is less than a value is so before
    rounding.
-/
import Anjay.Commons.Basic
import Anjay.Lib.Grid
import Mathlib.Data.EReal.Operations

namespace Anjay

open Lib

namespace Double

/-! ## 1. Encodings -/

/-- The encoding of an infinity without the sign bit. -/
def infinityCode : Nat := 0x7FF0000000000000

def isInf (x : Double) : Bool := decide (magnitude x = infinityCode)

theorem floatValue_zero : floatValue 52 0 = 0 := by decide

theorem infinityCode_lt : infinityCode < 2 ^ 63 := by decide

/-- The magnitudes, in units of the smallest one. -/
def grid : Grid := ⟨floatValue 52, floatValue_zero, floatValue_strictMono 52, 63, infinityCode, infinityCode_lt⟩

/-- The value of a finite number in units of the smallest positive one, which is `2 ^ -1074`. -/
def scaled (x : Double) : Int := if x.msb then -(floatValue 52 (magnitude x) : Int) else floatValue 52 (magnitude x)

/-- The encoding with this sign. -/
def ofParts (negative : Bool) (code : Nat) : Double := BitVec.ofNat 64 (code + if negative then 2 ^ 63 else 0)

/-! ## 2. Arithmetic -/

/-- The number of these units, rounded to nearest, ties to even. -/
def round (s : Int) : Double := ofParts (decide (s < 0)) (grid.nearest s.natAbs)

/-- `x + y`. -/
def add (x y : Double) : Double :=
  if isNaN x || isNaN y then nan
  else if isInf x && isInf y then if x.msb = y.msb then x else nan
  else if isInf x then x
  else if isInf y then y
  else if scaled x + scaled y = 0 then ofParts (x.msb && y.msb) 0
  else round (scaled x + scaled y)

/-- `2 * x`. -/
def twice (x : Double) : Double :=
  if isNaN x then nan else if isInf x || decide (scaled x = 0) then x else round (2 * scaled x)

/-- `x >= y`. -/
def ge (x y : Double) : Bool := !isNaN x && !isNaN y && decide (toInt y ≤ toInt x)

def zero : Double := 0

-- 0.1 + 2 * 0.2 is 0.5, and 2 ^ 1023 doubled is infinite
example : add 0x3FB999999999999A (twice 0x3FC999999999999A) = 0x3FE0000000000000 ∧
    twice 0x7FE0000000000000 = 0x7FF0000000000000 := by decide +kernel

/-! ## 3. The numbers -/

/-- **The number that a value stands for.** -/
noncomputable def exact (x : Double) : EReal :=
  if isInf x then if x.msb then ⊥ else ⊤ else (((scaled x : ℝ) / 2 ^ 1074 : ℝ) : EReal)

theorem exact_zero : exact zero = 0 := by
  have hfin : isInf zero = false := by decide
  have hscaled : scaled zero = 0 := by decide
  rw [exact, hfin, if_neg Bool.false_ne_true, hscaled, Int.cast_zero, zero_div]
  rfl

theorem exact_nonneg {x : Double} (h : 0 ≤ toInt x) : 0 ≤ exact x := by
  have hscaled : 0 ≤ scaled x := by
    unfold toInt at h
    unfold scaled
    split at h
    next hmsb =>
      have hzero : magnitude x = 0 := by omega
      rw [if_pos hmsb, hzero, floatValue_zero]
      exact le_refl 0
    next hmsb =>
      rw [if_neg hmsb]
      omega
  unfold exact
  split
  next hinf =>
    split
    next hmsb =>
      have hmag : magnitude x = infinityCode := of_decide_eq_true hinf
      rw [toInt, if_pos hmsb, hmag] at h
      exact absurd h (by decide)
    · exact le_top
  · exact EReal.coe_nonneg.mpr (div_nonneg (Int.cast_nonneg hscaled) (pow_nonneg two_pos.le _))

/-! ## 4. Rounding -/

theorem ofParts_toNat {negative : Bool} {code : Nat} (h : code < 2 ^ 63) :
    (ofParts negative code).toNat = code + if negative then 2 ^ 63 else 0 := by
  rw [ofParts, BitVec.toNat_ofNat]
  refine Nat.mod_eq_of_lt ?_
  cases negative with
  | true =>
      rw [if_pos rfl]
      omega
  | false =>
      rw [if_neg Bool.false_ne_true]
      omega

theorem magnitude_ofParts {negative : Bool} {code : Nat} (h : code < 2 ^ 63) : magnitude (ofParts negative code) = code := by
  rw [magnitude, ofParts_toNat h]
  cases negative with
  | true => rw [if_pos rfl, Nat.add_mod_right, Nat.mod_eq_of_lt h]
  | false => rw [if_neg Bool.false_ne_true, Nat.add_zero, Nat.mod_eq_of_lt h]

theorem msb_ofParts {negative : Bool} {code : Nat} (h : code < 2 ^ 63) : (ofParts negative code).msb = negative := by
  rw [BitVec.msb_eq_decide, ofParts_toNat h]
  cases negative with
  | true =>
      rw [if_pos rfl]
      exact decide_eq_true (by omega)
  | false =>
      rw [if_neg Bool.false_ne_true]
      exact decide_eq_false (by omega)

theorem nearest_lt (n : Nat) : grid.nearest n < 2 ^ 63 := Nat.lt_of_le_of_lt (Grid.nearest_le_top n) infinityCode_lt

theorem toInt_ofParts {negative : Bool} {code : Nat} (h : code < 2 ^ 63) :
    toInt (ofParts negative code) = if negative then -(code : Int) else code := by
  rw [toInt, msb_ofParts h, magnitude_ofParts h]

theorem toInt_round (s : Int) :
    toInt (round s) = if s < 0 then -(grid.nearest s.natAbs : Int) else grid.nearest s.natAbs := by
  rw [round, toInt_ofParts (nearest_lt _)]
  simp only [decide_eq_true_eq]

theorem isNaN_ofParts {negative : Bool} {code : Nat} (h : code ≤ infinityCode) : isNaN (ofParts negative code) = false := by
  rw [isNaN, magnitude_ofParts (Nat.lt_of_le_of_lt h infinityCode_lt)]
  exact decide_eq_false (Nat.not_lt.mpr h)

theorem isNaN_round (s : Int) : isNaN (round s) = false := isNaN_ofParts (Grid.nearest_le_top _)

theorem magnitude_le {x : Double} (h : isNaN x = false) : magnitude x ≤ infinityCode := not_lt.mp (of_decide_eq_false h)

/-- **A sum that is not below a value is not below it after rounding.** -/
theorem toInt_le_round {g : Double} (hg : isNaN g = false) {s : Int} (h : scaled g ≤ s) : toInt g ≤ toInt (round s) := by
  rw [toInt_round, toInt]
  unfold scaled at h
  by_cases hs : s < 0
  · rw [if_pos hs]
    cases hmsb : g.msb with
    | true =>
        rw [hmsb, if_pos rfl] at h
        rw [if_pos rfl]
        have hnear : grid.nearest s.natAbs ≤ magnitude g :=
          Grid.nearest_le (g := grid) (show s.natAbs ≤ floatValue 52 (magnitude g) by omega)
        omega
    | false =>
        rw [hmsb, if_neg Bool.false_ne_true] at h
        omega
  · rw [if_neg hs]
    cases hmsb : g.msb with
    | true =>
        rw [if_pos rfl]
        omega
    | false =>
        rw [hmsb, if_neg Bool.false_ne_true] at h
        rw [if_neg Bool.false_ne_true]
        have hnear : magnitude g ≤ grid.nearest s.natAbs :=
          Grid.le_nearest (g := grid) (magnitude_le hg) (show floatValue 52 (magnitude g) ≤ s.natAbs by omega)
        omega

/-! ## 5. Sums -/

/-- A value that is no NaN is an infinity or finite. -/
theorem cases_of_not_isNaN {x : Double} (h : isNaN x = false) :
    (isInf x = true ∧ x.msb = false ∧ exact x = ⊤ ∧ toInt x = infinityCode) ∨
    (isInf x = true ∧ x.msb = true ∧ exact x = ⊥ ∧ toInt x = -infinityCode) ∨
    (isInf x = false ∧ magnitude x < infinityCode ∧ exact x = (((scaled x : ℝ) / 2 ^ 1074 : ℝ) : EReal)) := by
  cases hinf : isInf x with
  | false =>
      have hne : magnitude x ≠ infinityCode := of_decide_eq_false hinf
      refine Or.inr (Or.inr ⟨rfl, lt_of_le_of_ne (magnitude_le h) hne, ?_⟩)
      rw [exact, hinf, if_neg Bool.false_ne_true]
  | true =>
      have hmag : magnitude x = infinityCode := of_decide_eq_true hinf
      cases hmsb : x.msb with
      | false =>
          refine Or.inl ⟨rfl, rfl, ?_, ?_⟩
          · rw [exact, hinf, if_pos rfl, hmsb, if_neg Bool.false_ne_true]
          · rw [toInt, hmsb, if_neg Bool.false_ne_true, hmag]
      | true =>
          refine Or.inr (Or.inl ⟨rfl, rfl, ?_, ?_⟩)
          · rw [exact, hinf, if_pos rfl, hmsb, if_pos rfl]
          · rw [toInt, hmsb, if_pos rfl, hmag]

theorem abs_toInt_le {x : Double} (h : isNaN x = false) : -(infinityCode : Int) ≤ toInt x ∧ toInt x ≤ infinityCode := by
  have hmag := magnitude_le h
  unfold toInt
  split <;> omega

theorem ge_eq_false {x y : Double} (hx : isNaN x = false) (hy : isNaN y = false) (h : ge x y = false) :
    toInt x < toInt y := by
  rw [ge, hx, hy] at h
  exact not_le.mp (of_decide_eq_false h)

theorem nearest_zero : grid.nearest 0 = 0 := by
  have hnear : grid.nearest (grid.value 0) = 0 := Grid.nearest_value (Nat.zero_le _)
  rwa [grid.value_zero] at hnear

/-- A sum that is not negative, doubled: its sign and, unless it is beyond the range, its value. -/
theorem twice_of_nonneg {s : Double} (hs : isNaN s = false) (hsign : 0 ≤ toInt s) :
    isNaN (twice s) = false ∧ 0 ≤ toInt (twice s) ∧
      (isInf (twice s) = false → isInf s = false ∧ scaled (twice s) = 2 * scaled s) := by
  rw [twice, hs, if_neg Bool.false_ne_true]
  by_cases hkeep : (isInf s || decide (scaled s = 0)) = true
  · rw [if_pos hkeep]
    refine ⟨hs, hsign, fun hfin => ⟨hfin, ?_⟩⟩
    rw [hfin, Bool.false_or] at hkeep
    rw [of_decide_eq_true hkeep]
    rfl
  · rw [if_neg hkeep]
    rw [Bool.not_eq_true, Bool.or_eq_false_iff] at hkeep
    have hne : scaled s ≠ 0 := of_decide_eq_false hkeep.2
    have hmsb : s.msb = false := by
      refine Bool.eq_false_iff.mpr fun hmsb => hne ?_
      rw [toInt, hmsb, if_pos rfl] at hsign
      have hzero : magnitude s = 0 := by omega
      rw [scaled, hmsb, if_pos rfl, hzero, floatValue_zero]
      rfl
    have hscaled : scaled s = floatValue 52 (magnitude s) := by rw [scaled, hmsb, if_neg Bool.false_ne_true]
    have hnonneg : ¬2 * scaled s < 0 := by omega
    -- what it doubles to is a magnitude, unless that is beyond the greatest one
    obtain ⟨j, hj⟩ : ∃ j, 2 * floatValue 52 (magnitude s) = floatValue 52 j := ⟨_, two_mul_floatValue _ _⟩
    have habs : (2 * scaled s).natAbs = floatValue 52 j := by omega
    have hnear : grid.nearest (2 * scaled s).natAbs = min j infinityCode := by
      rw [habs]
      exact Grid.nearest_value_eq_min (g := grid) j
    refine ⟨isNaN_round _, ?_, fun hfin => ⟨hkeep.1, ?_⟩⟩
    · rw [toInt_round, if_neg hnonneg]
      omega
    · have hmag : magnitude (round (2 * scaled s)) = min j infinityCode := by
        rw [round, magnitude_ofParts (nearest_lt _), hnear]
      have hlt : j < infinityCode := by
        have hinf : magnitude (round (2 * scaled s)) ≠ infinityCode := of_decide_eq_false hfin
        omega
      have hpos : (round (2 * scaled s)).msb = false := by
        rw [round, msb_ofParts (nearest_lt _)]
        exact decide_eq_false hnonneg
      rw [scaled, hpos, if_neg Bool.false_ne_true, hmag, min_eq_left (Nat.le_of_lt hlt), ← hj]
      omega

theorem add_of_finite {x y : Double} (hx : isNaN x = false ∧ isInf x = false) (hy : isNaN y = false ∧ isInf y = false) :
    isNaN (add x y) = false ∧ toInt (add x y) = toInt (round (scaled x + scaled y)) := by
  rw [add, hx.1, hy.1, hx.2, hy.2]
  simp only [Bool.or_self, Bool.and_self, if_neg Bool.false_ne_true]
  split
  next hzero =>
    rw [hzero, toInt_round, if_neg (Int.lt_irrefl 0), Int.natAbs_zero, nearest_zero, toInt_ofParts (by decide)]
    refine ⟨isNaN_ofParts (Nat.zero_le _), ?_⟩
    split <;> rfl
  · exact ⟨isNaN_round _, rfl⟩

theorem coe_add_two_mul (a b : ℝ) : (a : EReal) + 2 * (b : EReal) = ((a + 2 * b : ℝ) : EReal) := by
  have htwo : (2 : EReal) = ((2 : ℝ) : EReal) := rfl
  rw [htwo, ← EReal.coe_mul, ← EReal.coe_add]

theorem coe_add_two_mul_lt {a b c : Int} {u : ℝ} (hu : 0 < u) (h : a + 2 * b < c) :
    ((a / u : ℝ) : EReal) + 2 * ((b / u : ℝ) : EReal) < ((c / u : ℝ) : EReal) := by
  have hreal : (a : ℝ) / u + 2 * (b / u) < c / u := by
    rw [mul_div_assoc', ← add_div]
    exact (div_lt_div_iff_of_pos_right hu).mpr (by exact_mod_cast h)
  rw [coe_add_two_mul]
  exact EReal.coe_lt_coe_iff.mpr hreal

/-- **A rounded sum that is less than a value is so before rounding**, unless both the value and the first summand
    are minus infinity and the doubled one is beyond the range. -/
theorem exact_lt_of_sum_lt {x s g : Double} (hx : isNaN x = false) (hs : isNaN s = false) (hsign : 0 ≤ toInt s)
    (hg : isNaN g = false) (hsum : ge (add x (twice s)) g = false) :
    exact x + 2 * exact s < exact g ∨ (exact x = ⊥ ∧ exact g = ⊥ ∧ isInf (twice s) = true) := by
  obtain ⟨hnan, hpos, hfinite⟩ := twice_of_nonneg hs hsign
  have hgle := (abs_toInt_le hg).2
  have hmsb : isInf (twice s) = true → toInt (twice s) = infinityCode ∧ (twice s).msb = false := by
    intro hinf
    have hmag : magnitude (twice s) = infinityCode := of_decide_eq_true hinf
    cases hm : (twice s).msb with
    | false =>
        rw [toInt, hm, if_neg Bool.false_ne_true, hmag]
        exact ⟨rfl, rfl⟩
    | true =>
        rw [toInt, hm, if_pos rfl, hmag] at hpos
        exact absurd hpos (by decide)
  rcases cases_of_not_isNaN hx with ⟨hxinf, hxmsb, -, hxint⟩ | ⟨hxinf, hxmsb, hxbot, hxint⟩ | ⟨hxfin, hxmag, hxval⟩
  · -- plus infinity stays
    have hadd : add x (twice s) = x := by
      rw [add, hx, hnan, hxinf]
      cases hinf : isInf (twice s) with
      | false => rfl
      | true =>
          rw [hxmsb, (hmsb hinf).2]
          rfl
    rw [hadd] at hsum
    have hlt := ge_eq_false hx hg hsum
    omega
  · rcases eq_or_ne (exact g) ⊥ with hgbot | hgne
    · refine Or.inr ⟨hxbot, hgbot, Bool.not_eq_false _ |>.mp fun hfin => ?_⟩
      have hadd : add x (twice s) = x := by
        rw [add, hx, hnan, hxinf, hfin]
        rfl
      rw [hadd] at hsum
      have hlt := ge_eq_false hx hg hsum
      rcases cases_of_not_isNaN hg with ⟨-, -, htop, -⟩ | ⟨-, -, -, hgint⟩ | ⟨-, -, hval⟩
      · rw [htop] at hgbot
        exact absurd hgbot top_ne_bot
      · omega
      · rw [hval] at hgbot
        exact absurd hgbot (EReal.coe_ne_bot _)
    · refine Or.inl ?_
      rw [hxbot, EReal.bot_add]
      exact bot_lt_iff_ne_bot.mpr hgne
  · cases hinf : isInf (twice s) with
    | true =>
        have hadd : add x (twice s) = twice s := by
          rw [add, hx, hnan, hxfin, hinf]
          rfl
        rw [hadd] at hsum
        have hlt := ge_eq_false hnan hg hsum
        have htop := (hmsb hinf).1
        omega
    | false =>
        obtain ⟨hsfin, hdouble⟩ := hfinite hinf
        have hsval : exact s = (((scaled s : ℝ) / 2 ^ 1074 : ℝ) : EReal) := by
          rw [exact, hsfin, if_neg Bool.false_ne_true]
        obtain ⟨haddnan, haddint⟩ := add_of_finite ⟨hx, hxfin⟩ ⟨hnan, hinf⟩
        have hlt : scaled x + 2 * scaled s < scaled g := by
          refine not_le.mp fun hle => ?_
          rw [← hdouble] at hle
          have hge := toInt_le_round hg hle
          rw [← haddint] at hge
          exact absurd (ge_eq_false haddnan hg hsum) (not_lt.mpr hge)
        refine Or.inl ?_
        rcases cases_of_not_isNaN hg with ⟨-, -, hgval, -⟩ | ⟨-, -, -, hgint⟩ | ⟨-, -, hgval⟩
        · rw [hgval, hxval, hsval]
          rw [coe_add_two_mul]
          exact EReal.coe_lt_top _
        · have hltg := ge_eq_false haddnan hg hsum
          have hadd := (abs_toInt_le haddnan).1
          omega
        · rw [hgval, hxval, hsval]
          exact coe_add_two_mul_lt (pow_pos two_pos _) hlt

end Double

end Anjay
