/-
  File:      Anjay/Lib/Grid.lean
  Subject:   Rounding to the nearest point of a grid, ties to the even code, and the grid of a binary format.

  * `Grid.le_nearest`, `Grid.nearest_le`: rounding never crosses a point of the grid.
  * `floatValue_strictMono`, `two_mul_floatValue`: the magnitudes of a binary floating point format, in units of the
    smallest one.
-/
import Mathlib.Order.Monotone.Basic
import Mathlib.Algebra.Order.Ring.Nat
import Mathlib.Algebra.Ring.Nat
import Mathlib.Tactic.Ring

namespace Anjay.Lib

/-! ## 1. Search -/

/-- The greatest number below `k + 2 ^ bits` with `p`, where `p` holds up to some number and `k` has it. -/
def search (p : Nat → Bool) : Nat → Nat → Nat
  | 0, k => k
  | bits + 1, k => if p (k + 2 ^ bits) then search p bits (k + 2 ^ bits) else search p bits k

theorem search_spec {p : Nat → Bool} (hp : ∀ {i j}, i ≤ j → p j = true → p i = true) :
    ∀ (bits : Nat) {k : Nat}, p k = true →
      p (search p bits k) = true ∧ ∀ j < k + 2 ^ bits, p j = true → j ≤ search p bits k
  | 0, k, hk => ⟨hk, fun j hj _ => by rw [Nat.pow_zero] at hj; exact Nat.le_of_lt_succ hj⟩
  | bits + 1, k, hk => by
      rw [search]
      split
      next hmid =>
        obtain ⟨hfound, hmax⟩ := search_spec hp bits hmid
        refine ⟨hfound, fun j hj hpj => hmax j ?_ hpj⟩
        rw [Nat.pow_succ] at hj
        omega
      next hmid =>
        obtain ⟨hfound, hmax⟩ := search_spec hp bits hk
        refine ⟨hfound, fun j _ hpj => hmax j (not_le.mp fun hle => hmid (hp hle hpj)) hpj⟩

/-! ## 2. Rounding -/

/-- Points by their codes; `top` is the code of the greatest one, which stands for everything beyond. -/
structure Grid where
  value : Nat → Nat
  value_zero : value 0 = 0
  strictMono : StrictMono value
  bits : Nat
  top : Nat
  top_lt : top < 2 ^ bits

namespace Grid

variable (g : Grid)

/-- The greatest point that is not above `n`. -/
def below (n : Nat) : Nat := search (fun k => decide (k ≤ g.top) && decide (g.value k ≤ n)) g.bits 0

/-- The nearest point, of two that are equally near the one with the even code. -/
def nearest (n : Nat) : Nat :=
  let k := g.below n
  if k = g.top then k
  else if 2 * n < g.value k + g.value (k + 1) then k
  else if g.value k + g.value (k + 1) < 2 * n then k + 1
  else if k % 2 = 0 then k
  else k + 1

variable {g}

theorem below_spec (n : Nat) : g.below n ≤ g.top ∧ g.value (g.below n) ≤ n ∧
    ∀ j ≤ g.top, g.value j ≤ n → j ≤ g.below n := by
  have hp : ∀ {i j}, i ≤ j → (decide (j ≤ g.top) && decide (g.value j ≤ n)) = true →
      (decide (i ≤ g.top) && decide (g.value i ≤ n)) = true := by
    intro i j hij hj
    rw [Bool.and_eq_true, decide_eq_true_eq, decide_eq_true_eq] at hj ⊢
    exact ⟨hij.trans hj.1, (g.strictMono.monotone hij).trans hj.2⟩
  have hzero : (decide (0 ≤ g.top) && decide (g.value 0 ≤ n)) = true := by
    rw [Bool.and_eq_true, decide_eq_true_eq, decide_eq_true_eq, g.value_zero]
    exact ⟨Nat.zero_le _, Nat.zero_le _⟩
  obtain ⟨hfound, hmax⟩ := search_spec hp g.bits hzero
  rw [Bool.and_eq_true, decide_eq_true_eq, decide_eq_true_eq] at hfound
  refine ⟨hfound.1, hfound.2, fun j hj hle => hmax j ?_ ?_⟩
  · rw [Nat.zero_add]
    exact hj.trans_lt g.top_lt
  · rw [Bool.and_eq_true, decide_eq_true_eq, decide_eq_true_eq]
    exact ⟨hj, hle⟩

theorem below_le_nearest (n : Nat) : g.below n ≤ g.nearest n := by
  unfold nearest
  dsimp only
  split
  · exact Nat.le_refl _
  split
  · exact Nat.le_refl _
  split
  · exact Nat.le_succ _
  split
  · exact Nat.le_refl _
  · exact Nat.le_succ _

/-- **Rounding does not go below a point of the grid.** -/
theorem le_nearest {j n : Nat} (hj : j ≤ g.top) (h : g.value j ≤ n) : j ≤ g.nearest n :=
  ((below_spec n).2.2 j hj h).trans (below_le_nearest n)

/-- **Rounding does not go above a point of the grid.** -/
theorem nearest_le {j n : Nat} (h : n ≤ g.value j) : g.nearest n ≤ j := by
  obtain ⟨-, hle, -⟩ := g.below_spec n
  have hbelow : g.below n ≤ j := g.strictMono.le_iff_le.mp (hle.trans h)
  rcases Nat.eq_or_lt_of_le hbelow with heq | hlt
  · -- then `n` is the point itself
    have hn : n = g.value (g.below n) := le_antisymm (heq ▸ h) hle
    have hnext : g.value (g.below n) < g.value (g.below n + 1) := g.strictMono (Nat.lt_succ_self _)
    unfold nearest
    dsimp only
    split
    · exact hbelow
    · rw [if_pos (by omega)]
      exact hbelow
  · unfold nearest
    dsimp only
    split
    · exact hbelow
    split
    · exact hbelow
    split
    · exact hlt
    split
    · exact hbelow
    · exact hlt

theorem nearest_value {j : Nat} (hj : j ≤ g.top) : g.nearest (g.value j) = j :=
  le_antisymm (nearest_le (Nat.le_refl _)) (le_nearest hj (Nat.le_refl _))

theorem nearest_le_top (n : Nat) : g.nearest n ≤ g.top := by
  obtain ⟨htop, -, -⟩ := g.below_spec n
  unfold nearest
  dsimp only
  split
  · exact htop
  next hne =>
  have hlt : g.below n < g.top := Nat.lt_of_le_of_ne htop hne
  split
  · exact htop
  split
  · exact hlt
  split
  · exact htop
  · exact hlt

/-- A point of the grid stays, and one beyond it becomes the top. -/
theorem nearest_value_eq_min (j : Nat) : g.nearest (g.value j) = min j g.top := by
  rcases Nat.le_total j g.top with hj | hj
  · rw [min_eq_left hj]
    exact nearest_value hj
  · rw [min_eq_right hj]
    exact le_antisymm (nearest_le_top _) (le_nearest (Nat.le_refl _) (g.strictMono.monotone hj))

end Grid

/-! ## 3. Binary formats -/

/-- The magnitude with this code, in units of the smallest one that is not 0: `p` bits of the code are the mantissa,
    the others the exponent. -/
def floatValue (p k : Nat) : Nat := if k / 2 ^ p = 0 then k % 2 ^ p else (2 ^ p + k % 2 ^ p) * 2 ^ (k / 2 ^ p - 1)

theorem floatValue_sub {p m : Nat} (hm : m < 2 ^ p) : floatValue p m = m := by
  rw [floatValue, if_pos (Nat.div_eq_of_lt hm), Nat.mod_eq_of_lt hm]

theorem floatValue_norm {p e m : Nat} (hm : m < 2 ^ p) : floatValue p ((e + 1) * 2 ^ p + m) = (2 ^ p + m) * 2 ^ e := by
  have hpos : 0 < 2 ^ p := Nat.two_pow_pos p
  have hdiv : ((e + 1) * 2 ^ p + m) / 2 ^ p = e + 1 := by
    rw [Nat.mul_comm, Nat.mul_add_div hpos, Nat.div_eq_of_lt hm, Nat.add_zero]
  have hmod : ((e + 1) * 2 ^ p + m) % 2 ^ p = m := by
    rw [Nat.mul_comm, Nat.mul_add_mod, Nat.mod_eq_of_lt hm]
  rw [floatValue, hdiv, if_neg (Nat.succ_ne_zero e), hmod, Nat.add_sub_cancel]

/-- A code is that of a number below the normal ones, or that of a normal one. -/
theorem code_cases (p k : Nat) : k < 2 ^ p ∨ ∃ e m, m < 2 ^ p ∧ k = (e + 1) * 2 ^ p + m := by
  rcases Nat.lt_or_ge k (2 ^ p) with hlt | hge
  · exact Or.inl hlt
  · refine Or.inr ⟨k / 2 ^ p - 1, k % 2 ^ p, Nat.mod_lt _ (Nat.two_pow_pos p), ?_⟩
    have hdiv : 1 ≤ k / 2 ^ p := (Nat.one_le_div_iff (Nat.two_pow_pos p)).mpr hge
    rw [Nat.sub_add_cancel hdiv, Nat.mul_comm, Nat.div_add_mod]

/-- **Greater codes stand for greater magnitudes.** -/
theorem floatValue_strictMono (p : Nat) : StrictMono (floatValue p) := by
  refine strictMono_nat_of_lt_succ fun k => ?_
  rcases code_cases p k with hlt | ⟨e, m, hm, rfl⟩
  · rw [floatValue_sub hlt]
    rcases Nat.lt_or_ge (k + 1) (2 ^ p) with hnext | hnext
    · rw [floatValue_sub hnext]
      exact Nat.lt_succ_self k
    · have hk : k + 1 = (0 + 1) * 2 ^ p + 0 := by omega
      rw [hk, floatValue_norm (Nat.two_pow_pos p), Nat.pow_zero, Nat.mul_one]
      omega
  · rw [floatValue_norm hm]
    rcases Nat.lt_or_ge (m + 1) (2 ^ p) with hnext | hnext
    · rw [Nat.add_assoc, floatValue_norm hnext]
      exact Nat.mul_lt_mul_of_pos_right (by omega) (Nat.two_pow_pos e)
    · have hk : (e + 1) * 2 ^ p + m + 1 = (e + 1 + 1) * 2 ^ p + 0 := by
        rw [Nat.add_mul (e + 1)]
        omega
      have hdouble : (2 ^ p + 0) * 2 ^ (e + 1) = (2 ^ p + 2 ^ p) * 2 ^ e := by ring
      rw [hk, floatValue_norm (Nat.two_pow_pos p), hdouble]
      exact Nat.mul_lt_mul_of_pos_right (by omega) (Nat.two_pow_pos e)

/-- Twice a magnitude is one as well. -/
theorem two_mul_floatValue (p k : Nat) :
    2 * floatValue p k = floatValue p (if k < 2 ^ p then 2 * k else k + 2 ^ p) := by
  rcases code_cases p k with hlt | ⟨e, m, hm, rfl⟩
  · rw [if_pos hlt, floatValue_sub hlt]
    rcases Nat.lt_or_ge (2 * k) (2 ^ p) with hnext | hnext
    · rw [floatValue_sub hnext]
    · have hk : 2 * k = (0 + 1) * 2 ^ p + (2 * k - 2 ^ p) := by omega
      rw [hk, floatValue_norm (by omega), Nat.pow_zero, Nat.mul_one]
      omega
  · have hge : ¬(e + 1) * 2 ^ p + m < 2 ^ p := by
      rw [Nat.add_mul]
      omega
    have hk : (e + 1) * 2 ^ p + m + 2 ^ p = (e + 1 + 1) * 2 ^ p + m := by ring
    rw [if_neg hge, hk, floatValue_norm hm, floatValue_norm hm]
    ring

end Anjay.Lib
