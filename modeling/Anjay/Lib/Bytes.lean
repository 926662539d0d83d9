/-
  File:      Anjay/Lib/Bytes.lean
  Subject:   Big-endian numbers and two's complement over byte lists.

  * `foldl_beNat`: the shift-and-add loop that reads big-endian bytes computes `beNat`.
  * `beNat_beBytes`, `beBytes_beNat`: a number and its `k` big-endian bytes determine each other.
  * `signExtend_beBytes`: reading the `k` big-endian bytes of an integer that fits `k` bytes,
    starting from the sign of the first byte, gives the integer back.
-/
import Mathlib.Tactic.Linarith
import Mathlib.Tactic.Positivity
import Mathlib.Tactic.Ring

namespace Anjay.Lib

/-! ## 1. Big-endian natural numbers -/

/-- The number a list of bytes spells, most significant byte first. -/
def beNat : List UInt8 → Nat
  | [] => 0
  | b :: bs => b.toNat * 256 ^ bs.length + beNat bs

/-- The `k` low bytes of `n`, most significant byte first (`UInt8.ofNat` drops the higher ones). -/
def beBytes : Nat → Nat → List UInt8
  | 0, _ => []
  | k + 1, n => UInt8.ofNat (n / 256 ^ k) :: beBytes k n

@[simp] theorem beNat_nil : beNat [] = 0 := rfl

@[simp] theorem beBytes_length : ∀ k n : Nat, (beBytes k n).length = k
  | 0, _ => rfl
  | k + 1, n => by rw [beBytes, List.length_cons, beBytes_length k n]

theorem foldl_beNat : ∀ (bs : List UInt8) (acc : Nat),
    bs.foldl (fun acc b => acc * 256 + b.toNat) acc = acc * 256 ^ bs.length + beNat bs
  | [], acc => by simp
  | b :: bs, acc => by
      rw [List.foldl_cons, foldl_beNat bs, beNat, List.length_cons]
      ring

theorem beNat_append : ∀ xs ys : List UInt8,
    beNat (xs ++ ys) = beNat xs * 256 ^ ys.length + beNat ys
  | [], ys => by simp
  | x :: xs, ys => by
      rw [List.cons_append, beNat, beNat, beNat_append xs ys, List.length_append]
      ring

theorem beNat_lt : ∀ bs : List UInt8, beNat bs < 256 ^ bs.length
  | [] => by simp
  | b :: bs => by
      have hb : b.toNat + 1 ≤ 256 := b.toNat_lt
      have ih := beNat_lt bs
      calc beNat (b :: bs) < b.toNat * 256 ^ bs.length + 256 ^ bs.length := by
            rw [beNat]; omega
        _ = (b.toNat + 1) * 256 ^ bs.length := by ring
        _ ≤ 256 * 256 ^ bs.length := Nat.mul_le_mul_right _ hb
        _ = 256 ^ (b :: bs).length := by rw [List.length_cons]; ring

theorem beNat_beBytes : ∀ k n : Nat, beNat (beBytes k n) = n % 256 ^ k
  | 0, n => by simp [beBytes, Nat.mod_one]
  | k + 1, n => by
      have hb : (UInt8.ofNat (n / 256 ^ k)).toNat = n / 256 ^ k % 256 := by simp
      rw [beBytes, beNat, beNat_beBytes k n, hb, beBytes_length, pow_succ, Nat.mod_mul,
        Nat.mul_comm, Nat.add_comm]

theorem beNat_beBytes_of_lt {k n : Nat} (h : n < 256 ^ k) : beNat (beBytes k n) = n := by
  rw [beNat_beBytes, Nat.mod_eq_of_lt h]

/-- The low `k` bytes do not depend on what stands above them. -/
theorem beBytes_add_mul : ∀ (k n m : Nat), beBytes k (m * 256 ^ k + n) = beBytes k n
  | 0, _, _ => rfl
  | k + 1, n, m => by
      have hsplit : m * 256 ^ (k + 1) + n = (m * 256) * 256 ^ k + n := by ring
      have hpos : 0 < 256 ^ k := by positivity
      have hhead : UInt8.ofNat ((m * 256 * 256 ^ k + n) / 256 ^ k) = UInt8.ofNat (n / 256 ^ k) := by
        rw [Nat.add_comm, Nat.add_mul_div_right _ _ hpos]
        apply UInt8.toNat_inj.mp
        simp
      rw [hsplit, beBytes, beBytes, hhead, beBytes_add_mul k n (m * 256)]

theorem beBytes_beNat : ∀ bs : List UInt8, beBytes bs.length (beNat bs) = bs
  | [] => rfl
  | b :: bs => by
      have hpos : 0 < 256 ^ bs.length := by positivity
      have hhead : (b.toNat * 256 ^ bs.length + beNat bs) / 256 ^ bs.length = b.toNat := by
        rw [Nat.add_comm, Nat.add_mul_div_right _ _ hpos, Nat.div_eq_of_lt (beNat_lt bs),
          Nat.zero_add]
      rw [List.length_cons, beBytes, beNat, hhead, beBytes_add_mul, beBytes_beNat bs]
      simp

theorem beBytes_split (k n : Nat) : ∀ j, beBytes (j + k) n = beBytes j (n / 256 ^ k) ++ beBytes k n
  | 0 => by rw [Nat.zero_add, beBytes, List.nil_append]
  | j + 1 => by
      rw [Nat.add_right_comm, beBytes, beBytes_split k n j, beBytes, Nat.div_div_eq_div_mul,
        ← pow_add, Nat.add_comm k j, List.cons_append]

/-! ## 2. Two's complement -/

/-- The initial accumulator of a two's complement read: `-1` under a set sign bit, else `0`. -/
def signOf : List UInt8 → Int
  | [] => 0
  | b :: _ => if 128 ≤ b.toNat then -1 else 0

theorem foldl_beInt : ∀ (bs : List UInt8) (acc : Int),
    bs.foldl (fun acc b => acc * 256 + (b.toNat : Int)) acc
      = acc * 256 ^ bs.length + (beNat bs : Int)
  | [], acc => by simp
  | b :: bs, acc => by
      rw [List.foldl_cons, foldl_beInt bs, beNat, List.length_cons]
      push_cast
      ring

/-- The sign bit of the first byte says whether the number is in the upper half of its range. -/
theorem signOf_eq {bs : List UInt8} (hne : bs ≠ []) :
    signOf bs = if 256 ^ bs.length ≤ 2 * beNat bs then -1 else 0 := by
  cases bs with
  | nil => exact absurd rfl hne
  | cons b bs =>
      have hlt := beNat_lt bs
      have hpow : 256 ^ (b :: bs).length = 256 * 256 ^ bs.length := by
        rw [List.length_cons]; ring
      rw [hpow, signOf, beNat]
      generalize 256 ^ bs.length = P at hlt
      by_cases h : 128 ≤ b.toNat
      · have h2 : 256 * P ≤ 2 * (b.toNat * P + beNat bs) := by nlinarith
        rw [if_pos h, if_pos h2]
      · have hle : b.toNat * P ≤ 127 * P := Nat.mul_le_mul_right P (by omega)
        rw [if_neg h, if_neg (by omega)]

/-- **Sign extension inverts the `k`-byte encoding of an integer that fits `k` bytes.** -/
theorem signExtend_beBytes {k : Nat} (hk : 0 < k) {v : Int}
    (hlo : -(256 ^ k : Int) ≤ 2 * v) (hhi : 2 * v < 256 ^ k) :
    (beBytes k (v % 256 ^ k).toNat).foldl (fun acc b => acc * 256 + (b.toNat : Int))
      (signOf (beBytes k (v % 256 ^ k).toNat)) = v := by
  have hP : (0 : Int) < 256 ^ k := by positivity
  have h0 : 0 ≤ v % (256 : Int) ^ k := Int.emod_nonneg _ hP.ne'
  have hn : ((v % (256 : Int) ^ k).toNat : Int) = v % 256 ^ k := Int.toNat_of_nonneg h0
  have hlt : (v % (256 : Int) ^ k).toNat < 256 ^ k := by
    have h1 : v % (256 : Int) ^ k < 256 ^ k := Int.emod_lt_of_pos _ hP
    rw [← hn] at h1
    exact_mod_cast h1
  have hne : beBytes k (v % 256 ^ k).toNat ≠ [] := by
    intro h
    have hlen := congrArg List.length h
    rw [beBytes_length, List.length_nil] at hlen
    omega
  have hcast : 256 ^ k ≤ 2 * (v % (256 : Int) ^ k).toNat ↔ (256 : Int) ^ k ≤ 2 * (v % 256 ^ k) := by
    rw [← hn]
    exact_mod_cast Iff.rfl
  rw [foldl_beInt, signOf_eq hne, beBytes_length, beNat_beBytes_of_lt hlt, hn]
  simp only [hcast]
  by_cases hv : 0 ≤ v
  · have hmod : v % (256 : Int) ^ k = v := Int.emod_eq_of_lt hv (by omega)
    rw [hmod, if_neg (by omega)]
    ring
  · have hmod : v % (256 : Int) ^ k = v + 256 ^ k := by
      rw [← Int.add_emod_right v ((256 : Int) ^ k)]
      exact Int.emod_eq_of_lt (by omega) (by omega)
    rw [hmod, if_pos (by omega)]
    ring

end Anjay.Lib
