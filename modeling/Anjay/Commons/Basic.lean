/-
  File:      Anjay/Commons/Basic.lean
  Subject:   The few types the other modules pass around: error values, durations, floating point
             numbers as their bit patterns, how a download ended, and strings.
-/
import Mathlib.Order.Basic
import Mathlib.Algebra.Ring.Nat

namespace Anjay

/-! ## 1. Error values -/

/-- `avs_error_t`. -/
structure AvsError where
  category : Nat
  code : Nat
  deriving DecidableEq, Repr

/-- The constants of `avs_errno_t` that are used, with their values. -/
inductive Errno
  | EADDRNOTAVAIL
  | EBADF
  | EBADMSG
  | EINVAL
  | ENODEV
  | ENOMEM
  | EOVERFLOW
  | EPROTO
  | EPROTONOSUPPORT
  | ETIMEDOUT
  | UNKNOWN_ERROR
  deriving DecidableEq, Repr

def Errno.toNat : Errno → Nat
  | EADDRNOTAVAIL => 4
  | EBADF => 8
  | EBADMSG => 9
  | EINVAL => 24
  | ENODEV => 38
  | ENOMEM => 42
  | EOVERFLOW => 55
  | EPROTO => 58
  | EPROTONOSUPPORT => 59
  | ETIMEDOUT => 65
  | UNKNOWN_ERROR => 65535

namespace AvsError

/-- `AVS_ERRNO_CATEGORY`. -/
def errnoCategory : Nat := 37766

/-- `AVS_OK`. -/
def ok : AvsError := ⟨0, 0⟩

/-- `avs_errno`. -/
def errno (e : Errno) : AvsError := ⟨errnoCategory, e.toNat⟩

/-- `AVS_EOF`. -/
def eof : AvsError := ⟨363, 1⟩

/-- `avs_is_ok`: the category plays no part. -/
def isOk (e : AvsError) : Bool := e.code == 0

@[simp] theorem isOk_ok : isOk ok = true := rfl

@[simp] theorem isOk_errno (e : Errno) : isOk (errno e) = false := by
  cases e <;> rfl

end AvsError

/-! ## 2. Durations -/

/-- `avs_time_duration_t`. -/
structure Duration where
  seconds : Int
  nanoseconds : Int
  deriving DecidableEq, Repr

namespace Duration

/-- `avs_time_duration_valid`. -/
def valid (t : Duration) : Bool := decide (0 ≤ t.nanoseconds) && decide (t.nanoseconds < 1000000000)

/-- `avs_time_duration_less`. -/
def less (a b : Duration) : Bool :=
  a.valid && b.valid && (decide (a.seconds < b.seconds) ||
    (decide (a.seconds = b.seconds) && decide (a.nanoseconds < b.nanoseconds)))

end Duration

/-! ## 3. Floating point numbers -/

/-- A `double`, as the 64 bits of its IEEE 754 encoding. -/
abbrev Double := BitVec 64

namespace Double

/-- The encoding without the sign bit. -/
def magnitude (x : Double) : Nat := x.toNat % 2 ^ 63

/-- The exponent is all ones and the mantissa is not zero. -/
def isNaN (x : Double) : Bool := decide (0x7FF0000000000000 < magnitude x)

/-- The encodings that are no NaN, in the order of the numbers; the two zeros have one place. -/
def toInt (x : Double) : Int := if x.msb then -(magnitude x : Int) else magnitude x

/-- `x < y` of the C language. -/
def lt (x y : Double) : Bool := !isNaN x && !isNaN y && decide (toInt x < toInt y)

def one : Double := 0x3FF0000000000000

/-- The NaN that stands for an attribute that is not set. -/
def nan : Double := 0x7FF8000000000000

end Double

/-! ## 4. The end of a download -/

/-- `anjay_download_status_t`. -/
inductive DownloadStatus
  | finished
  | failed (error : AvsError)
  | invalidResponse (statusCode : Nat)
  | expired
  | aborted
  deriving DecidableEq, Repr

/-! ## 5. Strings -/

/-- What a `char *` points to: the bytes before the null byte. -/
structure CString where
  bytes : List UInt8
  noNul : 0 ∉ bytes
  deriving DecidableEq, Repr

theorem nul_notMem_takeWhile (bytes : List UInt8) : 0 ∉ bytes.takeWhile fun b => decide (b ≠ 0) := by
  intro h
  have hall := List.all_takeWhile (p := fun b : UInt8 => decide (b ≠ 0)) (l := bytes)
  exact of_decide_eq_true (List.all_eq_true.mp hall 0 h) rfl

/-- The string a buffer starts with. -/
def CString.ofBytes (bytes : List UInt8) : CString := ⟨_, nul_notMem_takeWhile bytes⟩

/-- The bytes of a string with the null byte that ends it. -/
def CString.terminated (s : CString) : List UInt8 := s.bytes ++ [0]

theorem CString.ofBytes_append_nul (s : CString) (bytes : List UInt8) : .ofBytes (s.bytes ++ 0 :: bytes) = s := by
  obtain ⟨l, hl⟩ := s
  have htake : (l ++ 0 :: bytes).takeWhile (fun b => decide (b ≠ 0)) = l := by
    have hpos : ∀ b ∈ l, decide (b ≠ 0) = true := by
      intro b hb
      refine decide_eq_true fun h => hl ?_
      rw [← h]
      exact hb
    rw [List.takeWhile_append_of_pos hpos, List.takeWhile_cons_of_neg (by decide), List.append_nil]
  unfold ofBytes
  congr

end Anjay
