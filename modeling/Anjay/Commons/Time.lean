/-
  File:      Anjay/Commons/Time.lean
  Subject:   The calculations with durations and with points in time, which are durations since an epoch.

  * `diff_invalid`, `less_invalid`: an invalid time stays invalid, and is later than none.
-/
import Anjay.Commons.Basic

namespace Anjay.Duration

/-- `AVS_TIME_DURATION_INVALID`, and `AVS_TIME_REAL_INVALID`. -/
def invalid : Duration := ⟨0, -1⟩

/-- `AVS_TIME_DURATION_ZERO`. -/
def zero : Duration := ⟨0, 0⟩

def int64Min : Int := -9223372036854775808

def int64Max : Int := 9223372036854775807

/-- `NS_IN_S`. -/
def nsInS : Int := 1000000000

/-- `avs_time_duration_equal`. -/
def equal (a b : Duration) : Bool :=
  a.valid && b.valid && decide (a.seconds = b.seconds) && decide (a.nanoseconds = b.nanoseconds)

/-- `safe_add_int64_t`. -/
def safeAdd (a b : Int) : Option Int := if int64Min ≤ a + b ∧ a + b ≤ int64Max then some (a + b) else none

/-- `normalize`. -/
def normalize (t : Duration) : Option Duration :=
  if t.nanoseconds < 0 then
    if t.seconds = int64Min then none else some ⟨t.seconds - 1, t.nanoseconds + nsInS⟩
  else if nsInS ≤ t.nanoseconds then
    if t.seconds = int64Max then none else some ⟨t.seconds + 1, t.nanoseconds - nsInS⟩
  else some t

/-- `avs_time_duration_add`. -/
def add (a b : Duration) : Duration :=
  if a.valid && b.valid then
    ((safeAdd a.seconds b.seconds).bind fun seconds => normalize ⟨seconds, a.nanoseconds + b.nanoseconds⟩).getD invalid
  else invalid

/-- `negate`; what cannot be normalized is left as it is. -/
def negate (t : Duration) : Duration :=
  let negated := if t.seconds < 0 then ⟨-(t.seconds + 1), -(t.nanoseconds - nsInS)⟩ else ⟨-t.seconds, -t.nanoseconds⟩
  (normalize negated).getD negated

/-- `avs_time_duration_diff`. -/
def diff (minuend subtrahend : Duration) : Duration :=
  if minuend.valid && subtrahend.valid then
    ((safeAdd minuend.seconds subtrahend.negate.seconds).bind fun seconds =>
      normalize ⟨seconds, minuend.nanoseconds + subtrahend.negate.nanoseconds⟩).getD invalid
  else invalid

/-- `avs_time_duration_from_scalar` with `AVS_TIME_S`. -/
def fromSeconds (value : Int) : Duration := ⟨value, 0⟩

theorem diff_invalid (t : Duration) : invalid.diff t = invalid := rfl

theorem less_invalid (t : Duration) : t.less invalid = false := by
  unfold less
  rw [show invalid.valid = false from rfl, Bool.and_false, Bool.false_and]

end Anjay.Duration
