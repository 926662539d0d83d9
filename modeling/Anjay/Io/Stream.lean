/-
  File:      Anjay/Io/Stream.lean
  Subject:   The byte streams (`avs_stream_t`) the input and output contexts work on.

  * An input stream is the bytes not read yet. `streamRead` is `avs_stream_read`: it hands out at
    most the size of the caller's buffer and says whether the stream is finished afterwards.
  * An output stream keeps the bytes written so far; a static output buffer has a capacity.
  * `writeCode_ok`: where the code turns a failed write into -1, a result of 0 says that all was written.
-/
import Mathlib.Data.List.Basic

namespace Anjay

/-! ## 1. Reading -/

/-- `avs_stream_read` with a buffer of `bufSize` bytes: the bytes read, whether the stream is
    finished, and what is left of it. -/
def streamRead (bufSize : Nat) (s : List UInt8) : List UInt8 × Bool × List UInt8 :=
  (s.take bufSize, (s.drop bufSize).isEmpty, s.drop bufSize)

/-- `avs_stream_read_reliably` for exactly `n` bytes; `none` is `AVS_EOF`, after which nothing is
    left in the stream. -/
def readReliably (n : Nat) (s : List UInt8) : Option (List UInt8 × List UInt8) :=
  if n ≤ s.length then some (s.take n, s.drop n) else none

theorem readReliably_append {n : Nat} {front rest : List UInt8} (h : front.length = n) :
    readReliably n (front ++ rest) = some (front, rest) := by
  subst h
  simp [readReliably]

theorem readReliably_some {n : Nat} {s front rest : List UInt8}
    (h : readReliably n s = some (front, rest)) : s = front ++ rest ∧ front.length = n := by
  unfold readReliably at h
  split at h
  · rename_i hn
    simp only [Option.some.injEq, Prod.mk.injEq] at h
    obtain ⟨rfl, rfl⟩ := h
    exact ⟨(List.take_append_drop n s).symm, by simp [hn]⟩
  · cases h

/-! ## 2. Writing -/

/-- An output stream: everything written so far, and the room of a static buffer
    (`none` for a stream that grows). -/
structure OutStream where
  written : List UInt8
  capacity : Option Nat
  deriving DecidableEq, Repr

namespace OutStream

/-- How many of `n` more bytes the stream takes. -/
def room (s : OutStream) (n : Nat) : Nat :=
  match s.capacity with
  | none => n
  | some c => min n (c - s.written.length)

/-- `avs_stream_write`: what does not fit is dropped and the write fails. -/
def write (s : OutStream) (data : List UInt8) : Bool × OutStream :=
  (s.room data.length = data.length, { s with written := s.written ++ data.take (s.room data.length) })

/-- The stream takes `n` more bytes. -/
def Fits (s : OutStream) (n : Nat) : Prop :=
  ∀ c, s.capacity = some c → s.written.length + n ≤ c

theorem fits_of_unbounded {s : OutStream} (h : s.capacity = none) (n : Nat) : s.Fits n := by
  intro c hc
  rw [h] at hc
  cases hc

theorem fits_mono {s : OutStream} {m n : Nat} (h : s.Fits n) (hmn : m ≤ n) : s.Fits m := by
  intro c hc
  have := h c hc
  omega

/-- The stream after `data` went through whole. -/
def push (s : OutStream) (data : List UInt8) : OutStream := { s with written := s.written ++ data }

@[simp] theorem push_nil (s : OutStream) : s.push [] = s := by
  simp [push]

@[simp] theorem push_push (s : OutStream) (a b : List UInt8) : (s.push a).push b = s.push (a ++ b) := by
  simp [push]

@[simp] theorem push_written (s : OutStream) (a : List UInt8) :
    (s.push a).written = s.written ++ a := rfl

@[simp] theorem push_capacity (s : OutStream) (a : List UInt8) :
    (s.push a).capacity = s.capacity := rfl

theorem room_of_fits {s : OutStream} {n : Nat} (h : s.Fits n) : s.room n = n := by
  unfold room
  split
  · rfl
  · rename_i c hc
    have := h c hc
    omega

theorem write_of_fits {s : OutStream} {data : List UInt8} (h : s.Fits data.length) :
    s.write data = (true, s.push data) := by
  simp [write, push, room_of_fits h]

/-- **A write that succeeds appended all of its data.** -/
theorem write_ok {s s' : OutStream} {data : List UInt8} (h : s.write data = (true, s')) :
    s' = s.push data := by
  simp only [write, Prod.mk.injEq, decide_eq_true_eq] at h
  obtain ⟨hroom, rfl⟩ := h
  rw [hroom, List.take_length, push]

/-- Whatever a write does, it only extends the stream. -/
theorem write_prefix (s : OutStream) (data : List UInt8) :
    s.written <+: (s.write data).2.written :=
  List.prefix_append _ _

@[simp] theorem write_capacity (s : OutStream) (data : List UInt8) :
    (s.write data).2.capacity = s.capacity := rfl

theorem fits_push {s : OutStream} {data : List UInt8} {n : Nat} (h : s.Fits (data.length + n)) :
    (s.push data).Fits n := by
  intro c hc
  have := h c hc
  simp only [push_written, List.length_append]
  omega

/-! ## 3. Return codes -/

/-- `avs_is_ok(avs_stream_write(…)) ? 0 : -1`. -/
def writeCode (s : OutStream) (data : List UInt8) : Int × OutStream :=
  (if (s.write data).1 then 0 else -1, (s.write data).2)

theorem writeCode_ok {s : OutStream} {data : List UInt8} (h : (s.writeCode data).1 = 0) :
    (s.writeCode data).2 = s.push data := by
  unfold writeCode at h ⊢
  cases hwritten : (s.write data).1 with
  | true => exact write_ok (Prod.ext hwritten rfl)
  | false =>
      rw [hwritten] at h
      cases h

theorem writeCode_cases (s : OutStream) (data : List UInt8) :
    (s.writeCode data).1 = 0 ∨ (s.writeCode data).1 = -1 := by
  unfold writeCode
  cases (s.write data).1 with
  | true => exact Or.inl rfl
  | false => exact Or.inr rfl

theorem writeCode_unbounded {s : OutStream} (h : s.capacity = none) (data : List UInt8) :
    s.writeCode data = (0, s.push data) := by
  rw [writeCode, write_of_fits (fits_of_unbounded h _)]
  rfl

end OutStream

end Anjay
