/-
  File:      Anjay/Io/Input.lean
  Subject:   Input contexts through their vtable (`anjay_io_core.c`).

  * `InputVtable`: the readers that an input context has for bytes and strings.
  * `getBytes`: `anjay_get_bytes`, which asks until the message or the buffer ends.
  * `tlv_getBytes`: with the TLV readers it is the loop that the TLV context has.
-/
import Anjay.Io.Tlv.In

namespace Anjay.Io

open Tlv (SomeBytes)

/-! ## 1. Readers -/

/-- `anjay_input_ctx_vtable_t`, as far as bytes and strings are concerned, over the state of a context. The reader of
    strings gives its code and the bytes in front of the NUL it writes behind them. -/
structure InputVtable (σ : Type) where
  someBytes : σ → Nat → SomeBytes × σ
  string : σ → Nat → (Int × List UInt8) × σ

/-- TLV_IN_VTABLE. -/
def tlvInVtable : InputVtable Tlv.TlvIn := ⟨Tlv.getSomeBytes, Tlv.getString⟩

variable {σ : Type}

/-- The loop of `anjay_get_bytes`; `acc` is what stands in the buffer, `left` the room behind it. A pass that goes on
    has read something, so that the fuel is never used up. -/
def getBytesLoop (vtable : InputVtable σ) : Nat → σ → Nat → List UInt8 → SomeBytes × σ
  | 0, ctx, _, acc => (⟨errInternal, acc, false⟩, ctx)
  | fuel + 1, ctx, left, acc =>
      match vtable.someBytes ctx left with
      | (r, ctx) =>
          if r.code ≠ 0 ∨ r.finished ∨ left - r.bytes.length = 0 then (⟨r.code, acc ++ r.bytes, r.finished⟩, ctx)
          else getBytesLoop vtable fuel ctx (left - r.bytes.length) (acc ++ r.bytes)

/-- `anjay_get_bytes`. -/
def getBytes (vtable : InputVtable σ) (ctx : σ) (bufSize : Nat) : SomeBytes × σ :=
  getBytesLoop vtable (bufSize + 1) ctx bufSize []

/-- `anjay_get_string`. -/
def getString (vtable : InputVtable σ) (ctx : σ) (bufSize : Nat) : (Int × List UInt8) × σ :=
  if bufSize = 0 then ((bufferTooShort, []), ctx) else vtable.string ctx bufSize

/-! ## 2. Calls that need one pass -/

/-- A reader that fails, or ends the message, or fills the buffer, is asked once. -/
theorem getBytes_once (vtable : InputVtable σ) {ctx ctx' : σ} {bufSize : Nat} {r : SomeBytes}
    (h : vtable.someBytes ctx bufSize = (r, ctx'))
    (hdone : r.code ≠ 0 ∨ r.finished = true ∨ bufSize ≤ r.bytes.length) : getBytes vtable ctx bufSize = (r, ctx') := by
  have hcond : r.code ≠ 0 ∨ r.finished = true ∨ bufSize - r.bytes.length = 0 :=
    hdone.imp id (Or.imp id Nat.sub_eq_zero_of_le)
  unfold getBytes getBytesLoop
  rw [h]
  dsimp only
  rw [if_pos hcond, List.nil_append]

theorem tlv_getBytesLoop (fuel : Nat) (ctx : Tlv.TlvIn) (left : Nat) (acc : List UInt8) :
    getBytesLoop tlvInVtable fuel ctx left acc = Tlv.getBytesLoop fuel ctx left acc := by
  induction fuel generalizing ctx left acc with
  | zero => rfl
  | succ fuel ih =>
      have hreader : tlvInVtable.someBytes ctx left = Tlv.getSomeBytes ctx left := rfl
      unfold getBytesLoop Tlv.getBytesLoop
      rw [hreader]
      cases Tlv.getSomeBytes ctx left with
      | mk r ctx₁ =>
          dsimp only
          rw [ih]

/-- **With the TLV readers it is the loop that the TLV context has.** -/
theorem tlv_getBytes (ctx : Tlv.TlvIn) (bufSize : Nat) : getBytes tlvInVtable ctx bufSize = Tlv.getBytes ctx bufSize :=
  tlv_getBytesLoop _ _ _ _

end Anjay.Io
