/-
  File:      Anjay/Io/Text/Bytes.lean
  Subject:   Byte strings read from a plain-text payload in buffers of any sizes.

  * `loop_group`, `loop_nil`, `loop_short`: one pass of the loop of `text_get_some_bytes`.
  * `accepted`: what the passes make of a payload; `accepted_isSome_iff`: base64, but for groups the decoder leaves at
    a NUL.
  * `Before`: the state between two calls; `Before.getBytes`: what a call returns, and when it says that the message is
    finished.
  * `read_meets_iff`: **the calls return the decoded bytes, and the one with the last byte says so, unless it is
    served from the cache; a payload that is not base64 makes a call fail, unless what is wrong stands behind a NUL.**
-/
import Anjay.Io.Text.In

namespace Anjay.PlainText

open Lib Commons
open Tlv (SomeBytes)

/-! ## 1. One pass -/

/-- **The stream is at its end.** -/
theorem loop_nil (fuel : Nat) {ctx : TextIn} (hstream : ctx.stream = []) {bufSize : Nat} (hpos : 0 < bufSize)
    (fin : Bool) (acc : List UInt8) :
    getSomeBytesLoop (fuel + 1) ctx bufSize fin acc =
      (⟨0, acc, true⟩, { ctx with bytesCached := [], msgFinished := true }) := by
  obtain ⟨stream, mode, cached, finished⟩ := ctx
  obtain rfl : stream = [] := hstream
  have hempty : getSomeBytesLoop (fuel + 1) ⟨[], mode, cached, finished⟩ bufSize fin acc =
      someBytesEnd ⟨[], mode, [].drop bufSize, finished⟩ true (acc ++ [].take bufSize) := by
    rw [getSomeBytesLoop, if_neg (by omega)]
    rfl
  rw [hempty, List.take_nil, List.drop_nil, List.append_nil]
  rfl

/-- **Fewer than four characters are left.** -/
theorem loop_short (fuel : Nat) {ctx : TextIn} (hne : ctx.stream ≠ []) (hshort : ctx.stream.length < 4) {bufSize : Nat}
    (hpos : 0 < bufSize) (fin : Bool) (acc : List UInt8) :
    (getSomeBytesLoop (fuel + 1) ctx bufSize fin acc).1.code = errBadRequest := by
  have hread : streamRead 4 ctx.stream = (ctx.stream, true, []) := by
    unfold streamRead
    rw [List.take_of_length_le (by omega), List.drop_eq_nil_of_le (by omega)]
    rfl
  have hlength : ctx.stream.length % 4 ≠ 0 := by
    have := List.length_pos_iff.mpr hne
    omega
  rw [getSomeBytesLoop, if_neg (by omega), hread]
  dsimp only
  rw [if_pos hlength]

/-- What the context makes of four characters, with more behind them or not. -/
def groupRead (last : Bool) (p q r s : UInt8) : Option (List UInt8) :=
  if !last && s == Base64.pad then none else base64DecodeStrict 3 [p, q, r, s]

theorem streamRead_group (p q r s : UInt8) (rest : List UInt8) :
    streamRead 4 (p :: q :: r :: s :: rest) = ([p, q, r, s], rest.isEmpty, rest) := rfl

/-- **A group that cannot be read.** -/
theorem loop_group_none (fuel : Nat) {ctx : TextIn} {p q r s : UInt8} {rest : List UInt8}
    (hstream : ctx.stream = p :: q :: r :: s :: rest) (hgroup : groupRead rest.isEmpty p q r s = none) {bufSize : Nat}
    (hpos : 0 < bufSize) (fin : Bool) (acc : List UInt8) :
    (getSomeBytesLoop (fuel + 1) ctx bufSize fin acc).1.code = errBadRequest := by
  have hvalid : hasValidPadding [p, q, r, s] rest.isEmpty = !(s == Base64.pad && !rest.isEmpty) := rfl
  rw [getSomeBytesLoop, if_neg (by omega), hstream, streamRead_group]
  dsimp only
  rw [if_neg (by simp), hvalid]
  unfold groupRead at hgroup
  rw [Bool.and_comm, Bool.not_not]
  by_cases hpad : (!rest.isEmpty && s == Base64.pad) = true
  · rw [if_pos hpad]
  · rw [if_neg hpad] at hgroup ⊢
    rw [hgroup]

/-- **A group that is read**: the bytes go into the buffer, what has no room is kept. -/
theorem loop_group (fuel : Nat) {ctx : TextIn} {p q r s : UInt8} {rest decoded : List UInt8}
    (hstream : ctx.stream = p :: q :: r :: s :: rest) (hgroup : groupRead rest.isEmpty p q r s = some decoded)
    {bufSize : Nat} (hpos : 0 < bufSize) (fin : Bool) (acc : List UInt8) :
    getSomeBytesLoop (fuel + 1) ctx bufSize fin acc =
      if rest.isEmpty then
        someBytesEnd { ctx with stream := rest, bytesCached := decoded.drop bufSize } true (acc ++ decoded.take bufSize)
      else
        getSomeBytesLoop fuel { ctx with stream := rest, bytesCached := decoded.drop bufSize }
          (bufSize - decoded.length) false (acc ++ decoded.take bufSize) := by
  have hvalid : hasValidPadding [p, q, r, s] rest.isEmpty = !(s == Base64.pad && !rest.isEmpty) := rfl
  have hleft : bufSize - (decoded.take bufSize).length = bufSize - decoded.length := by
    rw [List.length_take]
    omega
  rw [getSomeBytesLoop, if_neg (by omega), hstream, streamRead_group]
  dsimp only
  rw [if_neg (by simp), hvalid, Bool.and_comm, Bool.not_not]
  unfold groupRead at hgroup
  by_cases hpad : (!rest.isEmpty && s == Base64.pad) = true
  · rw [if_pos hpad] at hgroup
    cases hgroup
  rw [if_neg hpad] at hgroup ⊢
  rw [hgroup]
  dsimp only
  unfold cacheFlush flushed
  dsimp only
  rw [hleft]

/-! ## 2. What is accepted -/

/-- What the passes make of a payload. -/
def accepted : List UInt8 → Option (List UInt8)
  | [] => some []
  | p :: q :: r :: s :: rest =>
      match groupRead rest.isEmpty p q r s, accepted rest with
      | some front, some back => some (front ++ back)
      | _, _ => none
  | _ => none

theorem length_groupValue {p q r s : UInt8} {bytes : List UInt8} (h : groupValue p q r s = some bytes) :
    1 ≤ bytes.length ∧ bytes.length ≤ 3 ∧ (s ≠ Base64.pad → bytes.length = 3) := by
  unfold groupValue Base64.decodePadded Base64.decodeGroup at h
  cases hp : Base64.valueOf p with
  | none =>
      rw [hp] at h
      split at h <;> cases h
  | some a =>
      cases hq : Base64.valueOf q with
      | none =>
          rw [hp, hq] at h
          split at h <;> cases h
      | some b =>
          rw [hp, hq] at h
          by_cases hs : s = Base64.pad
          · rw [if_pos hs] at h
            by_cases hr : r = Base64.pad
            · have hbytes : [UInt8.ofNat (a * 4 + b / 16)] = bytes := by
                rw [hr] at h
                exact Option.some.inj h
              rw [← hbytes]
              exact ⟨by simp, by simp, fun hne => absurd hs hne⟩
            · cases hc : Base64.valueOf r with
              | none =>
                  have hnone : none = some bytes := by
                    rw [hc] at h
                    exact (if_neg hr).symm.trans h
                  cases hnone
              | some c =>
                  have hbytes : [UInt8.ofNat (a * 4 + b / 16), UInt8.ofNat (b % 16 * 16 + c / 4)] = bytes := by
                    rw [hc] at h
                    exact Option.some.inj ((if_neg hr).symm.trans h)
                  rw [← hbytes]
                  exact ⟨by simp, by simp, fun hne => absurd hs hne⟩
          · rw [if_neg hs] at h
            cases hc : Base64.valueOf r with
            | none =>
                rw [hc] at h
                cases h
            | some c =>
                cases hd : Base64.valueOf s with
                | none =>
                    rw [hc, hd] at h
                    cases h
                | some d =>
                    rw [hc, hd] at h
                    rw [← Option.some.inj h]
                    exact ⟨by simp, by simp, fun _ => by simp⟩

theorem groupRead_cases (last : Bool) (p q r s : UInt8) :
    groupRead last p q r s =
      if !last && s == Base64.pad then none else if Skipped p q then some [] else groupValue p q r s := by
  unfold groupRead
  rw [decodeStrict_group]

theorem length_groupRead {last : Bool} {p q r s : UInt8} {bytes : List UInt8} (h : groupRead last p q r s = some bytes) :
    bytes.length ≤ 3 := by
  rw [groupRead_cases] at h
  split at h
  · cases h
  split at h
  · cases h
    exact Nat.zero_le _
  · exact (length_groupValue h).2.1

/-- A group of the notation is read as what it denotes. -/
theorem groupRead_of_value {last : Bool} {p q r s : UInt8} {bytes : List UInt8} (h : groupValue p q r s = some bytes)
    (hpad : last = false → s ≠ Base64.pad) : groupRead last p q r s = some bytes := by
  have hskip : Skipped p q = false := by
    unfold Skipped
    refine Bool.or_eq_false_iff.mpr ⟨beq_eq_false_iff_ne.mpr fun hp => ?_, Bool.and_eq_false_imp.mpr fun _ => ?_⟩
    · rw [hp, groupValue_none (Or.inl (valueOf_other 0).2.2.1)] at h
      cases h
    · refine beq_eq_false_iff_ne.mpr fun hq => ?_
      rw [hq, groupValue_none (Or.inr (valueOf_other 0).2.2.1)] at h
      cases h
  have hcond : (!last && s == Base64.pad) = false := by
    cases last with
    | true => rfl
    | false => exact beq_eq_false_iff_ne.mpr (hpad rfl)
  rw [groupRead_cases, hcond, hskip]
  exact h

/-- A text that denotes bytes, by its first group: it is the last one, or a whole one with more behind it. -/
theorem decode_cons {p q r s : UInt8} {rest bytes : List UInt8}
    (h : Base64.decode (p :: q :: r :: s :: rest) = some bytes) :
    ∃ front back, groupValue p q r s = some front ∧ Base64.decode rest = some back ∧ bytes = front ++ back ∧
      (rest ≠ [] → s ≠ Base64.pad ∧ front.length = 3) := by
  unfold Base64.decode at h
  unfold groupValue
  by_cases hs : s = Base64.pad
  · rw [if_pos hs] at h ⊢
    cases rest with
    | nil => exact ⟨bytes, [], h, rfl, (List.append_nil _).symm, fun hne => absurd rfl hne⟩
    | cons c cs => cases h
  · rw [if_neg hs] at h ⊢
    split at h
    · next front back hfront hback =>
      have hvalue : groupValue p q r s = some front := (if_neg hs).trans hfront
      exact ⟨front, back, hfront, hback, (Option.some.inj h).symm, fun _ => ⟨hs, (length_groupValue hvalue).2.2 hs⟩⟩
    · cases h

/-- What denotes bytes is read as them. -/
theorem accepted_of_decode : ∀ {payload bytes : List UInt8}, Base64.decode payload = some bytes →
    accepted payload = some bytes
  | [], _, h => h
  | [_], _, h => (nomatch h)
  | [_, _], _, h => (nomatch h)
  | [_, _, _], _, h => (nomatch h)
  | p :: q :: r :: s :: rest, bytes, h => by
      obtain ⟨front, back, hvalue, hback, rfl, hmore⟩ := decode_cons h
      have hpad : rest.isEmpty = false → s ≠ Base64.pad := fun hrest =>
        (hmore fun hnil => by rw [hnil] at hrest; cases hrest).1
      unfold accepted
      rw [groupRead_of_value hvalue hpad, accepted_of_decode hback]

theorem decode_ne_nil {payload bytes : List UInt8} (h : Base64.decode payload = some bytes) (hne : payload ≠ []) :
    bytes ≠ [] := by
  match payload, h, hne with
  | p :: q :: r :: s :: rest, h, _ =>
      obtain ⟨front, back, hvalue, -, rfl, -⟩ := decode_cons h
      intro hnil
      have hfront := (length_groupValue hvalue).1
      rw [(List.append_eq_nil_iff.mp hnil).1] at hfront
      cases hfront

/-! ## 3. A call -/

/-- **A payload that cannot be read to its end**: a call fails, or it fills the buffer and leaves less of such a payload.
    The fuel lasts. -/
theorem loop_none (fuel : Nat) : ∀ {ctx : TextIn} {bufSize : Nat} (fin : Bool) (acc : List UInt8),
    accepted ctx.stream = none → 0 < bufSize → ctx.stream.length + 2 ≤ fuel →
    (getSomeBytesLoop fuel ctx bufSize fin acc).1.code = errBadRequest ∨
      ∃ bytes ctx', getSomeBytesLoop fuel ctx bufSize fin acc = (⟨0, bytes, false⟩, ctx') ∧
        acc.length + bufSize ≤ bytes.length ∧ accepted ctx'.stream = none ∧
        ctx'.bytesCached.length + ctx'.stream.length < ctx.stream.length := by
  induction fuel with
  | zero => exact fun _ _ _ _ hfuel => absurd hfuel (by omega)
  | succ fuel ih =>
      intro ctx bufSize fin acc hnone hpos hfuel
      match hstream : ctx.stream with
      | [] =>
          rw [hstream] at hnone
          cases hnone
      | [_] | [_, _] | [_, _, _] =>
          exact Or.inl (loop_short fuel (by rw [hstream]; simp) (by rw [hstream]; simp) hpos fin acc)
      | p :: q :: r :: s :: rest =>
          cases hgroup : groupRead rest.isEmpty p q r s with
          | none => exact Or.inl (loop_group_none fuel hstream hgroup hpos fin acc)
          | some decoded =>
              have hrest : accepted rest = none := by
                rw [hstream, accepted, hgroup] at hnone
                cases hrest : accepted rest with
                | none => rfl
                | some back =>
                    rw [hrest] at hnone
                    cases hnone
              have hmore : rest.isEmpty = false := by
                cases rest with
                | nil => cases hrest
                | cons c cs => rfl
              have hthree := length_groupRead hgroup
              have hlength : ctx.stream.length = rest.length + 4 := by rw [hstream]; rfl
              rw [loop_group fuel hstream hgroup hpos fin acc, hmore]
              show (getSomeBytesLoop fuel _ _ _ _).1.code = _ ∨ ∃ bytes ctx', getSomeBytesLoop fuel _ _ _ _ = _ ∧ _
              by_cases hfull : bufSize ≤ decoded.length
              · -- the buffer is full
                refine Or.inr ⟨acc ++ decoded.take bufSize,
                  { ctx with stream := rest, bytesCached := decoded.drop bufSize, msgFinished := false }, ?_, ?_, hrest, ?_⟩
                · rw [Nat.sub_eq_zero_of_le hfull]
                  obtain ⟨fuel', rfl⟩ : ∃ k, fuel = k + 1 := ⟨fuel - 1, by omega⟩
                  rfl
                · rw [List.length_append, List.length_take]
                  omega
                · show (decoded.drop bufSize).length + rest.length < (p :: q :: r :: s :: rest).length
                  rw [List.length_drop]
                  simp only [List.length_cons]
                  omega
              · rcases @ih { ctx with stream := rest, bytesCached := decoded.drop bufSize } _ false
                  (acc ++ decoded.take bufSize) hrest (by omega : 0 < bufSize - decoded.length)
                  (by show rest.length + 2 ≤ fuel; omega) with hfail | ⟨bytes, ctx', hloop, hfilled, hnone', hless⟩
                · exact Or.inl hfail
                · refine Or.inr ⟨bytes, ctx', hloop, ?_, hnone', ?_⟩
                  · rw [List.length_append, List.length_take] at hfilled
                    omega
                  · have hless' : ctx'.bytesCached.length + ctx'.stream.length < rest.length := hless
                    simp only [List.length_cons]
                    omega

/-- **A payload that can be read to its end**: no call fails, and what is left can be read as well. -/
theorem loop_some (fuel : Nat) : ∀ {ctx : TextIn} {bufSize : Nat} (fin : Bool) (acc : List UInt8),
    (accepted ctx.stream).isSome = true → 0 < bufSize → ctx.stream.length + 2 ≤ fuel →
    ∃ r ctx', getSomeBytesLoop fuel ctx bufSize fin acc = (r, ctx') ∧ r.code = 0 ∧
      (r.finished = true ∨ acc.length + bufSize ≤ r.bytes.length) ∧ (accepted ctx'.stream).isSome = true := by
  induction fuel with
  | zero => exact fun _ _ _ _ hfuel => absurd hfuel (by omega)
  | succ fuel ih =>
      intro ctx bufSize fin acc hsome hpos hfuel
      match hstream : ctx.stream with
      | [] => exact ⟨_, _, loop_nil fuel hstream hpos fin acc, rfl, Or.inl rfl, by rw [hstream]; rfl⟩
      | [_] | [_, _] | [_, _, _] =>
          rw [hstream] at hsome
          cases hsome
      | p :: q :: r :: s :: rest =>
          rw [hstream, accepted] at hsome
          split at hsome
          · next decoded back hgroup hrest =>
            have hlength : ctx.stream.length = rest.length + 4 := by rw [hstream]; rfl
            rw [loop_group fuel hstream hgroup hpos fin acc]
            by_cases hlast : rest.isEmpty = true
            · -- the last group
              rw [if_pos hlast]
              refine ⟨_, _, rfl, rfl, ?_, by rw [List.isEmpty_iff.mp hlast]; rfl⟩
              by_cases hfull : bufSize ≤ decoded.length
              · refine Or.inr ?_
                show _ ≤ (acc ++ decoded.take bufSize).length
                rw [List.length_append, List.length_take]
                omega
              · refine Or.inl ?_
                show (decoded.drop bufSize).isEmpty = true
                rw [List.drop_eq_nil_of_le (by omega)]
                rfl
            rw [if_neg hlast]
            by_cases hfull : bufSize ≤ decoded.length
            · -- the buffer is full
              rw [Nat.sub_eq_zero_of_le hfull]
              obtain ⟨fuel', rfl⟩ : ∃ k, fuel = k + 1 := ⟨fuel - 1, by omega⟩
              refine ⟨⟨0, acc ++ decoded.take bufSize, false⟩,
                { ctx with stream := rest, bytesCached := decoded.drop bufSize, msgFinished := false }, rfl, rfl,
                Or.inr ?_, ?_⟩
              · show _ ≤ (acc ++ decoded.take bufSize).length
                rw [List.length_append, List.length_take]
                omega
              · show (accepted rest).isSome = true
                rw [hrest]
                rfl
            · obtain ⟨r', ctx', hloop, hcode, hdone, hrest'⟩ :=
                @ih { ctx with stream := rest, bytesCached := decoded.drop bufSize } _ false
                  (acc ++ decoded.take bufSize) (by show (accepted rest).isSome = true; rw [hrest]; rfl)
                  (by omega : 0 < bufSize - decoded.length) (by show rest.length + 2 ≤ fuel; omega)
              refine ⟨r', ctx', hloop, hcode, hdone.imp id fun hfilled => ?_, hrest'⟩
              rw [List.length_append, List.length_take] at hfilled
              omega
          · cases hsome

/-- How many bytes the last group of a text has that denotes `n` bytes. -/
def lastGroup (n : Nat) : Nat := 1 + (n - 1) % 3

/-- **A payload in base64**: the bytes are returned in order; whole groups are taken off the stream. -/
theorem loop_decoded (fuel : Nat) : ∀ {ctx : TextIn} {bufSize : Nat} {bytes : List UInt8} (fin : Bool) (acc : List UInt8),
    Base64.decode ctx.stream = some bytes → 0 < bufSize → ctx.stream.length + 2 ≤ fuel →
    ∃ ctx' rest, getSomeBytesLoop fuel ctx bufSize fin acc =
        (⟨0, acc ++ bytes.take bufSize, ctx'.stream.isEmpty && ctx'.bytesCached.isEmpty⟩, ctx') ∧
      Base64.decode ctx'.stream = some rest ∧ ctx'.bytesCached ++ rest = bytes.drop bufSize ∧
      ctx'.bytesCached.length ≤ 2 ∧ (ctx'.stream ≠ [] → (bufSize + ctx'.bytesCached.length) % 3 = 0) ∧
      (ctx'.stream = [] → ctx'.bytesCached.length < lastGroup bytes.length) := by
  induction fuel with
  | zero => exact fun _ _ _ _ hfuel => absurd hfuel (by omega)
  | succ fuel ih =>
      intro ctx bufSize bytes fin acc hdecode hpos hfuel
      match hstream : ctx.stream with
      | [] =>
          rw [hstream] at hdecode
          cases hdecode
          refine ⟨{ ctx with bytesCached := [], msgFinished := true }, [], ?_, by rw [hstream]; rfl,
            List.drop_nil.symm, Nat.zero_le _,
            fun hne => absurd hstream hne, fun _ => Nat.zero_lt_one⟩
          rw [loop_nil fuel hstream hpos fin acc, List.take_nil, List.append_nil, hstream]
          rfl
      | [_] | [_, _] | [_, _, _] =>
          rw [hstream] at hdecode
          cases hdecode
      | p :: q :: r :: s :: rest =>
          rw [hstream] at hdecode
          obtain ⟨front, back, hvalue, hback, rfl, hmore⟩ := decode_cons hdecode
          obtain ⟨hone, hthree, -⟩ := length_groupValue hvalue
          have hgroup : groupRead rest.isEmpty p q r s = some front :=
            groupRead_of_value hvalue fun hrest => (hmore fun hnil => by rw [hnil] at hrest; cases hrest).1
          have hlength : ctx.stream.length = rest.length + 4 := by rw [hstream]; rfl
          rw [loop_group fuel hstream hgroup hpos fin acc]
          cases hrest : rest with
          | nil =>
              -- the last group
              subst hrest
              cases hback
              rw [if_pos (show ([] : List UInt8).isEmpty = true from rfl), List.append_nil]
              refine ⟨{ ctx with stream := [], bytesCached := front.drop bufSize, msgFinished := true }, [], rfl, rfl,
                List.append_nil _, ?_, fun hne => absurd rfl hne, fun _ => ?_⟩
              · show (front.drop bufSize).length ≤ 2
                rw [List.length_drop]
                omega
              · show (front.drop bufSize).length < lastGroup front.length
                unfold lastGroup
                rw [List.length_drop]
                omega
          | cons c cs =>
              rw [← hrest]
              have hne : rest ≠ [] := by rw [hrest]; exact List.cons_ne_nil _ _
              obtain ⟨-, hfront⟩ := hmore hne
              have hbackPos : 1 ≤ back.length := List.length_pos_iff.mpr (decode_ne_nil hback hne)
              rw [if_neg (by rw [hrest]; exact Bool.false_ne_true)]
              by_cases hfull : bufSize ≤ front.length
              · -- the buffer is full
                rw [Nat.sub_eq_zero_of_le hfull]
                obtain ⟨fuel', rfl⟩ : ∃ k, fuel = k + 1 := ⟨fuel - 1, by omega⟩
                refine ⟨{ ctx with stream := rest, bytesCached := front.drop bufSize, msgFinished := false }, back, ?_,
                  hback, ?_, ?_, fun _ => ?_, fun hnil => absurd hnil hne⟩
                · rw [List.take_append_of_le_length hfull, hrest]
                  rfl
                · exact (List.drop_append_of_le_length hfull).symm
                · show (front.drop bufSize).length ≤ 2
                  rw [List.length_drop]
                  omega
                · show (bufSize + (front.drop bufSize).length) % 3 = 0
                  rw [List.length_drop]
                  omega
              · obtain ⟨ctx', left, hloop, hleft, hkept, htwo, haligned, hlast⟩ :=
                  @ih { ctx with stream := rest, bytesCached := front.drop bufSize } _ _ false
                    (acc ++ front.take bufSize) hback (by omega : 0 < bufSize - front.length)
                    (by show rest.length + 2 ≤ fuel; omega)
                have hall : front.take bufSize = front := List.take_of_length_le (by omega)
                refine ⟨ctx', left, ?_, hleft, ?_, htwo, fun hstream' => ?_, fun hstream' => ?_⟩
                · rw [hloop, List.take_append, hall, List.append_assoc]
                · have hgone : front.drop bufSize = [] := List.drop_eq_nil_of_le (by omega)
                  rw [hkept, List.drop_append, hgone, List.nil_append]
                · have := haligned hstream'
                  omega
                · have := hlast hstream'
                  unfold lastGroup at this ⊢
                  rw [List.length_append]
                  omega

/-! ## 4. Between the calls -/

/-- A buffer has room for at least one byte. -/
abbrev BufferSize := {size : Nat // 1 ≤ size}

/-- The cache alone fills the buffer. -/
theorem getSomeBytes_cached {ctx : TextIn} {size : Nat} (h : size ≤ ctx.bytesCached.length) :
    getSomeBytes ctx size = (⟨0, ctx.bytesCached.take size, false⟩,
      { ctx with bytesMode := true, bytesCached := ctx.bytesCached.drop size, msgFinished := false }) := by
  have hleft : size - (ctx.bytesCached.take size).length = 0 := by
    rw [List.length_take]
    omega
  unfold getSomeBytes flushed cacheFlush
  dsimp only
  rw [hleft]
  rfl

/-- What the cache leaves room for is read from the stream. -/
theorem getSomeBytes_stream {ctx : TextIn} {size : Nat} (h : ctx.bytesCached.length < size) :
    getSomeBytes ctx size = getSomeBytesLoop (ctx.stream.length + 2) { ctx with bytesMode := true, bytesCached := [] }
      (size - ctx.bytesCached.length) false ctx.bytesCached := by
  have hall : ctx.bytesCached.take size = ctx.bytesCached := List.take_of_length_le (by omega)
  have hnone : ctx.bytesCached.drop size = [] := List.drop_eq_nil_of_le (by omega)
  unfold getSomeBytes flushed cacheFlush
  dsimp only
  rw [hall, hnone]

/-- Before a call, where `taken` bytes of what a payload denotes have been returned. -/
def Before (bytes : List UInt8) (taken : Nat) (ctx : TextIn) : Prop :=
  ∃ rest, Base64.decode ctx.stream = some rest ∧ ctx.bytesCached ++ rest = bytes.drop taken ∧
    ctx.bytesCached.length ≤ 2 ∧ (ctx.stream ≠ [] → (taken + ctx.bytesCached.length) % 3 = 0) ∧
    (ctx.stream = [] → ctx.bytesCached.length < lastGroup bytes.length)

theorem Before.start {payload bytes : List UInt8} (h : Base64.decode payload = some bytes) :
    Before bytes 0 (inputTextCreate payload) :=
  ⟨bytes, h, rfl, Nat.zero_le _, fun _ => rfl, fun _ => Nat.lt_of_lt_of_le Nat.zero_lt_one (Nat.le_add_right _ _)⟩

/-- The call says that the message is finished: it takes the last bytes, and not from the cache alone. -/
def Ends (bytes taken size : Nat) : Prop := bytes < taken + size ∨ bytes = taken + size ∧ lastGroup bytes ≤ size

instance instDecidableEnds (bytes taken size : Nat) : Decidable (Ends bytes taken size) := by
  unfold Ends
  exact inferInstance

/-- **A call returns the next bytes.** It says that the message is finished where it takes the last ones, and not from
    the cache alone. -/
theorem Before.getBytes {bytes : List UInt8} {taken size : Nat} {ctx : TextIn} (h : Before bytes taken ctx)
    (htaken : taken ≤ bytes.length) (hsize : 1 ≤ size) :
    ∃ ctx', Io.getBytes textInVtable ctx size =
        (⟨0, (bytes.drop taken).take size, decide (Ends bytes.length taken size)⟩, ctx') ∧
      Before bytes (min (taken + size) bytes.length) ctx' := by
  obtain ⟨rest, hrest, hkept, htwo, haligned, hlast⟩ := h
  have htotal : ctx.bytesCached.length + rest.length = bytes.length - taken := by
    rw [← List.length_drop, ← hkept, List.length_append]
  have hnil : rest = [] ↔ ctx.stream = [] := by
    refine ⟨fun hnil => ?_, fun hnil => ?_⟩
    · by_contra hne
      exact decode_ne_nil hrest hne hnil
    · rw [hnil] at hrest
      exact (Option.some.inj hrest).symm
  have hdrop (n : Nat) : bytes.drop (taken + n) = (ctx.bytesCached ++ rest).drop n := by
    rw [hkept, List.drop_drop]
  by_cases hcache : size ≤ ctx.bytesCached.length
  · -- the cache alone fills the buffer
    have hends : ¬Ends bytes.length taken size := by
      rintro (hmore | ⟨heq, hgroup⟩)
      · omega
      · have hzero : rest = [] := List.length_eq_zero_iff.mp (by omega)
        have := hlast (hnil.mp hzero)
        omega
    have hbytes : (bytes.drop taken).take size = ctx.bytesCached.take size := by
      rw [← hkept, List.take_append_of_le_length hcache]
    refine ⟨{ ctx with bytesMode := true, bytesCached := ctx.bytesCached.drop size, msgFinished := false }, ?_, rest,
      hrest, ?_, ?_, fun hne => ?_, fun hempty => ?_⟩
    · rw [decide_eq_false hends, hbytes]
      refine Io.getBytes_once textInVtable (getSomeBytes_cached hcache) (Or.inr (Or.inr ?_))
      show size ≤ (ctx.bytesCached.take size).length
      rw [List.length_take]
      omega
    · rw [Nat.min_eq_left (by omega), hdrop, List.drop_append_of_le_length hcache]
    · show (ctx.bytesCached.drop size).length ≤ 2
      rw [List.length_drop]
      omega
    · have := haligned hne
      show (min (taken + size) bytes.length + (ctx.bytesCached.drop size).length) % 3 = 0
      rw [List.length_drop]
      omega
    · have := hlast hempty
      show (ctx.bytesCached.drop size).length < _
      rw [List.length_drop]
      omega
  · -- the stream is read
    obtain ⟨ctx', rest', hloop, hrest', hkept', htwo', haligned', hlast'⟩ :=
      @loop_decoded (ctx.stream.length + 2) { ctx with bytesMode := true, bytesCached := [] } _ _ false
        ctx.bytesCached hrest (by omega : 0 < size - ctx.bytesCached.length) (Nat.le_refl _)
    have hsome := getSomeBytes_stream (Nat.lt_of_not_le hcache)
    have hall : ctx.bytesCached.take size = ctx.bytesCached := List.take_of_length_le (by omega)
    have hbytes : (bytes.drop taken).take size = ctx.bytesCached ++ rest.take (size - ctx.bytesCached.length) := by
      rw [← hkept, List.take_append, hall]
    have hnil' : rest' = [] ↔ ctx'.stream = [] := by
      refine ⟨fun hnil => ?_, fun hnil => ?_⟩
      · by_contra hne
        exact decode_ne_nil hrest' hne hnil
      · rw [hnil] at hrest'
        exact (Option.some.inj hrest').symm
    have hlength' : ctx'.bytesCached.length + rest'.length = rest.length - (size - ctx.bytesCached.length) := by
      rw [← List.length_drop, ← hkept', List.length_append]
    have hpos : rest ≠ [] → 1 ≤ rest.length := fun hne => List.length_pos_iff.mpr hne
    have hthree : rest ≠ [] → (taken + ctx.bytesCached.length) % 3 = 0 := fun hne =>
      haligned fun hempty => hne (hnil.mpr hempty)
    have hflag : (ctx'.stream.isEmpty && ctx'.bytesCached.isEmpty) = decide (Ends bytes.length taken size) := by
      rw [Bool.eq_iff_iff, Bool.and_eq_true, List.isEmpty_iff, List.isEmpty_iff, decide_eq_true_iff, ← hnil',
        ← List.length_eq_zero_iff, ← List.length_eq_zero_iff]
      constructor
      · rintro ⟨hzero, hzero'⟩
        rcases Nat.lt_or_ge bytes.length (taken + size) with hless | hge
        · exact Or.inl hless
        · have hne : rest ≠ [] := fun hnil => by
            rw [hnil, List.length_nil] at htotal
            omega
          have := hthree hne
          have := hpos hne
          refine Or.inr ⟨by omega, ?_⟩
          unfold lastGroup
          omega
      · rintro (hmore | ⟨heq, -⟩)
        · omega
        · omega
    refine ⟨ctx', ?_, rest', hrest', ?_, htwo', fun hne => ?_, fun hempty => ?_⟩
    · rw [hbytes, ← hflag]
      refine Io.getBytes_once textInVtable (hsome.trans hloop) (Or.inr ?_)
      rw [hflag]
      by_cases hless : bytes.length < taken + size
      · exact Or.inl (decide_eq_true (Or.inl hless))
      · refine Or.inr ?_
        show size ≤ (ctx.bytesCached ++ rest.take (size - ctx.bytesCached.length)).length
        rw [List.length_append, List.length_take]
        omega
    · rcases Nat.le_total (taken + size) bytes.length with hle | hge
      · rw [Nat.min_eq_left hle, hdrop, List.drop_append, List.drop_eq_nil_of_le (by omega), List.nil_append, hkept']
      · rw [Nat.min_eq_right hge, List.drop_length, List.append_eq_nil_iff, ← List.length_eq_zero_iff,
          ← List.length_eq_zero_iff]
        omega
    · have := haligned' hne
      have hrestNe : rest ≠ [] := fun hnil => by
        rw [hnil, List.drop_nil] at hkept'
        exact hne (hnil'.mp (List.append_eq_nil_iff.mp hkept').2)
      have := hthree hrestNe
      have hrestNe' : 1 ≤ rest'.length := List.length_pos_iff.mpr fun hnil => hne (hnil'.mp hnil)
      omega
    · have hgroup := hlast' hempty
      unfold lastGroup at hgroup ⊢
      by_cases hne : rest = []
      · rw [hne, List.length_nil] at hlength'
        omega
      · have := hthree hne
        have := hpos hne
        omega

/-! ## 5. Calls in a row -/

section Calls

variable (payload : List UInt8) (sizes : Nat → BufferSize)

/-- The context before the call `k`. -/
def contextAt : Nat → TextIn
  | 0 => inputTextCreate payload
  | k + 1 => (Io.getBytes textInVtable (contextAt k) (sizes k).val).2

/-- What the call `k` of `anjay_get_bytes` hands back. -/
def resultAt (k : Nat) : SomeBytes := (Io.getBytes textInVtable (contextAt payload sizes k) (sizes k).val).1

/-- What the calls before the call `k` have returned. -/
def returned : Nat → List UInt8
  | 0 => []
  | k + 1 => returned k ++ (resultAt payload sizes k).bytes

/-- The calls before the call `k` succeed, and none says that the message is finished. -/
def GoesOn (k : Nat) : Prop := ∀ j < k, (resultAt payload sizes j).code = 0 ∧ (resultAt payload sizes j).finished = false

/-- The calls return what the payload denotes, and the one with the last byte says that the message is finished (the
    first one where there is none); where the payload is not base64, a call fails. -/
def ReadMeets : Prop :=
  match Base64.decode payload with
  | some bytes => ∃ k, GoesOn payload sizes k ∧ (resultAt payload sizes k).code = 0 ∧
      (resultAt payload sizes k).finished = true ∧ returned payload sizes (k + 1) = bytes ∧
      (k = 0 ∨ (resultAt payload sizes k).bytes ≠ [])
  | none => ∃ k, GoesOn payload sizes k ∧ (resultAt payload sizes k).code ≠ 0

end Calls

/-- How many bytes the calls before the call `k` have room for. -/
def requested (sizes : Nat → BufferSize) : Nat → Nat
  | 0 => 0
  | k + 1 => requested sizes k + (sizes k).val

/-- A call that takes the last of `n` bytes, with nothing to spare, has room for the last group. -/
def Roomy (n : Nat) (sizes : Nat → BufferSize) : Prop :=
  ∀ k, requested sizes (k + 1) = n → lastGroup n ≤ (sizes k).val

/-- A payload without the groups at which the decoder stops at once. -/
def withoutSkipped : List UInt8 → List UInt8
  | p :: q :: r :: s :: rest => if Skipped p q then withoutSkipped rest else p :: q :: r :: s :: withoutSkipped rest
  | rest => rest

/-- Only the last group may end with padding. -/
def PadAtEnd : List UInt8 → Prop
  | _ :: _ :: _ :: s :: rest => (rest ≠ [] → s ≠ Base64.pad) ∧ PadAtEnd rest
  | _ => True

/-- What is wrong with a payload stands behind a NUL, at the first or the second place of a group. -/
def Swallowed (payload : List UInt8) : Prop :=
  PadAtEnd payload ∧ (Base64.decode (withoutSkipped payload)).isSome = true

/-- The payloads and sizes for which the calls keep to the property. -/
def HoldsWhen (payload : List UInt8) (sizes : Nat → BufferSize) : Prop :=
  match Base64.decode payload with
  | some bytes => Roomy bytes.length sizes
  | none => ¬Swallowed payload

/-- **What is read to its end is base64, but for groups the decoder leaves at a NUL.** -/
theorem accepted_isSome_iff : ∀ payload : List UInt8, (accepted payload).isSome = true ↔ Swallowed payload
  | [] => ⟨fun _ => ⟨trivial, rfl⟩, fun _ => rfl⟩
  | [_] => ⟨fun h => (nomatch h), fun h => (nomatch h.2)⟩
  | [_, _] => ⟨fun h => (nomatch h), fun h => (nomatch h.2)⟩
  | [_, _, _] => ⟨fun h => (nomatch h), fun h => (nomatch h.2)⟩
  | p :: q :: r :: s :: rest => by
      have hrest := accepted_isSome_iff rest
      have hboth : (accepted (p :: q :: r :: s :: rest)).isSome = true ↔
          (groupRead rest.isEmpty p q r s).isSome = true ∧ (accepted rest).isSome = true := by
        rw [accepted]
        cases groupRead rest.isEmpty p q r s with
        | none => simp
        | some front => cases accepted rest <;> simp
      have hends : PadAtEnd (p :: q :: r :: s :: rest) ↔ (rest ≠ [] → s ≠ Base64.pad) ∧ PadAtEnd rest := Iff.rfl
      have hcond : (!rest.isEmpty && s == Base64.pad) = true ↔ rest ≠ [] ∧ s = Base64.pad := by
        rw [Bool.and_eq_true, beq_iff_eq, Bool.not_eq_true', List.isEmpty_eq_false_iff]
      rw [hboth, hrest, groupRead_cases]
      unfold Swallowed
      rw [hends, withoutSkipped]
      by_cases hpad : rest ≠ [] ∧ s = Base64.pad
      · rw [if_pos (hcond.mpr hpad)]
        exact ⟨fun h => (nomatch h.1), fun h => absurd hpad.2 (h.1.1 hpad.1)⟩
      rw [if_neg (fun h => hpad (hcond.mp h))]
      have hends' : rest ≠ [] → s ≠ Base64.pad := fun hne hs => hpad ⟨hne, hs⟩
      by_cases hskip : Skipped p q = true
      · rw [if_pos hskip, if_pos hskip]
        exact ⟨fun h => ⟨⟨hends', h.2.1⟩, h.2.2⟩, fun h => ⟨rfl, h.1.2, h.2⟩⟩
      rw [if_neg hskip, if_neg hskip]
      have hgroup : (groupValue p q r s).isSome = true ∧ (Base64.decode (withoutSkipped rest)).isSome = true ↔
          (Base64.decode (p :: q :: r :: s :: withoutSkipped rest)).isSome = true := by
        unfold groupValue
        rw [Base64.decode]
        by_cases hs : s = Base64.pad
        · obtain rfl : rest = [] := by
            by_contra hne
            exact hends' hne hs
          rw [if_pos hs, if_pos hs]
          exact ⟨fun h => h.1, fun h => ⟨h, rfl⟩⟩
        · rw [if_neg hs, if_neg hs]
          cases Base64.decodeGroup p q r s with
          | none => simp
          | some front => cases Base64.decode (withoutSkipped rest) <;> simp
      rw [← hgroup]
      exact ⟨fun h => ⟨⟨hends', h.2.1⟩, h.1, h.2.2⟩, fun h => ⟨h.2.1, h.1.2, h.2.2⟩⟩

/-- **A payload that cannot be read to its end makes a call fail**, whatever the sizes: a call that does not fail leaves
    less of it. -/
theorem call_none {ctx : TextIn} (hnone : accepted ctx.stream = none) {size : Nat} (hsize : 1 ≤ size) :
    (Io.getBytes textInVtable ctx size).1.code ≠ 0 ∨
      ((Io.getBytes textInVtable ctx size).1.code = 0 ∧ (Io.getBytes textInVtable ctx size).1.finished = false ∧
        accepted (Io.getBytes textInVtable ctx size).2.stream = none ∧
        (Io.getBytes textInVtable ctx size).2.bytesCached.length + (Io.getBytes textInVtable ctx size).2.stream.length <
          ctx.bytesCached.length + ctx.stream.length) := by
  by_cases hcache : size ≤ ctx.bytesCached.length
  · have hlength : (ctx.bytesCached.take size).length = size := by
      rw [List.length_take]
      omega
    rw [Io.getBytes_once textInVtable (getSomeBytes_cached hcache) (Or.inr (Or.inr (Nat.le_of_eq hlength.symm)))]
    refine Or.inr ⟨rfl, rfl, hnone, ?_⟩
    show (ctx.bytesCached.drop size).length + ctx.stream.length < _
    rw [List.length_drop]
    omega
  · have hsome := getSomeBytes_stream (Nat.lt_of_not_le hcache)
    rcases @loop_none (ctx.stream.length + 2) { ctx with bytesMode := true, bytesCached := [] } _ false
      ctx.bytesCached hnone (by omega : 0 < size - ctx.bytesCached.length) (Nat.le_refl _) with
        hfail | ⟨bytes, ctx', hloop, hfilled, hnone', hless⟩
    · have hcode : (getSomeBytes ctx size).1.code = errBadRequest := by rw [hsome]; exact hfail
      have hne : (getSomeBytes ctx size).1.code ≠ 0 := by rw [hcode]; decide
      rw [Io.getBytes_once textInVtable rfl (Or.inl hne)]
      exact Or.inl hne
    · have hless' : ctx'.bytesCached.length + ctx'.stream.length < ctx.stream.length := hless
      rw [Io.getBytes_once textInVtable (hsome.trans hloop) (Or.inr (Or.inr (by show size ≤ bytes.length; omega)))]
      refine Or.inr ⟨rfl, rfl, hnone', ?_⟩
      show ctx'.bytesCached.length + ctx'.stream.length < ctx.bytesCached.length + ctx.stream.length
      omega

/-- **A payload that can be read to its end makes no call fail.** -/
theorem call_some {ctx : TextIn} (hsome : (accepted ctx.stream).isSome = true) (size : Nat) :
    (Io.getBytes textInVtable ctx size).1.code = 0 ∧
      (accepted (Io.getBytes textInVtable ctx size).2.stream).isSome = true := by
  by_cases hcache : size ≤ ctx.bytesCached.length
  · have hlength : (ctx.bytesCached.take size).length = size := by
      rw [List.length_take]
      omega
    rw [Io.getBytes_once textInVtable (getSomeBytes_cached hcache) (Or.inr (Or.inr (Nat.le_of_eq hlength.symm)))]
    exact ⟨rfl, hsome⟩
  · obtain ⟨r, ctx', hloop, hcode, hdone, hsome'⟩ :=
      @loop_some (ctx.stream.length + 2) { ctx with bytesMode := true, bytesCached := [] } _ false
        ctx.bytesCached hsome (by omega : 0 < size - ctx.bytesCached.length) (Nat.le_refl _)
    rw [Io.getBytes_once textInVtable ((getSomeBytes_stream (Nat.lt_of_not_le hcache)).trans hloop)
      (Or.inr (hdone.imp id fun hfilled => by omega))]
    exact ⟨hcode, hsome'⟩

/-! ## 6. All calls -/

/-- A payload that can be read to its end: no call fails. -/
theorem calls_some {payload : List UInt8} (sizes : Nat → BufferSize) (hsome : (accepted payload).isSome = true) (k : Nat) :
    (resultAt payload sizes k).code = 0 := by
  have hstate : (accepted (contextAt payload sizes k).stream).isSome = true := by
    induction k with
    | zero => exact hsome
    | succ k ih => exact (call_some ih (sizes k).val).2
  exact (call_some hstate (sizes k).val).1

/-- A payload that cannot: as long as no call fails, there is less and less of it. -/
theorem calls_none {payload : List UInt8} (sizes : Nat → BufferSize) (m : Nat) : ∀ {k : Nat}, GoesOn payload sizes k →
    accepted (contextAt payload sizes k).stream = none →
    (contextAt payload sizes k).bytesCached.length + (contextAt payload sizes k).stream.length ≤ m →
    ∃ k, GoesOn payload sizes k ∧ (resultAt payload sizes k).code ≠ 0 := by
  induction m with
  | zero =>
      intro k _ hnone hm
      have hempty : (contextAt payload sizes k).stream = [] := List.length_eq_zero_iff.mp (by omega)
      rw [hempty] at hnone
      cases hnone
  | succ m ih =>
      intro k hgoes hnone hm
      rcases call_none hnone (sizes k).property with hfail | ⟨hcode, hfinished, hnone', hless⟩
      · exact ⟨k, hgoes, hfail⟩
      · refine ih (k := k + 1) (fun j hj => ?_) hnone' ?_
        · rcases Nat.lt_succ_iff_lt_or_eq.mp hj with hlt | rfl
          · exact hgoes j hlt
          · exact ⟨hcode, hfinished⟩
        · show (Io.getBytes textInVtable (contextAt payload sizes k) (sizes k).val).2.bytesCached.length +
            (Io.getBytes textInVtable (contextAt payload sizes k) (sizes k).val).2.stream.length ≤ m
          omega

/-- **A payload in base64**: every call finds the context between two bytes of what it denotes. -/
theorem calls_before {payload bytes : List UInt8} (sizes : Nat → BufferSize) (h : Base64.decode payload = some bytes)
    (k : Nat) : Before bytes (min (requested sizes k) bytes.length) (contextAt payload sizes k) := by
  induction k with
  | zero =>
      rw [requested, Nat.zero_min]
      exact Before.start h
  | succ k ih =>
      obtain ⟨ctx', hcall, hbefore⟩ := ih.getBytes (Nat.min_le_right _ _) (sizes k).property
      have hctx : contextAt payload sizes (k + 1) = ctx' := by rw [contextAt, hcall]
      have htaken : min (min (requested sizes k) bytes.length + (sizes k).val) bytes.length =
          min (requested sizes (k + 1)) bytes.length := by
        rw [requested]
        omega
      rwa [hctx, ← htaken]

theorem calls_decoded {payload bytes : List UInt8} (sizes : Nat → BufferSize) (h : Base64.decode payload = some bytes)
    (k : Nat) : resultAt payload sizes k = ⟨0, (bytes.drop (min (requested sizes k) bytes.length)).take (sizes k).val,
      decide (Ends bytes.length (min (requested sizes k) bytes.length) (sizes k).val)⟩ := by
  obtain ⟨ctx', hcall, -⟩ := (calls_before sizes h k).getBytes (Nat.min_le_right _ _) (sizes k).property
  rw [resultAt, hcall]

/-- What has been returned is the beginning of what the payload denotes. -/
theorem returned_decoded {payload bytes : List UInt8} (sizes : Nat → BufferSize)
    (h : Base64.decode payload = some bytes) (k : Nat) : returned payload sizes k = bytes.take (requested sizes k) := by
  induction k with
  | zero => rfl
  | succ k ih =>
      rw [returned, ih, calls_decoded sizes h k, requested]
      rcases Nat.le_total (requested sizes k) bytes.length with hle | hge
      · rw [Nat.min_eq_left hle, ← List.take_add]
      · rw [Nat.min_eq_right hge, List.drop_length, List.take_nil, List.append_nil, List.take_of_length_le hge,
          List.take_of_length_le (by omega)]

theorem requested_mono (sizes : Nat → BufferSize) {j k : Nat} (h : j ≤ k) : requested sizes j ≤ requested sizes k := by
  induction h with
  | refl => exact Nat.le_refl _
  | step _ ih => exact Nat.le_trans ih (Nat.le_add_right _ _)

theorem le_requested (sizes : Nat → BufferSize) (k : Nat) : k ≤ requested sizes k := by
  induction k with
  | zero => exact Nat.le_refl _
  | succ k ih => exact Nat.add_le_add ih (sizes k).property

/-- A call whose buffer is full before the last byte does not say that the message is finished. -/
theorem not_finished {payload bytes : List UInt8} {sizes : Nat → BufferSize} (h : Base64.decode payload = some bytes)
    {k : Nat} (hk : requested sizes (k + 1) < bytes.length ∨
      requested sizes (k + 1) = bytes.length ∧ (sizes k).val < lastGroup bytes.length) :
    (resultAt payload sizes k).finished = false := by
  have hnext : requested sizes (k + 1) = requested sizes k + (sizes k).val := rfl
  rw [calls_decoded sizes h k]
  refine decide_eq_false fun hends => ?_
  rw [Nat.min_eq_left (by omega)] at hends
  rcases hends with hmore | ⟨heq, hgroup⟩
  · omega
  · omega

/-- **Where the last byte is taken with room for the last group, all is as it should be.** -/
theorem meets_of_roomy {payload bytes : List UInt8} {sizes : Nat → BufferSize}
    (h : Base64.decode payload = some bytes) (hroomy : Roomy bytes.length sizes) :
    ∃ k, GoesOn payload sizes k ∧ (resultAt payload sizes k).code = 0 ∧ (resultAt payload sizes k).finished = true ∧
      returned payload sizes (k + 1) = bytes ∧ (k = 0 ∨ (resultAt payload sizes k).bytes ≠ []) := by
  have hexists : ∃ k, bytes.length ≤ requested sizes (k + 1) :=
    ⟨bytes.length, Nat.le_trans (Nat.le_succ _) (le_requested sizes _)⟩
  classical
  -- the first call with room for the last byte
  let k := Nat.find hexists
  have hk : bytes.length ≤ requested sizes (k + 1) := Nat.find_spec hexists
  have hbefore : ∀ j < k, requested sizes (j + 1) < bytes.length := fun j hj => Nat.lt_of_not_le (Nat.find_min hexists hj)
  have hnext : requested sizes (k + 1) = requested sizes k + (sizes k).val := rfl
  have hless : k = 0 ∨ requested sizes k < bytes.length := by
    rcases Nat.eq_zero_or_pos k with hzero | hpos
    · exact Or.inl hzero
    · have := hbefore (k - 1) (by omega)
      rw [Nat.sub_add_cancel hpos] at this
      exact Or.inr this
  have hle : requested sizes k ≤ bytes.length := by
    rcases hless with hzero | hlt
    · rw [hzero]
      exact Nat.zero_le _
    · exact Nat.le_of_lt hlt
  have hsize := (sizes k).property
  have hresult := calls_decoded sizes h k
  rw [Nat.min_eq_left hle] at hresult
  refine ⟨k, fun j hj => ⟨?_, not_finished h (Or.inl (hbefore j hj))⟩, ?_, ?_, ?_, ?_⟩
  · rw [calls_decoded sizes h j]
  · rw [hresult]
  · rw [hresult]
    refine decide_eq_true ?_
    rcases Nat.lt_or_eq_of_le hk with hlt | heq
    · exact Or.inl (by omega)
    · exact Or.inr ⟨by omega, hroomy k heq.symm⟩
  · rw [returned_decoded sizes h, List.take_of_length_le hk]
  · refine hless.imp id fun hlt => ?_
    rw [hresult]
    intro hnil
    have hlength := congrArg List.length hnil
    rw [List.length_take, List.length_drop, List.length_nil] at hlength
    omega

/-- **A call that takes the last byte from the cache alone leaves it to the next one to say that the message is
    finished.** -/
theorem roomy_of_meets {payload bytes : List UInt8} {sizes : Nat → BufferSize}
    (h : Base64.decode payload = some bytes) {k : Nat} (hgoes : GoesOn payload sizes k)
    (hfinished : (resultAt payload sizes k).finished = true)
    (hlast : k = 0 ∨ (resultAt payload sizes k).bytes ≠ []) : Roomy bytes.length sizes := by
  intro j hj
  by_contra hless
  have hlate : ∀ i ≤ j, (resultAt payload sizes i).finished = false := by
    intro i hi
    rcases Nat.lt_or_eq_of_le hi with hlt | rfl
    · refine not_finished h (Or.inl (Nat.lt_of_lt_of_le ?_ (Nat.le_of_eq hj)))
      exact Nat.lt_of_le_of_lt (requested_mono sizes hlt) (Nat.lt_add_of_pos_right (sizes j).property)
    · exact not_finished h (Or.inr ⟨hj, Nat.lt_of_not_le hless⟩)
  have hnext : resultAt payload sizes (j + 1) = ⟨0, [], true⟩ := by
    have hends : Ends bytes.length bytes.length (sizes (j + 1)).val :=
      Or.inl (Nat.lt_add_of_pos_right (sizes (j + 1)).property)
    rw [calls_decoded sizes h (j + 1), hj, Nat.min_self, List.drop_length, List.take_nil, decide_eq_true hends]
  rcases Nat.lt_trichotomy k (j + 1) with hlt | rfl | hgt
  · rw [hlate k (Nat.le_of_lt_succ hlt)] at hfinished
    cases hfinished
  · rcases hlast with hzero | hne
    · cases hzero
    · rw [hnext] at hne
      exact hne rfl
  · have := (hgoes (j + 1) hgt).2
    rw [hnext] at this
    cases this

/-- **The calls return the decoded bytes, and the one with the last byte says so, unless it is served from the cache; a
    payload that is not base64 makes a call fail, unless what is wrong stands behind a NUL.** -/
theorem read_meets_iff (payload : List UInt8) (sizes : Nat → BufferSize) :
    ReadMeets payload sizes ↔ HoldsWhen payload sizes := by
  unfold ReadMeets HoldsWhen
  cases hdecode : Base64.decode payload with
  | some bytes =>
      exact ⟨fun ⟨_, hgoes, _, hfinished, _, hlast⟩ => roomy_of_meets hdecode hgoes hfinished hlast,
        meets_of_roomy hdecode⟩
  | none =>
      dsimp only
      rw [← accepted_isSome_iff]
      constructor
      · rintro ⟨k, -, hfail⟩ hsome
        exact hfail (calls_some sizes hsome k)
      · intro hnone
        exact calls_none sizes _ (fun j hj => absurd hj (Nat.not_lt_zero j)) (Option.not_isSome_iff_eq_none.mp hnone)
          (Nat.le_refl _)

/-- Two bytes, read one at a time: the second comes from the cache. -/
theorem two_bytes_not_meet : ¬ReadMeets [0x51, 0x55, 0x49, 0x3D] fun _ => ⟨1, Nat.le_refl 1⟩ := by
  intro h
  have hdecode : Base64.decode [0x51, 0x55, 0x49, 0x3D] = some [0x41, 0x42] := by decide
  unfold ReadMeets at h
  rw [hdecode] at h
  obtain ⟨k, hgoes, -, hfinished, -, hlast⟩ := h
  exact absurd (roomy_of_meets hdecode hgoes hfinished hlast 1 rfl) (by decide)

end Anjay.PlainText
