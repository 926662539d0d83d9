/-
  File:      Anjay/Io/Fetch.lean
  Subject:   Whole values out of an input context (`anjay_io_utils.c`): strings and byte strings of any length, in pieces
             of 128 bytes.

  * `Yields`: what the pieces are; `genericGetter_yields`: they are joined, unless an allocation fails.
  * `pieces`: the pieces of a string, each up to its first NUL; `flatten_pieces_iff`: when they make up what is in front
    of the first NUL.
  * `StringReader`, `BytesReader`: what a context has to do; the TLV context and the plain-text one do it.
  * `fetch_meets_iff`: **values without NUL and byte strings are fetched whole; of a string with NULs it is what is in
    front of the first one exactly if all blocks of 127 bytes behind it begin with a NUL.**
-/
import Anjay.Io.Text.Bytes
import Anjay.Io.Tlv.Decode

namespace Anjay.Io

open Lib
open Tlv (SomeBytes)

/-! ## 1. The functions -/

/-- What a `chunk_getter_t` hands back: its code, the first `*out_bytes_read` bytes of the buffer, and `*out_finished`. -/
structure Chunk where
  code : Int
  out : List UInt8
  finished : Bool
  deriving DecidableEq, Repr

section Getters

variable {σ : Type}

/-- `bytes_getter`. -/
def bytesGetter (vtable : InputVtable σ) (ctx : σ) (size : Nat) : Chunk × σ :=
  match getBytes vtable ctx size with
  | (r, ctx) => (⟨r.code, r.bytes, r.finished⟩, ctx)

/-- `string_getter`. -/
def stringGetter (vtable : InputVtable σ) (ctx : σ) (size : Nat) : Chunk × σ :=
  match getString vtable ctx size with
  | ((result, out), ctx) =>
      if result < 0 then (⟨result, [], false⟩, ctx)
      else if result = bufferTooShort then (⟨0, (CString.ofBytes out).bytes, false⟩, ctx)
      else (⟨0, (CString.ofBytes out).terminated, true⟩, ctx)

/-- `sizeof(tmp)`. -/
def tmpSize : Nat := 128

/-- The loop of `generic_getter`, as far as the fuel goes; `alloc` tells which sizes `avs_realloc` has room for. -/
def genericGetter (getter : σ → Nat → Chunk × σ) (alloc : Nat → Bool) :
    Nat → σ → List UInt8 → Option (Except Int (List UInt8) × σ)
  | 0, _, _ => none
  | fuel + 1, ctx, buffer =>
      match getter ctx tmpSize with
      | (chunk, ctx) =>
          if chunk.code ≠ 0 then some (.error chunk.code, ctx)
          else if chunk.out ≠ [] ∧ alloc (buffer.length + chunk.out.length) = false then
            some (.error errInternal, ctx)
          else if chunk.finished then some (.ok (buffer ++ chunk.out), ctx)
          else genericGetter getter alloc fuel ctx (buffer ++ chunk.out)

/-- `_anjay_io_fetch_bytes`. -/
def fetchBytes (vtable : InputVtable σ) (alloc : Nat → Bool) (fuel : Nat) (ctx : σ) :
    Option (Except Int (List UInt8) × σ) :=
  genericGetter (bytesGetter vtable) alloc fuel ctx []

/-- `_anjay_io_fetch_string`. -/
def fetchString (vtable : InputVtable σ) (alloc : Nat → Bool) (fuel : Nat) (ctx : σ) :
    Option (Except Int (List UInt8) × σ) :=
  genericGetter (stringGetter vtable) alloc fuel ctx []

/-- More fuel changes nothing. -/
theorem genericGetter_mono {getter : σ → Nat → Chunk × σ} {alloc : Nat → Bool} (more : Nat) : ∀ {fuel : Nat} {ctx : σ}
    {buffer : List UInt8} {result : Except Int (List UInt8) × σ},
    genericGetter getter alloc fuel ctx buffer = some result →
    genericGetter getter alloc (fuel + more) ctx buffer = some result
  | 0, _, _, _, h => nomatch h
  | fuel + 1, ctx, buffer, result, h => by
      rw [Nat.add_right_comm]
      unfold genericGetter at h ⊢
      cases hget : getter ctx tmpSize with
      | mk chunk ctx' =>
          rw [hget] at h
          dsimp only at h ⊢
          by_cases hcode : chunk.code ≠ 0
          · rwa [if_pos hcode] at h ⊢
          rw [if_neg hcode] at h ⊢
          by_cases hfull : chunk.out ≠ [] ∧ alloc (buffer.length + chunk.out.length) = false
          · rwa [if_pos hfull] at h ⊢
          rw [if_neg hfull] at h ⊢
          by_cases hfinished : chunk.finished = true
          · rwa [if_pos hfinished] at h ⊢
          rw [if_neg hfinished] at h ⊢
          exact genericGetter_mono more h

/-- Two runs that end have the same end. -/
theorem genericGetter_unique {getter : σ → Nat → Chunk × σ} {alloc : Nat → Bool} {fuel fuel' : Nat} {ctx : σ}
    {buffer : List UInt8} {result result' : Except Int (List UInt8) × σ}
    (h : genericGetter getter alloc fuel ctx buffer = some result)
    (h' : genericGetter getter alloc fuel' ctx buffer = some result') : result = result' := by
  have hmore := genericGetter_mono fuel' h
  rw [Nat.add_comm, genericGetter_mono fuel h'] at hmore
  exact (Option.some.inj hmore).symm

/-! ## 2. Joining -/

/-- The pieces that a getter hands out, up to the last one. -/
inductive Yields (getter : σ → Nat → Chunk × σ) : σ → List (List UInt8) → Prop
  | last {ctx ctx' : σ} {out : List UInt8} (h : getter ctx tmpSize = (⟨0, out, true⟩, ctx')) : Yields getter ctx [out]
  | more {ctx ctx' : σ} {out : List UInt8} {outs : List (List UInt8)}
      (h : getter ctx tmpSize = (⟨0, out, false⟩, ctx')) (hrest : Yields getter ctx' outs) :
      Yields getter ctx (out :: outs)

/-- An allocation is refused while the pieces are joined behind `n` bytes. -/
def Refused (alloc : Nat → Bool) : Nat → List (List UInt8) → Prop
  | _, [] => False
  | n, out :: outs => (out ≠ [] ∧ alloc (n + out.length) = false) ∨ Refused alloc (n + out.length) outs

/-- **The pieces are joined**, unless an allocation is refused. -/
theorem genericGetter_yields {getter : σ → Nat → Chunk × σ} {alloc : Nat → Bool} {ctx : σ} {outs : List (List UInt8)}
    (h : Yields getter ctx outs) : ∀ buffer : List UInt8,
    ∃ result ctx', genericGetter getter alloc outs.length ctx buffer = some (result, ctx') ∧
      (Refused alloc buffer.length outs ∧ result = .error errInternal ∨
        ¬Refused alloc buffer.length outs ∧ result = .ok (buffer ++ outs.flatten)) := by
  induction h with
  | @last ctx ctx' out h =>
      intro buffer
      rw [List.length_singleton, genericGetter, h]
      dsimp only
      rw [if_neg (by decide)]
      by_cases hfull : out ≠ [] ∧ alloc (buffer.length + out.length) = false
      · exact ⟨_, ctx', if_pos hfull, Or.inl ⟨Or.inl hfull, rfl⟩⟩
      · rw [if_neg hfull, if_pos rfl, List.flatten_singleton]
        exact ⟨_, ctx', rfl, Or.inr ⟨fun h => h.elim hfull id, rfl⟩⟩
  | @more ctx ctx' out outs h _ ih =>
      intro buffer
      rw [List.length_cons, genericGetter, h]
      dsimp only
      rw [if_neg (by decide)]
      by_cases hfull : out ≠ [] ∧ alloc (buffer.length + out.length) = false
      · exact ⟨_, ctx', if_pos hfull, Or.inl ⟨Or.inl hfull, rfl⟩⟩
      · rw [if_neg hfull, if_neg Bool.false_ne_true]
        obtain ⟨result, ctx'', hrun, hresult⟩ := ih (buffer ++ out)
        rw [List.length_append, List.append_assoc] at hresult
        refine ⟨result, ctx'', hrun, hresult.imp (fun h => ⟨Or.inr h.1, h.2⟩) fun h => ⟨fun hor => ?_, h.2⟩⟩
        exact hor.elim hfull h.1

end Getters

/-! ## 3. The pieces of a string -/

/-- What `string_getter` takes of a string: blocks of 127 bytes, each up to its first NUL, and a NUL behind the last. -/
def pieces (value : List UInt8) : List (List UInt8) :=
  if value.length ≤ 127 then [(CString.ofBytes value).terminated]
  else (CString.ofBytes (value.take 127)).bytes :: pieces (value.drop 127)
termination_by value.length
decreasing_by
  rw [List.length_drop]
  omega

/-- What is in front of the first NUL. -/
def upToNul (value : List UInt8) : List UInt8 := (CString.ofBytes value).bytes

/-- Every block of 127 bytes that begins behind the first NUL begins with a NUL. -/
def BlocksBegin (value : List UInt8) : Prop :=
  ∀ j, (upToNul value).length < 127 * j → 127 * j < value.length → value[127 * j]? = some 0

theorem upToNul_cons (b : UInt8) (bs : List UInt8) : upToNul (b :: bs) = if b = 0 then [] else b :: upToNul bs := by
  have hcons := @List.takeWhile_cons _ (fun c : UInt8 => decide (c ≠ 0)) b bs
  by_cases hb : b = 0
  · rw [if_pos hb]
    exact hcons.trans (if_neg (by simp [hb]))
  · rw [if_neg hb]
    exact hcons.trans (if_pos (by simp [hb]))

/-- There is a NUL, or all is in front of it. -/
theorem upToNul_append (front back : List UInt8) :
    upToNul (front ++ back) = if 0 ∈ front then upToNul front else front ++ upToNul back := by
  induction front with
  | nil => rfl
  | cons b bs ih =>
      rw [List.cons_append, upToNul_cons, upToNul_cons, ih]
      by_cases hb : b = 0
      · rw [if_pos hb, if_pos hb, if_pos (List.mem_cons.mpr (Or.inl hb.symm))]
      · have hmem : (0 ∈ b :: bs) ↔ 0 ∈ bs := List.mem_cons.trans (or_iff_right fun h => hb h.symm)
        rw [if_neg hb, if_neg hb]
        by_cases hbs : 0 ∈ bs
        · rw [if_pos hbs, if_pos (hmem.mpr hbs)]
        · rw [if_neg hbs, if_neg (fun h => hbs (hmem.mp h)), List.cons_append]

theorem upToNul_eq_nil_iff (value : List UInt8) : upToNul value = [] ↔ ∀ b, value[0]? = some b → b = 0 := by
  cases value with
  | nil => exact ⟨fun _ _ h => (nomatch h), fun _ => rfl⟩
  | cons b bs =>
      rw [upToNul_cons]
      by_cases hb : b = 0
      · rw [if_pos hb]
        exact ⟨fun _ c hc => (Option.some.inj hc).symm.trans hb, fun _ => rfl⟩
      · rw [if_neg hb]
        exact ⟨fun h => (nomatch h), fun h => absurd (h b rfl) hb⟩

theorem length_upToNul_le (value : List UInt8) : (upToNul value).length ≤ value.length :=
  (List.takeWhile_prefix _).length_le

theorem length_upToNul_lt {value : List UInt8} (h : 0 ∈ value) : (upToNul value).length < value.length := by
  refine Nat.lt_of_le_of_ne (length_upToNul_le value) fun heq => ?_
  have hall : upToNul value = value := (List.takeWhile_prefix _).eq_of_length heq
  have hnul : 0 ∉ upToNul value := (CString.ofBytes value).noNul
  rw [hall] at hnul
  exact hnul h

theorem upToNul_of_notMem {value : List UInt8} (h : 0 ∉ value) : upToNul value = value := by
  have happend := upToNul_append value []
  rw [List.append_nil, if_neg h] at happend
  exact happend.trans (List.append_nil _)

/-- Without NUL nothing is asked of the blocks. -/
theorem blocksBegin_of_notMem {value : List UInt8} (h : 0 ∉ value) : BlocksBegin value := by
  intro j hj hless
  rw [upToNul_of_notMem h] at hj
  omega

theorem pieces_short {value : List UInt8} (h : value.length ≤ 127) : pieces value = [upToNul value ++ [0]] := by
  rw [pieces, if_pos h]
  rfl

theorem pieces_long {value : List UInt8} (h : ¬value.length ≤ 127) :
    pieces value = upToNul (value.take 127) :: pieces (value.drop 127) := by
  rw [pieces, if_neg h]
  rfl

theorem flatten_pieces_ne (value : List UInt8) : (pieces value).flatten ≠ [] := by
  by_cases h : value.length ≤ 127
  · rw [pieces_short h, List.flatten_singleton]
    simp
  · rw [pieces_long h, List.flatten_cons]
    exact fun hnil => flatten_pieces_ne (value.drop 127) (List.append_eq_nil_iff.mp hnil).2
termination_by value.length
decreasing_by
  rw [List.length_drop]
  omega

/-- Behind the first NUL nothing may be taken but the NUL at the end. -/
theorem flatten_pieces_eq_nul_iff (value : List UInt8) :
    (pieces value).flatten = [0] ↔ ∀ j, 127 * j < value.length → value[127 * j]? = some 0 := by
  by_cases h : value.length ≤ 127
  · rw [pieces_short h, List.flatten_singleton]
    have hnil : upToNul value ++ [0] = [0] ↔ upToNul value = [] := by simp
    rw [hnil, upToNul_eq_nil_iff]
    constructor
    · intro hfirst j hj
      obtain rfl : j = 0 := by omega
      obtain ⟨b, hb⟩ : ∃ b, value[127 * 0]? = some b := ⟨_, List.getElem?_eq_getElem hj⟩
      rw [hb, hfirst b hb]
    · intro hall b hb
      have hpos : 127 * 0 < value.length := (List.getElem?_eq_some_iff.mp hb).1
      exact Option.some.inj (hb.symm.trans (hall 0 hpos))
  · rw [pieces_long h, List.flatten_cons]
    have ih := flatten_pieces_eq_nul_iff (value.drop 127)
    have hsplit : upToNul (value.take 127) ++ (pieces (value.drop 127)).flatten = [0] ↔
        upToNul (value.take 127) = [] ∧ (pieces (value.drop 127)).flatten = [0] := by
      constructor
      · intro heq
        have hne := flatten_pieces_ne (value.drop 127)
        cases hfront : upToNul (value.take 127) with
        | nil =>
            rw [hfront] at heq
            exact ⟨rfl, heq⟩
        | cons b bs =>
            rw [hfront, List.cons_append] at heq
            exact absurd (List.append_eq_nil_iff.mp (List.cons.inj heq).2).2 hne
      · rintro ⟨hnil, heq⟩
        rw [hnil, heq]
        rfl
    have hfirst : (value.take 127)[0]? = value[0]? := List.getElem?_take_of_lt (by decide)
    rw [hsplit, ih, upToNul_eq_nil_iff, hfirst]
    have hdrop (j : Nat) : (value.drop 127)[127 * j]? = value[127 * (j + 1)]? := by
      rw [List.getElem?_drop, show 127 + 127 * j = 127 * (j + 1) by omega]
    constructor
    · rintro ⟨hzero, hrest⟩ j hj
      cases j with
      | zero =>
          obtain ⟨b, hb⟩ : ∃ b, value[127 * 0]? = some b := ⟨_, List.getElem?_eq_getElem hj⟩
          rw [hb, hzero b hb]
      | succ j =>
          rw [← hdrop]
          exact hrest j (by rw [List.length_drop]; omega)
    · intro hall
      refine ⟨fun b hb => ?_, fun j hj => ?_⟩
      · exact Option.some.inj (hb.symm.trans (hall 0 (by omega)))
      · rw [hdrop]
        rw [List.length_drop] at hj
        exact hall (j + 1) (by omega)
termination_by value.length
decreasing_by
  rw [List.length_drop]
  omega

/-- **The pieces make up what is in front of the first NUL exactly if all blocks behind it begin with a NUL.** -/
theorem flatten_pieces_iff (value : List UInt8) : (pieces value).flatten = upToNul value ++ [0] ↔ BlocksBegin value := by
  by_cases h : value.length ≤ 127
  · rw [pieces_short h, List.flatten_singleton]
    refine ⟨fun _ j hj hless => ?_, fun _ => rfl⟩
    obtain rfl : j = 0 := by omega
    exact absurd hj (Nat.not_lt_zero _)
  · have hdrop (j : Nat) : (value.drop 127)[127 * j]? = value[127 * (j + 1)]? := by
      rw [List.getElem?_drop, show 127 + 127 * j = 127 * (j + 1) by omega]
    have hvalue := upToNul_append (value.take 127) (value.drop 127)
    have hlength : (value.take 127).length = 127 := by
      rw [List.length_take]
      omega
    rw [List.take_append_drop] at hvalue
    rw [pieces_long h, List.flatten_cons]
    by_cases hnul : 0 ∈ value.take 127
    · -- the first NUL is in the first block
      rw [if_pos hnul] at hvalue
      rw [hvalue, List.append_right_inj, flatten_pieces_eq_nul_iff]
      have hfirst : (upToNul value).length < 127 := by
        rw [hvalue]
        exact Nat.lt_of_lt_of_eq (length_upToNul_lt hnul) hlength
      constructor
      · intro hrest j hj hless
        cases j with
        | zero => exact absurd hj (Nat.not_lt_zero _)
        | succ j =>
            rw [← hdrop]
            exact hrest j (by rw [List.length_drop]; omega)
      · intro hall j hj
        rw [hdrop]
        rw [List.length_drop] at hj
        exact hall (j + 1) (by omega) (by omega)
    · -- it is not
      rw [if_neg hnul] at hvalue
      have hsame : upToNul (value.take 127) = value.take 127 := upToNul_of_notMem hnul
      have hlengths : (upToNul value).length = 127 + (upToNul (value.drop 127)).length := by
        rw [hvalue, List.length_append, hlength]
      rw [hvalue, hsame, List.append_assoc, List.append_right_inj, flatten_pieces_iff (value.drop 127)]
      constructor
      · intro hrest j hj hless
        cases j with
        | zero => exact absurd hj (Nat.not_lt_zero _)
        | succ j =>
            rw [← hdrop]
            exact hrest j (by omega) (by rw [List.length_drop]; omega)
      · intro hall j hj hless
        rw [hdrop]
        rw [List.length_drop] at hless
        exact hall (j + 1) (by omega) (by omega)
termination_by value.length
decreasing_by
  rw [List.length_drop]
  omega

/-! ## 4. Readers -/

section Readers

variable {σ : Type} {vtable : InputVtable σ} {Holds : List UInt8 → σ → Prop}

/-- What strings are read from: `Holds left ctx` says that `left` is still to be read. -/
structure StringReader (vtable : InputVtable σ) (Holds : List UInt8 → σ → Prop) : Prop where
  whole : ∀ {left : List UInt8} {ctx : σ} (size : Nat), Holds left ctx → left.length < size →
    ∃ ctx', getString vtable ctx size = ((0, left), ctx')
  part : ∀ {left : List UInt8} {ctx : σ} (size : Nat), Holds left ctx → 0 < size → size ≤ left.length →
    ∃ ctx', getString vtable ctx size = ((bufferTooShort, left.take (size - 1)), ctx') ∧ Holds (left.drop (size - 1)) ctx'

/-- What byte strings are read from. The end may be reported by a call of its own. -/
structure BytesReader (vtable : InputVtable σ) (Holds : List UInt8 → σ → Prop) : Prop where
  next : ∀ {left : List UInt8} {ctx : σ} (size : Nat), Holds left ctx → 0 < size →
    ∃ finished ctx', getBytes vtable ctx size = (⟨0, left.take size, finished⟩, ctx') ∧
      (finished = true → left.length ≤ size) ∧ (finished = false → left ≠ [] ∧ Holds (left.drop size) ctx')

/-- **The pieces of a string.** -/
theorem StringReader.yields (h : StringReader vtable Holds) {value : List UInt8} {ctx : σ} (hctx : Holds value ctx) :
    Yields (stringGetter vtable) ctx (pieces value) := by
  by_cases hlength : value.length ≤ 127
  · obtain ⟨ctx', hget⟩ := h.whole tmpSize hctx (Nat.lt_succ_of_le hlength)
    have hgetter : stringGetter vtable ctx tmpSize = (⟨0, upToNul value ++ [0], true⟩, ctx') := by
      unfold stringGetter
      rw [hget]
      rfl
    rw [pieces_short hlength]
    exact Yields.last hgetter
  · obtain ⟨ctx', hget, hrest⟩ := h.part tmpSize hctx (by decide) (Nat.lt_of_not_le hlength)
    have hgetter : stringGetter vtable ctx tmpSize = (⟨0, upToNul (value.take 127), false⟩, ctx') := by
      unfold stringGetter
      rw [hget]
      rfl
    rw [pieces_long hlength]
    exact Yields.more hgetter (h.yields hrest)
termination_by value.length
decreasing_by
  rw [List.length_drop]
  show value.length - (128 - 1) < _
  omega

/-- The blocks of 128 bytes that `bytes_getter` takes. -/
def blocks (value : List UInt8) : List (List UInt8) :=
  if value.length ≤ 128 then [value] else value.take 128 :: blocks (value.drop 128)
termination_by value.length
decreasing_by
  rw [List.length_drop]
  omega

/-- **The blocks of a byte string**, up to an empty one at the end. -/
theorem BytesReader.yields (h : BytesReader vtable Holds) {value : List UInt8} {ctx : σ} (hctx : Holds value ctx) :
    ∃ outs, Yields (bytesGetter vtable) ctx outs ∧ outs.flatten = value ∧
      ∀ alloc n, Refused alloc n outs ↔ Refused alloc n (blocks value) := by
  obtain ⟨finished, ctx', hget, hlast, hmore⟩ := h.next tmpSize hctx (by decide)
  have hgetter : bytesGetter vtable ctx tmpSize = (⟨0, value.take 128, finished⟩, ctx') := by
    unfold bytesGetter
    rw [hget]
    rfl
  rw [blocks]
  cases finished with
  | true =>
      have hlength : value.length ≤ 128 := hlast rfl
      rw [if_pos hlength]
      rw [List.take_of_length_le hlength] at hgetter
      exact ⟨[value], Yields.last hgetter, List.flatten_singleton, fun _ _ => Iff.rfl⟩
  | false =>
      obtain ⟨hne, hrest⟩ := hmore rfl
      have hpos : 0 < value.length := List.length_pos_iff.mpr hne
      by_cases hlength : value.length ≤ 128
      · -- the call behind the last byte
        rw [if_pos hlength]
        have hnil : value.drop tmpSize = [] := List.drop_eq_nil_of_le hlength
        rw [hnil] at hrest
        obtain ⟨finished', ctx'', hget', -, hmore'⟩ := h.next tmpSize hrest (by decide)
        have hend : finished' = true := by
          cases finished' with
          | true => rfl
          | false => exact absurd rfl (hmore' rfl).1
        have hgetter' : bytesGetter vtable ctx' tmpSize = (⟨0, [], true⟩, ctx'') := by
          unfold bytesGetter
          rw [hget', hend]
          rfl
        rw [List.take_of_length_le hlength] at hgetter
        refine ⟨[value, []], Yields.more hgetter (Yields.last hgetter'), by simp, fun alloc n => ?_⟩
        exact or_congr_right ⟨fun h => h.elim (fun h => h.1 rfl) id, fun h => (nomatch h)⟩
      · rw [if_neg hlength]
        obtain ⟨outs, houts, hflatten, hrefused⟩ := h.yields hrest
        refine ⟨value.take 128 :: outs, Yields.more hgetter houts, ?_, fun alloc n => or_congr_right (hrefused _ _)⟩
        rw [List.flatten_cons, hflatten]
        exact List.take_append_drop 128 value
termination_by value.length
decreasing_by
  rw [List.length_drop]
  show value.length - 128 < _
  omega

end Readers

/-! ## 5. The two contexts -/

/-- A TLV context that still has to read `left` of a value, its path fetched or not. -/
def TlvHolds (left : List UInt8) (ctx : Tlv.TlvIn) : Prop :=
  ∃ root t l done rest es ctx', Tlv.Holding root ctx' t l done left rest es ∧
    (ctx' = ctx ∨ ctx.hasPath = false ∧ ∃ path, Tlv.getPath ctx = (.ok path, ctx'))

theorem TlvHolds.getSomeBytes {left : List UInt8} {ctx : Tlv.TlvIn} (h : TlvHolds left ctx) (n : Nat) :
    ∃ ctx', Tlv.getSomeBytes ctx n = (⟨0, left.take n, decide (left.length ≤ n)⟩, ctx') ∧ TlvHolds (left.drop n) ctx' := by
  obtain ⟨root, t, l, done, rest, es, ctx₁, hholding, hctx⟩ := h
  obtain ⟨ctx', hget, hnext⟩ := Tlv.getSomeBytes_holding hholding n
  refine ⟨ctx', ?_, root, t, l, _, rest, es, ctx', hnext, Or.inl rfl⟩
  rcases hctx with rfl | ⟨hpath, path, hfetch⟩
  · exact hget
  · rw [← hget, Tlv.getSomeBytes, Tlv.getSomeBytes, if_neg (by simp [hpath]), hfetch, if_pos hholding.hasPath]

theorem tlv_stringReader : StringReader tlvInVtable TlvHolds where
  whole := by
    intro left ctx size hctx hsize
    obtain ⟨ctx', hget, -⟩ := hctx.getSomeBytes (size - 1)
    have hall : left.take (size - 1) = left := List.take_of_length_le (by omega)
    refine ⟨ctx', ?_⟩
    rw [getString, if_neg (by omega)]
    show Tlv.readToEndLoop (size - 1 + 1) ctx (size - 1) [] = _
    rw [Tlv.readToEndLoop, hget]
    dsimp only
    rw [if_neg (fun h => h rfl), if_pos (decide_eq_true (by omega)), hall, List.nil_append]
  part := by
    intro left ctx size hctx hpos hsize
    obtain ⟨ctx', hget, hnext⟩ := hctx.getSomeBytes (size - 1)
    have hfull : size - 1 - (left.take (size - 1)).length = 0 := by
      rw [List.length_take]
      omega
    refine ⟨ctx', ?_, hnext⟩
    rw [getString, if_neg (by omega)]
    show Tlv.readToEndLoop (size - 1 + 1) ctx (size - 1) [] = _
    rw [Tlv.readToEndLoop, hget]
    dsimp only
    rw [if_neg (fun h => h rfl), decide_eq_false (by omega), if_neg Bool.false_ne_true, if_pos hfull, List.nil_append]

theorem tlv_bytesReader : BytesReader tlvInVtable TlvHolds where
  next := by
    intro left ctx size hctx hpos
    obtain ⟨ctx', hget, hnext⟩ := hctx.getSomeBytes size
    refine ⟨decide (left.length ≤ size), ctx', ?_, of_decide_eq_true, fun hmore => ⟨?_, hnext⟩⟩
    · refine getBytes_once tlvInVtable hget (Or.inr ?_)
      rcases Nat.le_total left.length size with hle | hge
      · exact Or.inl (decide_eq_true hle)
      · refine Or.inr ?_
        show size ≤ (left.take size).length
        rw [List.length_take]
        omega
    · rintro rfl
      exact of_decide_eq_false hmore (Nat.zero_le _)

open PlainText (TextIn textInVtable inputTextCreate)

/-- A plain-text context that still has to read `left` of a string. -/
def TextHolds (left : List UInt8) (ctx : TextIn) : Prop := ctx.bytesMode = false ∧ ctx.stream = left

theorem text_stringReader : StringReader textInVtable TextHolds where
  whole := by
    rintro left ctx size ⟨hmode, rfl⟩ hsize
    have hall : ctx.stream.take (size - 1) = ctx.stream := List.take_of_length_le (by omega)
    have hnone : ctx.stream.drop (size - 1) = [] := List.drop_eq_nil_of_le (by omega)
    refine ⟨{ ctx with stream := [], msgFinished := true }, ?_⟩
    rw [getString, if_neg (by omega)]
    show PlainText.getString ctx size = _
    rw [PlainText.getString, if_neg (by simp [hmode]), PlainText.getStringLoop, streamRead, hall, hnone]
    rfl
  part := by
    rintro left ctx size ⟨hmode, rfl⟩ hpos hsize
    have hfull : size - 1 - (ctx.stream.take (size - 1)).length = 0 := by
      rw [List.length_take]
      omega
    have hmore : (ctx.stream.drop (size - 1)).isEmpty = false := by
      rw [List.isEmpty_eq_false_iff, ne_eq, List.drop_eq_nil_iff]
      omega
    refine ⟨{ ctx with stream := ctx.stream.drop (size - 1), msgFinished := false }, ?_, hmode, rfl⟩
    rw [getString, if_neg (by omega)]
    show PlainText.getString ctx size = _
    rw [PlainText.getString, if_neg (by simp [hmode]), PlainText.getStringLoop, streamRead]
    dsimp only
    rw [hfull, hmore]
    rfl

/-- A plain-text context that still has to return `left` of the bytes of a payload. -/
def TextBytesHolds (left : List UInt8) (ctx : TextIn) : Prop :=
  ∃ bytes taken, taken ≤ bytes.length ∧ PlainText.Before bytes taken ctx ∧ left = bytes.drop taken

theorem text_bytesReader : BytesReader textInVtable TextBytesHolds where
  next := by
    rintro left ctx size ⟨bytes, taken, htaken, hbefore, rfl⟩ hpos
    obtain ⟨ctx', hget, hnext⟩ := hbefore.getBytes htaken hpos
    refine ⟨_, ctx', hget, fun hends => ?_, fun hgoes => ⟨?_, bytes, _, Nat.min_le_right _ _, hnext, ?_⟩⟩
    · rw [List.length_drop]
      rcases of_decide_eq_true hends with h | h
      · omega
      · omega
    · intro hnil
      have hlength := congrArg List.length hnil
      rw [List.length_drop, List.length_nil] at hlength
      exact of_decide_eq_false hgoes (Or.inl (by omega))
    · rw [List.drop_drop]
      rcases Nat.le_total (taken + size) bytes.length with hle | hge
      · rw [Nat.min_eq_left hle]
      · rw [Nat.min_eq_right hge, List.drop_length, List.drop_eq_nil_of_le hge]

/-! ## 6. What is fetched -/

section Results

variable {σ : Type}

/-- What `_anjay_io_fetch_string` should give for a string value: what is in front of its first NUL, with one NUL behind
    it; or an error, where there is a NUL in the value or an allocation is refused. -/
def StringMeets (run : Nat → Option (Except Int (List UInt8) × σ)) (alloc : Nat → Bool) (value : List UInt8) : Prop :=
  ∃ fuel result ctx', run fuel = some (result, ctx') ∧
    (result = .ok (upToNul value ++ [0]) ∨
      (0 ∈ value ∨ Refused alloc 0 (pieces value)) ∧ ∃ code, result = .error code)

/-- What `_anjay_io_fetch_bytes` should give: the byte string, unless an allocation is refused. -/
def BytesMeets (run : Nat → Option (Except Int (List UInt8) × σ)) (alloc : Nat → Bool) (value : List UInt8) : Prop :=
  ∃ fuel result ctx', run fuel = some (result, ctx') ∧
    (result = .ok value ∨ Refused alloc 0 (blocks value) ∧ ∃ code, result = .error code)

/-- The string values that are fetched as they should be. -/
def StringHolds (alloc : Nat → Bool) (value : List UInt8) : Prop :=
  Refused alloc 0 (pieces value) ∨ BlocksBegin value

theorem StringReader.meets_iff {vtable : InputVtable σ} {Holds : List UInt8 → σ → Prop}
    (h : StringReader vtable Holds) {value : List UInt8} {ctx : σ} (hctx : Holds value ctx) (alloc : Nat → Bool) :
    StringMeets (fun fuel => fetchString vtable alloc fuel ctx) alloc value ↔ StringHolds alloc value := by
  obtain ⟨result, ctx', hrun, hresult⟩ := @genericGetter_yields _ _ alloc _ _ (h.yields hctx) []
  constructor
  · rintro ⟨fuel, result', ctx'', hrun', hmeets⟩
    obtain ⟨rfl, -⟩ := Prod.mk.inj (genericGetter_unique hrun hrun')
    rcases hresult with ⟨hrefused, -⟩ | ⟨-, hok⟩
    · exact Or.inl hrefused
    · refine Or.inr ((flatten_pieces_iff value).mp ?_)
      rcases hmeets with hvalue | ⟨-, code, herror⟩
      · exact Except.ok.inj (hok.symm.trans hvalue)
      · rw [hok] at herror
        cases herror
  · intro hholds
    refine ⟨_, result, ctx', hrun, ?_⟩
    rcases hresult with ⟨hrefused, herror⟩ | ⟨hnot, hok⟩
    · exact Or.inr ⟨Or.inr hrefused, _, herror⟩
    · rcases hholds with hrefused | hblocks
      · exact absurd hrefused hnot
      · refine Or.inl (hok.trans ?_)
        rw [List.nil_append, (flatten_pieces_iff value).mpr hblocks]

theorem BytesReader.meets {vtable : InputVtable σ} {Holds : List UInt8 → σ → Prop} (h : BytesReader vtable Holds)
    {value : List UInt8} {ctx : σ} (hctx : Holds value ctx) (alloc : Nat → Bool) :
    BytesMeets (fun fuel => fetchBytes vtable alloc fuel ctx) alloc value := by
  obtain ⟨outs, houts, hflatten, hrefused⟩ := h.yields hctx
  obtain ⟨result, ctx', hrun, hresult⟩ := @genericGetter_yields _ _ alloc _ _ houts []
  refine ⟨_, result, ctx', hrun, ?_⟩
  rcases hresult with ⟨hany, herror⟩ | ⟨-, hok⟩
  · exact Or.inr ⟨(hrefused alloc 0).mp hany, _, herror⟩
  · exact Or.inl (hok.trans (by rw [List.nil_append, hflatten]))

end Results

/-- **Values without NUL and byte strings are fetched whole, from a TLV value and from a plain-text payload; of a string
    with NULs it is what is in front of the first one exactly if all blocks of 127 bytes behind it begin with a NUL.** -/
theorem fetch_meets_iff (alloc : Nat → Bool) {value bytes payload : List UInt8} {ctx ctx' : Tlv.TlvIn}
    (hctx : TlvHolds value ctx) (hctx' : TlvHolds bytes ctx') (hpayload : Base64.decode payload = some bytes) :
    (StringMeets (fun fuel => fetchString tlvInVtable alloc fuel ctx) alloc value ↔ StringHolds alloc value) ∧
    (StringMeets (fun fuel => fetchString textInVtable alloc fuel (inputTextCreate value)) alloc value ↔
      StringHolds alloc value) ∧
    (0 ∉ value → StringHolds alloc value) ∧
    BytesMeets (fun fuel => fetchBytes tlvInVtable alloc fuel ctx') alloc bytes ∧
    BytesMeets (fun fuel => fetchBytes textInVtable alloc fuel (inputTextCreate payload)) alloc bytes :=
  ⟨tlv_stringReader.meets_iff hctx alloc, text_stringReader.meets_iff ⟨rfl, rfl⟩ alloc,
    fun h => Or.inr (blocksBegin_of_notMem h), tlv_bytesReader.meets hctx' alloc,
    text_bytesReader.meets ⟨bytes, 0, Nat.zero_le _, PlainText.Before.start hpayload, rfl⟩ alloc⟩

/-- 132 letters A, more than either buffer takes. -/
def longValue : List UInt8 := List.replicate 132 0x41

/-- Their base64 form. -/
def longPayload : List UInt8 := (List.replicate 44 [0x51, 0x55, 0x46, 0x42]).flatten

/-- The context in front of the resource 1 of /3/0, with the letters. -/
def longEntry : Tlv.TlvIn := Tlv.inputTlvCreate ([0xC8, 0x01, 0x84] ++ longValue) (some ⟨3, 0, idInvalid, idInvalid⟩)

theorem longEntry_holds : TlvHolds longValue longEntry :=
  ⟨⟨3, 0, idInvalid, idInvalid⟩, .rid, ⟨⟨3, 0, 1, idInvalid⟩, false, longValue⟩, [], [], [],
    (Tlv.getPath longEntry).2, ⟨by decide +kernel, by decide +kernel, by decide +kernel, by decide +kernel, rfl,
      by decide +kernel, by decide +kernel, by decide +kernel⟩,
    Or.inr ⟨by decide +kernel, ⟨⟨3, 0, 1, idInvalid⟩, false⟩, by decide +kernel⟩⟩

theorem fetch_meets_longValue :
    (StringMeets (fun fuel => fetchString tlvInVtable (fun _ => true) fuel longEntry) (fun _ => true) longValue ↔
      StringHolds (fun _ => true) longValue) ∧
    (StringMeets (fun fuel => fetchString textInVtable (fun _ => true) fuel (inputTextCreate longValue)) (fun _ => true)
      longValue ↔ StringHolds (fun _ => true) longValue) ∧
    (0 ∉ longValue → StringHolds (fun _ => true) longValue) ∧
    BytesMeets (fun fuel => fetchBytes tlvInVtable (fun _ => true) fuel longEntry) (fun _ => true) longValue ∧
    BytesMeets (fun fuel => fetchBytes textInVtable (fun _ => true) fuel (inputTextCreate longPayload))
      (fun _ => true) longValue :=
  fetch_meets_iff (fun _ => true) longEntry_holds longEntry_holds (by decide +kernel)

theorem not_refused (n : Nat) (outs : List (List UInt8)) : ¬Refused (fun _ => true) n outs := by
  induction outs generalizing n with
  | nil => exact id
  | cons out outs ih => exact fun h => h.elim (fun h => (nomatch h.2)) (ih _)

/-- A NUL behind the first byte, and a block of 127 bytes that does not end there: the last byte is put behind the
    first. -/
theorem nul_inside_not_meet :
    ¬StringMeets (fun fuel => fetchString textInVtable (fun _ => true) fuel
        (inputTextCreate (0x41 :: 0 :: List.replicate 126 0x42))) (fun _ => true)
      (0x41 :: 0 :: List.replicate 126 0x42) := by
  intro h
  have hblocks : StringHolds (fun _ => true) (0x41 :: 0 :: List.replicate 126 0x42) :=
    (@StringReader.meets_iff _ _ _ text_stringReader _ (inputTextCreate _) ⟨rfl, rfl⟩ _).mp h
  rcases hblocks with hrefused | hblocks
  · exact not_refused _ _ hrefused
  · have hfirst : upToNul (0x41 :: 0 :: List.replicate 126 0x42) = [0x41] := rfl
    have hlast := hblocks 1 (by rw [hfirst]; decide) (by simp)
    simp at hlast

end Anjay.Io
