/-
  File:      Anjay/Dm/ExecuteArgs.lean
  Subject:   The argument lists of an Execute payload, and what a sequence of calls of the reader
             gives for them.

  * `step_sim`: on a payload that starts with an argument list, every call gives what a reader of the
    list gives, but for a skip of a value whose unread rest is a positive multiple of 63 long, and for a
    negative character behind the list, which the assertion stops at.
  * `step_consumed`: whatever the payload, what was read without an error is an argument list.
  * `outcomes_correct_iff`: when a sequence of calls does what the grammar says.
-/
import Anjay.Dm.Execute
import Mathlib.Data.List.Basic
import Mathlib.Algebra.Ring.Nat

namespace Anjay.Execute

/-! ## 1. The grammar -/

/-- A byte that can stand in a value. -/
abbrev ValueChar := { b : UInt8 // isValue b.toNat = true }

/-- `DIGIT [ "='" CHAR* "'" ]`. -/
structure Arg where
  digit : Fin 10
  value : Option (List ValueChar)

def Arg.valueBytes (a : Arg) : List UInt8 := (a.value.getD []).map Subtype.val

def digitByte (d : Fin 10) : UInt8 := UInt8.ofNat (0x30 + d.val)

def renderArg (a : Arg) : List UInt8 :=
  digitByte a.digit ::
    match a.value with
    | none => []
    | some v => 0x3D :: 0x27 :: (v.map Subtype.val ++ [0x27])

/-- Arguments behind another one. -/
def renderRest (as : List Arg) : List UInt8 := as.flatMap fun a => 0x2C :: renderArg a

theorem renderRest_cons (a : Arg) (as : List Arg) :
    renderRest (a :: as) = 0x2C :: (renderArg a ++ renderRest as) := by
  rw [renderRest, List.flatMap_cons]
  rfl

/-- `arg *( "," arg )`; the empty payload stands for no arguments. -/
def render : List Arg → List UInt8
  | [] => []
  | a :: as => renderArg a ++ renderRest as

/-! ## 2. A reader of argument lists -/

/-- The arguments to come, and what is unread of the value of the current one. -/
structure Reader where
  args : List Arg
  rest : List UInt8

namespace Reader

def step (r : Reader) : Op → Outcome × Reader
  | .nextArg =>
      match r.args with
      | [] => (.nextArg executeGetArgEnd (some (-1, false)), ⟨[], []⟩)
      | a :: as => (.nextArg 0 (some (a.digit.val, a.value.isSome)), ⟨as, a.valueBytes⟩)
  | .argValue bufSize =>
      (.argValue (if r.rest.length ≤ bufSize - 1 then 0 else bufferTooShort) (r.rest.take (bufSize - 1)),
        ⟨r.args, r.rest.drop (bufSize - 1)⟩)

def run : List Op → Reader → List Outcome
  | [], _ => []
  | op :: ops, r => (r.step op).1 :: run ops (r.step op).2

/-- The pieces of a value, joined, are the value as far as the buffers reach. -/
theorem flatMap_bytes_run (sizes : List { n : Nat // 2 ≤ n }) (r : Reader) :
    (r.run (sizes.map .argValue)).flatMap Outcome.bytes =
      r.rest.take ((sizes.map fun n => n.val - 1).sum) := by
  induction sizes generalizing r with
  | nil => simp [run]
  | cons n sizes ih =>
      rw [List.map_cons, run, List.flatMap_cons, ih, List.map_cons, List.sum_cons, List.take_add]
      rfl

/-- The call goes to the next argument when 63, 126, ... bytes of the value are unread: the buffer for
    skipping a value has room for 63 bytes. -/
def SkipsFull (r : Reader) : Op → Prop
  | .nextArg => r.rest ≠ [] ∧ r.rest.length % 63 = 0
  | .argValue _ => False

instance instDecidableSkipsFull (r : Reader) : DecidablePred r.SkipsFull
  | .nextArg => inferInstanceAs (Decidable (_ ∧ _))
  | .argValue _ => inferInstanceAs (Decidable False)

/-- Some call of the sequence does. -/
def SomeSkipsFull : List Op → Reader → Prop
  | [], _ => False
  | op :: ops, r => r.SkipsFull op ∨ SomeSkipsFull ops (r.step op).2

theorem not_someSkipsFull_nil : ∀ ops : List Op, ¬(⟨[], []⟩ : Reader).SomeSkipsFull ops
  | [], h => h
  | .nextArg :: ops, h => h.elim (fun h => h.1 rfl) (not_someSkipsFull_nil ops)
  | .argValue _ :: ops, h => h.elim id (by simpa [step] using not_someSkipsFull_nil ops)

theorem not_stops_step {r : Reader} {op : Op} {ops : List Op} (h : (r.step op).2.SomeSkipsFull ops) :
    ¬(r.step op).1.Stops := by
  obtain ⟨args, rest⟩ := r
  cases op with
  | argValue bufSize => exact id
  | nextArg =>
      cases args with
      | nil => exact absurd h (not_someSkipsFull_nil ops)
      | cons a as => exact (by decide : (0 : Int) ≠ executeGetArgEnd)

theorem not_isError_step (r : Reader) (op : Op) : ¬(r.step op).1.IsError := by
  obtain ⟨args, rest⟩ := r
  cases op with
  | nextArg =>
      cases args with
      | nil => exact (by decide : ¬executeGetArgEnd < 0)
      | cons _ _ => exact Int.lt_irrefl 0
  | argValue bufSize =>
      show ¬(if rest.length ≤ bufSize.val - 1 then 0 else bufferTooShort) < 0
      split <;> decide

end Reader

/-! ## 3. Characters -/

section Chars

variable {signedChar : Bool}

theorem charToInt_of_lt {b : UInt8} (h : b.toNat < 128) : charToInt signedChar b = b.toNat := by
  rw [charToInt, if_neg (by simp [Nat.not_le.mpr h])]

theorem charToInt_eq_eof {b : UInt8} : charToInt signedChar b = eof ↔ signedChar = true ∧ b = 0xFF := by
  have hlt : b.toNat < 256 := b.toNat_lt
  have hff : b = 0xFF ↔ b.toNat = 255 := UInt8.toNat_inj.symm
  rw [charToInt, hff]
  cases signedChar with
  | false => simp [eof]
  | true =>
      by_cases h : 128 ≤ b.toNat
      · simp [h, eof]; omega
      · simp [h, eof]; omega

/-- The bytes of the grammar are read as themselves, and nothing else is. -/
theorem eq_of_charToInt {b c : UInt8} (hc : c.toNat < 128) (h : charToInt signedChar b = c.toNat) :
    b = c := by
  have hlt : b.toNat < 256 := b.toNat_lt
  refine UInt8.toNat_inj.mp ?_
  rw [charToInt] at h
  split at h
  · next hs =>
    have hb : 128 ≤ b.toNat := by simpa using (Bool.and_eq_true_iff.mp hs).2
    omega
  · omega

theorem toNat_ofNat_charToInt {b : UInt8} (h : b.toNat < 128) :
    UInt8.ofNat (charToInt signedChar b).toNat = b := by
  rw [charToInt_of_lt h]
  simp

theorem isValue_lt {b : UInt8} (h : isValue b.toNat = true) : b.toNat < 128 := by
  simp only [isValue, Bool.or_eq_true, Bool.and_eq_true, decide_eq_true_eq, beq_iff_eq] at h
  omega

theorem isValue_charToInt {b : UInt8} :
    isValue (charToInt signedChar b) = true ↔ isValue b.toNat = true := by
  have hlt : b.toNat < 256 := b.toNat_lt
  rw [charToInt]
  split
  · next h =>
    have hb : 128 ≤ b.toNat := by simpa using (Bool.and_eq_true_iff.mp h).2
    simp only [isValue, Bool.or_eq_true, Bool.and_eq_true, decide_eq_true_eq, beq_iff_eq]
    omega
  · exact Iff.rfl

theorem digitByte_toNat (d : Fin 10) : (digitByte d).toNat = 0x30 + d.val := by
  rw [digitByte, UInt8.toNat_ofNat']
  omega

theorem isDigit_charToInt {b : UInt8} (h : isDigit (charToInt signedChar b) = true) :
    ∃ d : Fin 10, b = digitByte d ∧ charToInt signedChar b = 0x30 + d.val := by
  have hlt : b.toNat < 256 := b.toNat_lt
  simp only [isDigit, Bool.and_eq_true, decide_eq_true_eq] at h
  have hb : charToInt signedChar b = b.toNat := by
    rw [charToInt] at h ⊢
    split
    · next hs => rw [if_pos hs] at h; omega
    · rfl
  refine ⟨⟨b.toNat - 0x30, by omega⟩, ?_, ?_⟩
  · refine UInt8.toNat_inj.mp ?_
    rw [digitByte_toNat]
    show b.toNat = 48 + (b.toNat - 48)
    omega
  · rw [hb]
    show (b.toNat : Int) = 48 + ((b.toNat - 48 : Nat) : Int)
    omega

theorem charToInt_digitByte (d : Fin 10) : charToInt signedChar (digitByte d) = 0x30 + d.val := by
  have hd : (digitByte d).toNat < 128 := by rw [digitByte_toNat]; omega
  rw [charToInt_of_lt hd, digitByte_toNat]
  omega

theorem isDigit_digitByte (d : Fin 10) : isDigit (charToInt signedChar (digitByte d)) = true := by
  rw [charToInt_digitByte]
  simp only [isDigit, Bool.and_eq_true, decide_eq_true_eq]
  omega

/-- A byte that `state_read_argument` asserts it does not meet. -/
def Rejected (signedChar : Bool) (b : UInt8) : Prop := signedChar = true ∧ 128 ≤ b.toNat ∧ b ≠ 0xFF

theorem rejected_iff {b : UInt8} : Rejected signedChar b ↔
    ¬(charToInt signedChar b = eof ∨ 0 ≤ charToInt signedChar b ∧ charToInt signedChar b ≤ 255) := by
  have hlt : b.toNat < 256 := b.toNat_lt
  have hff : b = 0xFF ↔ b.toNat = 255 := UInt8.toNat_inj.symm
  unfold Rejected
  rw [charToInt_eq_eof, charToInt, ne_eq, hff]
  cases signedChar with
  | false => simp; omega
  | true =>
      by_cases h : 128 ≤ b.toNat
      · simp [h]; omega
      · simp [h]; omega

theorem passes_digitByte (d : Fin 10) : ¬¬(charToInt signedChar (digitByte d) = eof ∨
    0 ≤ charToInt signedChar (digitByte d) ∧ charToInt signedChar (digitByte d) ≤ 255) := by
  rw [charToInt_digitByte]
  omega

end Chars

/-! ## 4. Payloads that start with an argument list -/

section Simulation

variable {signedChar : Bool} {tail : List UInt8}

/-- What is left reads as the end of the payload. -/
def AtEnd (signedChar : Bool) (tail : List UInt8) : Prop :=
  tail = [] ∨ signedChar = true ∧ tail.head? = some 0xFF

/-- What may stand behind a list of arguments: the end, or a separator and a byte that is asserted not to be there. -/
def Behind (signedChar : Bool) (tail : List UInt8) : Prop :=
  AtEnd signedChar tail ∨ ∃ b s, tail = 0x2C :: b :: s ∧ Rejected signedChar b

theorem not_atEnd_separator (s : List UInt8) : ¬AtEnd signedChar (0x2C :: s) := by
  rintro (h | ⟨-, h⟩)
  · cases h
  · exact absurd (Option.some.inj h) (by decide)

theorem getNextChar_cons (b : UInt8) (s : List UInt8) (state : ExecuteState) (arg : Int) (hv : Bool) :
    getNextChar signedChar ⟨b :: s, state, arg, hv⟩ = (charToInt signedChar b, ⟨s, state, arg, hv⟩) := rfl

theorem getNextChar_atEnd (h : AtEnd signedChar tail) (state : ExecuteState) (arg : Int) (hv : Bool) :
    ∃ s, getNextChar signedChar ⟨tail, state, arg, hv⟩ = (eof, ⟨s, state, arg, hv⟩) := by
  rcases h with rfl | ⟨hs, hhead⟩
  · exact ⟨[], rfl⟩
  · cases tail with
    | nil => cases hhead
    | cons b s =>
        have hb : charToInt signedChar b = eof := charToInt_eq_eof.mpr ⟨hs, by simpa using hhead⟩
        exact ⟨s, by rw [getNextChar_cons, hb]⟩

theorem charToInt_delimiter : charToInt signedChar 0x27 = 0x27 := charToInt_of_lt (by decide)

theorem charToInt_separator : charToInt signedChar 0x2C = 0x2C := charToInt_of_lt (by decide)

theorem charToInt_assignment : charToInt signedChar 0x3D = 0x3D := charToInt_of_lt (by decide)

/-- The context and the reader are at the same place; behind the arguments to come stands `tail`. -/
inductive Sim (signedChar : Bool) (tail : List UInt8) : ExecuteCtx → Reader → Prop
  | start {as : List Arg} {arg : Int} {hv : Bool} (hnil : as = [] → AtEnd signedChar tail) :
      Sim signedChar tail ⟨render as ++ tail, .readArgument, arg, hv⟩ ⟨as, []⟩
  | next {a : Arg} {as : List Arg} {arg : Int} {hv : Bool} :
      Sim signedChar tail ⟨render (a :: as) ++ tail, .finishedReadingArgument, arg, hv⟩ ⟨a :: as, []⟩
  | ended {s : List UInt8} {arg : Int} {hv : Bool} (hend : AtEnd signedChar tail) :
      Sim signedChar tail ⟨s, .eof, arg, hv⟩ ⟨[], []⟩
  | rejected {b : UInt8} {s : List UInt8} {state : ExecuteState} {arg : Int} {hv : Bool} (hb : Rejected signedChar b)
      (hend : ¬AtEnd signedChar tail) (hstate : state = .readArgument ∨ state = .finishedReadingArgument) :
      Sim signedChar tail ⟨b :: s, state, arg, hv⟩ ⟨[], []⟩
  | inValue {rest : List UInt8} {as : List Arg} {arg : Int} {hv : Bool}
      (hrest : ∀ b ∈ rest, isValue b.toNat = true) :
      Sim signedChar tail ⟨rest ++ 0x27 :: (renderRest as ++ tail), .readValue, arg, hv⟩ ⟨as, rest⟩

theorem Sim.state_ne_error {ctx : ExecuteCtx} {r : Reader} (h : Sim signedChar tail ctx r) : ctx.state ≠ .error := by
  cases h with
  | rejected _ _ hstate => rcases hstate with rfl | rfl <;> simp
  | _ => simp

theorem Sim.rest_nil {ctx : ExecuteCtx} {r : Reader} (h : Sim signedChar tail ctx r) (hs : ctx.state ≠ .readValue) :
    r.rest = [] := by
  cases h with
  | start | next | ended | rejected => rfl
  | inValue _ => exact absurd rfl hs

theorem Sim.of_readValue {ctx : ExecuteCtx} {r : Reader} (h : Sim signedChar tail ctx r) (hs : ctx.state = .readValue) :
    ∃ rest as arg hv, (∀ b ∈ rest, isValue b.toNat = true) ∧ r = ⟨as, rest⟩ ∧
      ctx = ⟨rest ++ 0x27 :: (renderRest as ++ tail), .readValue, arg, hv⟩ := by
  cases h with
  | start | next | ended => cases hs
  | rejected _ _ hstate => rcases hstate with rfl | rfl <;> cases hs
  | inValue hrest => exact ⟨_, _, _, _, hrest, rfl, rfl⟩

/-- Behind an argument: a separator, or the end. -/
theorem expectSeparatorOrEof_rest (hend : Behind signedChar tail) (as : List Arg) (state : ExecuteState)
    (arg : Int) (hv : Bool) :
    ∃ ch s, getNextChar signedChar ⟨renderRest as ++ tail, state, arg, hv⟩ = (ch, ⟨s, state, arg, hv⟩) ∧
      isValueAssignment ch = false ∧ (isArgSeparator ch = true ∨ ch = eof) ∧
      expectSeparatorOrEof ch ≠ .readValue ∧
      ∀ arg hv, Sim signedChar tail ⟨s, expectSeparatorOrEof ch, arg, hv⟩ ⟨as, []⟩ := by
  cases as with
  | nil =>
      rcases hend with hend | ⟨b, s, rfl, hb⟩
      · obtain ⟨s, hget⟩ := getNextChar_atEnd hend state arg hv
        exact ⟨eof, s, hget, rfl, Or.inr rfl, by decide, fun _ _ => .ended hend⟩
      · refine ⟨0x2C, b :: s, ?_, rfl, Or.inl rfl, by decide, fun _ _ => ?_⟩
        · rw [renderRest, List.flatMap_nil, List.nil_append, getNextChar_cons, charToInt_separator]
        · exact .rejected hb (not_atEnd_separator _) (Or.inr rfl)
  | cons a as =>
      refine ⟨0x2C, render (a :: as) ++ tail, ?_, rfl, Or.inl rfl, by decide, fun _ _ => .next⟩
      rw [renderRest_cons, List.cons_append, getNextChar_cons, charToInt_separator]
      rfl

theorem isValueDelimiter_peek {rest s : List UInt8} (hrest : ∀ b ∈ rest, isValue b.toNat = true)
    (state : ExecuteState) (arg : Int) (hv : Bool) :
    isValueDelimiter (peekNextChar signedChar ⟨rest ++ 0x27 :: s, state, arg, hv⟩) =
      decide (rest.length = 0) := by
  cases rest with
  | nil =>
      show isValueDelimiter (charToInt signedChar 0x27) = true
      rw [charToInt_delimiter]
      rfl
  | cons b rest =>
      have hb := hrest b List.mem_cons_self
      show isValueDelimiter (charToInt signedChar b) = false
      rw [charToInt_of_lt (isValue_lt hb)]
      simp only [isValue, Bool.or_eq_true, Bool.and_eq_true, decide_eq_true_eq, beq_iff_eq] at hb
      simp only [isValueDelimiter, beq_eq_false_iff_ne]
      omega

/-- **The loop that reads a value** takes as many bytes as there is room for, and passes the delimiter
    only when there is room left. -/
theorem valueLoop_sim (hend : Behind signedChar tail) {as : List Arg} :
    ∀ (room : Nat) (rest : List UInt8) (arg : Int) (hv : Bool) (bytes : List UInt8) (finished : Bool),
      (∀ b ∈ rest, isValue b.toNat = true) →
      ∃ ctx' finished',
        valueLoop signedChar room ⟨rest ++ 0x27 :: (renderRest as ++ tail), .readValue, arg, hv⟩ bytes
          finished = (bytes ++ rest.take room, finished', ctx') ∧
        Sim signedChar tail ctx' ⟨as, rest.drop room⟩ ∧ (ctx'.state = .readValue ↔ room ≤ rest.length) ∧
        (0 < room → finished' = decide (rest.length ≤ room))
  | 0, rest, arg, hv, bytes, finished, hrest =>
      ⟨⟨rest ++ 0x27 :: (renderRest as ++ tail), .readValue, arg, hv⟩, finished, by simp [valueLoop],
        .inValue hrest, by simp, fun h => absurd h (Nat.lt_irrefl 0)⟩
  | room + 1, [], arg, hv, bytes, finished, _ => by
      obtain ⟨ch, s, hget, -, -, hne, hsim⟩ := expectSeparatorOrEof_rest hend as .readValue arg hv
      have hread : stateReadValue signedChar ⟨renderRest as ++ tail, .readValue, arg, hv⟩ 0x27 =
          (expectSeparatorOrEof ch, ⟨s, .readValue, arg, hv⟩) := by
        rw [stateReadValue, hget]
        rfl
      refine ⟨⟨s, expectSeparatorOrEof ch, arg, hv⟩, true, ?_, hsim _ _, by simp [hne], fun _ => by simp⟩
      rw [List.nil_append, valueLoop, getNextChar_cons, charToInt_delimiter]
      simp [hread, hne]
  | room + 1, b :: rest, arg, hv, bytes, finished, hrest => by
      have hb := hrest b List.mem_cons_self
      obtain ⟨ctx', fin', hloop, hsim, hstate, hfin⟩ := @valueLoop_sim hend as room rest arg hv
        (bytes ++ [b]) (isValueDelimiter (peekNextChar signedChar
          ⟨rest ++ 0x27 :: (renderRest as ++ tail), .readValue, arg, hv⟩))
        fun x hx => hrest x (List.mem_cons_of_mem _ hx)
      have hread : ∀ ctx, stateReadValue signedChar ctx (charToInt signedChar b) = (.readValue, ctx) :=
        fun ctx => by rw [stateReadValue, if_pos (isValue_charToInt.mpr hb)]
      refine ⟨ctx', fin', ?_, hsim, by simp [hstate], fun _ => ?_⟩
      · rw [List.cons_append, valueLoop, getNextChar_cons]
        simp [hread, toNat_ofNat_charToInt (isValue_lt hb), hloop]
      · cases room with
        | succ room => simp [hfin (Nat.succ_pos _)]
        | zero =>
            have hflag := congrArg (fun r => r.2.1) hloop
            simp only [valueLoop] at hflag
            rw [← hflag, isValueDelimiter_peek fun x hx => hrest x (List.mem_cons_of_mem _ hx)]
            simp

theorem executeGetArgValue_sim (hend : Behind signedChar tail) {ctx : ExecuteCtx} {r : Reader}
    (h : Sim signedChar tail ctx r) {bufSize : Nat} (hbuf : 2 ≤ bufSize) :
    ∃ ctx', executeGetArgValue signedChar ctx bufSize =
        (if r.rest.length ≤ bufSize - 1 then 0 else bufferTooShort, r.rest.take (bufSize - 1), ctx') ∧
      Sim signedChar tail ctx' ⟨r.args, r.rest.drop (bufSize - 1)⟩ ∧
      (ctx'.state = .readValue ↔ ctx.state = .readValue ∧ bufSize - 1 ≤ r.rest.length) := by
  by_cases hs : ctx.state = .readValue
  · obtain ⟨rest, as, arg, hv, hrest, rfl, rfl⟩ := h.of_readValue hs
    obtain ⟨ctx', fin', hloop, hsim, hstate, hfin⟩ :=
      @valueLoop_sim signedChar tail hend as (bufSize - 1) rest arg hv [] true hrest
    refine ⟨ctx', ?_, hsim, by simp [hstate]⟩
    rw [executeGetArgValue, if_neg (by omega)]
    simp only [if_true, hloop, hsim.state_ne_error, if_false, hfin (by omega), List.nil_append,
      decide_eq_true_eq]
    split <;> rfl
  · have hrest := h.rest_nil hs
    refine ⟨ctx, ?_, by rw [hrest]; rw [List.drop_nil, ← hrest]; exact h, by simp [hs]⟩
    rw [executeGetArgValue, if_neg fun hc => hs hc.1]
    simp [hs, h.state_ne_error, hrest]

/-- **Skipping the rest of a value** stops in front of its delimiter when that rest is a positive
    multiple of 63 long: the last round fills the buffer and finds the value finished. -/
theorem skipLoop_sim (hend : Behind signedChar tail) {as : List Arg} :
    ∀ (fuel : Nat) {ctx : ExecuteCtx} {rest : List UInt8}, Sim signedChar tail ctx ⟨as, rest⟩ →
      ctx.state = .readValue → rest.length < fuel →
      ∃ ctx', skipLoop signedChar fuel ctx = (0, ctx') ∧ Sim signedChar tail ctx' ⟨as, []⟩ ∧
        (ctx'.state = .readValue ↔ rest ≠ [] ∧ rest.length % 63 = 0)
  | 0, _, _, _, _, hfuel => absurd hfuel (Nat.not_lt_zero _)
  | fuel + 1, ctx, rest, h, hs, hfuel => by
      obtain ⟨ctx1, hget, hsim, hstate⟩ := executeGetArgValue_sim hend h (by decide : 2 ≤ 64)
      rw [skipLoop, hget]
      by_cases hle : rest.length ≤ 63
      · have hdrop : rest.drop 63 = [] := List.drop_eq_nil_of_le hle
        refine ⟨ctx1, by simp [hle, bufferTooShort], by simpa [hdrop] using hsim, ?_⟩
        rw [hstate]
        have hnil : rest ≠ [] ↔ 0 < rest.length := List.length_pos_iff.symm
        simp only [hs, true_and, hnil]
        omega
      · have hne : rest.drop 63 ≠ [] := fun hnil => hle (List.drop_eq_nil_iff.mp hnil)
        have hs1 : ctx1.state = .readValue := hstate.mpr ⟨hs, by simp; omega⟩
        obtain ⟨ctx', hloop, hsim', hstate'⟩ := skipLoop_sim hend fuel hsim hs1 (by simp; omega)
        refine ⟨ctx', by simpa [hle, bufferTooShort] using hloop, hsim', ?_⟩
        have hrest : rest ≠ [] := fun hnil => hle (by simp [hnil])
        rw [hstate']
        simp only [ne_eq, hne, hrest, not_false_eq_true, true_and, List.length_drop]
        omega

/-- What comes behind the digit of an argument. -/
theorem expectSeparatorOrAssignmentOrEof_arg (hend : Behind signedChar tail) (a : Arg) (as : List Arg)
    (state : ExecuteState) (arg : Int) :
    ∃ ch ctx1 state' ctx', getNextChar signedChar ⟨(renderArg a).tail ++ (renderRest as ++ tail), state,
        arg, false⟩ = (ch, ctx1) ∧
      expectSeparatorOrAssignmentOrEof signedChar ctx1 ch = (state', ctx') ∧ state' ≠ .readArgument ∧
      ctx'.arg = arg ∧ ctx'.argHasValue = a.value.isSome ∧
      Sim signedChar tail { ctx' with state := state' } ⟨as, a.valueBytes⟩ := by
  obtain ⟨digit, value⟩ := a
  cases value with
  | none =>
      obtain ⟨ch, s, hget, hassign, hch, hne, hsim⟩ := expectSeparatorOrEof_rest hend as state arg false
      refine ⟨ch, ⟨s, state, arg, false⟩, expectSeparatorOrEof ch, ⟨s, state, arg, false⟩, hget, ?_, ?_, rfl,
        rfl, hsim _ _⟩
      · rw [expectSeparatorOrAssignmentOrEof, expectSeparatorOrEof, hassign]
        rcases hch with hch | hch <;> simp [hch]
        split <;> rfl
      · rcases hch with hch | hch <;> simp [expectSeparatorOrEof, hch]
        split <;> decide
  | some v =>
      have hv : ∀ b ∈ v.map Subtype.val, isValue b.toNat = true := by
        intro b hb
        obtain ⟨c, -, rfl⟩ := List.mem_map.mp hb
        exact c.property
      refine ⟨0x3D, ⟨0x27 :: (v.map Subtype.val ++ 0x27 :: (renderRest as ++ tail)), state, arg, false⟩,
        .readValue, ⟨v.map Subtype.val ++ 0x27 :: (renderRest as ++ tail), state, arg, true⟩, ?_, ?_,
        by decide, rfl, rfl, .inValue hv⟩
      · simp only [renderArg, List.tail_cons, List.cons_append, getNextChar_cons, charToInt_assignment]
        simp
      · rw [expectSeparatorOrAssignmentOrEof, if_neg (by decide), if_pos (by decide), getNextChar_cons,
          charToInt_delimiter]
        rfl

theorem tryReadingNextArg_arg (hend : Behind signedChar tail) (a : Arg) (as : List Arg)
    {state : ExecuteState} (hstate : state ≠ .error) (arg : Int) (hv : Bool) :
    ∃ ctx', tryReadingNextArg signedChar ⟨render (a :: as) ++ tail, state, arg, hv⟩ = some (0, ctx') ∧
      ctx'.arg = a.digit.val ∧ ctx'.argHasValue = a.value.isSome ∧
      Sim signedChar tail ctx' ⟨as, a.valueBytes⟩ := by
  obtain ⟨ch, ctx1, state', ctx', hget, hexp, hne, harg, hval, hsim⟩ :=
    expectSeparatorOrAssignmentOrEof_arg hend a as state a.digit.val
  refine ⟨{ ctx' with state := state' }, ?_, harg, hval, hsim⟩
  have hstream : render (a :: as) ++ tail =
      digitByte a.digit :: ((renderArg a).tail ++ (renderRest as ++ tail)) := by
    rw [render, List.append_assoc]
    rfl
  have hread : stateReadArgument signedChar ⟨(renderArg a).tail ++ (renderRest as ++ tail), state, -1, false⟩
      (charToInt signedChar (digitByte a.digit)) = some (state', ctx') := by
    rw [stateReadArgument, if_neg (passes_digitByte _), if_pos (isDigit_digitByte _), charToInt_digitByte]
    have hd : (0x30 + (a.digit.val : Int)) - 0x30 = a.digit.val := by omega
    simp only [hd, hget, hexp]
  have hdigit : ¬(charToInt signedChar (digitByte a.digit) = eof) := by
    rw [charToInt_digitByte, eof]
    omega
  have hneg : ¬((a.digit.val : Int) = -1) := by omega
  rw [tryReadingNextArg, if_neg hstate, hstream, getNextChar_cons]
  simp only [hdigit, and_false, if_false, readArgumentLoop, hread, ne_eq, hne, not_false_eq_true, if_true,
    harg, hneg, false_and, false_or]
  rw [if_neg hsim.state_ne_error]

theorem skipValue_sim (hend : Behind signedChar tail) {ctx : ExecuteCtx} {r : Reader}
    (h : Sim signedChar tail ctx r) :
    ∃ ctx', skipValue signedChar ctx = (0, ctx') ∧ Sim signedChar tail ctx' ⟨r.args, []⟩ ∧
      (ctx'.state = .readValue ↔ r.rest ≠ [] ∧ r.rest.length % 63 = 0) := by
  by_cases hs : ctx.state = .readValue
  · have hlen : r.rest.length < ctx.payloadStream.length + 1 := by
      obtain ⟨rest, as, arg, hv, -, rfl, rfl⟩ := h.of_readValue hs
      rw [List.length_append]
      exact Nat.lt_succ_of_le (Nat.le_add_right _ _)
    rw [skipValue, if_pos hs]
    exact skipLoop_sim hend _ h hs hlen
  · have hrest := h.rest_nil hs
    refine ⟨ctx, by rw [skipValue, if_neg hs], ?_, by simp [hs, hrest]⟩
    obtain ⟨args, rest⟩ := r
    cases hrest
    exact h

/-- In front of the delimiter of a value there is no argument to read. -/
theorem executeGetNextArg_stuck {ctx ctx1 : ExecuteCtx} (hskip : skipValue signedChar ctx = (0, ctx1))
    {as : List Arg} (h : Sim signedChar tail ctx1 ⟨as, []⟩) (hs : ctx1.state = .readValue) :
    ∃ ctx', executeGetNextArg signedChar ctx = some (errBadRequest, none, ctx') := by
  obtain ⟨rest, args, arg, hv, -, heq, rfl⟩ := h.of_readValue hs
  obtain ⟨rfl, rfl⟩ := Reader.mk.inj heq
  refine ⟨⟨renderRest as ++ tail, .error, -1, false⟩, ?_⟩
  rw [executeGetNextArg, hskip]
  simp only [List.nil_append, tryReadingNextArg, getNextChar_cons, charToInt_delimiter,
    readArgumentLoop, stateReadArgument]
  rfl

/-- In front of a byte that is asserted not to be there, reading an argument aborts. -/
theorem tryReadingNextArg_rejected {b : UInt8} (hb : Rejected signedChar b) (s : List UInt8) {state : ExecuteState}
    (hstate : state ≠ .error) (arg : Int) (hv : Bool) :
    tryReadingNextArg signedChar ⟨b :: s, state, arg, hv⟩ = none := by
  have hnot := rejected_iff.mp hb
  have hread : ∀ ctx, stateReadArgument signedChar ctx (charToInt signedChar b) = none := fun ctx => by
    rw [stateReadArgument, if_pos hnot]
  have hne : ¬(state = .finishedReadingArgument ∧ charToInt signedChar b = eof) := fun hand => hnot (Or.inl hand.2)
  rw [tryReadingNextArg, if_neg hstate, getNextChar_cons]
  simp only [hne, if_false, readArgumentLoop, hread]

/-- **A call on a payload that starts with an argument list** gives what the list says, or the list is at its end and
    the call aborts. -/
theorem step_sim (hend : Behind signedChar tail) {ctx : ExecuteCtx} {r : Reader} (h : Sim signedChar tail ctx r)
    {op : Op} (hskip : ¬r.SkipsFull op) :
    (∃ ctx', step signedChar ctx op = some ((r.step op).1, ctx') ∧ Sim signedChar tail ctx' (r.step op).2 ∧
      (AtEnd signedChar tail ∨ (op = .nextArg → r.args ≠ []))) ∨
    ¬AtEnd signedChar tail ∧ op = .nextArg ∧ r.args = [] ∧ step signedChar ctx op = none := by
  cases op with
  | argValue bufSize =>
      obtain ⟨ctx', hget, hsim, -⟩ := executeGetArgValue_sim hend h bufSize.property
      exact Or.inl ⟨ctx', by rw [step, hget]; rfl, hsim, Or.inr fun hop => nomatch hop⟩
  | nextArg =>
      obtain ⟨ctx1, hskipped, hsim, hstate⟩ := skipValue_sim hend h
      have hne : ctx1.state ≠ .readValue := fun hs => hskip (hstate.mp hs)
      obtain ⟨args, rest⟩ := r
      -- the place behind the value: an argument to read, the end, or a byte that aborts
      cases args with
      | nil =>
          cases hsim with
          | inValue _ => exact absurd rfl hne
          | ended hend => exact Or.inl ⟨_, by rw [step, executeGetNextArg, hskipped]; rfl, .ended hend, Or.inl hend⟩
          | @rejected b s state arg hv hb hnot hplace =>
              have herr : state ≠ .error := by rcases hplace with rfl | rfl <;> decide
              have hread := tryReadingNextArg_rejected hb s herr arg hv
              have heof : state ≠ .eof := by rcases hplace with rfl | rfl <;> decide
              refine Or.inr ⟨hnot, rfl, rfl, ?_⟩
              rw [step, executeGetNextArg, hskipped]
              simp only [hread, heof, ne_eq, not_true_eq_false, if_false]
          | @start _ arg hv hnil =>
              obtain ⟨s, hget⟩ := getNextChar_atEnd (hnil rfl) .readArgument (-1) false
              refine Or.inl ⟨⟨s, .eof, -1, false⟩, ?_, .ended (hnil rfl), Or.inl (hnil rfl)⟩
              have htry : tryReadingNextArg signedChar ⟨render [] ++ tail, .readArgument, arg, hv⟩ =
                  some (executeGetArgEnd, ⟨s, .eof, -1, false⟩) := by
                rw [tryReadingNextArg, if_neg (by simp)]
                simp only [render, List.nil_append, hget, readArgumentLoop, stateReadArgument]
                rfl
              rw [step, executeGetNextArg, hskipped]
              simp only [htry]
              rfl
      | cons a as =>
          have hread : ∀ {state : ExecuteState} {arg : Int} {hv : Bool}, state ≠ .error → state ≠ .eof →
              ctx1 = ⟨render (a :: as) ++ tail, state, arg, hv⟩ →
              ∃ ctx', step signedChar ctx .nextArg =
                  some (.nextArg 0 (some (a.digit.val, a.value.isSome)), ctx') ∧
                Sim signedChar tail ctx' ⟨as, a.valueBytes⟩ := by
            rintro state arg hv herr heof rfl
            obtain ⟨ctx', htry, harg, hval, hsim'⟩ := tryReadingNextArg_arg hend a as herr arg hv
            refine ⟨ctx', ?_, hsim'⟩
            rw [step, executeGetNextArg, hskipped]
            simp only [htry, heof, harg, hval, ne_eq, not_true_eq_false, if_false]
            rfl
          have hgo : ∃ ctx', step signedChar ctx .nextArg =
              some (.nextArg 0 (some (a.digit.val, a.value.isSome)), ctx') ∧
              Sim signedChar tail ctx' ⟨as, a.valueBytes⟩ := by
            cases hsim with
            | inValue _ => exact absurd rfl hne
            | start _ => exact hread (by decide) (by decide) rfl
            | next => exact hread (by decide) (by decide) rfl
          obtain ⟨ctx', hstep, hsim'⟩ := hgo
          exact Or.inl ⟨ctx', hstep, hsim', Or.inr fun _ hnil => nomatch hnil⟩

/-- The call that skips a value of such a length reports an error. -/
theorem step_skipsFull (hend : Behind signedChar tail) {ctx : ExecuteCtx} {r : Reader}
    (h : Sim signedChar tail ctx r) {op : Op} (hskip : r.SkipsFull op) :
    ∃ ctx', step signedChar ctx op = some (.nextArg errBadRequest none, ctx') := by
  cases op with
  | argValue bufSize => exact hskip.elim
  | nextArg =>
      obtain ⟨ctx1, hskipped, hsim, hstate⟩ := skipValue_sim hend h
      obtain ⟨ctx', hget⟩ := executeGetNextArg_stuck hskipped hsim (hstate.mpr hskip)
      exact ⟨ctx', by rw [step, hget]⟩

/-- **A run on a payload that starts with an argument list**: all outcomes are those of the list, or an
    error is reported before its end, or the client aborts behind it. -/
theorem run_sim (hend : Behind signedChar tail) : ∀ (ops : List Op) {ctx : ExecuteCtx} {r : Reader},
    Sim signedChar tail ctx r →
    (¬r.SomeSkipsFull ops ∧ run signedChar ops ctx = r.run ops ∧
      (AtEnd signedChar tail ∨ ops.countP Op.isNextArg ≤ r.args.length)) ∨
    (r.SomeSkipsFull ops ∧ ∃ done post, (∀ o ∈ done, ¬Outcome.Stops o) ∧
      run signedChar ops ctx = done ++ .nextArg errBadRequest none :: post) ∨
    (¬r.SomeSkipsFull ops ∧ ¬AtEnd signedChar tail ∧ r.args.length < ops.countP Op.isNextArg ∧
      ∃ done, (∀ o ∈ done, ¬Outcome.IsError o) ∧ run signedChar ops ctx = done ++ [.aborted])
  | [], _, _, _ => Or.inl ⟨id, rfl, Or.inr (Nat.zero_le _)⟩
  | op :: ops, ctx, r, h => by
      by_cases hskip : r.SkipsFull op
      · obtain ⟨ctx', hstep⟩ := step_skipsFull hend h hskip
        refine Or.inr (Or.inl ⟨Or.inl hskip, [], run signedChar ops ctx', by simp, ?_⟩)
        rw [run, hstep]
        rfl
      · rcases step_sim hend h hskip with ⟨ctx', hstep, hsim, hat⟩ | ⟨hnot, rfl, hnil, hstep⟩
        · have hrest : (r.step op).2.args.length + (if op.isNextArg then 1 else 0) = r.args.length ∨
              AtEnd signedChar tail := by
            obtain ⟨args, rest⟩ := r
            cases op with
            | argValue _ => exact Or.inl rfl
            | nextArg =>
                cases args with
                | nil => exact Or.inr (hat.resolve_right fun hne => hne rfl rfl)
                | cons _ _ => exact Or.inl rfl
          have hrun : run signedChar (op :: ops) ctx = (r.step op).1 :: run signedChar ops ctx' := by rw [run, hstep]
          rw [hrun]
          rcases run_sim hend ops hsim with ⟨hnone, hsame, hor⟩ | ⟨hsome, done, post, hdone, hsame⟩ |
            ⟨hnone, hnot, hlt, done, hdone, hsame⟩
          · refine Or.inl ⟨fun hs => hs.elim hskip hnone, by rw [hsame]; rfl, ?_⟩
            rw [List.countP_cons]
            rcases hor with hor | hor
            · exact Or.inl hor
            · exact hrest.symm.imp_right fun heq => by omega
          · refine Or.inr (Or.inl ⟨Or.inr hsome, (r.step op).1 :: done, post, ?_, by rw [hsame]; rfl⟩)
            exact List.forall_mem_cons.mpr ⟨Reader.not_stops_step hsome, hdone⟩
          · refine Or.inr (Or.inr ⟨fun hs => hs.elim hskip hnone, hnot, ?_, (r.step op).1 :: done, ?_, by rw [hsame]; rfl⟩)
            · rw [List.countP_cons]
              have heq := hrest.resolve_right hnot
              omega
            · exact List.forall_mem_cons.mpr ⟨r.not_isError_step op, hdone⟩
        · obtain ⟨args, rest⟩ := r
          cases hnil
          refine Or.inr (Or.inr ⟨fun hs => hs.elim hskip (Reader.not_someSkipsFull_nil ops), hnot, ?_, [], by simp, ?_⟩)
          · rw [List.countP_cons]
            exact Nat.lt_succ_of_le (Nat.zero_le _)
          · rw [run, hstep]
            rfl

end Simulation

/-! ## 5. What was read of any payload -/

section Consumption

variable {signedChar : Bool} {payload : List UInt8}

/-- Arguments, each with the separator behind it. -/
def renderSep (as : List Arg) : List UInt8 := as.flatMap fun a => renderArg a ++ [0x2C]

theorem renderSep_concat (as : List Arg) (a : Arg) :
    renderSep (as ++ [a]) = renderSep as ++ (renderArg a ++ [0x2C]) := by
  simp [renderSep]

theorem render_concat (as : List Arg) (a : Arg) : render (as ++ [a]) = renderSep as ++ renderArg a := by
  induction as with
  | nil => simp [render, renderRest, renderSep]
  | cons b as ih =>
      have hrest : renderRest (as ++ [a]) = 0x2C :: render (as ++ [a]) := by
        cases as with
        | nil => rw [List.nil_append, renderRest_cons, render]
        | cons c cs => rw [List.cons_append, renderRest_cons, render]
      rw [List.cons_append, render, hrest, ih]
      simp [renderSep]

theorem length_le_render (as : List Arg) : as.length ≤ (render as).length := by
  cases as with
  | nil => exact Nat.le_refl 0
  | cons a as =>
      have hrest : as.length ≤ (renderRest as).length := by
        induction as with
        | nil => exact Nat.le_refl 0
        | cons b bs ih => rw [renderRest_cons]; simp; omega
      simp only [render, renderArg, List.length_cons, List.length_append]
      omega

theorem length_le_renderSep (as : List Arg) : as.length ≤ (renderSep as).length := by
  induction as with
  | nil => exact Nat.le_refl 0
  | cons a as ih => 
      have h : renderSep (a :: as) = renderArg a ++ [0x2C] ++ renderSep as := by simp [renderSep]
      rw [h]
      simp
      omega

/-- What was read up to here, `n` arguments of it reported. -/
inductive Consumed (signedChar : Bool) (payload : List UInt8) : Nat → ExecuteCtx → Prop
  | between (as : List Arg) {s : List UInt8} {state : ExecuteState} {arg : Int} {hv : Bool}
      (hstate : state = if as = [] then .readArgument else .finishedReadingArgument)
      (hp : payload = renderSep as ++ s) : Consumed signedChar payload as.length ⟨s, state, arg, hv⟩
  | inValue (as : List Arg) (d : Fin 10) (v : List ValueChar) {s : List UInt8} {arg : Int} {hv : Bool}
      (hp : payload = renderSep as ++ digitByte d :: 0x3D :: 0x27 :: (v.map Subtype.val ++ s)) :
      Consumed signedChar payload (as.length + 1) ⟨s, .readValue, arg, hv⟩
  | ended (as : List Arg) (tail : List UInt8) {s : List UInt8} {arg : Int} {hv : Bool}
      (hp : payload = render as ++ tail) (hend : AtEnd signedChar tail) :
      Consumed signedChar payload as.length ⟨s, .eof, arg, hv⟩

theorem Consumed.state_ne_error {n : Nat} {ctx : ExecuteCtx} (h : Consumed signedChar payload n ctx) :
    ctx.state ≠ .error := by
  cases h with
  | between _ hstate _ => rw [hstate]; split <;> simp
  | inValue _ _ _ _ | ended _ _ _ _ => simp

theorem Consumed.le_length {n : Nat} {ctx : ExecuteCtx} (h : Consumed signedChar payload n ctx) :
    n ≤ payload.length := by
  cases h with
  | between as _ hp => 
      have := length_le_renderSep as
      rw [hp, List.length_append]
      omega
  | inValue as _ _ hp =>
      have := length_le_renderSep as
      rw [hp, List.length_append, List.length_cons]
      omega
  | ended as _ hp _ =>
      have := length_le_render as
      rw [hp, List.length_append]
      omega

theorem getNextChar_cases (s : List UInt8) (state : ExecuteState) (arg : Int) (hv : Bool) :
    (AtEnd signedChar s ∧ ∃ s', getNextChar signedChar ⟨s, state, arg, hv⟩ = (eof, ⟨s', state, arg, hv⟩)) ∨
    ∃ b s', s = b :: s' ∧ charToInt signedChar b ≠ eof ∧
      getNextChar signedChar ⟨s, state, arg, hv⟩ = (charToInt signedChar b, ⟨s', state, arg, hv⟩) := by
  cases s with
  | nil => exact Or.inl ⟨Or.inl rfl, [], rfl⟩
  | cons b s' =>
      by_cases hb : charToInt signedChar b = eof
      · obtain ⟨hs, rfl⟩ := charToInt_eq_eof.mp hb
        exact Or.inl ⟨Or.inr ⟨hs, rfl⟩, s', by rw [getNextChar_cons, hb]⟩
      · exact Or.inr ⟨b, s', rfl, hb, rfl⟩

/-- Behind a whole argument. -/
theorem expectSeparatorOrEof_consumed {as : List Arg} {a : Arg} {s : List UInt8}
    (hp : payload = renderSep as ++ (renderArg a ++ s)) (state : ExecuteState) (arg : Int) (hv : Bool) :
    ∃ ch s', getNextChar signedChar ⟨s, state, arg, hv⟩ = (ch, ⟨s', state, arg, hv⟩) ∧
      (expectSeparatorOrEof ch = .error ∨
        expectSeparatorOrEof ch ≠ .readValue ∧ ∀ arg hv,
          Consumed signedChar payload (as.length + 1) ⟨s', expectSeparatorOrEof ch, arg, hv⟩) := by
  have hlen : (as ++ [a]).length = as.length + 1 := by simp
  rcases getNextChar_cases s state arg hv with ⟨hend, s', hget⟩ | ⟨b, s', rfl, hne, hget⟩
  · refine ⟨eof, s', hget, Or.inr ⟨by decide, fun arg hv => ?_⟩⟩
    rw [← hlen]
    refine .ended (as ++ [a]) s ?_ hend
    rw [render_concat, hp, List.append_assoc]
  · refine ⟨_, s', hget, ?_⟩
    rw [expectSeparatorOrEof]
    by_cases hsep : isArgSeparator (charToInt signedChar b) = true
    · have hb : b = 0x2C := eq_of_charToInt (by decide) (eq_of_beq hsep)
      subst hb
      rw [if_pos hsep]
      refine Or.inr ⟨by decide, fun arg hv => ?_⟩
      rw [← hlen]
      refine .between (as ++ [a]) (by simp) ?_
      rw [renderSep_concat, hp]
      simp
    · rw [if_neg hsep, if_neg hne]
      exact Or.inl rfl

/-- Inside a value, or behind it. -/
theorem valueLoop_consumed {as : List Arg} {d : Fin 10} :
    ∀ (room : Nat) (v : List ValueChar) (s : List UInt8) (arg : Int) (hv : Bool) (bytes : List UInt8)
      (finished : Bool),
      payload = renderSep as ++ digitByte d :: 0x3D :: 0x27 :: (v.map Subtype.val ++ s) →
      ∃ bytes' finished' ctx',
        valueLoop signedChar room ⟨s, .readValue, arg, hv⟩ bytes finished = (bytes', finished', ctx') ∧
        (ctx'.state = .error ∨ Consumed signedChar payload (as.length + 1) ctx' ∧
          (0 < room → ctx'.state = .readValue →
            finished' = isValueDelimiter (peekNextChar signedChar ctx')))
  | 0, v, s, arg, hv, bytes, finished, hp =>
      ⟨bytes, finished, ⟨s, .readValue, arg, hv⟩, rfl,
        Or.inr ⟨.inValue as d v hp, fun h => absurd h (Nat.lt_irrefl 0)⟩⟩
  | room + 1, v, s, arg, hv, bytes, finished, hp => by
      rw [valueLoop]
      rcases getNextChar_cases s .readValue arg hv with ⟨-, s', hget⟩ | ⟨b, s', rfl, -, hget⟩
      · refine ⟨bytes, true, ⟨s', .error, arg, hv⟩, ?_, Or.inl rfl⟩
        rw [hget]
        rfl
      rw [hget]
      by_cases hb : isValue (charToInt signedChar b) = true
      · have hb' := isValue_charToInt.mp hb
        have hread : stateReadValue signedChar ⟨s', .readValue, arg, hv⟩ (charToInt signedChar b) =
            (.readValue, ⟨s', .readValue, arg, hv⟩) := by rw [stateReadValue, if_pos hb]
        obtain ⟨c, hc⟩ : ∃ c : ValueChar, c.val = b := ⟨⟨b, hb'⟩, rfl⟩
        have hp' : payload = renderSep as ++ digitByte d :: 0x3D :: 0x27 ::
            ((v ++ [c]).map Subtype.val ++ s') := by
          rw [hp, ← hc]
          simp
        obtain ⟨bytes', fin', ctx', hloop, hor⟩ := valueLoop_consumed room (v ++ [c]) s' arg hv
          (bytes ++ [UInt8.ofNat (charToInt signedChar b).toNat])
          (isValueDelimiter (peekNextChar signedChar ⟨s', .readValue, arg, hv⟩)) hp'
        refine ⟨bytes', fin', ctx', by simpa [hread] using hloop, hor.imp_right fun hc => ⟨hc.1, ?_⟩⟩
        intro _ hs
        cases room with
        | succ room => exact hc.2 (Nat.succ_pos _) hs
        | zero =>
            cases hloop
            rfl
      by_cases hdel : isValueDelimiter (charToInt signedChar b) = true
      · have hb' : b = 0x27 := eq_of_charToInt (by decide) (eq_of_beq hdel)
        subst hb'
        have hwhole : payload = renderSep as ++ (renderArg ⟨d, some v⟩ ++ s') := by
          rw [hp]
          simp [renderArg]
        obtain ⟨ch, s2, hget2, hor⟩ := expectSeparatorOrEof_consumed hwhole .readValue arg hv
        have hread : stateReadValue signedChar ⟨s', .readValue, arg, hv⟩ (charToInt signedChar 0x27) =
            (expectSeparatorOrEof ch, ⟨s2, .readValue, arg, hv⟩) := by
          rw [stateReadValue, if_neg hb, if_pos hdel, hget2]
        have hne : expectSeparatorOrEof ch ≠ .readValue := by
          rcases hor with herr | hc
          · rw [herr]; decide
          · exact hc.1
        refine ⟨bytes, true, ⟨s2, expectSeparatorOrEof ch, arg, hv⟩, by simp [hread, hne], ?_⟩
        exact hor.imp_right fun hc => ⟨hc.2 arg hv, fun _ hs => absurd hs hne⟩
      · refine ⟨bytes, true, ⟨s', .error, arg, hv⟩, ?_, Or.inl rfl⟩
        have hread : stateReadValue signedChar ⟨s', .readValue, arg, hv⟩ (charToInt signedChar b) =
            (.error, ⟨s', .readValue, arg, hv⟩) := by rw [stateReadValue, if_neg hb, if_neg hdel]
        simp [hread]

theorem executeGetArgValue_consumed {n : Nat} {ctx : ExecuteCtx} (h : Consumed signedChar payload n ctx)
    {bufSize : Nat} (hbuf : 2 ≤ bufSize) :
    ∃ ret bytes ctx', executeGetArgValue signedChar ctx bufSize = (ret, bytes, ctx') ∧
      (ret < 0 ∨ Consumed signedChar payload n ctx' ∧
        (ret = 0 → ctx'.state = .readValue → isValueDelimiter (peekNextChar signedChar ctx') = true)) := by
  by_cases hs : ctx.state = .readValue
  · cases h with
    | between _ hstate _ =>
        rw [hstate] at hs
        split at hs <;> cases hs
    | ended _ _ _ _ => cases hs
    | @inValue as d v s arg hv hp =>
        obtain ⟨bytes, fin, ctx', hloop, hor⟩ :=
          valueLoop_consumed (bufSize - 1) v s arg hv [] true hp
        rw [executeGetArgValue, if_neg (by omega), if_pos rfl, hloop]
        dsimp only
        rcases hor with herr | ⟨hc, hfin⟩
        · exact ⟨_, _, _, if_pos herr, Or.inl (by decide)⟩
        · rw [if_neg hc.state_ne_error]
          cases fin with
          | true => exact ⟨_, _, _, rfl, Or.inr ⟨hc, fun _ hs' => (hfin (by omega) hs').symm⟩⟩
          | false => exact ⟨_, _, _, rfl, Or.inr ⟨hc, fun h0 => absurd h0 (by decide)⟩⟩
  · refine ⟨0, [], ctx, ?_, Or.inr ⟨h, fun _ hs' => absurd hs' hs⟩⟩
    rw [executeGetArgValue, if_neg fun hc => hs hc.1]
    simp [hs, h.state_ne_error]

theorem skipLoop_consumed {n : Nat} : ∀ (fuel : Nat) {ctx : ExecuteCtx},
    Consumed signedChar payload n ctx → ∃ ret ctx', skipLoop signedChar fuel ctx = (ret, ctx') ∧
      (ret ≠ 0 ∨ Consumed signedChar payload n ctx' ∧
        (ctx'.state = .readValue → isValueDelimiter (peekNextChar signedChar ctx') = true))
  | 0, ctx, _ => ⟨bufferTooShort, ctx, rfl, Or.inl (by decide)⟩
  | fuel + 1, ctx, h => by
      obtain ⟨ret, bytes, ctx1, hget, hor⟩ := executeGetArgValue_consumed h (by decide : 2 ≤ 64)
      rw [skipLoop, hget]
      dsimp only
      by_cases hshort : ret = bufferTooShort
      · rw [if_pos hshort]
        have hc := hor.resolve_left (by rw [hshort]; decide)
        exact skipLoop_consumed fuel hc.1
      · rw [if_neg hshort]
        refine ⟨ret, ctx1, rfl, ?_⟩
        by_cases h0 : ret = 0
        · have hc := hor.resolve_left (by rw [h0]; decide)
          exact Or.inr ⟨hc.1, hc.2 h0⟩
        · exact Or.inl h0

theorem skipValue_consumed {n : Nat} {ctx : ExecuteCtx} (h : Consumed signedChar payload n ctx) :
    ∃ ret ctx', skipValue signedChar ctx = (ret, ctx') ∧
      (ret ≠ 0 ∨ Consumed signedChar payload n ctx' ∧
        (ctx'.state = .readValue → isValueDelimiter (peekNextChar signedChar ctx') = true)) := by
  rw [skipValue]
  by_cases hs : ctx.state = .readValue
  · rw [if_pos hs]
    exact skipLoop_consumed _ h
  · rw [if_neg hs]
    exact ⟨0, ctx, rfl, Or.inr ⟨h, fun hs' => absurd hs' hs⟩⟩

/-- Behind the digit of an argument. -/
theorem expectSeparatorOrAssignmentOrEof_consumed {as : List Arg} {d : Fin 10} {s : List UInt8}
    (hp : payload = renderSep as ++ digitByte d :: s) (state : ExecuteState) (arg : Int) :
    ∃ ch ctx1 state' ctx', getNextChar signedChar ⟨s, state, arg, false⟩ = (ch, ctx1) ∧
      expectSeparatorOrAssignmentOrEof signedChar ctx1 ch = (state', ctx') ∧ state' ≠ .readArgument ∧
      ctx'.arg = arg ∧
      (state' = .error ∨ Consumed signedChar payload (as.length + 1) { ctx' with state := state' }) := by
  have hwhole : payload = renderSep as ++ (renderArg ⟨d, none⟩ ++ s) := hp
  obtain ⟨ch, s', hget, hor⟩ := expectSeparatorOrEof_consumed hwhole state arg false
  refine ⟨ch, ⟨s', state, arg, false⟩, ?_⟩
  rw [expectSeparatorOrAssignmentOrEof]
  rw [expectSeparatorOrEof] at hor
  by_cases hsep : isArgSeparator ch = true
  · simp only [hsep, if_true] at hor ⊢
    refine ⟨_, _, hget, rfl, by decide, rfl, hor.imp_right fun hc => hc.2 arg false⟩
  by_cases hassign : isValueAssignment ch = true
  · simp only [hsep, hassign, if_true]
    -- the byte is the one of the assignment, so there is one
    rcases getNextChar_cases s state arg false with ⟨-, s1, hget'⟩ | ⟨b, s1, rfl, -, hget'⟩
    · rw [hget] at hget'
      obtain ⟨rfl, -⟩ := Prod.mk.inj hget'
      exact absurd hassign (by decide)
    rw [hget] at hget'
    obtain ⟨rfl, hctx⟩ := Prod.mk.inj hget'
    have hb : b = 0x3D := eq_of_charToInt (by decide) (eq_of_beq hassign)
    cases hctx
    rcases getNextChar_cases s' state arg true with ⟨-, s2, hget2⟩ | ⟨c, s2, rfl, -, hget2⟩
    · rw [hget2]
      exact ⟨_, _, hget, rfl, (by decide : expectValue eof ≠ .readArgument), rfl, Or.inl rfl⟩
    rw [hget2]
    refine ⟨_, _, hget, rfl, ?_, rfl, ?_⟩
    · dsimp only
      rw [expectValue]
      split <;> simp
    · dsimp only
      rw [expectValue]
      by_cases hdel : isValueDelimiter (charToInt signedChar c) = true
      · have hc : c = 0x27 := eq_of_charToInt (by decide) (eq_of_beq hdel)
        rw [if_pos hdel]
        exact Or.inr (.inValue as d [] (by rw [hp, hb, hc]; rfl))
      · rw [if_neg hdel]
        exact Or.inl rfl
  · simp only [hsep, hassign] at hor ⊢
    by_cases heof : ch = eof
    · simp only [heof, if_true] at hor ⊢
      rw [heof] at hget
      exact ⟨_, _, hget, rfl, by decide, rfl, hor.imp_right fun hc => hc.2 arg false⟩
    · simp only [heof, if_false]
      exact ⟨_, _, hget, rfl, by decide, rfl, Or.inl rfl⟩

/-- **Reading the next argument**, from the place between two arguments. -/
theorem tryReadingNextArg_consumed {as : List Arg} {s : List UInt8} {state : ExecuteState}
    (hstate : state = if as = [] then .readArgument else .finishedReadingArgument)
    (hp : payload = renderSep as ++ s) (arg : Int) (hv : Bool) :
    (∃ result ctx', tryReadingNextArg signedChar ⟨s, state, arg, hv⟩ = some (result, ctx') ∧
      (result < 0 ∨ (result = 0 ∧ Consumed signedChar payload (as.length + 1) ctx') ∨
        (result = executeGetArgEnd ∧ ∃ args tail, payload = render args ++ tail ∧ AtEnd signedChar tail))) ∨
    (tryReadingNextArg signedChar ⟨s, state, arg, hv⟩ = none ∧ ∃ b rest, s = b :: rest ∧ Rejected signedChar b) := by
  have hne : state ≠ .error := by
    rw [hstate]
    split <;> decide
  rw [tryReadingNextArg, if_neg hne]
  dsimp only
  rcases getNextChar_cases s state (-1) false with ⟨hend, s', hget⟩ | ⟨b, s', rfl, hb, hget⟩
  · rw [hget]
    dsimp only
    by_cases has : as = []
    · subst has
      rw [if_pos rfl] at hstate
      subst hstate
      rw [if_neg (by simp)]
      exact Or.inl ⟨executeGetArgEnd, ⟨s', .eof, -1, false⟩, rfl, Or.inr (Or.inr ⟨rfl, [], s, hp, hend⟩)⟩
    · rw [if_neg has] at hstate
      rw [if_pos ⟨hstate, rfl⟩]
      exact Or.inl ⟨_, _, rfl, Or.inl (by decide)⟩
  · by_cases hrejected : Rejected signedChar b
    · have hnone := tryReadingNextArg_rejected hrejected s' hne arg hv
      rw [tryReadingNextArg, if_neg hne] at hnone
      exact Or.inr ⟨hnone, b, s', rfl, hrejected⟩
    have hpass := fun hnot => hrejected (rejected_iff.mpr hnot)
    refine Or.inl ?_
    rw [hget]
    simp only [hb, and_false, if_false]
    by_cases hdigit : isDigit (charToInt signedChar b) = true
    · obtain ⟨d, rfl, hval⟩ := isDigit_charToInt hdigit
      obtain ⟨ch, ctx1, state', ctx', hget1, hexp, hne', harg, hor⟩ :=
        @expectSeparatorOrAssignmentOrEof_consumed signedChar payload as d s' hp state d.val
      have hread : stateReadArgument signedChar ⟨s', state, -1, false⟩
          (charToInt signedChar (digitByte d)) = some (state', ctx') := by
        have hd : (0x30 + (d.val : Int)) - 0x30 = d.val := by omega
        rw [stateReadArgument, if_neg hpass, if_pos hdigit, hval]
        simp only [hd, hget1, hexp]
      have hneg : ¬((d.val : Int) = -1) := by omega
      rw [harg] at hor
      simp only [readArgumentLoop, hread, ne_eq, hne', not_false_eq_true, if_true, harg, hneg, false_and,
        if_false, false_or]
      by_cases herr : state' = .error
      · rw [if_pos herr]
        exact ⟨_, _, rfl, Or.inl (by decide)⟩
      · rw [if_neg herr]
        exact ⟨_, _, rfl, Or.inr (Or.inl ⟨rfl, hor.resolve_left herr⟩)⟩
    · have hread : stateReadArgument signedChar ⟨s', state, -1, false⟩ (charToInt signedChar b) =
          some (.error, ⟨s', state, -1, false⟩) := by rw [stateReadArgument, if_neg hpass, if_neg hdigit, if_neg hb]
      simp only [readArgumentLoop, hread]
      exact ⟨_, _, rfl, Or.inl (by decide)⟩

/-- In front of the delimiter of a value there is no argument to read, whatever comes behind it. -/
theorem tryReadingNextArg_delimiter {ctx : ExecuteCtx} (hs : ctx.state = .readValue)
    (hpeek : isValueDelimiter (peekNextChar signedChar ctx) = true) :
    ∃ ctx', tryReadingNextArg signedChar ctx = some (-1, ctx') := by
  obtain ⟨s, state, arg, hv⟩ := ctx
  cases hs
  cases s with
  | nil => exact absurd hpeek (by simp [peekNextChar, isValueDelimiter, eof])
  | cons b s =>
      have hb : b = 0x27 := eq_of_charToInt (by decide) (eq_of_beq hpeek)
      subst hb
      refine ⟨⟨s, .error, -1, false⟩, ?_⟩
      rw [tryReadingNextArg, if_neg (by simp), getNextChar_cons, charToInt_delimiter]
      simp only [readArgumentLoop, stateReadArgument]
      rfl

/-- A list of arguments, each with its separator, and then a byte that is asserted not to be there. -/
def Aborts (signedChar : Bool) (payload : List UInt8) (as : List Arg) : Prop :=
  ∃ b rest, payload = renderSep as ++ b :: rest ∧ Rejected signedChar b

/-- **A call on any payload**: an error, or what was read is part of an argument list. -/
theorem step_consumed {n : Nat} {ctx : ExecuteCtx} (h : Consumed signedChar payload n ctx) (op : Op) :
    (∃ outcome ctx', step signedChar ctx op = some (outcome, ctx') ∧
      (outcome.IsError ∨
        (¬outcome.Stops ∧ Consumed signedChar payload (n + if op.isNextArg then 1 else 0) ctx') ∨
        (outcome.Stops ∧ ∃ as tail, payload = render as ++ tail ∧ AtEnd signedChar tail))) ∨
    (step signedChar ctx op = none ∧ ∃ as, Aborts signedChar payload as) := by
  cases op with
  | argValue bufSize =>
      obtain ⟨ret, bytes, ctx', hget, hor⟩ := executeGetArgValue_consumed h bufSize.property
      refine Or.inl ⟨.argValue ret bytes, ctx', by rw [step, hget], ?_⟩
      exact hor.imp_right fun hc => Or.inl ⟨id, hc.1⟩
  | nextArg =>
      obtain ⟨ret, ctx1, hskip, hor⟩ := skipValue_consumed h
      rw [step, executeGetNextArg, hskip]
      dsimp only
      rcases hor with hret | ⟨hc, hpeek⟩
      · rw [if_pos hret]
        exact Or.inl ⟨_, _, rfl, Or.inl (by decide : errBadRequest < 0)⟩
      by_cases hret : ret = 0
      case neg =>
        rw [if_pos hret]
        exact Or.inl ⟨_, _, rfl, Or.inl (by decide : errBadRequest < 0)⟩
      rw [if_neg (not_not.mpr hret)]
      cases hc with
      | ended as tail hp hend => exact Or.inl ⟨_, _, rfl, Or.inr (Or.inr ⟨rfl, as, tail, hp, hend⟩)⟩
      | inValue as d v hp =>
          obtain ⟨ctx', htry⟩ := tryReadingNextArg_delimiter rfl (hpeek rfl)
          rw [if_neg (by simp), htry]
          exact Or.inl ⟨_, _, rfl, Or.inl (by decide : errBadRequest < 0)⟩
      | @between as s state arg hv hstate hp =>
          have heof : state ≠ .eof := by
            rw [hstate]
            split <;> simp
          rw [if_neg heof]
          rcases @tryReadingNextArg_consumed signedChar payload as s state hstate hp arg hv with
            ⟨result, ctx', htry, hor⟩ | ⟨htry, b, rest, rfl, hb⟩
          · rw [htry]
            dsimp only
            rcases hor with herr | ⟨rfl, hc⟩ | ⟨rfl, hall⟩
            · rw [if_pos herr]
              exact Or.inl ⟨_, _, rfl, Or.inl (by decide : errBadRequest < 0)⟩
            · refine Or.inl ⟨_, _, rfl, Or.inr (Or.inl ⟨(by decide : (0 : Int) ≠ executeGetArgEnd), ?_⟩)⟩
              exact hc
            · exact Or.inl ⟨_, _, rfl, Or.inr (Or.inr ⟨rfl, hall⟩)⟩
          · rw [htry]
            exact Or.inr ⟨rfl, as, b, rest, hp, hb⟩

/-- An error is returned before the end of the arguments is reported or the client aborts. -/
def ErrorBeforeEnd (outcomes : List Outcome) : Prop :=
  ∀ before o after, outcomes = before ++ o :: after → o.Stops → ∃ e ∈ before, e.IsError

theorem errorBeforeEnd_cons_of_error {o : Outcome} (ho : o.IsError) (os : List Outcome) :
    ErrorBeforeEnd (o :: os) := by
  intro before o' after heq hend
  cases before with
  | nil =>
      obtain ⟨rfl, -⟩ := List.cons.inj heq
      cases o with
      | argValue _ _ => exact hend.elim
      | aborted => exact ho.elim
      | nextArg result _ => exact absurd (hend ▸ ho : executeGetArgEnd < 0) (by decide)
  | cons e before =>
      obtain ⟨rfl, -⟩ := List.cons.inj heq
      exact ⟨o, List.mem_cons_self, ho⟩

theorem ErrorBeforeEnd.cons {o : Outcome} {os : List Outcome} (h : ErrorBeforeEnd os) (ho : ¬o.Stops) :
    ErrorBeforeEnd (o :: os) := by
  intro before o' after heq hend
  cases before with
  | nil =>
      obtain ⟨rfl, -⟩ := List.cons.inj heq
      exact absurd hend ho
  | cons e before =>
      obtain ⟨rfl, htail⟩ := List.cons.inj heq
      obtain ⟨e, he, hres⟩ := h before o' after htail hend
      exact ⟨e, List.mem_cons_of_mem _ he, hres⟩

theorem ErrorBeforeEnd.of_not_stops {os : List Outcome} (h : ∀ o ∈ os, ¬o.Stops) : ErrorBeforeEnd os :=
  fun before o after heq hend =>
    absurd hend (h o (by rw [heq]; exact List.mem_append_right before List.mem_cons_self))

theorem ErrorBeforeEnd.append_error {done : List Outcome} (hdone : ∀ o ∈ done, ¬o.Stops) {o : Outcome}
    (ho : o.IsError) (os : List Outcome) : ErrorBeforeEnd (done ++ o :: os) := by
  induction done with
  | nil => exact errorBeforeEnd_cons_of_error ho os
  | cons o' done ih =>
      obtain ⟨ho', hdone⟩ := List.forall_mem_cons.mp hdone
      exact (ih hdone).cons ho'

/-- **A run on any payload**: either it starts with an argument list behind which the reader sees the
    end or aborts, or the end is not reported and the reader does not get further than the payload. -/
theorem run_consumed : ∀ (ops : List Op) {n : Nat} {ctx : ExecuteCtx}, Consumed signedChar payload n ctx →
    (∃ args tail, payload = render args ++ tail ∧ AtEnd signedChar tail) ∨ (∃ as, Aborts signedChar payload as) ∨
    (ErrorBeforeEnd (run signedChar ops ctx) ∧
      ((∃ e ∈ run signedChar ops ctx, e.IsError) ∨ n + ops.countP Op.isNextArg ≤ payload.length))
  | [], _, _, h =>
      Or.inr (Or.inr ⟨.of_not_stops fun _ ho => absurd ho List.not_mem_nil, Or.inr h.le_length⟩)
  | op :: ops, n, ctx, h => by
      rcases step_consumed h op with ⟨o, ctx', hstep, hor⟩ | ⟨-, haborts⟩
      case inr => exact Or.inr (Or.inl haborts)
      have hrun : run signedChar (op :: ops) ctx = o :: run signedChar ops ctx' := by rw [run, hstep]
      rw [hrun]
      rcases hor with herr | ⟨hne, hc⟩ | ⟨-, hall⟩
      · exact Or.inr (Or.inr ⟨errorBeforeEnd_cons_of_error herr _, Or.inl ⟨o, List.mem_cons_self, herr⟩⟩)
      · rcases run_consumed ops hc with hall | haborts | ⟨hbefore, hfar⟩
        · exact Or.inl hall
        · exact Or.inr (Or.inl haborts)
        · refine Or.inr (Or.inr ⟨hbefore.cons hne, hfar.imp ?_ fun hle => ?_⟩)
          · rintro ⟨e, he, hres⟩
            exact ⟨e, List.mem_cons_of_mem _ he, hres⟩
          · rw [List.countP_cons]
            omega
      · exact Or.inl hall

end Consumption

/-! ## 6. What the reader does for a sequence of calls -/

namespace Reader

theorem not_isError_run : ∀ (ops : List Op) {r : Reader} {o : Outcome}, o ∈ r.run ops → ¬o.IsError
  | op :: ops, r, _, ho => by
      rcases List.mem_cons.mp ho with rfl | ho
      · exact r.not_isError_step op
      · exact not_isError_run ops ho

/-- The end is reported when there are more calls for an argument than arguments. -/
theorem exists_stops_run : ∀ (ops : List Op) (r : Reader),
    (∃ o ∈ r.run ops, o.Stops) ↔ r.args.length < ops.countP Op.isNextArg
  | [], r => by simp [run]
  | .argValue bufSize :: ops, r => by
      have ih := exists_stops_run ops (r.step (.argValue bufSize)).2
      rw [run, List.exists_mem_cons_iff, List.countP_cons]
      have hfst : ¬(r.step (.argValue bufSize)).1.Stops := id
      simp only [hfst, false_or, ih]
      rfl
  | .nextArg :: ops, ⟨[], rest⟩ => by
      rw [run, List.exists_mem_cons_iff, List.countP_cons]
      simp only [List.length_nil, Op.isNextArg, if_true, Nat.zero_lt_succ, iff_true]
      exact Or.inl rfl
  | .nextArg :: ops, ⟨a :: as, rest⟩ => by
      have ih := exists_stops_run ops ⟨as, a.valueBytes⟩
      rw [run, List.exists_mem_cons_iff, List.countP_cons]
      have hfst : ¬((⟨a :: as, rest⟩ : Reader).step .nextArg).1.Stops :=
        (by decide : (0 : Int) ≠ executeGetArgEnd)
      simp only [hfst, false_or, Op.isNextArg, if_true, List.length_cons, Nat.add_lt_add_iff_right]
      exact ih

end Reader

theorem mem_renderArg_lt {a : Arg} {b : UInt8} (hb : b ∈ renderArg a) : b.toNat < 128 := by
  obtain ⟨digit, value⟩ := a
  rcases List.mem_cons.mp hb with rfl | hb
  · rw [digitByte_toNat]
    omega
  cases value with
  | none => cases hb
  | some v =>
      simp only [List.mem_cons, List.mem_append, List.mem_map, List.not_mem_nil, or_false] at hb
      rcases hb with rfl | rfl | ⟨c, -, rfl⟩ | rfl
      · decide
      · decide
      · exact isValue_lt c.property
      · decide

theorem mem_render_lt {args : List Arg} {b : UInt8} (hb : b ∈ render args) : b.toNat < 128 := by
  cases args with
  | nil => cases hb
  | cons a as =>
      rcases List.mem_append.mp hb with hb | hb
      · exact mem_renderArg_lt hb
      obtain ⟨c, -, hc⟩ := List.mem_flatMap.mp hb
      rcases List.mem_cons.mp hc with rfl | hc
      · decide
      · exact mem_renderArg_lt hc

theorem render_ne_behind {args : List Arg} {rest : List UInt8} (args' : List Arg) :
    render args ++ 0xFF :: rest ≠ render args' := by
  intro heq
  have hmem : (0xFF : UInt8) ∈ render args' := by rw [← heq]; simp
  exact absurd (mem_render_lt hmem) (by decide)

/-- The calls report the list of arguments for the payload that has one; for another payload an error
    comes before the end or an abort, and it comes when there are more calls than bytes. -/
def Correct (signedChar : Bool) (payload : List UInt8) (ops : List Op) : Prop :=
  (∀ args, payload = render args →
    run signedChar ops (executeCtxCreate payload) = Reader.run ops ⟨args, []⟩) ∧
  ((∀ args, payload ≠ render args) →
    ErrorBeforeEnd (run signedChar ops (executeCtxCreate payload)) ∧
    (payload.length < ops.countP Op.isNextArg →
      ∃ e ∈ run signedChar ops (executeCtxCreate payload), e.IsError))

/-- The calls stay inside a list of arguments, or one of them passes by a value of which a positive multiple of 63
    bytes is unread. -/
def StaysInside (args : List Arg) (ops : List Op) : Prop :=
  ops.countP Op.isNextArg ≤ args.length ∨ (⟨args, []⟩ : Reader).SomeSkipsFull ops

/-- No call passes by a value of which a positive multiple of 63 bytes is unread. Where `char` is signed, a byte 0xFF
    behind a list of arguments ends it, and another byte from 0x80 on at the place of an argument aborts the client, so
    that the calls stay inside the list in front of it, or one of them passes by such a value. -/
def NoFullSkip (signedChar : Bool) (payload : List UInt8) (ops : List Op) : Prop :=
  (∀ args, payload = render args → ¬(⟨args, []⟩ : Reader).SomeSkipsFull ops) ∧
  (∀ args rest, signedChar = true → payload = render args ++ 0xFF :: rest → StaysInside args ops) ∧
  ∀ args, Aborts signedChar payload args → StaysInside args ops

theorem renderSep_eq (a : Arg) (as : List Arg) (s : List UInt8) :
    renderSep (a :: as) ++ s = render (a :: as) ++ 0x2C :: s := by
  rcases List.eq_nil_or_concat (a :: as) with hnil | ⟨init, last, hconcat⟩
  · cases hnil
  · rw [hconcat, List.concat_eq_append, renderSep_concat, render_concat]
    simp

theorem Aborts.ne_render {signedChar : Bool} {payload : List UInt8} {args : List Arg}
    (h : Aborts signedChar payload args) (args' : List Arg) : payload ≠ render args' := by
  obtain ⟨b, rest, hp, -, hb, -⟩ := h
  intro heq
  have hmem : b ∈ render args' := by rw [← heq, hp]; simp
  exact absurd (mem_render_lt hmem) (Nat.not_lt.mpr hb)

theorem Aborts.length_lt {signedChar : Bool} {payload : List UInt8} {args : List Arg}
    (h : Aborts signedChar payload args) : args.length < payload.length := by
  obtain ⟨b, rest, hp, -⟩ := h
  have hlen := length_le_renderSep args
  rw [hp, List.length_append, List.length_cons]
  omega

/-- An error that is reported before the end. -/
theorem error_reported {os done post : List Outcome} (hdone : ∀ o ∈ done, ¬Outcome.Stops o)
    (hrun : os = done ++ .nextArg errBadRequest none :: post) : ErrorBeforeEnd os ∧ ∃ e ∈ os, e.IsError := by
  have herr : (Outcome.nextArg errBadRequest none).IsError := (by decide : errBadRequest < 0)
  rw [hrun]
  exact ⟨.append_error hdone herr post, _, List.mem_append_right done List.mem_cons_self, herr⟩

/-- A run on the payload of a list of arguments, and on one that goes on with an end-of-file byte. -/
theorem run_create {signedChar : Bool} {tail : List UInt8} (hend : AtEnd signedChar tail)
    (args : List Arg) (ops : List Op) :
    (¬(⟨args, []⟩ : Reader).SomeSkipsFull ops ∧
      run signedChar ops (executeCtxCreate (render args ++ tail)) = Reader.run ops ⟨args, []⟩) ∨
    ((⟨args, []⟩ : Reader).SomeSkipsFull ops ∧
      ErrorBeforeEnd (run signedChar ops (executeCtxCreate (render args ++ tail))) ∧
      ∃ e ∈ run signedChar ops (executeCtxCreate (render args ++ tail)), e.IsError) := by
  have hstart : Sim signedChar tail (executeCtxCreate (render args ++ tail)) ⟨args, []⟩ := .start fun _ => hend
  rcases run_sim (Or.inl hend) ops hstart with ⟨hno, hrun, -⟩ | ⟨hskip, done, post, hdone, hrun⟩ | ⟨-, hnot, -⟩
  · exact Or.inl ⟨hno, hrun⟩
  · exact Or.inr ⟨hskip, error_reported hdone hrun⟩
  · exact absurd hend hnot

/-- A run on a payload that goes on with a byte that is asserted not to be there: it stays inside the list, or reports
    an error, or aborts without one. -/
theorem run_aborts {signedChar : Bool} {payload : List UInt8} {args : List Arg} (h : Aborts signedChar payload args)
    (ops : List Op) :
    (ops.countP Op.isNextArg ≤ args.length ∧
      run signedChar ops (executeCtxCreate payload) = Reader.run ops ⟨args, []⟩) ∨
    (StaysInside args ops ∧ ErrorBeforeEnd (run signedChar ops (executeCtxCreate payload)) ∧
      ∃ e ∈ run signedChar ops (executeCtxCreate payload), e.IsError) ∨
    (¬StaysInside args ops ∧ ¬ErrorBeforeEnd (run signedChar ops (executeCtxCreate payload))) := by
  obtain ⟨b, rest, hp, hb⟩ := h
  have hnot : ¬AtEnd signedChar (0x2C :: b :: rest) := not_atEnd_separator _
  have hstart : Sim signedChar (0x2C :: b :: rest) (executeCtxCreate payload) ⟨args, []⟩ := by
    rw [hp]
    cases args with
    | nil => exact .rejected hb hnot (Or.inl rfl)
    | cons a as =>
        rw [renderSep_eq]
        exact .start fun hnil => nomatch hnil
  rcases run_sim (Or.inr ⟨b, rest, rfl, hb⟩) ops hstart with
    ⟨-, hrun, hle⟩ | ⟨hskip, done, post, hdone, hrun⟩ | ⟨hno, -, hlt, done, hdone, hrun⟩
  · exact Or.inl ⟨hle.resolve_left hnot, hrun⟩
  · exact Or.inr (Or.inl ⟨Or.inr hskip, error_reported hdone hrun⟩)
  · refine Or.inr (Or.inr ⟨fun hor => hor.elim (Nat.not_le.mpr hlt) hno, fun hbefore => ?_⟩)
    obtain ⟨e, he, herr⟩ := hbefore done .aborted [] hrun trivial
    exact hdone e he herr

/-- A run that stays inside the list reports neither an end nor an error. -/
theorem inside_not_stops {args : List Arg} {ops : List Op} (hle : ops.countP Op.isNextArg ≤ args.length) :
    ErrorBeforeEnd (Reader.run ops ⟨args, []⟩) := by
  refine .of_not_stops fun o ho hend => ?_
  have hlt := (Reader.exists_stops_run ops ⟨args, []⟩).mp ⟨o, ho, hend⟩
  exact absurd hlt (Nat.not_lt.mpr hle)

/-- **What the calls give is what the grammar says** exactly when no call passes by a value of which a
    positive multiple of 63 bytes is unread, no byte is taken for the end of the payload, and none aborts the client. -/
theorem outcomes_correct_iff (signedChar : Bool) (payload : List UInt8) (ops : List Op) :
    Correct signedChar payload ops ↔ NoFullSkip signedChar payload ops := by
  constructor
  · rintro ⟨hin, hout⟩
    refine ⟨fun args hp hskip => ?_, fun args rest hs hp => ?_, fun args haborts => ?_⟩
    · -- an error is reported, and the list reports none
      have hrun := hin args hp
      rcases run_create (Or.inl rfl : AtEnd signedChar []) args ops with ⟨hno, -⟩ | ⟨-, -, e, he, hres⟩
      · exact hno hskip
      · rw [List.append_nil, ← hp, hrun] at he
        exact Reader.not_isError_run ops he hres
    · by_cases hle : ops.countP Op.isNextArg ≤ args.length
      · exact Or.inl hle
      -- the end is reported behind the list, with no error before it
      have hne : ∀ args', payload ≠ render args' := fun args' => by rw [hp]; exact render_ne_behind args'
      rcases run_create (Or.inr ⟨hs, rfl⟩ : AtEnd signedChar (0xFF :: rest)) args ops with ⟨-, hrun⟩ | ⟨hskip, -⟩
      · obtain ⟨o, ho, hend⟩ := (Reader.exists_stops_run ops ⟨args, []⟩).mpr (Nat.not_le.mp hle)
        obtain ⟨before, after, hsplit⟩ := List.append_of_mem ho
        obtain ⟨e, he, hres⟩ := (hout hne).1 before o after (by rw [hp, hrun, hsplit]) hend
        have hmem : e ∈ Reader.run ops ⟨args, []⟩ := by rw [hsplit]; exact List.mem_append_left _ he
        exact absurd hres (Reader.not_isError_run ops hmem)
      · exact Or.inr hskip
    · rcases run_aborts haborts ops with ⟨hle, -⟩ | ⟨hstays, -⟩ | ⟨-, hnot⟩
      · exact Or.inl hle
      · exact hstays
      · exact absurd (hout haborts.ne_render).1 hnot
  · rintro ⟨hin, hbyte, habort⟩
    refine ⟨fun args hp => ?_, fun hne => ?_⟩
    · rcases run_create (Or.inl rfl : AtEnd signedChar []) args ops with ⟨-, hrun⟩ | ⟨hskip, -⟩
      · rw [hp, ← hrun, List.append_nil]
      · exact absurd hskip (hin args hp)
    · rcases run_consumed ops (.between [] rfl rfl : Consumed signedChar payload 0
        (executeCtxCreate payload)) with ⟨args, tail, hp, hend⟩ | ⟨args, haborts⟩ | ⟨hbefore, hfar⟩
      · obtain rfl | ⟨hs, hhead⟩ := hend
        · exact absurd (by rw [hp, List.append_nil]) (hne args)
        cases tail with
        | nil => cases hhead
        | cons b rest =>
            cases hhead
            have hlen := length_le_render args
            have hcount : payload.length = (render args).length + (rest.length + 1) := by
              rw [hp, List.length_append, List.length_cons]
            rcases run_create (Or.inr ⟨hs, rfl⟩ : AtEnd signedChar (0xFF :: rest)) args ops with
              ⟨hno, hrun⟩ | ⟨-, hbefore, herr⟩
            · have hle := (hbyte args rest hs hp).resolve_right hno
              refine ⟨?_, fun hlt => absurd hlt (by omega)⟩
              rw [hp, hrun]
              exact inside_not_stops hle
            · rw [hp]
              exact ⟨hbefore, fun _ => herr⟩
      · have hlen := haborts.length_lt
        rcases run_aborts haborts ops with ⟨hle, hrun⟩ | ⟨-, hbefore, herr⟩ | ⟨hnot, -⟩
        · rw [hrun]
          exact ⟨inside_not_stops hle, fun hlt => absurd hlt (by omega)⟩
        · exact ⟨hbefore, fun _ => herr⟩
        · exact absurd (habort args haborts) hnot
      · refine ⟨hbefore, fun hlt => hfar.resolve_right ?_⟩
        rw [List.length_nil, Nat.zero_add]
        exact Nat.not_le.mpr hlt

/-- The payload `1='AA…A',2` with 63 letters: the value is not read, and the second argument is
    refused. -/
theorem outcomes_incorrect_63 :
    ¬Correct false (render [⟨1, some (List.replicate 63 ⟨0x41, by decide⟩)⟩, ⟨2, none⟩])
      [.nextArg, .nextArg] := by
  intro h
  have hrun := h.1 _ rfl
  exact absurd hrun (by decide +kernel)

end Anjay.Execute
