/-
  File:      Anjay/Io/Text/Numbers.lean
  Subject:   Integers, booleans and object links as plain text: what the output writes, and what the input reads.

  * `getInteger_iff`, `getObjlnk_iff`: what is read from a payload that fits into the buffer.
  * `integer_roundTrips`, `bool_roundTrips`, `objlnk_roundTrips`: **a value that was written is read back.**
  * `integerMeets_iff`, `linkMeets_iff`: **other payloads are read as decimal numbers, as far as the notation of the C
    language agrees with the decimal one.**
-/
import Anjay.Commons.Notation
import Anjay.Io.Fetch
import Anjay.Io.Text.Out

namespace Anjay.PlainText

open Io Text

/-! ## 1. What is read -/

theorem getInteger_fits {payload : List UInt8} (h : payload.length < intStrBufSize) :
    (getInteger (inputTextCreate payload)).1 =
      match safeStrtoll (upToNul payload) with
      | some value => .ok value
      | none => .error errBadRequest := by
  obtain ⟨ctx', hget⟩ := text_stringReader.whole intStrBufSize
    (show TextHolds payload (inputTextCreate payload) from ⟨rfl, rfl⟩) h
  unfold getInteger
  rw [hget]
  dsimp only
  rw [if_neg (by decide)]
  show (match safeStrtoll (upToNul payload) with
    | some value => ((.ok value : Except Int Int), ctx')
    | none => (.error errBadRequest, ctx')).1 = _
  cases safeStrtoll (upToNul payload) <;> rfl

/-- **An integer is read** exactly if what is in front of the first NUL denotes it in C, and it fits. -/
theorem getInteger_iff {payload : List UInt8} (h : payload.length < intStrBufSize) (n : Int) :
    (getInteger (inputTextCreate payload)).1 = .ok n ↔
      IntegerText (upToNul payload) n ∧ llongMin ≤ n ∧ n ≤ llongMax := by
  rw [getInteger_fits h, ← safeStrtoll_iff]
  cases safeStrtoll (upToNul payload) with
  | none => exact ⟨fun heq => (nomatch heq), fun heq => (nomatch heq)⟩
  | some value => exact ⟨fun heq => congrArg some (Except.ok.inj heq), fun heq => congrArg Except.ok (Option.some.inj heq)⟩

theorem getObjlnk_fits {payload : List UInt8} (h : payload.length < maxObjlnkStringSize) :
    (getObjlnk (inputTextCreate payload)).1 =
      match parseObjlnk (upToNul payload) with
      | some link => .ok link
      | none => .error errBadRequest := by
  obtain ⟨ctx', hget⟩ := text_stringReader.whole maxObjlnkStringSize
    (show TextHolds payload (inputTextCreate payload) from ⟨rfl, rfl⟩) h
  unfold getObjlnk
  rw [hget]
  dsimp only
  rw [if_neg (by decide)]
  show (match parseObjlnk (upToNul payload) with
    | some link => ((.ok link : Except Int (Id × Id)), ctx')
    | none => (.error errBadRequest, ctx')).1 = _
  cases parseObjlnk (upToNul payload) <;> rfl

/-- The text is split at its first colon. -/
theorem splitColon_iff (text front back : List UInt8) :
    splitColon text = some (front, back) ↔ text = front ++ 0x3A :: back ∧ 0x3A ∉ front := by
  have hpass : ∀ c : UInt8, c ≠ 0x3A → (c != 0x3A) = true := fun c hc => by simp [hc]
  unfold splitColon
  constructor
  · intro h
    split at h
    · next hmem =>
      obtain ⟨hfront, hback⟩ := Prod.mk.inj (Option.some.inj h)
      have hnot : 0x3A ∉ text.takeWhile (· != 0x3A) := by
        intro hin
        have hall := List.all_eq_true.mp (List.all_takeWhile (p := fun c : UInt8 => c != 0x3A) (l := text)) _ hin
        exact absurd hall (by decide)
      have hsplit := List.takeWhile_append_dropWhile (p := fun c : UInt8 => c != 0x3A) (l := text)
      cases hdrop : text.dropWhile (· != 0x3A) with
      | nil =>
          rw [hdrop, List.append_nil] at hsplit
          rw [hsplit] at hnot
          exact absurd hmem hnot
      | cons c rest =>
          have hc : (c != 0x3A) = false := by
            have hhead := List.head?_dropWhile_not (fun c : UInt8 => c != 0x3A) text
            rw [hdrop] at hhead
            simpa using hhead
          obtain rfl : c = 0x3A := by simpa using hc
          rw [hdrop] at hsplit hback
          rw [← hfront, ← hback]
          exact ⟨hsplit.symm, hnot⟩
    · cases h
  · rintro ⟨rfl, hnot⟩
    have hpos : ∀ c ∈ front, (c != 0x3A) = true := fun c hc => hpass c fun heq => hnot (heq ▸ hc)
    rw [if_pos (List.mem_append_right _ List.mem_cons_self), List.takeWhile_append_of_pos hpos,
      List.dropWhile_append_of_pos hpos, List.takeWhile_cons_of_neg (by decide), List.dropWhile_cons_of_neg (by decide),
      List.append_nil]
    rfl

/-- A part of a link, as C reads it. -/
def PartText (text : List UInt8) (id : Id) : Prop := IntegerText text (id.val : Int)

/-- The range test of a link passes what is an id. -/
theorem safeStrtoll_id (text : List UInt8) (id : Id) : safeStrtoll text = some (id.val : Int) ↔ PartText text id := by
  have hid : id.val < 65536 := id.isLt
  have hmin : llongMin ≤ 0 := by decide
  have hmax : 65535 ≤ llongMax := by decide
  rw [safeStrtoll_iff]
  exact ⟨fun h => h.1, fun h => ⟨h, by omega, by omega⟩⟩

/-- The part of `_anjay_io_parse_objlnk` behind the colon. -/
theorem parts_iff (front back : List UInt8) (link : Id × Id) :
    (match safeStrtoll front, safeStrtoll back with
      | some oid, some iid =>
          if oid < 0 ∨ 65535 < oid ∨ iid < 0 ∨ 65535 < iid then none
          else some ((Fin.ofNat _ oid.toNat : Id), (Fin.ofNat _ iid.toNat : Id))
      | _, _ => none) = some link ↔ PartText front link.1 ∧ PartText back link.2 := by
  obtain ⟨oid', iid'⟩ := link
  rw [← safeStrtoll_id, ← safeStrtoll_id]
  cases safeStrtoll front with
  | none => exact ⟨fun h => (nomatch h), fun h => (nomatch h.1)⟩
  | some oid =>
      cases safeStrtoll back with
      | none => exact ⟨fun h => (nomatch h), fun h => (nomatch h.2)⟩
      | some iid =>
          dsimp only
          constructor
          · intro h
            split at h
            · cases h
            · next hrange =>
              obtain ⟨ho, hi⟩ := Prod.mk.inj (Option.some.inj h)
              have hval : ∀ n : Int, 0 ≤ n → n ≤ 65535 → n = ((Fin.ofNat 65536 n.toNat).val : Int) := by
                intro n hpos hmax
                show n = ((n.toNat % 65536 : Nat) : Int)
                omega
              rw [← ho, ← hi]
              exact ⟨congrArg some (hval oid (by omega) (by omega)), congrArg some (hval iid (by omega) (by omega))⟩
          · rintro ⟨ho, hi⟩
            obtain rfl := Option.some.inj ho
            obtain rfl := Option.some.inj hi
            have ho := oid'.isLt
            have hi := iid'.isLt
            rw [if_neg (by omega)]
            have hval : ∀ id : Id, Fin.ofNat 65536 ((id.val : Int)).toNat = id := by
              intro id
              apply Fin.ext
              show (id.val : Int).toNat % 65536 = id.val
              have := id.isLt
              omega
            rw [hval, hval]

/-- **A link is read** exactly if both parts denote ids in C. -/
theorem parseObjlnk_iff (text : List UInt8) (link : Id × Id) :
    parseObjlnk text = some link ↔
      ∃ front back, text = front ++ 0x3A :: back ∧ 0x3A ∉ front ∧ PartText front link.1 ∧ PartText back link.2 := by
  constructor
  · intro h
    unfold parseObjlnk at h
    cases hsplit : splitColon text with
    | none =>
        rw [hsplit] at h
        cases h
    | some parts =>
        obtain ⟨front, back⟩ := parts
        rw [hsplit] at h
        obtain ⟨htext, hnot⟩ := (splitColon_iff text front back).mp hsplit
        exact ⟨front, back, htext, hnot, (parts_iff front back link).mp h⟩
  · rintro ⟨front, back, htext, hnot, hparts⟩
    unfold parseObjlnk
    rw [(splitColon_iff text front back).mpr ⟨htext, hnot⟩]
    exact (parts_iff front back link).mpr hparts

theorem getObjlnk_iff {payload : List UInt8} (h : payload.length < maxObjlnkStringSize) (link : Id × Id) :
    (getObjlnk (inputTextCreate payload)).1 = .ok link ↔
      ∃ front back, upToNul payload = front ++ 0x3A :: back ∧ 0x3A ∉ front ∧ PartText front link.1 ∧
        PartText back link.2 := by
  rw [getObjlnk_fits h, ← parseObjlnk_iff]
  cases parseObjlnk (upToNul payload) with
  | none => exact ⟨fun heq => (nomatch heq), fun heq => (nomatch heq)⟩
  | some value => exact ⟨fun heq => congrArg some (Except.ok.inj heq), fun heq => congrArg Except.ok (Option.some.inj heq)⟩

/-! ## 2. Round trips -/

/-- A number below a power of ten has no more digits than its exponent. -/
theorem length_decimal {n k : Nat} (hk : 1 ≤ k) (h : n < 10 ^ k) : (decimal n).length ≤ k := by
  unfold decimal
  split
  · exact hk
  · rw [List.length_map, List.length_reverse]
    exact (Nat.digits_length_le_iff (by decide) n).mpr h

theorem noNul_decimal (n : Nat) : 0 ∉ decimal n := (naturalText_decimal n).noNul

/-- The text of a 64-bit integer denotes it, and fits into the buffer. -/
theorem intText_reads (value : BitVec 64) :
    IntegerText (Json.JsonEncoder.intText value.toInt) value.toInt ∧
      (Json.JsonEncoder.intText value.toInt).length < intStrBufSize ∧ 0 ∉ Json.JsonEncoder.intText value.toInt := by
  have hlow : -9223372036854775808 ≤ value.toInt := by
    have := BitVec.le_toInt value
    simpa using this
  have hhigh : value.toInt < 9223372036854775808 := by
    have := BitVec.toInt_lt (x := value)
    simpa using this
  have hlength := @length_decimal value.toInt.natAbs 19 (by decide) (by
    show value.toInt.natAbs < 10000000000000000000
    omega)
  have hsize : intStrBufSize = 21 := rfl
  have htext := naturalText_decimal value.toInt.natAbs
  unfold Json.JsonEncoder.intText
  by_cases hneg : value.toInt < 0
  · have hvalue : -((value.toInt.natAbs : Nat) : Int) = value.toInt := by omega
    rw [if_pos hneg]
    refine ⟨?_, ?_, fun hmem => ?_⟩
    · have hminus := IntegerText.minus htext
      rwa [hvalue] at hminus
    · rw [List.length_cons]
      omega
    · rcases List.mem_cons.mp hmem with h | hmem
      · exact absurd h (by decide)
      · exact noNul_decimal _ hmem
  · have hvalue : ((value.toInt.natAbs : Nat) : Int) = value.toInt := by omega
    rw [if_neg hneg]
    refine ⟨?_, by omega, noNul_decimal _⟩
    have hplain := IntegerText.plain htext
    rwa [hvalue] at hplain

/-- An output stream that grows. -/
def growing : OutStream := ⟨[], none⟩

theorem written_eq (text : List UInt8) : (retText (readyFor growing) text).1 = 0 ∧
    (retText (readyFor growing) text).2.stream.written = text := by
  rw [textRet_written (OutStream.fits_of_unbounded rfl _)]
  exact ⟨rfl, rfl⟩

/-- **Every 64-bit integer is read back.** -/
theorem integer_roundTrips (value : BitVec 64) :
    (textRetInteger (readyFor growing) value).1 = 0 ∧
      (getInteger (inputTextCreate (textRetInteger (readyFor growing) value).2.stream.written)).1 = .ok value.toInt := by
  obtain ⟨htext, hlength, hnul⟩ := intText_reads value
  obtain ⟨hcode, hwritten⟩ := written_eq (Json.JsonEncoder.intText value.toInt)
  refine ⟨hcode, ?_⟩
  unfold textRetInteger
  rw [hwritten, getInteger_iff hlength, upToNul_of_notMem hnul]
  have hlow := BitVec.le_toInt value
  have hhigh := BitVec.toInt_lt (x := value)
  refine ⟨htext, by simpa [llongMin] using hlow, ?_⟩
  unfold llongMax
  exact Int.le_sub_one_of_lt (by simpa using hhigh)

/-- **Both booleans are read back.** -/
theorem bool_roundTrips (value : Bool) :
    (textRetBool (readyFor growing) value).1 = 0 ∧
      (getBool (inputTextCreate (textRetBool (readyFor growing) value).2.stream.written)).1 = .ok value := by
  obtain ⟨hcode, hread⟩ := integer_roundTrips (if value then 1 else 0)
  refine ⟨hcode, ?_⟩
  unfold textRetBool getBool
  cases hget : getInteger (inputTextCreate (textRetInteger (readyFor growing) (if value then 1 else 0)).2.stream.written) with
  | mk result ctx' =>
      rw [hget] at hread
      obtain rfl : result = .ok (if value then (1 : BitVec 64) else 0).toInt := hread
      cases value <;> rfl

/-- **Every object link is read back.** -/
theorem objlnk_roundTrips (oid iid : Id) :
    (textRetObjlnk (readyFor growing) oid iid).1 = 0 ∧
      (getObjlnk (inputTextCreate (textRetObjlnk (readyFor growing) oid iid).2.stream.written)).1 = .ok (oid, iid) := by
  obtain ⟨hcode, hwritten⟩ := written_eq (objlnkText oid iid)
  have hdigits (id : Id) : (decimal id.val).length ≤ 5 := length_decimal (by decide) (by
    have := id.isLt
    show id.val < 100000
    omega)
  have hcolon (id : Id) : 0x3A ∉ decimal id.val := fun hmem => absurd (isDigitOf_of_mem_decimal hmem) (by decide)
  have hlength : (objlnkText oid iid).length < maxObjlnkStringSize := by
    have ho := hdigits oid
    have hi := hdigits iid
    unfold objlnkText
    rw [List.length_append, List.length_cons]
    show _ < 12
    omega
  have hnul : 0 ∉ objlnkText oid iid := by
    intro hmem
    rcases List.mem_append.mp hmem with hmem | hmem
    · exact noNul_decimal _ hmem
    · rcases List.mem_cons.mp hmem with h | hmem
      · exact absurd h (by decide)
      · exact noNul_decimal _ hmem
  refine ⟨hcode, ?_⟩
  unfold textRetObjlnk
  rw [hwritten, getObjlnk_iff hlength, upToNul_of_notMem hnul]
  exact ⟨decimal oid.val, decimal iid.val, rfl, hcolon oid, IntegerText.plain (naturalText_decimal _),
    IntegerText.plain (naturalText_decimal _)⟩

/-! ## 3. Integers -/

/-- Accepted is an optional minus sign with decimal digits behind it, if the value is in the 64-bit range. -/
def IntegerMeets (payload : List UInt8) : Prop :=
  ∀ n, (getInteger (inputTextCreate payload)).1 = .ok n ↔ DecimalText payload n ∧ llongMin ≤ n ∧ n ≤ llongMax

/-- The payloads on which C and the decimal notation agree. -/
structure IntegerHolds (payload : List UInt8) : Prop where
  plain : ∀ n, IntegerText (upToNul payload) n → llongMin ≤ n → n ≤ llongMax →
    0 ∉ payload ∧ payload.head? ≠ some 0x2B ∧ ZerosBehindZero (splitMinus payload).2
  octal : ∀ n, DecimalText payload n → llongMin ≤ n → n ≤ llongMax → OctalBehindZero (splitMinus payload).2

/-- **Integers are read in the decimal notation exactly where C agrees with it.** -/
theorem integerMeets_iff {payload : List UInt8} (h : payload.length < intStrBufSize) :
    IntegerMeets payload ↔ IntegerHolds payload := by
  constructor
  · intro hmeets
    have hread : ∀ n, IntegerText (upToNul payload) n → llongMin ≤ n → n ≤ llongMax → DecimalText payload n :=
      fun n htext hmin hmax => ((hmeets n).mp ((getInteger_iff h n).mpr ⟨htext, hmin, hmax⟩)).1
    refine ⟨fun n htext hmin hmax => ?_, fun n hdecimal hmin hmax => ?_⟩
    · have hdecimal := hread n htext hmin hmax
      obtain ⟨hplus, hnul⟩ := hdecimal.plain
      rw [upToNul_of_notMem hnul] at htext
      exact ⟨hnul, hplus, (integer_agrees htext hdecimal).1⟩
    · have htext := ((getInteger_iff h n).mp ((hmeets n).mpr ⟨hdecimal, hmin, hmax⟩)).1
      rw [upToNul_of_notMem hdecimal.plain.2] at htext
      exact (integer_agrees htext hdecimal).2
  · intro hholds
    have hread : ∀ n, IntegerText (upToNul payload) n → llongMin ≤ n → n ≤ llongMax → DecimalText payload n := by
      intro n htext hmin hmax
      obtain ⟨hnul, hplus, hzeros⟩ := hholds.plain n htext hmin hmax
      rw [upToNul_of_notMem hnul] at htext
      exact decimal_of_integer htext hplus hzeros
    intro n
    rw [getInteger_iff h]
    constructor
    · rintro ⟨htext, hmin, hmax⟩
      exact ⟨hread n htext hmin hmax, hmin, hmax⟩
    · rintro ⟨hdecimal, hmin, hmax⟩
      obtain ⟨n', htext, hrange⟩ := integer_of_decimal hdecimal (hholds.octal n hdecimal hmin hmax)
      obtain ⟨hmin', hmax'⟩ := hrange ⟨hmin, hmax⟩
      have hnul := hdecimal.plain.2
      have hdecimal' := hread n' (by rwa [upToNul_of_notMem hnul]) hmin' hmax'
      obtain ⟨m, hm, rfl⟩ := hdecimal
      obtain ⟨m', hm', rfl⟩ := hdecimal'
      rw [hm.unique hm', upToNul_of_notMem hnul]
      exact ⟨htext, hmin', hmax'⟩

/-! ## 4. Links -/

/-- A part of a link in the decimal notation. -/
def DecimalPart (text : List UInt8) (id : Id) : Prop := UnsignedText text id.val

/-- Accepted are two decimal numbers up to 65535, joined by a colon. -/
def LinkMeets (payload : List UInt8) : Prop :=
  ∀ link, (getObjlnk (inputTextCreate payload)).1 = .ok link ↔
    ∃ front back, payload = front ++ 0x3A :: back ∧ DecimalPart front link.1 ∧ DecimalPart back link.2

/-- A part of a link with no sign, and behind a leading zero zeros only. -/
def PlainPart (text : List UInt8) : Prop :=
  text.head? ≠ some 0x2B ∧ text.head? ≠ some 0x2D ∧ ZerosBehindZero text

/-- The payloads on which C and the decimal notation agree. -/
structure LinkHolds (payload : List UInt8) : Prop where
  plain : ∀ front back oid iid, upToNul payload = front ++ 0x3A :: back → 0x3A ∉ front → PartText front oid →
    PartText back iid → 0 ∉ payload ∧ PlainPart front ∧ PlainPart back
  octal : ∀ front back oid iid, payload = front ++ 0x3A :: back → DecimalPart front oid → DecimalPart back iid →
    OctalBehindZero front ∧ OctalBehindZero back

/-- Without a sign. -/
theorem PartText.natural {text : List UInt8} {id : Id} (h : PartText text id) (hplus : text.head? ≠ some 0x2B)
    (hminus : text.head? ≠ some 0x2D) : NaturalText text id.val := by
  obtain ⟨m, hm, hid⟩ := (integerText_iff hplus _).mp h
  have hsplit : splitMinus text = (false, text) := by
    cases text with
    | nil => rfl
    | cons c rest => exact if_neg fun hc => hminus (congrArg some hc)
  rw [hsplit] at hm hid
  obtain rfl : id.val = m := Int.natCast_inj.mp hid
  exact hm

theorem PlainPart.decimal {text : List UInt8} {id : Id} (h : PlainPart text) (htext : PartText text id) :
    DecimalPart text id :=
  unsigned_of_natural (htext.natural h.1 h.2.1) h.2.2

/-- A decimal part that C reads as well: as what it denotes, and in plain spelling. -/
theorem DecimalPart.agrees {text : List UInt8} {id : Id} (h : DecimalPart text id) (htext : PartText text id) :
    PlainPart text ∧ OctalBehindZero text := by
  obtain ⟨-, hplus, hminus, -, -⟩ := h.head
  obtain ⟨hzeros, hoctal⟩ := natural_agrees (htext.natural hplus hminus) h
  exact ⟨⟨hplus, hminus, hzeros⟩, hoctal⟩

theorem DecimalPart.read {text : List UInt8} {id : Id} (h : DecimalPart text id) (hoctal : OctalBehindZero text) :
    ∃ id', PartText text id' := by
  obtain ⟨m, hm, hle⟩ := natural_of_unsigned h hoctal
  exact ⟨⟨m, Nat.lt_of_le_of_lt hle id.isLt⟩, IntegerText.plain hm⟩

/-- A link in the decimal notation has no NUL. -/
theorem noNul_link {front back : List UInt8} {oid iid : Id} (hfront : DecimalPart front oid)
    (hback : DecimalPart back iid) : 0 ∉ front ++ 0x3A :: back := by
  intro hmem
  rcases List.mem_append.mp hmem with hmem | hmem
  · exact hfront.head.2.2.2.1 hmem
  · rcases List.mem_cons.mp hmem with h | hmem
    · exact absurd h (by decide)
    · exact hback.head.2.2.2.1 hmem

/-- There is one first colon. -/
theorem split_unique {front back front' back' : List UInt8} (h : front ++ 0x3A :: back = front' ++ 0x3A :: back')
    (hfront : 0x3A ∉ front) (hfront' : 0x3A ∉ front') : front = front' ∧ back = back' := by
  have hsplit := (splitColon_iff _ front back).mpr ⟨h.symm, hfront⟩
  rw [(splitColon_iff _ front' back').mpr ⟨rfl, hfront'⟩] at hsplit
  obtain ⟨hf, hb⟩ := Prod.mk.inj (Option.some.inj hsplit)
  exact ⟨hf.symm, hb.symm⟩

/-- **Links are read in the decimal notation exactly where C agrees with it.** -/
theorem linkMeets_iff {payload : List UInt8} (h : payload.length < maxObjlnkStringSize) :
    LinkMeets payload ↔ LinkHolds payload := by
  constructor
  · intro hmeets
    refine ⟨fun front back oid iid htext hcolon hfront hback => ?_, fun front back oid iid htext hfront hback => ?_⟩
    · obtain ⟨front', back', rfl, hfront', hback'⟩ :=
        (hmeets (oid, iid)).mp ((getObjlnk_iff h _).mpr ⟨front, back, htext, hcolon, hfront, hback⟩)
      have hnul := noNul_link hfront' hback'
      rw [upToNul_of_notMem hnul] at htext
      obtain ⟨rfl, rfl⟩ := split_unique htext hfront'.head.2.2.2.2 hcolon
      exact ⟨hnul, (hfront'.agrees hfront).1, (hback'.agrees hback).1⟩
    · subst htext
      obtain ⟨front', back', htext, hcolon, hfront', hback'⟩ :=
        (getObjlnk_iff h (oid, iid)).mp ((hmeets (oid, iid)).mpr ⟨front, back, rfl, hfront, hback⟩)
      rw [upToNul_of_notMem (noNul_link hfront hback)] at htext
      obtain ⟨rfl, rfl⟩ := split_unique htext hfront.head.2.2.2.2 hcolon
      exact ⟨(hfront.agrees hfront').2, (hback.agrees hback').2⟩
  · intro hholds link
    rw [getObjlnk_iff h]
    constructor
    · rintro ⟨front, back, htext, hcolon, hfront, hback⟩
      obtain ⟨hnul, hplainFront, hplainBack⟩ := hholds.plain front back _ _ htext hcolon hfront hback
      rw [upToNul_of_notMem hnul] at htext
      exact ⟨front, back, htext, hplainFront.decimal hfront, hplainBack.decimal hback⟩
    · rintro ⟨front, back, rfl, hfront, hback⟩
      obtain ⟨hoctalFront, hoctalBack⟩ := hholds.octal front back _ _ rfl hfront hback
      obtain ⟨oid, hoid⟩ := hfront.read hoctalFront
      obtain ⟨iid, hiid⟩ := hback.read hoctalBack
      have hcolon := hfront.head.2.2.2.2
      have htext := upToNul_of_notMem (noNul_link hfront hback)
      obtain ⟨-, hplainFront, hplainBack⟩ := hholds.plain front back oid iid htext hcolon hoid hiid
      have hfrontId : oid = link.1 := Fin.ext (UnsignedText.unique (hplainFront.decimal hoid) hfront)
      have hbackId : iid = link.2 := Fin.ext (UnsignedText.unique (hplainBack.decimal hiid) hback)
      rw [← hfrontId, ← hbackId]
      exact ⟨front, back, htext, hcolon, hoid, hiid⟩

/-! ## 5. All of it -/

/-- **Every integer, boolean and link is read back; other integers and links are read in the decimal notation exactly where
    C agrees with it.** -/
theorem numbers_meet_iff (value : BitVec 64) (flag : Bool) (oid iid : Id) {payload link : List UInt8}
    (hpayload : payload.length < intStrBufSize) (hlink : link.length < maxObjlnkStringSize) :
    ((getInteger (inputTextCreate (textRetInteger (readyFor growing) value).2.stream.written)).1 = .ok value.toInt ∧
      (getBool (inputTextCreate (textRetBool (readyFor growing) flag).2.stream.written)).1 = .ok flag ∧
      (getObjlnk (inputTextCreate (textRetObjlnk (readyFor growing) oid iid).2.stream.written)).1 = .ok (oid, iid)) ∧
    (IntegerMeets payload ↔ IntegerHolds payload) ∧ (LinkMeets link ↔ LinkHolds link) :=
  ⟨⟨(integer_roundTrips value).2, (bool_roundTrips flag).2, (objlnk_roundTrips oid iid).2⟩, integerMeets_iff hpayload,
    linkMeets_iff hlink⟩

/-- For the payloads -42 and 3:10. -/
theorem numbers_meet_signed :
    ((getInteger (inputTextCreate (textRetInteger (readyFor growing) (-42)).2.stream.written)).1 =
        .ok (-42 : BitVec 64).toInt ∧
      (getBool (inputTextCreate (textRetBool (readyFor growing) true).2.stream.written)).1 = .ok true ∧
      (getObjlnk (inputTextCreate (textRetObjlnk (readyFor growing) 3 10).2.stream.written)).1 = .ok (3, 10)) ∧
    (IntegerMeets [0x2D, 0x34, 0x32] ↔ IntegerHolds [0x2D, 0x34, 0x32]) ∧
    (LinkMeets [0x33, 0x3A, 0x31, 0x30] ↔ LinkHolds [0x33, 0x3A, 0x31, 0x30]) :=
  numbers_meet_iff (-42) true 3 10 (by decide) (by decide)

/-- The payload 010 is read as 8. -/
theorem octal_not_meets : ¬IntegerMeets [0x30, 0x31, 0x30] := by
  intro h
  obtain ⟨⟨m, hm, hvalue⟩, -⟩ := (h 8).mp (by decide +kernel)
  have hten : m = 10 := hm.2.2
  rw [hten] at hvalue
  exact absurd hvalue (by decide)

end Anjay.PlainText
