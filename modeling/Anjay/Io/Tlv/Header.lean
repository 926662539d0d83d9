/-
  File:      Anjay/Io/Tlv/Header.lean
  Subject:   TLV entry headers: how `anjay_tlv_out.c` writes them and `anjay_tlv_in.c` reads them.

  * `writeHeader_ok`: a header that is written is `encodeHeader`, and its id and length are in range.
  * `parseHeader_encodeHeader`: reading the header back gives its type, id and length, and counts
    exactly its bytes.
-/
import Anjay.Dm.Path
import Anjay.Io.Stream
import Anjay.Lib.Bytes

namespace Anjay.Tlv

open Lib

/-! ## 1. The header's fields -/

/-- `tlv_id_type_t`. -/
inductive TlvIdType
  | iid
  | riid
  | ridArray
  | rid
  deriving DecidableEq, Repr

/-- The numerical value of the enumeration constant. -/
def TlvIdType.toNat : TlvIdType → Nat
  | .iid => 0
  | .riid => 1
  | .ridArray => 2
  | .rid => 3

/-- `TLV_MAX_LENGTH`. -/
def tlvMaxLength : Nat := 2 ^ 24 - 1

/-- The loop of `u32_length`; a 32-bit value is zero after at most three more shifts. -/
def u32LengthLoop : Nat → Nat → Nat
  | 0, _ => 1
  | k + 1, value => if value >>> 8 = 0 then 1 else u32LengthLoop k (value >>> 8) + 1

/-- `u32_length`: the bytes a value needs, at least one. -/
def u32Length (value : Nat) : Nat := u32LengthLoop 3 value

/-- `typefield_length`. -/
def typefieldLength (length : Nat) : Nat :=
  if length ≤ 7 then length else u32Length length <<< 3

/-- `header_size`. -/
def headerSize (id : Id) (length : Nat) : Nat :=
  1 + u32Length id + (if length > 7 then u32Length length else 0)

/-- The first byte of a header, as `write_header` puts it together. -/
def typefieldOf (type : TlvIdType) (id : Id) (length : Nat) : UInt8 :=
  UInt8.ofNat (((type.toNat &&& 3) <<< 6) ||| (if id.val > 255 then 0x20 else 0)
    ||| typefieldLength length)

theorem u32Length_eq (v : Nat) :
    u32Length v = if v < 256 then 1 else if v < 65536 then 2 else if v < 2 ^ 24 then 3 else 4 := by
  simp only [u32Length, u32LengthLoop, Nat.shiftRight_eq_div_pow]
  split_ifs <;> omega

theorem u32Length_pos (v : Nat) : 0 < u32Length v := by
  rw [u32Length_eq]
  split_ifs <;> omega

theorem u32Length_id (id : Id) : u32Length id = if id.val > 255 then 2 else 1 := by
  have := id.isLt
  rw [u32Length_eq]
  split_ifs <;> omega

theorem u32Length_le_three {v : Nat} (h : v ≤ tlvMaxLength) : u32Length v ≤ 3 := by
  unfold tlvMaxLength at h
  rw [u32Length_eq]
  split_ifs <;> omega

theorem lt_pow_u32Length {v : Nat} (h : v < 2 ^ 32) : v < 256 ^ u32Length v := by
  rw [u32Length_eq]
  split_ifs <;> omega

/-! ## 2. Writing -/

/-- `write_shortened_u32`: the last `u32_length` bytes of the big-endian value. -/
def writeShortenedU32 (stream : OutStream) (value : Nat) : Bool × OutStream :=
  stream.write ((beBytes 4 value).drop (4 - u32Length value))

/-- `write_header`. -/
def writeHeader (stream : OutStream) (type : TlvIdType) (id : Id) (length : Nat) :
    Bool × OutStream :=
  if id = idInvalid ∨ length > tlvMaxLength then (false, stream)
  else
    match stream.write [typefieldOf type id length] with
    | (false, stream) => (false, stream)
    | (true, stream) =>
        match writeShortenedU32 stream id with
        | (false, stream) => (false, stream)
        | (true, stream) => if length > 7 then writeShortenedU32 stream length else (true, stream)

/-- The bytes of a header. -/
def encodeHeader (type : TlvIdType) (id : Id) (length : Nat) : List UInt8 :=
  typefieldOf type id length ::
    (beBytes (u32Length id) id ++ (if length > 7 then beBytes (u32Length length) length else []))

theorem drop_beBytes : ∀ j l n : Nat, (beBytes (j + l) n).drop j = beBytes l n
  | 0, l, n => by simp
  | j + 1, l, n => by
      rw [Nat.add_right_comm, beBytes, List.drop_succ_cons, drop_beBytes j l n]

theorem drop_beBytes_u32Length (v : Nat) :
    (beBytes 4 v).drop (4 - u32Length v) = beBytes (u32Length v) v := by
  have h : u32Length v ≤ 4 := by rw [u32Length_eq]; split_ifs <;> omega
  have hsum : 4 - u32Length v + u32Length v = 4 := by omega
  have hdrop := drop_beBytes (4 - u32Length v) (u32Length v) v
  rwa [hsum] at hdrop

theorem encodeHeader_length (type : TlvIdType) (id : Id) (length : Nat) :
    (encodeHeader type id length).length = headerSize id length := by
  unfold encodeHeader headerSize
  split_ifs <;> simp <;> omega

theorem headerSize_ge (id : Id) (length : Nat) : 2 ≤ headerSize id length := by
  have := u32Length_pos id
  unfold headerSize
  split_ifs <;> omega

/-- **A header that goes through is `encodeHeader`, with a valid id and a length in range.** -/
theorem writeHeader_ok {s s' : OutStream} {type : TlvIdType} {id : Id} {length : Nat}
    (h : writeHeader s type id length = (true, s')) :
    id ≠ idInvalid ∧ length ≤ tlvMaxLength ∧ s' = s.push (encodeHeader type id length) := by
  unfold writeHeader at h
  split at h
  · simp at h
  · rename_i hrange
    rw [not_or, not_lt] at hrange
    refine ⟨hrange.1, hrange.2, ?_⟩
    split at h
    · simp at h
    · rename_i s1 h1
      have e1 := OutStream.write_ok h1
      split at h
      · simp at h
      · rename_i s2 h2
        have e2 := OutStream.write_ok h2
        rw [drop_beBytes_u32Length, e1] at e2
        split at h
        · rename_i h7
          have e3 := OutStream.write_ok h
          rw [drop_beBytes_u32Length, e2] at e3
          simp [e3, encodeHeader, h7]
        · rename_i h7
          simp only [Prod.mk.injEq, true_and] at h
          rw [← h, e2]
          simp [encodeHeader, h7]

theorem writeHeader_of_fits {s : OutStream} (type : TlvIdType) {id : Id} {length : Nat}
    (hid : id ≠ idInvalid) (hlen : length ≤ tlvMaxLength) (hfits : s.Fits (headerSize id length)) :
    writeHeader s type id length = (true, s.push (encodeHeader type id length)) := by
  have hsize : headerSize id length = 1 + u32Length id + (if length > 7 then u32Length length else 0) :=
    rfl
  have h1 : s.Fits [typefieldOf type id length].length :=
    OutStream.fits_mono hfits (by have := headerSize_ge id length; simp; omega)
  have h2 : (s.push [typefieldOf type id length]).Fits (beBytes (u32Length id) id).length :=
    OutStream.fits_push (OutStream.fits_mono hfits (by simp [hsize]))
  unfold writeHeader
  rw [if_neg (by rw [not_or, not_lt]; exact ⟨hid, hlen⟩)]
  simp only [OutStream.write_of_fits h1, writeShortenedU32, drop_beBytes_u32Length,
    OutStream.write_of_fits h2]
  split
  · rename_i h7
    have h3 : ((s.push [typefieldOf type id length]).push (beBytes (u32Length id) id)).Fits
        (beBytes (u32Length length) length).length := by
      rw [OutStream.push_push]
      apply OutStream.fits_push
      apply OutStream.fits_mono hfits
      rw [hsize, if_pos h7]
      simp only [List.length_append, List.length_singleton, beBytes_length]
      omega
    rw [OutStream.write_of_fits h3]
    simp [encodeHeader, h7]
  · rename_i h7
    simp [encodeHeader, h7]

/-! ## 3. Reading -/

/-- `tlv_type_from_typefield`. -/
def tlvTypeFromTypefield (typefield : UInt8) : TlvIdType :=
  match (typefield.toNat >>> 6) &&& 3 with
  | 0 => .iid
  | 1 => .riid
  | 2 => .ridArray
  | _ => .rid

/-- Which id of a path an entry sets. -/
def TlvIdType.idType : TlvIdType → IdType
  | .iid => .iid
  | .riid => .riid
  | .ridArray => .rid
  | .rid => .rid

/-- `convert_id_type`. -/
def convertIdType (typefield : UInt8) : IdType := (tlvTypeFromTypefield typefield).idType

/-- `id_length` of `get_id`. -/
def idLength (typefield : UInt8) : Nat := if typefield.toNat &&& 0x20 ≠ 0 then 2 else 1

/-- `length_length` of `get_id`. -/
def lengthLength (typefield : UInt8) : Nat := (typefield.toNat >>> 3) &&& 3

/-- `read_shortened_*`: the loop `*out = (Type) ((*out << 8) + bytes[i])`; the callers read at most
    as many bytes as `Type` has, so nothing is cut off. -/
def readShortened (stream : List UInt8) (length : Nat) : Option (Nat × List UInt8) :=
  (readReliably length stream).map fun r => (r.1.foldl (fun acc b => acc * 256 + b.toNat) 0, r.2)

theorem readShortened_eq (s : List UInt8) (n : Nat) :
    readShortened s n = if n ≤ s.length then some (beNat (s.take n), s.drop n) else none := by
  unfold readShortened readReliably
  split
  · simp [foldl_beNat]
  · rfl

/-- What a header says: `header_len` counts the bytes it takes. -/
structure Header where
  tlvType : TlvIdType
  id : Id
  length : Nat
  headerLen : Nat
  deriving DecidableEq, Repr

/-- A whole header at the start of a byte string, and what follows it. -/
def parseHeader : List UInt8 → Option (Header × List UInt8)
  | [] => none
  | typefield :: s =>
      match readShortened s (idLength typefield) with
      | none => none
      | some (id, s) =>
          if lengthLength typefield = 0 then
            some (⟨tlvTypeFromTypefield typefield, Fin.ofNat _ id, typefield.toNat &&& 7,
              1 + idLength typefield + lengthLength typefield⟩, s)
          else
            match readShortened s (lengthLength typefield) with
            | none => none
            | some (length, s) =>
                some (⟨tlvTypeFromTypefield typefield, Fin.ofNat _ id, length,
                  1 + idLength typefield + lengthLength typefield⟩, s)

/-- The fields of a first byte, for every type, id width and length field. -/
theorem typefield_fields : ∀ (type : TlvIdType) (wide : Bool) (l : Fin 32),
    let b := UInt8.ofNat (((type.toNat &&& 3) <<< 6) ||| (if wide then 0x20 else 0) ||| l.val)
    tlvTypeFromTypefield b = type ∧ idLength b = (if wide then 2 else 1) ∧
      lengthLength b = l.val / 8 ∧ b.toNat &&& 7 = l.val % 8 := by
  intro type
  cases type <;> decide

theorem typefieldLength_lt {length : Nat} (h : length ≤ tlvMaxLength) :
    typefieldLength length < 32 := by
  have h3 := u32Length_le_three h
  unfold typefieldLength
  split
  · omega
  · rw [Nat.shiftLeft_eq]; omega

theorem typefieldOf_fields (type : TlvIdType) (id : Id) {length : Nat} (h : length ≤ tlvMaxLength) :
    tlvTypeFromTypefield (typefieldOf type id length) = type ∧
      idLength (typefieldOf type id length) = u32Length id ∧
      lengthLength (typefieldOf type id length) = (if length > 7 then u32Length length else 0) ∧
      (length ≤ 7 → (typefieldOf type id length).toNat &&& 7 = length) := by
  have hf := typefield_fields type (decide (id.val > 255)) ⟨_, typefieldLength_lt h⟩
  have htf : typefieldOf type id length = UInt8.ofNat (((type.toNat &&& 3) <<< 6)
      ||| (if decide (id.val > 255) then 0x20 else 0) ||| typefieldLength length) := by
    simp [typefieldOf]
  simp only [← htf] at hf
  obtain ⟨h1, h2, h3, h4⟩ := hf
  refine ⟨h1, ?_, ?_, ?_⟩
  · rw [h2, u32Length_id]
    simp
  · rw [h3]
    unfold typefieldLength
    split
    · rw [if_neg (by omega)]; omega
    · rw [if_pos (by omega), Nat.shiftLeft_eq]; omega
  · intro h7
    rw [h4, typefieldLength, if_pos h7]
    omega

theorem readShortened_beBytes {k n : Nat} (h : n < 256 ^ k) (rest : List UInt8) :
    readShortened (beBytes k n ++ rest) k = some (n, rest) := by
  rw [readShortened, readReliably_append (beBytes_length k n)]
  simp [foldl_beNat, beNat_beBytes_of_lt h]

/-- **Reading a header back.** -/
theorem parseHeader_encodeHeader (type : TlvIdType) (id : Id) {length : Nat}
    (h : length ≤ tlvMaxLength) (rest : List UInt8) :
    parseHeader (encodeHeader type id length ++ rest)
      = some (⟨type, id, length, headerSize id length⟩, rest) := by
  obtain ⟨ht, hi, hl, h7⟩ := typefieldOf_fields type id h
  have hidlt : id.val < 256 ^ u32Length id := lt_pow_u32Length (by have := id.isLt; omega)
  have hlenlt : length < 256 ^ u32Length length :=
    lt_pow_u32Length (by unfold tlvMaxLength at h; omega)
  have hid : Fin.ofNat 65536 id.val = id := by
    apply Fin.ext
    simp [Fin.ofNat, Nat.mod_eq_of_lt id.isLt]
  unfold encodeHeader
  simp only [List.cons_append, List.append_assoc, parseHeader, hi]
  rw [readShortened_beBytes hidlt]
  simp only [hl, ht, hid, headerSize]
  by_cases hgt : length > 7
  · have hne : u32Length length ≠ 0 := (u32Length_pos length).ne'
    simp only [if_pos hgt, if_neg hne, readShortened_beBytes hlenlt]
  · simp only [if_neg hgt, if_pos, List.nil_append, h7 (by omega)]

/-- A header is a prefix of at least two bytes, and reads the same whatever follows it. -/
theorem parseHeader_some {s rest : List UInt8} {h : Header} (hp : parseHeader s = some (h, rest)) :
    ∃ pre, s = pre ++ rest ∧ pre.length = h.headerLen ∧ 2 ≤ h.headerLen ∧
      ∀ rest', parseHeader (pre ++ rest') = some (h, rest') := by
  cases s with
  | nil => cases hp
  | cons typefield s =>
      have hid1 : 1 ≤ idLength typefield := by unfold idLength; split <;> omega
      simp only [parseHeader, readShortened_eq] at hp
      by_cases h1 : idLength typefield ≤ s.length
      · simp only [if_pos h1] at hp
        by_cases h0 : lengthLength typefield = 0
        · simp only [if_pos h0, Option.some.injEq, Prod.mk.injEq] at hp
          obtain ⟨rfl, rfl⟩ := hp
          refine ⟨typefield :: s.take (idLength typefield), by simp, ?_, ?_, fun rest' => ?_⟩
          · simp [h0, Nat.min_eq_left h1]; omega
          · simp only; omega
          · have hlen : (s.take (idLength typefield)).length = idLength typefield := by
              rw [List.length_take, Nat.min_eq_left h1]
            simp only [List.cons_append, parseHeader, readShortened, readReliably_append hlen,
              Option.map_some, foldl_beNat, h0, if_pos, Nat.zero_mul, Nat.zero_add]
        · rw [if_neg h0] at hp
          by_cases h2 : lengthLength typefield ≤ (s.drop (idLength typefield)).length
          · simp only [if_pos h2, Option.some.injEq, Prod.mk.injEq] at hp
            obtain ⟨rfl, rfl⟩ := hp
            refine ⟨typefield :: (s.take (idLength typefield) ++
              (s.drop (idLength typefield)).take (lengthLength typefield)), ?_, ?_, ?_,
              fun rest' => ?_⟩
            · rw [List.cons_append, List.append_assoc, List.take_append_drop,
                List.take_append_drop]
            · rw [List.length_cons, List.length_append, List.length_take, List.length_take,
                Nat.min_eq_left h1, Nat.min_eq_left h2]
              show _ = 1 + idLength typefield + lengthLength typefield
              omega
            · simp only; omega
            · have hlen1 : (s.take (idLength typefield)).length = idLength typefield := by
                rw [List.length_take, Nat.min_eq_left h1]
              have hlen2 : ((s.drop (idLength typefield)).take (lengthLength typefield)).length
                  = lengthLength typefield := by
                rw [List.length_take, Nat.min_eq_left h2]
              simp only [List.cons_append, List.append_assoc, parseHeader, readShortened,
                readReliably_append hlen1, readReliably_append hlen2, Option.map_some, foldl_beNat,
                if_neg h0, Nat.zero_mul, Nat.zero_add]
          · simp only [if_neg h2] at hp
            cases hp
      · simp only [if_neg h1] at hp
        cases hp

end Anjay.Tlv
