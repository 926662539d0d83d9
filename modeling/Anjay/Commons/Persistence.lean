/-
  File:      Anjay/Commons/Persistence.lean
  Subject:   The persistence contexts of the commons library (`avs_persistence.c`): handlers that store
             a value to a stream or restore it, whichever way the context goes. Allocations succeed.

  * `Transfers`: what a handler stores is what it restores; `Transfers.andThen`, `Transfers.onField` and
    `transfers_list` build handlers of records and lists from those of their parts.
-/
import Anjay.Lib.Bytes
import Anjay.Commons.Basic

namespace Anjay.Persistence

open Lib

/-! ## 1. Contexts -/

/-- `avs_persistence_context_t` with its stream: the bytes written so far, or those still to be read. -/
inductive Context
  | store (written : List UInt8)
  | restore (input : List UInt8)
  deriving DecidableEq, Repr

/-- A handler gets the value by reference; to restore, it is the value that the new one replaces. -/
abbrev Handler (α : Type) := Context → α → Except AvsError (Context × α)

/-- `avs_stream_read_reliably`. -/
def streamReadReliably (length : Nat) (input : List UInt8) : Except AvsError (List UInt8 × List UInt8) :=
  if input.length < length then .error .eof else .ok (input.take length, input.drop length)

/-- A number of `k` bytes, most significant byte first. -/
def persistenceNumber {α : Type} (k : Nat) (toNat : α → Nat) (ofNat : Nat → α) : Handler α
  | .store written, value => .ok (.store (written ++ beBytes k (toNat value)), value)
  | .restore input, _ => do
      let (bytes, rest) ← streamReadReliably k input
      return (.restore rest, ofNat (beNat bytes))

/-- `avs_persistence_u8`: `avs_persistence_bytes` on one byte. -/
def persistenceU8 : Handler UInt8 := persistenceNumber 1 UInt8.toNat UInt8.ofNat

/-- `avs_persistence_bool`: what is read is a `true` unless it is zero. -/
def persistenceBool : Handler Bool := persistenceNumber 1 Bool.toNat fun n => decide (n ≠ 0)

/-- `avs_persistence_u16`. -/
def persistenceU16 : Handler (Fin 65536) :=
  persistenceNumber 2 Fin.val fun n => ⟨n % 65536, Nat.mod_lt n (Nat.succ_pos _)⟩

/-- `avs_persistence_u32`. -/
def persistenceU32 : Handler (BitVec 32) := persistenceNumber 4 BitVec.toNat (BitVec.ofNat 32)

/-- `avs_persistence_i64`. -/
def persistenceI64 : Handler (BitVec 64) := persistenceNumber 8 BitVec.toNat (BitVec.ofNat 64)

/-- `avs_persistence_double`, where doubles are IEEE 754 ones. -/
def persistenceDouble : Handler Double := persistenceNumber 8 BitVec.toNat (BitVec.ofNat 64)

/-- A buffer of `n` bytes. -/
abbrev Buffer (n : Nat) := { bytes : List UInt8 // bytes.length = n }

theorem length_take_of_not_lt {n : Nat} {bytes : List UInt8} (h : ¬ bytes.length < n) :
    (bytes.take n).length = n := List.length_take_of_le (Nat.not_lt.mp h)

/-- `avs_persistence_bytes`. -/
def persistenceBytes {n : Nat} : Handler (Buffer n)
  | .store written, buffer => .ok (.store (written ++ buffer.val), buffer)
  | .restore input, _ =>
      if h : input.length < n then .error .eof
      else .ok (.restore (input.drop n), ⟨input.take n, length_take_of_not_lt h⟩)

/-- `avs_persistence_sized_buffer`. -/
def persistenceSizedBuffer : Handler (List UInt8)
  | .store written, buffer =>
      if 2 ^ 32 ≤ buffer.length then .error (.errno .EOVERFLOW)
      else .ok (.store (written ++ beBytes 4 buffer.length ++ buffer), buffer)
  | .restore input, _ => do
      let (size, rest) ← streamReadReliably 4 input
      let (buffer, rest) ← streamReadReliably (beNat size) rest
      return (.restore rest, buffer)

/-- `avs_persistence_string`; `none` is the null pointer. -/
def persistenceString : Handler (Option CString)
  | .store written, string => do
      let (ctx, _) ← persistenceSizedBuffer (.store written) (string.elim [] CString.terminated)
      return (ctx, string)
  | .restore input, _ => do
      let (ctx, bytes) ← persistenceSizedBuffer (.restore input) []
      if bytes = [] then return (ctx, none)
      else if bytes.getLast? = some 0 then return (ctx, some (.ofBytes bytes))
      else .error (.errno .EBADMSG)

/-- `avs_persistence_magic`. -/
def persistenceMagic (magic : List UInt8) : Context → Except AvsError Context
  | .store written => .ok (.store (written ++ magic))
  | .restore input => do
      let (bytes, rest) ← streamReadReliably magic.length input
      if bytes = magic then return .restore rest else .error (.errno .EBADMSG)

/-- `avs_persistence_version`. -/
def persistenceVersion (supported : List UInt8) : Handler UInt8 := fun ctx version => do
  let (ctx, version) ← persistenceU8 ctx version
  match ctx with
  | .store _ => return (ctx, version)
  | .restore _ => if version ∈ supported then return (ctx, version) else .error (.errno .EBADMSG)

/-! ## 2. Lists -/

section List

variable {α : Type} (new : α) (handler : Handler α)

/-- The loop of `persist_list`. -/
def storeElements : Context → List α → Except AvsError (Context × List α)
  | ctx, [] => .ok (ctx, [])
  | ctx, a :: as => do
      let (ctx, a) ← handler ctx a
      let (ctx, as) ← storeElements ctx as
      return (ctx, a :: as)

/-- The loop of `restore_list`; each element starts as `new`. -/
def restoreElements : Context → Nat → Except AvsError (Context × List α)
  | ctx, 0 => .ok (ctx, [])
  | ctx, count + 1 => do
      let (ctx, a) ← handler ctx new
      let (ctx, as) ← restoreElements ctx count
      return (ctx, a :: as)

/-- `avs_persistence_list`. -/
def persistenceList : Handler (List α)
  | .store written, as => do
      if 2 ^ 32 ≤ as.length then .error (.errno .EOVERFLOW)
      else
        let (ctx, _) ← persistenceU32 (.store written) (BitVec.ofNat 32 as.length)
        storeElements handler ctx as
  | .restore input, as => do
      if as ≠ [] then .error (.errno .EINVAL)
      else
        let (ctx, count) ← persistenceU32 (.restore input) 0
        restoreElements new handler ctx count.toNat

end List

/-! ## 3. Records -/

section Records

variable {α β : Type}

/-- The handler of a part of a record. -/
def onField (get : β → α) (set : α → β → β) (handler : Handler α) : Handler β := fun ctx b => do
  let (ctx, a) ← handler ctx (get b)
  return (ctx, set a b)

/-- One handler after the other: `avs_is_err((err = h(...))) || avs_is_err((err = h'(...)))`. -/
def andThen (h h' : Handler β) : Handler β := fun ctx b => do
  let (ctx, b) ← h ctx b
  h' ctx b

/-- Several handlers in turn. -/
def inTurn : List (Handler β) → Handler β
  | [] => fun ctx b => .ok (ctx, b)
  | h :: hs => andThen h (inTurn hs)

/-- What is done if the context restores. -/
def onRestore (f : β → β) : Handler β
  | .store written, b => .ok (.store written, b)
  | .restore input, b => .ok (.restore input, f b)

end Records

/-! ## 4. What is stored is restored -/

/-- The handler stores `a` as the bytes, leaving `a'` in its place, and restores `b` from them where
    `new` was. -/
structure Transfers {α : Type} (h : Handler α) (a a' new b : α) (bytes : List UInt8) : Prop where
  store : ∀ written, h (.store written) a = .ok (.store (written ++ bytes), a')
  restore : ∀ rest, h (.restore (bytes ++ rest)) new = .ok (.restore rest, b)

/-- Where a sequence of two steps succeeds, both do. -/
theorem bind_eq_ok {ε α β : Type} {x : Except ε α} {f : α → Except ε β} {b : β} :
    (x >>= f) = .ok b ↔ ∃ a, x = .ok a ∧ f a = .ok b := by
  cases x with
  | error err => exact ⟨nofun, fun ⟨_, h, _⟩ => nomatch h⟩
  | ok a =>
      constructor
      · exact fun h => ⟨a, rfl, h⟩
      · rintro ⟨a', h, hf⟩
        rw [← Except.ok.inj h] at hf
        exact hf

theorem streamReadReliably_append {length : Nat} {bytes : List UInt8} (h : bytes.length = length)
    (rest : List UInt8) : streamReadReliably length (bytes ++ rest) = .ok (bytes, rest) := by
  rw [streamReadReliably, if_neg (by rw [List.length_append]; omega), ← h, List.take_left, List.drop_left]

theorem transfers_number {α : Type} {k : Nat} {toNat : α → Nat} {ofNat : Nat → α}
    (hlt : ∀ a, toNat a < 256 ^ k) (hinv : ∀ a, ofNat (toNat a) = a) (a new : α) :
    Transfers (persistenceNumber k toNat ofNat) a a new a (beBytes k (toNat a)) := by
  refine ⟨fun _ => rfl, fun rest => ?_⟩
  rw [persistenceNumber, streamReadReliably_append (beBytes_length k _)]
  show Except.ok (Context.restore rest, ofNat (beNat (beBytes k (toNat a)))) = _
  rw [beNat_beBytes_of_lt (hlt a), hinv]

theorem transfers_u8 (a new : UInt8) : Transfers persistenceU8 a a new a (beBytes 1 a.toNat) :=
  transfers_number (fun a => a.toNat_lt) (fun _ => UInt8.ofNat_toNat) a new

theorem transfers_bool (a new : Bool) : Transfers persistenceBool a a new a (beBytes 1 a.toNat) :=
  transfers_number (fun a => by cases a <;> decide) (fun a => by cases a <;> rfl) a new

theorem transfers_u16 (a new : Fin 65536) : Transfers persistenceU16 a a new a (beBytes 2 a.val) :=
  transfers_number (fun a => a.isLt) (fun a => Fin.ext (Nat.mod_eq_of_lt a.isLt)) a new

theorem transfers_u32 (a new : BitVec 32) : Transfers persistenceU32 a a new a (beBytes 4 a.toNat) :=
  transfers_number (fun a => a.isLt) (fun a => by simp) a new

theorem transfers_i64 (a new : BitVec 64) : Transfers persistenceI64 a a new a (beBytes 8 a.toNat) :=
  transfers_number (fun a => a.isLt) (fun a => by simp) a new

theorem transfers_double (a new : Double) : Transfers persistenceDouble a a new a (beBytes 8 a.toNat) :=
  transfers_number (fun a => a.isLt) (fun a => by simp) a new

theorem transfers_bytes {n : Nat} (a new : Buffer n) : Transfers persistenceBytes a a new a a.val := by
  refine ⟨fun _ => rfl, fun rest => ?_⟩
  have hlen : ¬ (a.val ++ rest).length < n := by
    rw [List.length_append, a.property]
    omega
  have htake : (a.val ++ rest).take n = a.val := List.take_left' a.property
  have hdrop : (a.val ++ rest).drop n = rest := List.drop_left' a.property
  rw [persistenceBytes, dif_neg hlen, hdrop]
  exact congrArg (fun b => Except.ok (Context.restore rest, b)) (Subtype.ext htake)

theorem transfers_sizedBuffer {a : List UInt8} (h : a.length < 2 ^ 32) (new : List UInt8) :
    Transfers persistenceSizedBuffer a a new a (beBytes 4 a.length ++ a) := by
  have hlt : a.length < 256 ^ 4 := lt_of_lt_of_eq h (by norm_num)
  refine ⟨fun written => ?_, fun rest => ?_⟩
  · rw [persistenceSizedBuffer, if_neg (Nat.not_le.mpr h), List.append_assoc]
  · rw [persistenceSizedBuffer, List.append_assoc]
    have hread : streamReadReliably (beNat (beBytes 4 a.length)) (a ++ rest) = .ok (a, rest) := by
      rw [beNat_beBytes_of_lt hlt, streamReadReliably_append rfl]
    exact bind_eq_ok.mpr ⟨_, streamReadReliably_append (beBytes_length 4 _) (a ++ rest), bind_eq_ok.mpr ⟨_, hread, rfl⟩⟩

/-- The length of what is stored for a string. -/
def stringSize (string : Option CString) : Nat := (string.elim [] CString.terminated).length

theorem transfers_string {a : Option CString} (h : stringSize a < 2 ^ 32) (new : Option CString) :
    Transfers persistenceString a a new a (beBytes 4 (stringSize a) ++ a.elim [] CString.terminated) := by
  have hbuffer := transfers_sizedBuffer h []
  refine ⟨fun written => ?_, fun rest => ?_⟩
  · rw [persistenceString, hbuffer.store]
    rfl
  · rw [persistenceString]
    have hread := hbuffer.restore rest
    rw [show beBytes 4 (stringSize a) = beBytes 4 (a.elim [] CString.terminated).length from rfl, hread]
    cases a with
    | none => rfl
    | some s =>
        have hne : s.terminated ≠ [] := List.append_ne_nil_of_right_ne_nil _ (List.cons_ne_nil _ _)
        have hlast : s.terminated.getLast? = some 0 := List.getLast?_concat
        dsimp only [bind, Except.bind, Option.elim]
        rw [if_neg hne, if_pos hlast]
        exact congrArg (fun s => Except.ok (Context.restore rest, some s)) (s.ofBytes_append_nul [])

theorem persistenceMagic_restore (magic rest : List UInt8) :
    persistenceMagic magic (.restore (magic ++ rest)) = .ok (.restore rest) := by
  rw [persistenceMagic, streamReadReliably_append rfl]
  show (if magic = magic then Except.ok (Context.restore rest) else _) = _
  rw [if_pos rfl]

theorem transfers_version {supported : List UInt8} {version : UInt8} (h : version ∈ supported) (new : UInt8) :
    Transfers (persistenceVersion supported) version version new version (beBytes 1 version.toNat) := by
  have hbyte := transfers_u8 version new
  refine ⟨fun written => ?_, fun rest => ?_⟩
  · rw [persistenceVersion, hbyte.store]
    rfl
  · rw [persistenceVersion, hbyte.restore]
    show (if version ∈ supported then Except.ok (Context.restore rest, version) else _) = _
    rw [if_pos h]

section Records

variable {α β : Type}

/-- **The bytes of a record are those of its parts, one after the other.** -/
theorem Transfers.andThen {h h' : Handler β} {a a₁ a₂ new b₁ b₂ : β} {bytes bytes' : List UInt8}
    (ht : Transfers h a a₁ new b₁ bytes) (ht' : Transfers h' a₁ a₂ b₁ b₂ bytes') :
    Transfers (andThen h h') a a₂ new b₂ (bytes ++ bytes') := by
  constructor
  · intro written
    rw [Persistence.andThen, ht.store]
    show h' (.store (written ++ bytes)) a₁ = _
    rw [ht'.store, List.append_assoc]
  · intro rest
    rw [Persistence.andThen, List.append_assoc, ht.restore]
    exact ht'.restore rest

theorem transfers_nil (a new : β) : Transfers (inTurn []) a a new new [] :=
  ⟨fun written => by rw [inTurn, List.append_nil], fun _ => rfl⟩

theorem Transfers.onField {get : β → α} {set : α → β → β} {h : Handler α} {s n : β} {a' b : α}
    {bytes : List UInt8} (ht : Transfers h (get s) a' (get n) b bytes) :
    Transfers (onField get set h) s (set a' s) n (set b n) bytes := by
  constructor
  · intro written
    rw [Persistence.onField, ht.store]
    rfl
  · intro rest
    rw [Persistence.onField, ht.restore]
    rfl

/-- **A field of a record, and the fields that follow**; what is stored stays as it is. -/
theorem Transfers.field {get : β → α} {set : α → β → β} {h : Handler α} {hs : List (Handler β)} {s s' n b : β}
    {bytes : List UInt8} (ht : Transfers h (get s) (get s) (get n) (get s) bytes) (hset : set (get s) s = s)
    (hts : ∃ bytes', Transfers (inTurn hs) s s' (set (get s) n) b bytes') :
    ∃ bytes', Transfers (inTurn (Persistence.onField get set h :: hs)) s s' n b bytes' := by
  obtain ⟨bytes', hts⟩ := hts
  have hfield : Transfers (Persistence.onField get set h) s (set (get s) s) n (set (get s) n) bytes := ht.onField
  rw [hset] at hfield
  exact ⟨_, hfield.andThen hts⟩

theorem transfers_onRestore (f : β → β) (a new : β) : Transfers (onRestore f) a a new (f new) [] :=
  ⟨fun written => by rw [onRestore, List.append_nil], fun _ => rfl⟩

end Records

/-- **A list is restored element by element.** -/
theorem transfers_list {α : Type} (new : α) {handler : Handler α} {view : α → α} {as : List α}
    (h : ∀ a ∈ as, ∃ a' bytes, Transfers handler a a' new (view a) bytes) (hlength : as.length < 2 ^ 32) :
    ∃ as' bytes, Transfers (persistenceList new handler) as as' [] (as.map view) bytes := by
  have hcount : (BitVec.ofNat 32 as.length).toNat = as.length := by
    rw [BitVec.toNat_ofNat, Nat.mod_eq_of_lt hlength]
  -- the elements, without the count in front of them
  have helements : ∃ as' bytes, (∀ written, storeElements handler (.store written) as =
      .ok (.store (written ++ bytes), as')) ∧ ∀ rest,
        restoreElements new handler (.restore (bytes ++ rest)) as.length = .ok (.restore rest, as.map view) := by
    clear hcount hlength
    induction as with
    | nil => exact ⟨[], [], fun written => by rw [storeElements, List.append_nil], fun _ => rfl⟩
    | cons a as ih =>
        obtain ⟨ha, has⟩ := List.forall_mem_cons.mp h
        obtain ⟨a', bytes, ht⟩ := ha
        obtain ⟨as', bytes', hstore, hrestore⟩ := ih has
        refine ⟨a' :: as', bytes ++ bytes', fun written => ?_, fun rest => ?_⟩
        · rw [storeElements, ht.store]
          show (storeElements handler (.store (written ++ bytes)) as >>= fun r => _) = _
          rw [hstore, List.append_assoc]
          rfl
        · rw [List.length_cons, restoreElements, List.append_assoc, ht.restore]
          show (restoreElements new handler (.restore (bytes' ++ rest)) as.length >>= fun r => _) = _
          rw [hrestore]
          rfl
  obtain ⟨as', bytes, hstore, hrestore⟩ := helements
  have hu32 := transfers_u32 (BitVec.ofNat 32 as.length) 0
  refine ⟨as', beBytes 4 (BitVec.ofNat 32 as.length).toNat ++ bytes, fun written => ?_, fun rest => ?_⟩
  · rw [persistenceList, if_neg (Nat.not_le.mpr hlength), hu32.store]
    show storeElements handler (.store _) as = _
    rw [hstore, List.append_assoc]
  · rw [persistenceList, if_neg (not_not.mpr rfl), List.append_assoc, hu32.restore]
    show restoreElements new handler (.restore _) _ = _
    rw [hcount, hrestore]

end Anjay.Persistence
