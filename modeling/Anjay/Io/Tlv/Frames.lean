/-
  File:      Anjay/Io/Tlv/Frames.lean
  Subject:   What the TLV output context has written so far, level by level.

  * `Frames`: the open levels with their ids and the bytes of their complete entries. Its operations
    are functions on byte strings; nothing is buffered or padded.
  * `Rep`: a context in which every value is complete, read as `Frames`.
  * `emit_rep`, `slaveFinish_rep`, `setPath_rep`, `startAggregate_rep`, `close_rep`: the operations
    of the context are the operations of `Frames`, as long as ids and lengths are in range.
-/
import Anjay.Io.Tlv.Out

namespace Anjay.Tlv

open Lib

/-! ## 1. Buffered entries as bytes -/

/-- The bytes of a buffered entry in the payload. -/
def encodeEntry (type : TlvIdType) (id : Id) (data : List UInt8) : List UInt8 :=
  encodeHeader type id data.length ++ data

def encodeEntries (es : List OutEntry) : List UInt8 :=
  es.flatMap fun e => encodeEntry e.type e.id e.data

/-- An entry whose header can be written. -/
structure EntryFits (e : OutEntry) : Prop where
  id_valid : e.id ≠ idInvalid
  length_le : e.data.length ≤ tlvMaxLength

theorem encodeEntries_append (a b : List OutEntry) :
    encodeEntries (a ++ b) = encodeEntries a ++ encodeEntries b := List.flatMap_append

theorem encodeEntries_length : ∀ es : List OutEntry, (encodeEntries es).length = dataSize es
  | [] => rfl
  | e :: es => by
      have ih := encodeEntries_length es
      simp only [encodeEntries, dataSize] at ih ⊢
      rw [List.flatMap_cons, List.length_append, ih, encodeEntry, List.length_append,
        encodeHeader_length, List.map_cons, List.sum_cons]

/-- **The loop of `tlv_slave_finish` writes the entries one after the other.** -/
theorem writeEntries_of_fits : ∀ (es : List OutEntry) (s : OutStream), (∀ e ∈ es, EntryFits e) →
    s.Fits (dataSize es) → writeEntries es s = (true, s.push (encodeEntries es))
  | [], s, _, _ => by
      rw [writeEntries, encodeEntries, List.flatMap_nil, OutStream.push_nil]
  | e :: es, s, hes, hs => by
      have he := hes e List.mem_cons_self
      have hsize : dataSize (e :: es)
          = headerSize e.id e.data.length + e.data.length + dataSize es := by
        simp only [dataSize, List.map_cons, List.sum_cons]
      have h1 : s.Fits (headerSize e.id e.data.length) := OutStream.fits_mono hs (by omega)
      have h2 : (s.push (encodeHeader e.type e.id e.data.length)).Fits e.data.length := by
        apply OutStream.fits_push
        rw [encodeHeader_length]
        exact OutStream.fits_mono hs (by omega)
      have h3 : (s.push (encodeEntry e.type e.id e.data)).Fits (dataSize es) := by
        apply OutStream.fits_push
        rw [encodeEntry, List.length_append, encodeHeader_length]
        exact OutStream.fits_mono hs (by omega)
      have hw : writeEntry s e = (true, s.push (encodeEntry e.type e.id e.data)) := by
        rw [writeEntry, writeHeader_of_fits e.type he.id_valid he.length_le h1]
        simp only [OutStream.write_of_fits h2, OutStream.push_push, encodeEntry]
      rw [writeEntries, hw]
      simp only [writeEntries_of_fits es _ (fun e' h => hes e' (List.mem_cons_of_mem _ h)) h3,
        OutStream.push_push, encodeEntries, List.flatMap_cons]

/-! ## 2. Frames -/

/-- The open levels: the ids set on them and the bytes of their complete entries. -/
structure Frames where
  level : OutLevel
  ids : OutLevel → Id
  content : OutLevel → List UInt8

namespace Frames

/-- A complete entry on the current level, under the id set there. -/
def emit (z : Frames) (type : TlvIdType) (data : List UInt8) : Frames :=
  { z with
    ids := Function.update z.ids z.level idInvalid
    content := Function.update z.content z.level
      (z.content z.level ++ encodeEntry type (z.ids z.level) data) }

/-- The current level becomes one entry of the level below. -/
def finish (z : Frames) : Frames :=
  { z with level := z.level.pred }.emit (aggregateType z.level.pred) (z.content z.level)

/-- Set the id of the current level. -/
def setNext (z : Frames) (id : Id) : Frames :=
  { z with ids := Function.update z.ids z.level id }

/-- Open the level `l` above the current one. -/
def start (z : Frames) (l : OutLevel) : Frames :=
  { level := l
    ids := Function.update z.ids l idInvalid
    content := Function.update z.content l [] }

end Frames

/-- The open levels of a root. -/
def Open (root : UriPath) (level l : OutLevel) : Prop :=
  (rootLevel root).toNat ≤ l.toNat ∧ l.toNat ≤ level.toNat

/-- **A context in which every value is complete, read as frames.** -/
structure Rep (ctx : TlvOut) (root : UriPath) (z : Frames) : Prop where
  rootPath : ctx.rootPath = root
  level : ctx.level = z.level
  above : (rootLevel root).toNat ≤ z.level.toNat
  error : ctx.error = 0
  unbounded : ctx.stream.capacity = none
  left : ∀ l, (ctx.levels l).bytesLeft = 0
  ids : ∀ l, Open root z.level l → (ctx.levels l).nextId = z.ids l
  stream : ctx.stream.written = z.content (rootLevel root)
  entries : ∀ l, (rootLevel root).toNat < l.toNat → l.toNat ≤ z.level.toNat →
    encodeEntries (ctx.levels l).entries = z.content l
  fits : ∀ l, (rootLevel root).toNat < l.toNat → ∀ e ∈ (ctx.levels l).entries, EntryFits e
  closed : ∀ l, z.level.toNat < l.toNat → (ctx.levels l).entries = []

theorem OutLevel.toNat_inj {a b : OutLevel} (h : a.toNat = b.toNat) : a = b := by
  cases a <;> cases b <;> first | rfl | cases h

section Operations

variable {ctx : TlvOut} {root : UriPath} {z : Frames}

theorem Rep.current_id (h : Rep ctx root z) : ctx.current.nextId = z.ids z.level := by
  unfold TlvOut.current
  rw [h.level]
  exact h.ids _ ⟨h.above, Nat.le_refl _⟩

theorem splice_zeros (data : List UInt8) (type : TlvIdType) (id : Id) :
    OutEntry.splice data.length data ⟨type, id, List.replicate data.length 0⟩ = ⟨type, id, data⟩ := by
  simp [OutEntry.splice]

/-- A level whose last value is complete. -/
def Level.complete (entries : List OutEntry) (target : BytesTarget) : Level :=
  { entries := entries, nextId := idInvalid, target := target, bytesLeft := 0 }

/-- `add_entry` and the whole value appended to it. -/
def emitEntry (ctx : TlvOut) (type : TlvIdType) (data : List UInt8) : Option (Int × TlvOut) :=
  match addEntry ctx type data.length with
  | (false, ctx) => some (-1, ctx)
  | (true, ctx) => bytesAppend ctx ctx.level data

theorem emitEntry_buffered (hleft : ctx.current.bytesLeft = 0)
    (hroot : (rootLevel ctx.rootPath).toNat < ctx.level.toNat) (type : TlvIdType)
    {data : List UInt8} (hlen : data.length ≤ tlvMaxLength) :
    emitEntry ctx type data = some (0, ctx.setLevel ctx.level
      (.complete (ctx.current.entries ++ [⟨type, ctx.current.nextId, data⟩]) .buffered)) := by
  unfold emitEntry addEntry
  rw [if_neg (by rw [hleft]; omega), if_pos hroot]
  simp only [bytesAppend, TlvOut.setLevel, Function.update_self, Level.complete]
  by_cases h0 : data.length = 0
  · have hnil : data = [] := List.length_eq_zero_iff.mp h0
    subst hnil
    rfl
  · rw [if_neg h0, if_neg (by omega)]
    simp only [List.modifyLast_concat, splice_zeros, Nat.sub_self, Function.update_idem]

theorem emitEntry_streamed (hleft : ctx.current.bytesLeft = 0)
    (hroot : ¬ (rootLevel ctx.rootPath).toNat < ctx.level.toNat)
    (hcap : ctx.stream.capacity = none) (type : TlvIdType) {data : List UInt8}
    (hlen : data.length ≤ tlvMaxLength) (hid : ctx.current.nextId ≠ idInvalid) :
    emitEntry ctx type data = some (0,
      { ctx with stream := ctx.stream.push (encodeEntry type ctx.current.nextId data) }.setLevel
        ctx.level (.complete ctx.current.entries .streamed)) := by
  have hfit : ∀ n, ctx.stream.Fits n := OutStream.fits_of_unbounded hcap
  have hfit2 : ∀ (bs : List UInt8) (n : Nat), (ctx.stream.push bs).Fits n := fun bs n => by
    have hcap' : (ctx.stream.push bs).capacity = none := hcap
    exact OutStream.fits_of_unbounded hcap' n
  unfold emitEntry addEntry
  rw [if_neg (by rw [hleft]; omega), if_neg hroot,
    writeHeader_of_fits type hid hlen (hfit _)]
  simp only [bytesAppend, TlvOut.setLevel, Function.update_self, Level.complete, encodeEntry]
  by_cases h0 : data.length = 0
  · have hnil : data = [] := List.length_eq_zero_iff.mp h0
    subst hnil
    simp
  · rw [if_neg h0, if_neg (by omega)]
    simp only [OutStream.write_of_fits (hfit2 _ _), OutStream.push_push, Nat.sub_self,
      Function.update_idem]

/-- **One level is set, and the current one changes to it or from it.** -/
theorem Rep.setLevel (h : Rep ctx root z) (level l : OutLevel) (new : Level) (stream : OutStream)
    (id : Id) (bytes : List UInt8) (habove : (rootLevel root).toNat ≤ level.toNat)
    (hothers : ∀ m, m ≠ l → (m.toNat ≤ level.toNat ↔ m.toNat ≤ z.level.toNat)) (hcapacity : stream.capacity = none)
    (hstream : stream.written = Function.update z.content l bytes (rootLevel root)) (hleft : new.bytesLeft = 0)
    (hid : l.toNat ≤ level.toNat → new.nextId = id)
    (hentries : (rootLevel root).toNat < l.toNat → l.toNat ≤ level.toNat → encodeEntries new.entries = bytes)
    (hfits : (rootLevel root).toNat < l.toNat → ∀ e ∈ new.entries, EntryFits e)
    (hclosed : level.toNat < l.toNat → new.entries = []) :
    Rep ({ ctx with level := level, stream := stream }.setLevel l new) root
      ⟨level, Function.update z.ids l id, Function.update z.content l bytes⟩ := by
  have hself : ({ ctx with level := level, stream := stream }.setLevel l new).levels l = new := Function.update_self ..
  have hother : ∀ m, m ≠ l →
      ({ ctx with level := level, stream := stream }.setLevel l new).levels m = ctx.levels m :=
    fun m hm => Function.update_of_ne hm ..
  refine ⟨h.rootPath, rfl, habove, h.error, hcapacity, ?_, ?_, hstream, ?_, ?_, ?_⟩
  · intro m
    by_cases hm : m = l
    · subst hm
      rwa [hself]
    · rw [hother m hm]
      exact h.left m
  · intro m hopen
    by_cases hm : m = l
    · subst hm
      show _ = Function.update z.ids m id m
      rw [hself, Function.update_self]
      exact hid hopen.2
    · show _ = Function.update z.ids l id m
      rw [hother m hm, Function.update_of_ne hm]
      exact h.ids m ⟨hopen.1, (hothers m hm).mp hopen.2⟩
  · intro m hroot hle
    by_cases hm : m = l
    · subst hm
      show _ = Function.update z.content m bytes m
      rw [hself, Function.update_self]
      exact hentries hroot hle
    · show _ = Function.update z.content l bytes m
      rw [hother m hm, Function.update_of_ne hm]
      exact h.entries m hroot ((hothers m hm).mp hle)
  · intro m hroot e he
    by_cases hm : m = l
    · subst hm
      rw [hself] at he
      exact hfits hroot e he
    · rw [hother m hm] at he
      exact h.fits m hroot e he
  · intro m hgt
    by_cases hm : m = l
    · subst hm
      rw [hself]
      exact hclosed hgt
    · rw [hother m hm]
      exact h.closed m (Nat.lt_of_not_le fun hle => Nat.not_le_of_lt hgt ((hothers m hm).mpr hle))

/-- **A complete entry, on a level of either kind.** -/
theorem emit_rep (h : Rep ctx root z) (type : TlvIdType) {data : List UInt8}
    (hlen : data.length ≤ tlvMaxLength) (hid : z.ids z.level ≠ idInvalid) :
    ∃ ctx', emitEntry ctx type data = some (0, ctx') ∧ Rep ctx' root (z.emit type data) := by
  have hcur := h.current_id
  have hleft : ctx.current.bytesLeft = 0 := h.left _
  have hroot : rootLevel ctx.rootPath = rootLevel root := by rw [h.rootPath]
  obtain ⟨level, ids, content⟩ := z
  obtain rfl : ctx.level = level := h.level
  by_cases hlt : (rootLevel root).toNat < ctx.level.toNat
  · have hcontent : encodeEntries ctx.current.entries = content ctx.level := h.entries _ hlt (Nat.le_refl _)
    refine ⟨_, emitEntry_buffered hleft (by rw [hroot]; exact hlt) type hlen, ?_⟩
    refine h.setLevel ctx.level ctx.level
      (.complete (ctx.current.entries ++ [⟨type, ctx.current.nextId, data⟩]) .buffered) ctx.stream idInvalid
      (content ctx.level ++ encodeEntry type (ids ctx.level) data) h.above (fun _ _ => Iff.rfl) h.unbounded ?_ rfl (fun _ => rfl) (fun _ _ => ?_) (fun _ e he => ?_)
      fun hgt => absurd hgt (Nat.lt_irrefl _)
    · rw [Function.update_of_ne fun e => Nat.ne_of_lt hlt (congrArg OutLevel.toNat e)]
      exact h.stream
    · simp only [Level.complete, encodeEntries_append, hcontent, hcur]
      simp [encodeEntries]
    · rcases List.mem_append.mp he with he | he
      · exact h.fits _ hlt e he
      · obtain rfl := List.mem_singleton.mp he
        exact ⟨by rw [hcur]; exact hid, hlen⟩
  · have heq : rootLevel root = ctx.level := OutLevel.toNat_inj (Nat.le_antisymm h.above (Nat.not_lt.mp hlt))
    refine ⟨_, emitEntry_streamed hleft (by rw [hroot]; exact hlt) h.unbounded type hlen (by rw [hcur]; exact hid), ?_⟩
    refine h.setLevel ctx.level ctx.level (.complete ctx.current.entries .streamed)
      (ctx.stream.push (encodeEntry type ctx.current.nextId data)) idInvalid
      (content ctx.level ++ encodeEntry type (ids ctx.level) data) h.above (fun _ _ => Iff.rfl) h.unbounded ?_ rfl
      (fun _ => rfl) (fun hgt => absurd hgt hlt) (fun hgt => absurd hgt hlt) fun hgt => absurd hgt (Nat.lt_irrefl _)
    rw [OutStream.push_written, h.stream, heq, hcur, Function.update_self]

/-! ## 3. Opening and finishing levels -/

theorem OutLevel.pred_lt {l m : OutLevel} (h : m.toNat < l.toNat) :
    l.pred.toNat + 1 = l.toNat := by
  cases l <;> cases m <;> first | rfl | exact absurd h (by decide)

/-- Leaving the entries of the current level alone, the level below is current. -/
theorem lower_rep (h : Rep ctx root z) (hlt : (rootLevel root).toNat < z.level.toNat) :
    Rep { ctx.setLevel ctx.level ctx.current.cleared with level := ctx.level.pred } root
      { z with level := z.level.pred } := by
  obtain ⟨level, ids, content⟩ := z
  obtain rfl : ctx.level = level := h.level
  have hpred : ctx.level.pred.toNat + 1 = ctx.level.toNat := OutLevel.pred_lt hlt
  have hopen : ¬ ctx.level.toNat ≤ ctx.level.pred.toNat := by omega
  have hset := h.setLevel ctx.level.pred ctx.level ctx.current.cleared ctx.stream (ids ctx.level)
    (content ctx.level) (Nat.le_of_lt_succ (hlt.trans_eq hpred.symm))
    (fun m hm => ?_) h.unbounded (by rw [Function.update_eq_self]; exact h.stream) (h.left _)
    (fun hle => absurd hle hopen) (fun _ hle => absurd hle hopen) (fun _ e he => absurd he List.not_mem_nil)
    fun _ => rfl
  · rwa [Function.update_eq_self, Function.update_eq_self] at hset
  · have hne : m.toNat ≠ ctx.level.toNat := fun e => hm (OutLevel.toNat_inj e)
    show m.toNat ≤ ctx.level.pred.toNat ↔ m.toNat ≤ ctx.level.toNat
    omega

/-- **Finishing a level makes it one entry of the level below.** -/
theorem slaveFinish_rep (h : Rep ctx root z) (hlt : (rootLevel root).toNat < z.level.toNat)
    (hlen : (z.content z.level).length ≤ tlvMaxLength) (hid : z.ids z.level.pred ≠ idInvalid) :
    ∃ ctx', tlvSlaveFinish ctx = some (0, ctx') ∧ Rep ctx' root z.finish := by
  have hfits : ∀ e ∈ ctx.current.entries, EntryFits e := fun e he =>
    h.fits z.level hlt e (by rw [← h.level]; exact he)
  have hcontent : encodeEntries ctx.current.entries = z.content z.level := by
    rw [← h.entries z.level hlt (Nat.le_refl _), TlvOut.current, h.level]
  have hbuf : (⟨[], some (dataSize ctx.current.entries)⟩ : OutStream).Fits
      (dataSize ctx.current.entries) := by
    intro c hc
    simp only [Option.some.injEq] at hc
    simp only [List.length_nil]
    omega
  have hw := writeEntries_of_fits ctx.current.entries _ hfits hbuf
  have hlen' : (encodeEntries ctx.current.entries).length ≤ tlvMaxLength := by rw [hcontent]; exact hlen
  obtain ⟨ctx', he, hr⟩ := emit_rep (lower_rep h hlt) (aggregateType z.level.pred) hlen' hid
  refine ⟨ctx', ?_, ?_⟩
  · unfold tlvSlaveFinish
    simp only [hw, if_true]
    rw [← h.level] at he
    exact he
  · rw [hcontent] at hr
    exact hr

theorem slaveStart_rep (h : Rep ctx root z) {l : OutLevel} (hl : z.level.next? = some l) :
    ∃ ctx', tlvSlaveStart ctx = some ctx' ∧ Rep ctx' root (z.start l) := by
  have hsucc : l.toNat = z.level.toNat + 1 := by
    cases hz : z.level <;> rw [hz] at hl <;> cases hl <;> rfl
  have hempty : (ctx.levels l).entries = [] := h.closed l (by omega)
  have habove := h.above
  unfold tlvSlaveStart
  rw [h.level, hl]
  simp only [hempty, if_pos]
  refine ⟨_, rfl, ?_⟩
  refine h.setLevel l l ⟨[], idInvalid, (ctx.levels l).target, (ctx.levels l).bytesLeft⟩ ctx.stream idInvalid []
    (by omega) (fun m hm => ?_) h.unbounded ?_ (h.left l) (fun _ => rfl) (fun _ _ => rfl)
    (fun _ e he => absurd he List.not_mem_nil) fun _ => rfl
  · have hne : m.toNat ≠ l.toNat := fun e => hm (OutLevel.toNat_inj e)
    omega
  · rw [Function.update_of_ne fun e => ?_]
    · exact h.stream
    · rw [e] at habove
      omega

theorem setNext_rep (h : Rep ctx root z) (id : Id) :
    Rep (ctx.setLevel ctx.level { ctx.current with nextId := id }) root (z.setNext id) := by
  obtain ⟨level, ids, content⟩ := z
  obtain rfl : ctx.level = level := h.level
  have hset := h.setLevel ctx.level ctx.level { ctx.current with nextId := id } ctx.stream id (content ctx.level)
    h.above (fun _ _ => Iff.rfl) h.unbounded (by rw [Function.update_eq_self]; exact h.stream) (h.left _)
    (fun _ => rfl) (h.entries _) (h.fits _) fun hgt => absurd hgt (Nat.lt_irrefl _)
  rwa [Function.update_eq_self] at hset

/-! ## 4. The operations of the context -/

/-- The kind of entry a value becomes. -/
def valueType : OutLevel → TlvIdType
  | .riid => .riid
  | _ => .rid

theorem keepError_ok (ctx : TlvOut) : keepError (some (0, ctx)) = some (0, ctx) := by
  simp only [keepError, Option.map_some, updateRet_zero_right]

theorem currentLevelValueType_rep (h : Rep ctx root z) (hid : z.ids z.level ≠ idInvalid)
    (hlevel : z.level ≠ .iid) : currentLevelValueType ctx = some (valueType z.level) := by
  unfold currentLevelValueType
  rw [h.current_id, if_neg hid, h.level]
  cases hz : z.level with
  | iid => exact absurd hz hlevel
  | rid => rfl
  | riid => rfl

/-- **A value returned whole.** -/
theorem retBytes_rep (h : Rep ctx root z) {data : List UInt8} (hlen : data.length ≤ tlvMaxLength)
    (hid : z.ids z.level ≠ idInvalid) (hlevel : z.level ≠ .iid) :
    ∃ ctx', retBytes ctx data = some (0, ctx') ∧
      Rep ctx' root (z.emit (valueType z.level) data) := by
  obtain ⟨ctx', he, hr⟩ := emit_rep h (valueType z.level) hlen hid
  refine ⟨ctx', ?_, hr⟩
  unfold emitEntry at he
  unfold retBytes retBytesBegin tlvRetBytes
  rw [currentLevelValueType_rep h hid hlevel]
  cases ha : addEntry ctx (valueType z.level) data.length with
  | mk ok ctx1 =>
      rw [ha] at he
      cases ok with
      | false => simp at he
      | true =>
          simp only [ha, keepError_ok, if_true]
          exact he

/-- Finishing levels until `fl` is the current one. -/
def Frames.finishTo (fl : OutLevel) : Nat → Frames → Frames
  | 0, z => z
  | fuel + 1, z => if fl.toNat < z.level.toNat then z.finish.finishTo fl fuel else z

/-- The levels above `fl` are short enough to be finished, and the ids they go under are set. -/
def Frames.Closable (fl : OutLevel) : Nat → Frames → Prop
  | 0, _ => True
  | fuel + 1, z =>
      fl.toNat < z.level.toNat →
        (z.content z.level).length ≤ tlvMaxLength ∧ z.ids z.level.pred ≠ idInvalid ∧
          z.finish.Closable fl fuel

theorem finishTo_rep {fl : OutLevel} (hfl : (rootLevel root).toNat ≤ fl.toNat) :
    ∀ (fuel : Nat) {ctx : TlvOut} {z : Frames}, Rep ctx root z → z.Closable fl fuel →
      ∃ ctx', finishTo fl fuel ctx = some (0, ctx') ∧ Rep ctx' root (z.finishTo fl fuel)
  | 0, ctx, _, h, _ => ⟨ctx, rfl, h⟩
  | fuel + 1, ctx, z, h, hc => by
      unfold finishTo Frames.finishTo
      rw [h.level]
      by_cases hlt : fl.toNat < z.level.toNat
      · obtain ⟨hlen, hid, hrest⟩ := hc hlt
        obtain ⟨ctx1, he, h1⟩ := slaveFinish_rep h (by omega) hlen hid
        obtain ⟨ctx2, he2, h2⟩ := finishTo_rep hfl fuel h1 hrest
        refine ⟨ctx2, ?_, ?_⟩
        · rw [if_pos hlt, he]
          exact he2
        · rw [if_pos hlt]
          exact h2
      · exact ⟨ctx, by rw [if_neg hlt], by rw [if_neg hlt]; exact h⟩

/-- **`tlv_output_close` finishes all levels.** -/
theorem close_rep (h : Rep ctx root z) (hnext : z.ids z.level = idInvalid)
    (hc : z.Closable (rootLevel root) 2) :
    ∃ ctx', tlvOutputClose ctx = some (0, ctx') ∧
      Rep ctx' root (z.finishTo (rootLevel root) 2) := by
  have hloop : ∀ (fuel : Nat) {ctx : TlvOut} {z : Frames}, Rep ctx root z →
      z.Closable (rootLevel root) fuel → ∃ ctx', closeLevels fuel 0 ctx = some (0, ctx') ∧
        Rep ctx' root (z.finishTo (rootLevel root) fuel) := by
    intro fuel
    induction fuel with
    | zero => exact fun h _ => ⟨_, rfl, h⟩
    | succ fuel ih =>
        intro ctx z h hc
        unfold closeLevels Frames.finishTo
        rw [h.rootPath, h.level]
        by_cases hlt : (rootLevel root).toNat < z.level.toNat
        · obtain ⟨hlen, hid, hrest⟩ := hc hlt
          obtain ⟨ctx1, he, h1⟩ := slaveFinish_rep h hlt hlen hid
          obtain ⟨ctx2, he2, h2⟩ := ih h1 hrest
          refine ⟨ctx2, ?_, ?_⟩
          · rw [if_pos hlt, he]
            exact he2
          · rw [if_pos hlt]
            exact h2
        · exact ⟨ctx, by rw [if_neg hlt], by rw [if_neg hlt]; exact h⟩
  obtain ⟨ctx', he, hr⟩ := hloop 2 h hc
  refine ⟨ctx', ?_, hr⟩
  unfold tlvOutputClose
  rw [h.current_id, if_neg (by rw [hnext]; simp), he]

/-- Opening the levels of a path above the current one. -/
def Frames.startLevels (path : UriPath) : List OutLevel → Frames → Frames
  | [], z => z
  | i :: is, z =>
      match i.next? with
      | none => z
      | some l => ((z.setNext (idFromPath path i)).start l).startLevels path is

/-- `finish_level` of `tlv_set_path`, on frames. -/
def Frames.finishLevel (z : Frames) (path : UriPath) (newLevel lowestLevel : OutLevel) : OutLevel :=
  ((OutLevel.between lowestLevel (newLevel.max lowestLevel)).find? fun i =>
    z.ids i ≠ idFromPath path i).getD (newLevel.max lowestLevel)

/-- `tlv_set_path`, on frames. -/
def Frames.setPath (z : Frames) (root path : UriPath) (newLevel : OutLevel) : Frames :=
  let lowest := rootLevel root
  let closed := z.finishTo (z.finishLevel path newLevel lowest) 2
  let opened := closed.startLevels path (OutLevel.between closed.level newLevel)
  opened.setNext (if lowest.toNat ≤ newLevel.toNat then idFromPath path opened.level else idInvalid)

theorem startLevels_cons (h : Rep ctx root z) (path : UriPath) {l : OutLevel}
    (hl : z.level.next? = some l) (is : List OutLevel) :
    ∃ ctx1, startLevels path (z.level :: is) ctx = startLevels path is ctx1 ∧
      Rep ctx1 root ((z.setNext (idFromPath path z.level)).start l) := by
  have hset := setNext_rep h (idFromPath path z.level)
  obtain ⟨ctx1, he, h1⟩ := slaveStart_rep hset (l := l) hl
  refine ⟨ctx1, ?_, h1⟩
  have hcur : ctx.levels z.level = ctx.current := by rw [TlvOut.current, h.level]
  rw [h.level] at he
  rw [startLevels, hcur, he]

theorem startLevels_rep (h : Rep ctx root z) (path : UriPath) (newLevel : OutLevel) :
    ∃ ctx', startLevels path (OutLevel.between z.level newLevel) ctx = some ctx' ∧
      Rep ctx' root (z.startLevels path (OutLevel.between z.level newLevel)) := by
  have hnil : ∀ {is : List OutLevel}, is = [] → ∃ ctx', startLevels path is ctx = some ctx' ∧
      Rep ctx' root (z.startLevels path is) := fun hb => by
    subst hb
    exact ⟨ctx, rfl, h⟩
  obtain ⟨level, ids, content⟩ := z
  cases level with
  | iid =>
      obtain ⟨ctx1, he1, h1⟩ := startLevels_cons h path (l := .rid) rfl
        (OutLevel.between .rid newLevel)
      cases newLevel with
      | iid => exact hnil rfl
      | rid => exact ⟨ctx1, he1, h1⟩
      | riid =>
          obtain ⟨ctx2, he2, h2⟩ := startLevels_cons h1 path (l := .riid) rfl []
          exact ⟨ctx2, he1.trans he2, h2⟩
  | rid =>
      cases newLevel with
      | iid => exact hnil rfl
      | rid => exact hnil rfl
      | riid =>
          obtain ⟨ctx1, he1, h1⟩ := startLevels_cons h path (l := .riid) rfl []
          exact ⟨ctx1, he1, h1⟩
  | riid => cases newLevel <;> exact hnil rfl

theorem startLevels_level (z : Frames) (path : UriPath) (newLevel : OutLevel) :
    (z.startLevels path (OutLevel.between z.level newLevel)).level = newLevel.max z.level := by
  obtain ⟨level, ids, content⟩ := z
  cases level <;> cases newLevel <;> rfl

theorem finishTo_level (z : Frames) {fl : OutLevel} (h : fl.toNat ≤ z.level.toNat) :
    (z.finishTo fl 2).level = fl := by
  obtain ⟨level, ids, content⟩ := z
  simp only at h
  cases level <;> cases fl <;> first | rfl | exact absurd h (by decide)

theorem leafLevel_ids {path : UriPath} {newLevel l : OutLevel}
    (hleaf : leafLevel path = some newLevel) (hl : l.toNat ≤ newLevel.toNat) :
    idFromPath path l ≠ idInvalid := by
  have hlen : l.idType.toNat < path.length := by
    unfold leafLevel at hleaf
    split at hleaf <;> cases hleaf <;> rename_i hlen <;> rw [hlen] <;> cases l <;>
      first | decide | exact absurd hl (by decide)
  exact UriPath.ids_ne_invalid hlen

/-- The search for the level to return to stays among the open levels. -/
theorem finishLevel_rep (h : Rep ctx root z) {path : UriPath} {newLevel : OutLevel}
    (hleaf : leafLevel path = some newLevel)
    (hnext : (rootLevel root).toNat ≤ newLevel.toNat → z.ids z.level = idInvalid) :
    finishLevel ctx path newLevel (rootLevel root) = z.finishLevel path newLevel (rootLevel root) ∧
      (rootLevel root).toNat ≤ (z.finishLevel path newLevel (rootLevel root)).toNat ∧
      (z.finishLevel path newLevel (rootLevel root)).toNat ≤ z.level.toNat ∧
      newLevel.max (z.finishLevel path newLevel (rootLevel root)) = newLevel.max (rootLevel root) := by
  have hids : ∀ l, (rootLevel root).toNat ≤ l.toNat → l.toNat ≤ z.level.toNat →
      (ctx.levels l).nextId = z.ids l := fun l h1 h2 => h.ids l ⟨h1, h2⟩
  have hvalid : ∀ l : OutLevel, l.toNat ≤ newLevel.toNat → idFromPath path l ≠ idInvalid :=
    fun l hl => leafLevel_ids hleaf hl
  have habove := h.above
  clear h hleaf
  unfold finishLevel Frames.finishLevel
  generalize rootLevel root = r at *
  obtain ⟨level, ids, content⟩ := z
  simp only at hids hnext habove ⊢
  have h0 := hids .iid
  have h1 := hids .rid
  have v0 := hvalid .iid
  have v1 := hvalid .rid
  cases r <;> cases newLevel <;> cases level <;>
    simp only [OutLevel.toNat, OutLevel.between, OutLevel.all, OutLevel.max] at * <;>
    simp at * <;> grind

/-- **`tlv_set_path` on a path inside the root.** -/
theorem setPath_rep (h : Rep ctx root z) {path : UriPath} (hbase : path.outsideBase root = false)
    {newLevel : OutLevel} (hleaf : leafLevel path = some newLevel)
    (hnext : (rootLevel root).toNat ≤ newLevel.toNat → z.ids z.level = idInvalid)
    (hc : z.Closable (z.finishLevel path newLevel (rootLevel root)) 2) :
    ∃ ctx', tlvSetPath ctx path = some (0, ctx') ∧ Rep ctx' root (z.setPath root path newLevel) := by
  obtain ⟨hfl, hlow, hle, hmax⟩ := finishLevel_rep h hleaf hnext
  obtain ⟨ctx1, he1, h1⟩ := finishTo_rep hlow 2 h hc
  obtain ⟨ctx2, he2, h2⟩ := startLevels_rep h1 path newLevel
  have hlevel : ctx2.level = newLevel.max (rootLevel root) := by
    rw [h2.level, startLevels_level, finishTo_level z hle, hmax]
  refine ⟨_, ?_, setNext_rep h2 _⟩
  unfold tlvSetPath
  rw [h.rootPath, if_neg (by rw [hbase]; decide), hleaf]
  have hset : ¬ ((rootLevel root).toNat ≤ newLevel.toNat ∧ ctx.current.nextId ≠ idInvalid) := by
    rintro ⟨h3, h4⟩
    rw [h.current_id] at h4
    exact h4 (hnext h3)
  simp only [if_neg hset, hfl, he1, ne_eq, not_true_eq_false, if_false, h1.level, he2]
  rw [if_pos hlevel]
  simp only [h2.level]

/-- **`tlv_start_aggregate` under an id opens the level above; on an Instance root it does
    nothing.** -/
theorem startAggregate_rep (h : Rep ctx root z) (hid : z.ids z.level ≠ idInvalid) {l : OutLevel}
    (hl : z.level.next? = some l) :
    ∃ ctx', tlvStartAggregate ctx = some (0, ctx') ∧ Rep ctx' root (z.start l) := by
  obtain ⟨ctx', he, hr⟩ := slaveStart_rep h hl
  refine ⟨ctx', ?_, hr⟩
  unfold tlvStartAggregate
  rw [h.current_id, he]
  have hlevel := h.level
  cases hz : z.level with
  | iid => rw [hz] at hlevel; rw [hlevel]; simp only [if_pos (hz ▸ hid), Option.map_some]
  | rid => rw [hz] at hlevel; rw [hlevel]; simp only [if_pos (hz ▸ hid), Option.map_some]
  | riid => rw [hz] at hl; cases hl

theorem startAggregate_instance (h : Rep ctx root z) (hlevel : z.level = .rid)
    (hid : z.ids z.level = idInvalid) (hroot : root.leafIs .iid = true) :
    tlvStartAggregate ctx = some (0, ctx) := by
  unfold tlvStartAggregate
  rw [h.current_id, hid, h.level, hlevel]
  simp [h.rootPath, hroot]

end Operations

/-- A fresh context. -/
theorem create_rep {stream : OutStream} {root : UriPath} (hroot : root.has .oid = true)
    (hcap : stream.capacity = none) :
    ∃ ctx, outputTlvCreate stream root = some ctx ∧
      Rep ctx root ⟨rootLevel root, fun _ => idInvalid, fun _ => stream.written⟩ := by
  unfold outputTlvCreate
  rw [if_pos hroot]
  refine ⟨_, rfl, rfl, rfl, Nat.le_refl _, rfl, hcap, ?_, ?_, rfl, ?_, ?_, ?_⟩
  · intro l
    by_cases hl : l = rootLevel root
    · subst hl; simp
    · simp [Function.update_of_ne hl]
  · rintro l ⟨h1, h2⟩
    have hl : l = rootLevel root := OutLevel.toNat_inj (Nat.le_antisymm h2 h1)
    subst hl
    simp
  · intro l h1 h2
    exact absurd h2 (Nat.not_le.mpr h1)
  · intro l h1 e he
    by_cases hl : l = rootLevel root
    · subst hl; simp at he
    · simp [Function.update_of_ne hl] at he
  · intro l h1
    by_cases hl : l = rootLevel root
    · subst hl; simp
    · simp [Function.update_of_ne hl]

end Anjay.Tlv
