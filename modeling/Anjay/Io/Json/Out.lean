/-
  File:      Anjay/Io/Json/Out.lean
  Subject:   The LwM2M JSON output context (`anjay_senml_like_out.c` for AVS_COAP_FORMAT_OMA_LWM2M_JSON).

  * `SenmlOut`, `Call`, `output`: a sequence of calls between the creation and the closing of the context.
  * `Emitted`, `emitted`: the values that the calls return, with their paths.
  * `output_shows_iff`: **the output is one JSON object that shows these values iff every byte string got all the bytes
    that were declared for it.**
-/
import Mathlib.Data.List.Forall2
import Anjay.Dm.Path
import Anjay.Io.Json.Encoder

namespace Anjay.Json

open Lib Lib.Json Text

/-! ## 1. The context -/

/-- The text of some ids of a path (`path_to_string`). -/
def pathToString (ids : List Id) : List UInt8 := ids.flatMap fun i => 0x2F :: decimal i.val

/-- `senml_out_t`; `basename_written` is true from the creation on, and there are no time stamps. -/
structure SenmlOut where
  encoder : JsonEncoder
  path : UriPath
  basePath : UriPath
  returningBytes : Bool

namespace SenmlOut

/-- A call of the encoder. -/
def encode (f : JsonEncoder → Int × JsonEncoder) (ctx : SenmlOut) : Int × SenmlOut :=
  ((f ctx.encoder).1, { ctx with encoder := (f ctx.encoder).2 })

/-- `maybe_get_basename`, as it is called once. -/
def maybeGetBasename (basePath : UriPath) : Option (List UInt8) :=
  if 0 < basePath.length then some (pathToString basePath.validIds) else none

/-- `maybe_get_name`. -/
def maybeGetName (path basePath : UriPath) : Option (List UInt8) :=
  if basePath.length < path.length then some (pathToString (path.validIds.drop basePath.length)) else none

/-- `finish_ret_bytes`. -/
def finishRetBytes (ctx : SenmlOut) : Int × SenmlOut :=
  let result := andThen (ctx.encode JsonEncoder.bytesEnd) (encode JsonEncoder.elementEnd)
  (result.1, { result.2 with returningBytes := false })

/-- The byte string under way, if any, is finished. -/
def finishPending (ctx : SenmlOut) : Int × SenmlOut := if ctx.returningBytes then ctx.finishRetBytes else (0, ctx)

/-- The end of `element_begin`. -/
def beginElement (ctx : SenmlOut) : Int × SenmlOut :=
  let result := ctx.encode (JsonEncoder.elementBegin (maybeGetName ctx.path ctx.basePath))
  (result.1, { result.2 with path := .root })

/-- `element_begin`. -/
def elementBegin (ctx : SenmlOut) : Int × SenmlOut :=
  if !ctx.path.has .rid then (-1, ctx) else andThen ctx.finishPending beginElement

/-- A value that is written at once. -/
def retValue (f : JsonEncoder → Int × JsonEncoder) (ctx : SenmlOut) : Int × SenmlOut :=
  andThen (andThen ctx.elementBegin (encode f)) (encode JsonEncoder.elementEnd)

/-- `senml_ret_integer`. -/
def retInteger (value : Int) (ctx : SenmlOut) : Int × SenmlOut := ctx.retValue (JsonEncoder.encodeInt value)

/-- `senml_ret_bool`. -/
def retBool (value : Bool) (ctx : SenmlOut) : Int × SenmlOut := ctx.retValue (JsonEncoder.encodeBool value)

/-- The text of an Object Link. -/
def objlnkText (oid iid : Id) : List UInt8 := decimal oid.val ++ colon :: decimal iid.val

/-- `senml_ret_objlnk`. -/
def retObjlnk (oid iid : Id) (ctx : SenmlOut) : Int × SenmlOut :=
  ctx.retValue (JsonEncoder.encodeObjlnk (objlnkText oid iid))

/-- `senml_ret_bytes`. -/
def retBytes (length : Nat) (ctx : SenmlOut) : Int × SenmlOut :=
  let result := andThen ctx.elementBegin (encode (JsonEncoder.bytesBegin length))
  if result.1 = 0 then (0, { result.2 with returningBytes := true }) else result

/-- `streamed_bytes_append`. -/
def bytesAppend (data : List UInt8) (ctx : SenmlOut) : Int × SenmlOut := ctx.encode (JsonEncoder.bytesAppend data)

/-- `senml_ret_start_aggregate`. -/
def startAggregate (ctx : SenmlOut) : Int × SenmlOut :=
  if ctx.path.leafIs .iid || ctx.path.leafIs .rid then (0, { ctx with path := .root }) else (-1, ctx)

/-- `senml_set_path`; a path outside the base is a failed assertion. -/
def setPath (uri : UriPath) (ctx : SenmlOut) : Int × SenmlOut :=
  if uri.outsideBase ctx.basePath then (-1, ctx)
  else if 0 < ctx.path.length then (-1, ctx)
  else (0, { ctx with path := uri })

/-- `senml_clear_path`. -/
def clearPath (ctx : SenmlOut) : Int × SenmlOut :=
  if ctx.path.length = 0 then (-1, ctx) else (0, { ctx with path := .root })

/-- ANJAY_OUTCTXERR_ANJAY_RET_NOT_CALLED. -/
def outctxerrAnjayRetNotCalled : Int := -3298

/-- `senml_output_close`. -/
def outputClose (ctx : SenmlOut) : Int × OutStream :=
  let finished := ctx.finishPending
  let cleaned := finished.2.encoder.encoderCleanup
  (updateRet (updateRet finished.1 cleaned.1) (if 0 < finished.2.path.length then outctxerrAnjayRetNotCalled else 0),
    cleaned.2)

end SenmlOut

/-- `_anjay_output_senml_like_create` for LwM2M JSON. -/
def outputSenmlLikeCreate (stream : OutStream) (uri : UriPath) : Option SenmlOut :=
  (lwm2mJsonEncoderNew stream (SenmlOut.maybeGetBasename uri)).map fun encoder => ⟨encoder, .root, uri, false⟩

/-- The calls that the read operations make. -/
inductive Call
  | setPath (uri : UriPath)
  | clearPath
  | startAggregate
  | retInteger (value : Int)
  | retBool (value : Bool)
  | retObjlnk (oid iid : Id)
  | retBytes (length : Nat)
  | bytesAppend (data : List UInt8)

/-- What a call does. -/
def Call.perform : Call → SenmlOut → Int × SenmlOut
  | .setPath uri => SenmlOut.setPath uri
  | .clearPath => SenmlOut.clearPath
  | .startAggregate => SenmlOut.startAggregate
  | .retInteger value => SenmlOut.retInteger value
  | .retBool value => SenmlOut.retBool value
  | .retObjlnk oid iid => SenmlOut.retObjlnk oid iid
  | .retBytes length => SenmlOut.retBytes length
  | .bytesAppend data => SenmlOut.bytesAppend data

/-- The calls one after the other, as long as they succeed. -/
def performAll : List Call → SenmlOut → Option SenmlOut
  | [], ctx => some ctx
  | call :: calls, ctx => if (call.perform ctx).1 = 0 then performAll calls (call.perform ctx).2 else none

/-- The stream after all calls and the closing, if they succeed. -/
def output (stream : OutStream) (uri : UriPath) (calls : List Call) : Option OutStream := do
  let ctx ← outputSenmlLikeCreate stream uri
  let ctx ← performAll calls ctx
  if ctx.outputClose.1 = 0 then some ctx.outputClose.2 else none

/-! ## 2. The values returned -/

/-- A value, or the bytes given so far of the number that was declared. -/
inductive Datum
  | integer (value : Int)
  | boolean (value : Bool)
  | objlnk (oid iid : Id)
  | bytes (declared : Nat) (data : List UInt8)

/-- A value with its path. -/
structure Emitted where
  path : UriPath
  datum : Datum

/-- The path that is set, and the values returned. -/
structure Record where
  path : UriPath
  values : List Emitted

/-- Another value at the path that is set. -/
def Record.ret (datum : Datum) (r : Record) : Record := ⟨.root, r.values ++ [⟨r.path, datum⟩]⟩

/-- More bytes for the last value. -/
def appendLast (data : List UInt8) : List Emitted → List Emitted
  | [] => []
  | [⟨path, .bytes declared front⟩] => [⟨path, .bytes declared (front ++ data)⟩]
  | v :: vs => v :: appendLast data vs

/-- What a call that succeeds adds. -/
def Call.note : Call → Record → Record
  | .setPath uri, r => { r with path := uri }
  | .clearPath, r => { r with path := .root }
  | .startAggregate, r => { r with path := .root }
  | .retInteger value, r => r.ret (.integer value)
  | .retBool value, r => r.ret (.boolean value)
  | .retObjlnk oid iid, r => r.ret (.objlnk oid iid)
  | .retBytes length, r => r.ret (.bytes length [])
  | .bytesAppend data, r => { r with values := appendLast data r.values }

/-- The record of some calls. -/
def noteAll (calls : List Call) (r : Record) : Record := calls.foldl (fun r call => call.note r) r

/-- **The values that the calls return**, in their order. -/
def emitted (calls : List Call) : List Emitted := (noteAll calls ⟨.root, []⟩).values

/-- All the bytes that were declared are there. -/
def Datum.Complete : Datum → Prop
  | .bytes declared data => data.length = declared
  | _ => True

/-- The member of a JSON object that denotes a value. -/
def Datum.Denotes (datum : Datum) (key : List UInt8) (value : Value) : Prop :=
  match datum with
  | .integer n => key = DataType.dataValue.key ∧ value = .int n
  | .boolean b => key = DataType.dataBool.key ∧ value = .bool b
  | .objlnk oid iid => key = DataType.dataObjlnk.key ∧ value = .string (SenmlOut.objlnkText oid iid)
  | .bytes declared data => key = DataType.dataOpaque.key ∧
      ∃ text, value = .string text ∧ Base64.decode text = some data ∧ data.length = declared

/-- An element of the list: its name, which is left out if it is empty, behind the base is the full path. -/
def Emitted.Shown (base : UriPath) (e : Emitted) (element : Value) : Prop :=
  ∃ name key value,
    element = .object ((if name = [] then [] else [(DataType.dataName.key, .string name)]) ++ [(key, value)]) ∧
    pathToString base.validIds ++ name = pathToString e.path.validIds ∧ e.datum.Denotes key value

def keyElements : List UInt8 := [0x65]

/-- The object with a base and a list of elements. -/
def document (base : UriPath) (elements : List Value) : Value :=
  .object ((if base.validIds = [] then [] else [(DataType.dataBasename.key, .string (pathToString base.validIds))]) ++
    [(keyElements, .array elements)])

/-- **A text shows some values**: it is one object with one element for each value, in order. -/
def Shows (base : UriPath) (values : List Emitted) (text : List UInt8) : Prop :=
  ∃ elements, read text = some (document base elements) ∧ List.Forall₂ (Emitted.Shown base) values elements

/-! ## 3. The texts of the elements -/

/-- The key, the text and the value of a datum. -/
def Datum.member : Datum → Member
  | .integer n => ⟨DataType.dataValue.key, JsonEncoder.intText n, .int n⟩
  | .boolean b => ⟨DataType.dataBool.key, if b then wordTrue else wordFalse, .bool b⟩
  | .objlnk oid iid =>
      ⟨DataType.dataObjlnk.key, quoted (SenmlOut.objlnkText oid iid), .string (SenmlOut.objlnkText oid iid)⟩
  | .bytes declared data =>
      ⟨DataType.dataOpaque.key, quote :: (returnedText declared data ++ [quote]), .string (returnedText declared data)⟩

/-- The members of an element. -/
def Emitted.members (base : UriPath) (e : Emitted) : List Member :=
  (match SenmlOut.maybeGetName e.path base with
    | none => []
    | some name => [⟨DataType.dataName.key, quoted name, .string name⟩]) ++ [e.datum.member]

/-- The text of an element. -/
def Emitted.text (base : UriPath) (e : Emitted) : List UInt8 :=
  openBrace :: (separated ((e.members base).map Member.render) ++ [closeBrace])

/-- The value of an element. -/
def Emitted.value (base : UriPath) (e : Emitted) : Value := .object ((e.members base).map fun m => (m.key, m.value))

/-- What is written at the beginning of an element. -/
def elementHead (base path : UriPath) : List UInt8 :=
  openBrace :: JsonEncoder.namePair (SenmlOut.maybeGetName path base)

theorem keyText_append (type : DataType) (text : List UInt8) (value : Value) :
    type.keyText ++ text = Member.render ⟨type.key, text, value⟩ := by
  unfold DataType.keyText Member.render
  simp

/-- **An element is written as its head, a separator behind its name, its member and the closing brace.** -/
theorem Emitted.text_eq (base path : UriPath) (datum : Datum) :
    Emitted.text base ⟨path, datum⟩ = elementHead base path ++
      (JsonEncoder.separator (SenmlOut.maybeGetName path base).isSome ++ datum.member.render) ++ [closeBrace] := by
  unfold Emitted.text Emitted.members elementHead
  cases SenmlOut.maybeGetName path base with
  | none => rfl
  | some name =>
      show openBrace :: (Member.render _ ++ comma :: datum.member.render ++ [closeBrace]) = _
      rw [← keyText_append]
      simp [JsonEncoder.namePair, JsonEncoder.separator]

theorem escaped_plain {b : UInt8} (hrange : 0x20 ≤ b ∧ b < 127) (hquote : b ≠ quote) (hbackslash : b ≠ backslash) :
    escaped b = [b] := by
  unfold escaped charPrefix charText
  rw [if_neg (not_or.mpr ⟨hbackslash, hquote⟩), if_pos hrange]
  rfl

/-- Characters that `write_quoted_string` writes as they are. -/
def Printable (cs : List UInt8) : Prop := ∀ c ∈ cs, (0x20 ≤ c ∧ c < 127) ∧ c ≠ quote ∧ c ≠ backslash

theorem Printable.append {front back : List UInt8} (hf : Printable front) (hb : Printable back) :
    Printable (front ++ back) := fun c hc => (List.mem_append.mp hc).elim (hf c) (hb c)

theorem Printable.plain {cs : List UInt8} (h : Printable cs) : ∀ c ∈ cs, isPlain c = true := fun c hc => by
  obtain ⟨⟨hlow, _⟩, hquote, hbackslash⟩ := h c hc
  exact decide_eq_true ⟨hquote, hbackslash, UInt8.not_lt.mpr hlow⟩

theorem Printable.quoted_eq {cs : List UInt8} (h : Printable cs) : quoted cs = quote :: (cs ++ [quote]) := by
  have hall : cs.flatMap escaped = cs := by
    induction cs with
    | nil => rfl
    | cons c cs ih =>
        obtain ⟨hc, hcs⟩ := List.forall_mem_cons.mp h
        rw [List.flatMap_cons, ih hcs, escaped_plain hc.1 hc.2.1 hc.2.2]
        rfl
  unfold quoted
  rw [hall]

theorem digitByte_printable : ∀ d < 10,
    (0x20 ≤ digitByte d ∧ digitByte d < 127) ∧ digitByte d ≠ quote ∧ digitByte d ≠ backslash := by decide

theorem digitByte_isDigit : ∀ d < 10, isDigit (digitByte d) = true ∧ (digitValue (digitByte d)).getD 0 =
    (digitByte d).toNat - 0x30 := by decide

theorem decimal_printable (n : Nat) : Printable (decimal n) := fun c hc => by
  obtain ⟨d, hd, rfl⟩ := mem_decimal hc
  exact digitByte_printable d hd

theorem pathToString_printable (ids : List Id) : Printable (pathToString ids) := fun c hc => by
  obtain ⟨i, _, hc⟩ := List.mem_flatMap.mp hc
  rcases List.mem_cons.mp hc with rfl | hc
  · decide
  · exact decimal_printable i.val c hc

theorem objlnkText_printable (oid iid : Id) : Printable (SenmlOut.objlnkText oid iid) := by
  refine (decimal_printable oid.val).append fun c hc => ?_
  rcases List.mem_cons.mp hc with rfl | hc
  · decide
  · exact decimal_printable iid.val c hc

/-- A string as `write_quoted_string` writes it. -/
theorem reads_quoted {cs : List UInt8} (h : Printable cs) : Reads (quoted cs) (.string cs) := by
  rw [h.quoted_eq]
  exact Reads.plain h.plain

theorem decimal_reads (n : Nat) :
    (∀ c ∈ decimal n, isDigit c = true) ∧ isInteger (decimal n) = true ∧ digitsValue (decimal n) = n := by
  refine ⟨fun c hc => ?_, ?_, ?_⟩
  · obtain ⟨d, hd, rfl⟩ := mem_decimal hc
    exact (digitByte_isDigit d hd).1
  · by_cases hn : n = 0
    · subst hn
      rfl
    · obtain ⟨d, cs, hd, hd0, hcons⟩ := decimal_eq_cons hn
      have hzero : digitByte d ≠ 0x30 := fun h =>
        hd0 (Option.some.inj ((digitValue_digitByte hd).symm.trans (h ▸ rfl)))
      unfold isInteger
      rw [hcons]
      simp [hzero]
  · have hsame : (decimal n).foldl (fun v c => v * 10 + (c.toNat - 0x30)) 0 =
        (decimal n).foldl (fun v c => v * 10 + (digitValue c).getD 0) 0 := by
      refine List.foldl_ext _ _ 0 fun v c hc => ?_
      obtain ⟨d, hd, rfl⟩ := mem_decimal hc
      rw [(digitByte_isDigit d hd).2]
    exact hsame.trans (foldl_decimal n)

theorem reads_intText (n : Int) : Reads (JsonEncoder.intText n) (.int n) := by
  obtain ⟨hdigits, hinteger, hvalue⟩ := decimal_reads n.natAbs
  unfold JsonEncoder.intText
  split
  · have hread := Reads.neg hdigits hinteger
    rw [hvalue] at hread
    rwa [show -(n.natAbs : Int) = n by omega] at hread
  · have hread := Reads.nat hdigits hinteger
    rw [hvalue] at hread
    rwa [show (n.natAbs : Int) = n by omega] at hread

theorem isChar_isPlain {c : UInt8} (h : Base64.isChar c = true) : isPlain c = true := by
  have hall : ∀ n : Fin 256, Base64.isChar (UInt8.ofNat n.val) = true → isPlain (UInt8.ofNat n.val) = true := by
    decide +kernel
  have hc := hall ⟨c.toNat, c.toNat_lt⟩
  rw [UInt8.ofNat_toNat] at hc
  exact hc h

theorem key_plain : ∀ type : DataType, ∀ c ∈ type.key, isPlain c = true := by
  intro type
  have hall : type.key.all isPlain = true := by cases type <;> rfl
  exact List.all_eq_true.mp hall

/-- **The member of a datum is read as its value.** -/
theorem Datum.member_reads (datum : Datum) : datum.member.Reads := by
  cases datum with
  | integer n => exact ⟨key_plain .dataValue, reads_intText n⟩
  | boolean b =>
      cases b with
      | true => exact ⟨key_plain .dataBool, Reads.wordTrue⟩
      | false => exact ⟨key_plain .dataBool, Reads.wordFalse⟩
  | objlnk oid iid => exact ⟨key_plain .dataObjlnk, reads_quoted (objlnkText_printable oid iid)⟩
  | bytes declared data =>
      exact ⟨key_plain .dataOpaque, Reads.plain fun c hc => isChar_isPlain (isChar_returnedText declared data c hc)⟩

theorem Emitted.members_reads (base : UriPath) (e : Emitted) : ∀ m ∈ e.members base, m.Reads := by
  intro m hm
  unfold Emitted.members at hm
  rcases List.mem_append.mp hm with hm | hm
  · unfold SenmlOut.maybeGetName at hm
    split at hm
    · exact nomatch hm
    · rename_i name hname
      split at hname
      · rw [List.mem_singleton.mp hm, ← Option.some.inj hname]
        exact ⟨key_plain .dataName, reads_quoted (pathToString_printable _)⟩
      · cases hname
  · rw [List.mem_singleton.mp hm]
    exact e.datum.member_reads

theorem Emitted.text_reads (base : UriPath) (e : Emitted) : Reads (e.text base) (e.value base) :=
  Reads.object (e.members_reads base)

/-! ## 4. The state after some calls -/

/-- The text of the elements so far. -/
def elementsText (base : UriPath) (values : List Emitted) : List UInt8 := separated (values.map (Emitted.text base))

theorem elementsText_append (base : UriPath) (values : List Emitted) (e : Emitted) :
    elementsText base (values ++ [e]) =
      elementsText base values ++ JsonEncoder.separator (!values.isEmpty) ++ e.text base := by
  unfold elementsText
  rw [List.map_append, List.map_singleton, separated_append]
  cases values with
  | nil => rfl
  | cons v vs => rfl

/-- The output up to the elements so far. -/
def soFar (start : OutStream) (base : UriPath) (values : List Emitted) : OutStream :=
  start.push (JsonEncoder.preamble (SenmlOut.maybeGetBasename base) ++ elementsText base values)

/-- The output at the beginning of another element. -/
def opened (start : OutStream) (base : UriPath) (values : List Emitted) (path : UriPath) : OutStream :=
  (soFar start base values).push (JsonEncoder.separator (!values.isEmpty) ++ elementHead base path)

theorem opened_push (start : OutStream) (base : UriPath) (values : List Emitted) (path : UriPath) (datum : Datum) :
    (opened start base values path).push
        (JsonEncoder.separator (SenmlOut.maybeGetName path base).isSome ++ datum.member.render ++ [closeBrace]) =
      soFar start base (values ++ [⟨path, datum⟩]) := by
  unfold opened soFar
  rw [OutStream.push_push, OutStream.push_push, elementsText_append, Emitted.text_eq]
  simp only [List.append_assoc]

/-- Between two elements. -/
structure SenmlOut.Idle (start : OutStream) (base : UriPath) (ctx : SenmlOut) (r : Record) : Prop where
  path : ctx.path = r.path
  basePath : ctx.basePath = base
  returning : ctx.returningBytes = false
  encoder : ctx.encoder = ⟨soFar start base r.values, none, 0, !r.values.isEmpty⟩

/-- Within a byte string, of which `bytes` holds the state. -/
structure SenmlOut.Returning (start : OutStream) (base : UriPath) (ctx : SenmlOut) (r : Record) (bytes : Base64Ctx)
    (front : List Emitted) (valuePath : UriPath) (declared : Nat) (data : List UInt8) : Prop where
  path : ctx.path = r.path
  basePath : ctx.basePath = base
  returning : ctx.returningBytes = true
  values : r.values = front ++ [⟨valuePath, .bytes declared data⟩]
  encoder : ctx.encoder = ⟨ctx.encoder.stream, some bytes, 2, false⟩
  holds : bytes.Holds declared ((opened start base front valuePath).push
    (JsonEncoder.separator (SenmlOut.maybeGetName valuePath base).isSome ++ DataType.dataOpaque.keyText ++ [quote]))
      ctx.encoder.stream data

/-- **What the context is after some calls.** -/
def SenmlOut.Rep (start : OutStream) (base : UriPath) (ctx : SenmlOut) (r : Record) : Prop :=
  ctx.Idle start base r ∨ ∃ bytes front path declared data, ctx.Returning start base r bytes front path declared data

section Steps

variable {start : OutStream} {base : UriPath} {ctx ctx' : SenmlOut} {r : Record}

open JsonEncoder SenmlOut

theorem encode_ok {f : JsonEncoder → Int × JsonEncoder} (h : ctx.encode f = (0, ctx')) :
    ∃ encoder', f ctx.encoder = (0, encoder') ∧ ctx' = { ctx with encoder := encoder' } := by
  obtain ⟨hzero, hctx⟩ := Prod.mk.inj h
  exact ⟨_, eq_zero_snd hzero, hctx.symm⟩

/-- **A byte string is finished.** -/
theorem SenmlOut.Rep.finishPending (h : ctx.Rep start base r) (hs : ctx.finishPending = (0, ctx')) :
    ctx'.Idle start base r := by
  unfold SenmlOut.finishPending at hs
  rcases h with hidle | ⟨bytes, front, path, declared, data, hret⟩
  · rw [hidle.returning, if_neg Bool.false_ne_true] at hs
    cases hs
    exact hidle
  · rw [hret.returning, if_pos rfl] at hs
    unfold finishRetBytes at hs
    obtain ⟨hzero, hctx⟩ := Prod.mk.inj hs
    obtain ⟨hend, helement⟩ := andThen_ok (eq_zero_snd hzero)
    obtain ⟨encoder₁, hbytes, hctx₁⟩ := encode_ok (eq_zero_snd hend)
    rw [hctx₁] at helement
    obtain ⟨encoder₂, helement, hctx₂⟩ := encode_ok helement
    rw [hctx₂] at hctx
    have hsome : ctx.encoder.bytes = some bytes := by rw [hret.encoder]
    obtain ⟨stream', hclose, hencoder₁⟩ := bytesEnd_ok hsome hbytes
    have hlevel : ctx.encoder.level = 2 := by rw [hret.encoder]
    have hlevel₁ : encoder₁.level = 1 := by
      rw [hencoder₁]
      show ctx.encoder.level - 1 = 1
      rw [hlevel]
    have hencoder₂ := elementEnd_ok helement hlevel₁
    have hstream := hret.holds.close hclose
    rw [← hctx]
    refine ⟨hret.path, hret.basePath, rfl, ?_⟩
    show encoder₂ = _
    rw [hencoder₂, hencoder₁]
    show JsonEncoder.mk ((stream'.push [quote]).push [closeBrace]) none 0 true = _
    have hnonempty : (!r.values.isEmpty) = true := by
      rw [hret.values]
      simp
    have hmember : (Datum.bytes declared data).member.render =
        DataType.dataOpaque.keyText ++ quote :: (returnedText declared data ++ [quote]) :=
      (keyText_append _ _ _).symm
    rw [hnonempty, hret.values, ← opened_push, hmember, hstream, OutStream.push_push, OutStream.push_push,
      OutStream.push_push]
    simp only [List.append_assoc, List.cons_append, List.nil_append]

/-- **An element begins**, after a pending byte string was finished. -/
theorem SenmlOut.Rep.elementBegin (h : ctx.Rep start base r) (hs : ctx.elementBegin = (0, ctx')) :
    r.path.has .rid = true ∧ ctx' = ⟨⟨opened start base r.values r.path, none, 1,
      (maybeGetName r.path base).isSome⟩, .root, base, false⟩ := by
  unfold SenmlOut.elementBegin at hs
  have hpath : ctx.path = r.path := by
    rcases h with hidle | ⟨_, _, _, _, _, hret⟩
    · exact hidle.path
    · exact hret.path
  by_cases hrid : ctx.path.has .rid = true
  · rw [if_neg (by simp [hrid])] at hs
    obtain ⟨hzero, hbegin⟩ := andThen_ok hs
    have hidle := h.finishPending (eq_zero_snd hzero)
    unfold beginElement at hbegin
    obtain ⟨hretval, hctx⟩ := Prod.mk.inj hbegin
    obtain ⟨encoder', hencoder, hctx'⟩ := encode_ok (eq_zero_snd hretval)
    rw [hctx'] at hctx
    have hlevel : ctx.finishPending.2.encoder.level = 0 := by rw [hidle.encoder]
    have hwritten := elementBegin_ok hencoder hlevel
    refine ⟨hpath ▸ hrid, ?_⟩
    rw [← hctx, hwritten, hidle.encoder, hidle.path, hidle.basePath, hidle.returning]
    rfl
  · rw [if_pos (by simp [hrid])] at hs
    cases hs

/-- A value that is written at once. -/
theorem SenmlOut.Rep.retValue (h : ctx.Rep start base r) (datum : Datum) {f : JsonEncoder → Int × JsonEncoder}
    (hf : ∀ e e', f e = (0, e') → e' = ({ e with needsSeparator := true } : JsonEncoder).push
      (separator e.needsSeparator ++ datum.member.render))
    (hs : ctx.retValue f = (0, ctx')) : r.path.has .rid = true ∧ ctx'.Rep start base (r.ret datum) := by
  unfold SenmlOut.retValue at hs
  obtain ⟨hzero, helement⟩ := andThen_ok hs
  obtain ⟨hbegin, hvalue⟩ := andThen_ok (eq_zero_snd hzero)
  obtain ⟨hrid, hctx₁⟩ := h.elementBegin (eq_zero_snd hbegin)
  obtain ⟨encoder₁, hencode, hctx₂⟩ := encode_ok hvalue
  rw [hctx₂] at helement
  obtain ⟨encoder₂, helement, hctx₃⟩ := encode_ok helement
  rw [hctx₁] at hencode
  have hencoder₁ := hf _ _ hencode
  have hlevel₁ : encoder₁.level = 1 := by rw [hencoder₁]; rfl
  have hencoder₂ := elementEnd_ok helement hlevel₁
  refine ⟨hrid, .inl ⟨?_, ?_, ?_, ?_⟩⟩
  · rw [hctx₃, hctx₁]
    rfl
  · rw [hctx₃, hctx₁]
  · rw [hctx₃, hctx₁]
  · rw [hctx₃]
    show encoder₂ = _
    rw [hencoder₂, hencoder₁]
    have hnonempty : (!(r.ret datum).values.isEmpty) = true := by simp [Record.ret]
    rw [hnonempty]
    show JsonEncoder.mk ((OutStream.push _ _).push [closeBrace]) none 0 true = ⟨soFar start base (_ ++ [_]), none, 0, true⟩
    rw [OutStream.push_push, opened_push]

/-- A byte string begins. -/
theorem SenmlOut.Rep.retBytes (h : ctx.Rep start base r) {length : Nat} (hs : ctx.retBytes length = (0, ctx')) :
    r.path.has .rid = true ∧ ctx'.Rep start base (r.ret (.bytes length [])) := by
  unfold SenmlOut.retBytes at hs
  dsimp only at hs
  split at hs
  · rename_i hzero
    obtain ⟨_, hctx⟩ := Prod.mk.inj hs
    obtain ⟨hbegin, hbytes⟩ := andThen_ok (eq_zero_snd hzero)
    obtain ⟨hrid, hctx₁⟩ := h.elementBegin (eq_zero_snd hbegin)
    obtain ⟨encoder₁, hencode, hctx₂⟩ := encode_ok hbytes
    rw [hctx₂] at hctx
    rw [hctx₁] at hctx hencode
    have hencoder₁ := bytesBegin_ok hencode
    refine ⟨hrid, .inr ⟨base64RetBytesCtxNew length, r.values, r.path, length, [], ?_⟩⟩
    rw [← hctx, hencoder₁]
    exact ⟨rfl, rfl, rfl, rfl, rfl, Base64Ctx.Holds.new length _⟩
  · rename_i hne
    exact absurd (congrArg Prod.fst hs) hne

theorem appendLast_append (data : List UInt8) (path : UriPath) (declared : Nat) (front : List UInt8) :
    ∀ values : List Emitted, appendLast data (values ++ [⟨path, .bytes declared front⟩]) =
      values ++ [⟨path, .bytes declared (front ++ data)⟩]
  | [] => rfl
  | [v] => by
      show appendLast data (v :: [⟨path, .bytes declared front⟩]) = _
      rw [appendLast]
      · rfl
      · exact fun _ _ _ _ h => nomatch h
  | v :: w :: values => by
      have ih := appendLast_append data path declared front (w :: values)
      show appendLast data (v :: ((w :: values) ++ [_])) = _
      rw [appendLast]
      · rw [ih]
        rfl
      · exact fun _ _ _ _ h => nomatch h

/-- More bytes. -/
theorem SenmlOut.Rep.bytesAppend (h : ctx.Rep start base r) {data : List UInt8}
    (hs : ctx.bytesAppend data = (0, ctx')) :
    ctx'.Rep start base { r with values := appendLast data r.values } := by
  obtain ⟨encoder', happend, hctx⟩ := encode_ok hs
  rcases h with hidle | ⟨bytes, front, path, declared, given, hret⟩
  · rw [hidle.encoder] at happend
    cases happend
  · have hsome : ctx.encoder.bytes = some bytes := by rw [hret.encoder]
    obtain ⟨bytes', stream', hbytes, hencoder⟩ := bytesAppend_ok hsome happend
    refine .inr ⟨bytes', front, path, declared, given ++ data, ?_⟩
    rw [hctx, hencoder, hret.encoder]
    refine ⟨hret.path, hret.basePath, hret.returning, ?_, rfl, hret.holds.append hbytes⟩
    show appendLast data r.values = _
    rw [hret.values, appendLast_append]

/-- A change of the path alone. -/
theorem SenmlOut.Rep.withPath (h : ctx.Rep start base r) (path : UriPath) :
    SenmlOut.Rep start base { ctx with path := path } { r with path := path } := by
  rcases h with hidle | ⟨bytes, front, valuePath, declared, data, hret⟩
  · exact .inl ⟨rfl, hidle.basePath, hidle.returning, hidle.encoder⟩
  · exact .inr ⟨bytes, front, valuePath, declared, data,
      rfl, hret.basePath, hret.returning, hret.values, hret.encoder, hret.holds⟩

theorem SenmlOut.Rep.basePath (h : ctx.Rep start base r) : ctx.basePath = base := by
  rcases h with hidle | ⟨_, _, _, _, _, hret⟩
  · exact hidle.basePath
  · exact hret.basePath

/-- The path that is set, and those of the values, are inside the base. -/
structure Record.Inside (base : UriPath) (r : Record) : Prop where
  path : r.path.has .rid = true → r.path.outsideBase base = false
  values : ∀ e ∈ r.values, e.path.outsideBase base = false

theorem Record.Inside.ret (h : r.Inside base) (hrid : r.path.has .rid = true) (datum : Datum) :
    (r.ret datum).Inside base where
  path hroot := nomatch (hroot : false = true)
  values e he := by
    rcases List.mem_append.mp he with he | he
    · exact h.values e he
    · rw [List.mem_singleton.mp he]
      exact h.path hrid

theorem Record.Inside.withPath (h : r.Inside base) {path : UriPath}
    (hpath : path.has .rid = true → path.outsideBase base = false) : Record.Inside base { r with path := path } :=
  ⟨hpath, h.values⟩

theorem appendLast_paths (data : List UInt8) : ∀ values : List Emitted,
    (appendLast data values).map Emitted.path = values.map Emitted.path
  | [] => rfl
  | v :: values => by
      have ih := appendLast_paths data values
      rw [appendLast.eq_def]
      split
      · rename_i h
        exact nomatch h
      · rename_i h
        rw [h]
        rfl
      · rename_i v' vs' _ h
        obtain ⟨rfl, rfl⟩ := List.cons.inj h
        rw [List.map_cons, List.map_cons, ih]

theorem Record.Inside.appendLast (h : r.Inside base) (data : List UInt8) :
    Record.Inside base { r with values := Json.appendLast data r.values } where
  path := h.path
  values e he := by
    have hmem : e.path ∈ (Json.appendLast data r.values).map Emitted.path := List.mem_map_of_mem he
    rw [appendLast_paths] at hmem
    obtain ⟨e', he', heq⟩ := List.mem_map.mp hmem
    exact heq ▸ h.values e' he'

/-- **A call that succeeds keeps the context and the record together.** -/
theorem Call.perform_rep (call : Call) (h : ctx.Rep start base r) (hin : r.Inside base)
    (hs : call.perform ctx = (0, ctx')) : ctx'.Rep start base (call.note r) ∧ (call.note r).Inside base := by
  have hroot : UriPath.root.has .rid = true → UriPath.root.outsideBase base = false := fun hrid =>
    nomatch (hrid : false = true)
  cases call with
  | setPath uri =>
      change ctx.setPath uri = (0, ctx') at hs
      unfold SenmlOut.setPath at hs
      split at hs
      · cases hs
      · rename_i houtside
        split at hs
        · cases hs
        · cases hs
          rw [h.basePath] at houtside
          exact ⟨h.withPath uri, hin.withPath fun _ => by simpa using houtside⟩
  | clearPath =>
      change ctx.clearPath = (0, ctx') at hs
      unfold SenmlOut.clearPath at hs
      split at hs
      · cases hs
      · cases hs
        exact ⟨h.withPath .root, hin.withPath hroot⟩
  | startAggregate =>
      change ctx.startAggregate = (0, ctx') at hs
      unfold SenmlOut.startAggregate at hs
      split at hs
      · cases hs
        exact ⟨h.withPath .root, hin.withPath hroot⟩
      · cases hs
  | retInteger value =>
      obtain ⟨hrid, hrep⟩ := h.retValue (.integer value) (fun e e' he => by
        rw [(encodePair_ok he).2, List.append_assoc, keyText_append _ _ (.int value)]
        rfl) hs
      exact ⟨hrep, hin.ret hrid _⟩
  | retBool value =>
      obtain ⟨hrid, hrep⟩ := h.retValue (.boolean value) (fun e e' he => by
        rw [(encodePair_ok he).2, List.append_assoc, keyText_append _ _ (.bool value)]
        rfl) hs
      exact ⟨hrep, hin.ret hrid _⟩
  | retObjlnk oid iid =>
      obtain ⟨hrid, hrep⟩ := h.retValue (.objlnk oid iid) (fun e e' he => by
        rw [(encodeQuoted_ok he).2, List.append_assoc, keyText_append _ _ (.string (objlnkText oid iid))]
        rfl) hs
      exact ⟨hrep, hin.ret hrid _⟩
  | retBytes length =>
      obtain ⟨hrid, hrep⟩ := h.retBytes hs
      exact ⟨hrep, hin.ret hrid _⟩
  | bytesAppend data => exact ⟨h.bytesAppend hs, hin.appendLast data⟩

/-- **All calls together.** -/
theorem performAll_rep {calls : List Call} : ∀ {ctx : SenmlOut} {r : Record}, ctx.Rep start base r → r.Inside base →
    performAll calls ctx = some ctx' → ctx'.Rep start base (noteAll calls r) ∧ (noteAll calls r).Inside base := by
  induction calls with
  | nil =>
      intro ctx r h hin hs
      cases hs
      exact ⟨h, hin⟩
  | cons call calls ih =>
      intro ctx r h hin hs
      unfold performAll at hs
      split at hs
      · rename_i hzero
        obtain ⟨hrep, hinside⟩ := call.perform_rep h hin (eq_zero_snd hzero)
        exact ih hrep hinside hs
      · cases hs

end Steps

/-! ## 5. The output -/

/-- **What the output of calls that all succeed consists of.** -/
theorem output_written {stream stream' : OutStream} {base : UriPath} {calls : List Call}
    (h : output stream base calls = some stream') :
    stream'.written = stream.written ++ (JsonEncoder.preamble (SenmlOut.maybeGetBasename base) ++
      elementsText base (emitted calls) ++ [closeBracket, closeBrace]) ∧
    ∀ e ∈ emitted calls, e.path.outsideBase base = false := by
  unfold output at h
  obtain ⟨created, hcreate, hcalls⟩ := Option.bind_eq_some_iff.mp h
  obtain ⟨encoder, hnew, rfl⟩ := Option.map_eq_some_iff.mp hcreate
  obtain ⟨ctx, hperform, hend⟩ := Option.bind_eq_some_iff.mp hcalls
  have hidle : SenmlOut.Idle stream base ⟨encoder, .root, base, false⟩ ⟨.root, []⟩ := by
    refine ⟨rfl, rfl, rfl, ?_⟩
    rw [JsonEncoder.lwm2mJsonEncoderNew_ok hnew]
    show JsonEncoder.mk (stream.push _) none 0 false = ⟨stream.push (_ ++ []), none, 0, false⟩
    rw [List.append_nil]
  obtain ⟨hrep, hinside⟩ := performAll_rep (.inl hidle) ⟨fun hroot => (nomatch (hroot : false = true)),
    fun e he => (nomatch he)⟩ hperform
  split at hend
  · rename_i hclose
    unfold SenmlOut.outputClose at hclose hend
    obtain ⟨hfinished, _⟩ := updateRet_eq_zero.mp hclose
    obtain ⟨hpending, hcleanup⟩ := updateRet_eq_zero.mp hfinished
    have hdone := hrep.finishPending (eq_zero_snd hpending)
    have hstream := (JsonEncoder.encoderCleanup_ok (eq_zero_snd hcleanup)).2
    refine ⟨?_, hinside.values⟩
    rw [← Option.some.inj hend]
    show (SenmlOut.finishPending ctx).2.encoder.encoderCleanup.2.written = _
    rw [hstream, hdone.encoder]
    show ((soFar stream base (noteAll calls ⟨.root, []⟩).values).push [closeBracket, closeBrace]).written = _
    unfold soFar
    rw [OutStream.push_push, OutStream.push_written]
    rfl
  · cases hend

/-- The members of the outer object. -/
def documentMembers (base : UriPath) (values : List Emitted) : List Member :=
  (if base.validIds = [] then []
    else [⟨DataType.dataBasename.key, quote :: (pathToString base.validIds ++ [quote]),
      .string (pathToString base.validIds)⟩]) ++
    [⟨keyElements, openBracket :: (elementsText base values ++ [closeBracket]), .array (values.map (Emitted.value base))⟩]

theorem validIds_eq_nil_iff (p : UriPath) : p.validIds = [] ↔ ¬0 < p.length := by
  rw [← p.length_validIds, List.length_pos_iff, not_not]

theorem document_text (base : UriPath) (values : List Emitted) :
    JsonEncoder.preamble (SenmlOut.maybeGetBasename base) ++ elementsText base values ++ [closeBracket, closeBrace] =
      openBrace :: (separated ((documentMembers base values).map Member.render) ++ [closeBrace]) := by
  unfold JsonEncoder.preamble SenmlOut.maybeGetBasename documentMembers
  by_cases hroot : base.validIds = []
  · rw [if_neg ((validIds_eq_nil_iff base).mp hroot), if_pos hroot]
    simp [separated, Member.render, keyElements]
  · have hpos : 0 < base.length := not_not.mp fun hnot => hroot ((validIds_eq_nil_iff base).mpr hnot)
    rw [if_pos hpos, if_neg hroot]
    simp [separated, Member.render, keyElements, DataType.keyText]

/-- **The output is one JSON object with an element for each value.** -/
theorem read_document (base : UriPath) (values : List Emitted) :
    read (JsonEncoder.preamble (SenmlOut.maybeGetBasename base) ++ elementsText base values ++
      [closeBracket, closeBrace]) = some (document base (values.map (Emitted.value base))) := by
  rw [document_text]
  have hreads : ∀ m ∈ documentMembers base values, m.Reads := by
    intro m hm
    unfold documentMembers at hm
    rcases List.mem_append.mp hm with hm | hm
    · split at hm
      · exact nomatch hm
      · rw [List.mem_singleton.mp hm]
        exact ⟨key_plain .dataBasename, Reads.plain (pathToString_printable _).plain⟩
    · rw [List.mem_singleton.mp hm]
      have hkey : ∀ c ∈ keyElements, isPlain c = true := List.forall_mem_singleton.mpr rfl
      refine ⟨hkey, ?_⟩
      have harray : Reads (openBracket :: (separated ((values.map fun e => (e.text base, e.value base)).map Prod.fst) ++
          [closeBracket])) (.array ((values.map fun e => (e.text base, e.value base)).map Prod.snd)) := by
        refine Reads.array fun i hi => ?_
        obtain ⟨e, _, rfl⟩ := List.mem_map.mp hi
        exact e.text_reads base
      rw [List.map_map, List.map_map] at harray
      exact harray
  rw [(Reads.object hreads).read]
  unfold document documentMembers
  rw [List.map_append]
  congr 3
  split <;> rfl

theorem pathToString_append (front back : List Id) :
    pathToString (front ++ back) = pathToString front ++ pathToString back := List.flatMap_append

theorem pathToString_eq_nil {ids : List Id} (h : pathToString ids = []) : ids = [] := by
  cases ids with
  | nil => rfl
  | cons i ids => exact nomatch h

/-- The element of a value inside the base shows it, if the value is complete. -/
theorem Emitted.shown_value {base : UriPath} {e : Emitted} (hin : e.path.outsideBase base = false)
    (hcomplete : e.datum.Complete) : e.Shown base (e.value base) := by
  obtain ⟨back, hpath⟩ := UriPath.outsideBase_iff_prefix.mp hin
  have hdrop : e.path.validIds.drop base.length = back := by
    rw [← hpath, ← base.length_validIds, List.drop_left]
  have hlength : e.path.length = base.length + back.length := by
    rw [← e.path.length_validIds, ← base.length_validIds, ← hpath, List.length_append]
  refine ⟨pathToString back, e.datum.member.key, e.datum.member.value, ?_, ?_, ?_⟩
  · unfold Emitted.value Emitted.members SenmlOut.maybeGetName
    rw [hdrop]
    by_cases hback : back = []
    · rw [if_neg (by rw [hlength, hback, List.length_nil]; omega), if_pos (by rw [hback]; rfl)]
      rfl
    · have hpos : 0 < back.length := List.length_pos_iff.mpr hback
      rw [if_pos (by omega), if_neg fun hnil => hback (pathToString_eq_nil hnil)]
      rfl
  · rw [← pathToString_append, hpath]
  · unfold Datum.Denotes
    cases hdatum : e.datum with
    | integer n => exact ⟨rfl, rfl⟩
    | boolean b => exact ⟨rfl, rfl⟩
    | objlnk oid iid => exact ⟨rfl, rfl⟩
    | bytes declared data =>
        rw [hdatum] at hcomplete
        have htext : returnedText declared data = Base64.encode data := if_pos hcomplete
        refine ⟨rfl, returnedText declared data, rfl, ?_, hcomplete⟩
        rw [htext, Base64.decode_encode]

theorem Emitted.Shown.complete {base : UriPath} {e : Emitted} {element : Value} (h : e.Shown base element) :
    e.datum.Complete := by
  obtain ⟨_, _, _, _, _, hdenotes⟩ := h
  unfold Datum.Denotes at hdenotes
  cases hdatum : e.datum with
  | integer n => trivial
  | boolean b => trivial
  | objlnk oid iid => trivial
  | bytes declared data =>
      rw [hdatum] at hdenotes
      obtain ⟨_, _, _, _, hlength⟩ := hdenotes
      exact hlength

/-- **If all calls and the closing succeed, the output is one JSON object that shows the values in their order iff every
    byte string got all the bytes declared for it.** -/
theorem output_shows_iff {stream stream' : OutStream} {base : UriPath} {calls : List Call}
    (h : output stream base calls = some stream') :
    (∃ text, stream'.written = stream.written ++ text ∧ Shows base (emitted calls) text) ↔
      ∀ e ∈ emitted calls, e.datum.Complete := by
  obtain ⟨hwritten, hinside⟩ := output_written h
  constructor
  · rintro ⟨text, _, elements, _, hshown⟩ e he
    obtain ⟨i, hi, rfl⟩ := List.mem_iff_getElem.mp he
    have hi' : i < elements.length := hshown.length_eq ▸ hi
    exact (hshown.get hi hi').complete
  · intro hall
    refine ⟨_, hwritten, (emitted calls).map (Emitted.value base), read_document base _, ?_⟩
    rw [List.forall₂_map_right_iff, List.forall₂_same]
    exact fun e he => Emitted.shown_value (hinside e he) (hall e he)

/-! ## 6. Byte strings -/

/-- A byte string for which three bytes are declared, given in two pieces. -/
def exampleCalls (second : List UInt8) : List Call :=
  [.setPath (.resource 5 0 0), .retBytes 3, .bytesAppend [1, 2], .bytesAppend second,
    .setPath (.resource 5 0 1), .retInteger (-5)]

theorem output_shows_three : ∃ text,
    (freshStream.push text).written = freshStream.written ++ text ∧
      Shows (.instancePath 5 0) (emitted (exampleCalls [3])) text := by
  have hrun : ((output freshStream (.instancePath 5 0) (exampleCalls [3])).map fun s => (s.capacity, s.written)).isSome =
      true := by decide +kernel
  obtain ⟨⟨capacity, written⟩, hpair⟩ := Option.isSome_iff_exists.mp hrun
  obtain ⟨stream', hout, _⟩ := Option.map_eq_some_iff.mp hpair
  have hcomplete : ∀ e ∈ emitted (exampleCalls [3]), e.datum.Complete :=
    List.forall_mem_cons.mpr ⟨rfl, List.forall_mem_singleton.mpr trivial⟩
  obtain ⟨text, _, hshows⟩ := (output_shows_iff hout).mpr hcomplete
  exact ⟨text, rfl, hshows⟩

/-- With two bytes of three, the calls and the closing succeed as well, and no byte is shown. -/
theorem output_not_always : ¬∀ (base : UriPath) (calls : List Call) (stream' : OutStream),
    output freshStream base calls = some stream' → Shows base (emitted calls) stream'.written := by
  intro hall
  have hrun : (output freshStream (.instancePath 5 0) (exampleCalls [])).isSome = true := by decide +kernel
  obtain ⟨stream', hout⟩ := Option.isSome_iff_exists.mp hrun
  obtain ⟨elements, _, hshown⟩ := hall _ _ _ hout
  have hvalues : emitted (exampleCalls []) =
      [⟨.resource 5 0 0, .bytes 3 [1, 2]⟩, ⟨.resource 5 0 1, .integer (-5)⟩] := rfl
  rw [hvalues] at hshown
  cases hshown with
  | cons hfirst _ =>
      have hlength : ([1, 2] : List UInt8).length = 3 := hfirst.complete
      exact absurd hlength (by decide)

end Anjay.Json
