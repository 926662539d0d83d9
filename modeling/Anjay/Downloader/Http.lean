/-
  File:      Anjay/Downloader/Http.lean
  Subject:   The HTTP downloader (`anjay_http.c`): requests, the loop that feeds the block handler, and
             the suspension and resumption of a transfer.

  Offsets are natural numbers: the sum of an offset and of the bytes behind it stays below the size of
  the resource, or below an offset the handler chose.
-/
import Anjay.Commons.Basic
import Anjay.Commons.Parse

namespace Anjay.Http

/-! ## 1. Header fields -/

/-- An ASCII text. -/
def ascii (s : String) : List UInt8 := s.toList.map fun c => UInt8.ofNat c.toNat

/-- `parse_number`; what `errno` was before is left out, it matters for the largest number only. -/
def parseNumber (text : List UInt8) : Option (Nat × List UInt8) :=
  if text.head? = some 0x2D then none
  else
    match Text.strtoull text 10 with
    | some converted => if converted.erange then none else some (converted.value, converted.rest)
    | none => none

/-- The text behind the character `c`. -/
def expectChar (c : UInt8) : List UInt8 → Option (List UInt8)
  | [] => none
  | d :: rest => if d = c then some rest else none

/-- `read_start_byte_from_content_range`. -/
def readStartByteFromContentRange (contentRange : List UInt8) : Option Nat := do
  let text ← Text.matchToken contentRange (ascii "bytes")
  let (start, text) ← parseNumber text
  let text ← expectChar 0x2D text
  let (last, text) ← parseNumber text
  let text ← expectChar 0x2F text
  if text = [] then none
  else if text = [0x2A] then some start
  else if text.head? = some 0x2D then none
  else
    match Text.safeStrtoull text with
    | some completeLength => if 1 ≤ completeLength ∧ completeLength - 1 = last then some start else none
    | none => none

/-- `read_etag`; `allocated`: there is memory for it. -/
def readEtag (allocated : Bool) (text : List UInt8) : Option (List UInt8) :=
  if text.length < 2 ∨ 255 + 2 < text.length ∨ text.head? ≠ some 0x22 ∨ text.getLast? ≠ some 0x22 then none
  else if allocated then some ((text.drop 1).take (text.length - 2)) else none

/-- `etag_matches`. -/
def etagMatches (etag text : List UInt8) : Bool :=
  decide (text.length = etag.length + 2) && text.head? == some 0x22 && text.getLast? == some 0x22 &&
    (text.drop 1).take etag.length == etag

/-! ## 2. The transfer -/

/-- The job that `next_action_job` stands for. -/
inductive Job
  | sendRequest
  | timeout
  deriving DecidableEq, Repr

/-- A call of the block handler: the local offset and the bytes it is passed, and the offset it sets. -/
structure Delivery where
  offset : Nat
  data : List UInt8
  chosen : Option Nat
  deriving DecidableEq, Repr

/-- `anjay_http_download_ctx_t`; of the stream, the part of the response body that was not read. Further
    the way the transfer ended, whether an assertion failed, and the calls of the block handler. -/
structure Transfer where
  stream : Option (List UInt8)
  nextActionJob : Option Job
  etag : Option (List UInt8)
  bytesDownloaded : Nat
  bytesWritten : Nat
  status : Option DownloadStatus
  assertionFailed : Bool
  log : List Delivery
  deriving DecidableEq, Repr

/-- What the constructor leaves: the first request is scheduled. -/
def Transfer.new (startOffset : Nat) (etag : Option (List UInt8)) : Transfer :=
  ⟨none, some .sendRequest, etag, 0, startOffset, none, false, []⟩

/-- `assert`. -/
def Transfer.check (t : Transfer) (condition : Bool) : Transfer :=
  { t with assertionFailed := t.assertionFailed || !condition }

/-- `_anjay_downloader_abort_transfer`: `on_download_finished`, and the clean-up. -/
def abortTransfer (t : Transfer) (status : DownloadStatus) : Transfer :=
  { t with status := some status, stream := none, nextActionJob := none }

/-- `set_next_http_block_offset`, of the local offset. -/
def setNextHttpBlockOffset (bytesWritten nextBlockOffset : Nat) : Nat :=
  if nextBlockOffset ≤ bytesWritten then bytesWritten else nextBlockOffset

/-- What the block handler does in a call: the offsets it passes to `set_next_block_offset`, and the
    error it returns. -/
structure HandlerRun where
  offsets : List Nat
  err : AvsError

/-- A call of `avs_stream_read`: the error, how much it reads of what is left of the body, and whether
    it reports the end of the body when nothing is left. -/
structure ReadResult where
  err : AvsError
  count : Nat
  finished : Bool

section Receiving

variable (handler : List Delivery → Nat → List UInt8 → HandlerRun)

/-- The loop that feeds the block handler with the last bytes of the buffer. -/
def writeLoop (buffer : List UInt8) : Nat → Transfer → Transfer
  | 0, t => t
  | fuel + 1, t =>
      if t.bytesDownloaded ≤ t.bytesWritten then t
      else
        let bytesToWrite := t.bytesDownloaded - t.bytesWritten
        let t := t.check (decide (bytesToWrite ≤ buffer.length))
        let originalOffset := t.bytesWritten
        let block := buffer.drop (buffer.length - bytesToWrite)
        let run := handler t.log originalOffset block
        let bytesWritten := run.offsets.foldl setNextHttpBlockOffset originalOffset
        let chosen := if bytesWritten = originalOffset then none else some bytesWritten
        let t := { t with bytesWritten := bytesWritten, log := t.log ++ [⟨originalOffset, block, chosen⟩] }
        if run.err.isOk = false then abortTransfer t (.failed run.err)
        else if t.bytesWritten = originalOffset then
          writeLoop buffer fuel { t with bytesWritten := t.bytesWritten + bytesToWrite }
        else writeLoop buffer fuel t

/-- What was read goes to the block handler. -/
def receive (buffer : List UInt8) (t : Transfer) : Transfer :=
  if buffer = [] then t
  else
    let t := t.check (decide (t.bytesDownloaded ≤ t.bytesWritten))
    let t := { t with bytesDownloaded := t.bytesDownloaded + buffer.length }
    writeLoop handler buffer (t.bytesDownloaded - t.bytesWritten) t

/-- One round of the loop of `handle_http_packet_with_locked_buffer`. -/
def readPacket (read : ReadResult) (t : Transfer) : Transfer :=
  if read.err.isOk = false then abortTransfer t (.failed read.err)
  else
    let body := t.stream.getD []
    let t := receive handler (body.take read.count) { t with stream := some (body.drop read.count) }
    if t.status ≠ none then t
    else if read.finished = true ∧ body.length ≤ read.count then abortTransfer t .finished
    else t

/-- `handle_http_packet_with_locked_buffer`: the loop goes on with the reads `more` while the stream is
    ready. -/
def handleHttpPacket : ReadResult → List ReadResult → Transfer → Transfer
  | read, [], t =>
      let t := readPacket handler read t
      if t.status ≠ none then t else t.check t.nextActionJob.isSome
  | read, next :: more, t =>
      let t := readPacket handler read t
      if t.status ≠ none then t else handleHttpPacket next more t

/-! ## 3. Requests -/

/-- What happens to a request: the calls that can fail, and the response. `reads`: the stream is ready
    at once. -/
structure Response where
  openStream : AvsError
  opened : Bool
  ifMatch : Bool
  range : Bool
  finishMessage : AvsError
  statusCode : Nat
  headers : List (List UInt8 × List UInt8)
  etagAllocated : Bool
  body : List UInt8
  scheduled : Bool
  reads : Option (ReadResult × List ReadResult)

/-- `AVS_HTTP_ERROR_CATEGORY`. -/
def httpErrorCategory : Nat := 4887

/-- The loop over the header fields of `send_request`. -/
def handleHeaders (etagAllocated : Bool) : List (List UInt8 × List UInt8) → Transfer → Transfer
  | [], t => t
  | (key, value) :: headers, t =>
      if Text.caseEqual key (ascii "Content-Range") then
        match readStartByteFromContentRange value with
        | some start =>
            if t.bytesWritten < start then abortTransfer t (.failed (.errno .EPROTO))
            else handleHeaders etagAllocated headers { t with bytesDownloaded := start }
        | none => abortTransfer t (.failed (.errno .EPROTO))
      else if Text.caseEqual key (ascii "ETag") then
        match t.etag with
        | some etag =>
            if etagMatches etag value then handleHeaders etagAllocated headers t
            else abortTransfer t .expired
        | none => handleHeaders etagAllocated headers { t with etag := readEtag etagAllocated value }
      else handleHeaders etagAllocated headers t

/-- `send_request`, the job; its handle is cleared when it starts. -/
def sendRequest (response : Response) (t : Transfer) : Transfer :=
  let t := { t with nextActionJob := none }
  if response.openStream.isOk = false ∨ response.opened = false then
    abortTransfer t (.failed response.openStream)
  else if t.etag.isSome ∧ response.ifMatch = false then abortTransfer t (.failed (.errno .ENOMEM))
  else if 0 < t.bytesWritten ∧ response.range = false then abortTransfer t (.failed (.errno .ENOMEM))
  else if response.finishMessage.isOk = false then
    let httpStatus := if response.finishMessage.category = httpErrorCategory then response.statusCode else 200
    if httpStatus < 200 ∨ 300 ≤ httpStatus then
      if httpStatus = 412 then abortTransfer t .expired else abortTransfer t (.invalidResponse httpStatus)
    else abortTransfer t (.failed response.finishMessage)
  else
    let t := handleHeaders response.etagAllocated response.headers
      { t with stream := some response.body, bytesDownloaded := 0 }
    if t.status ≠ none then t
    else if response.scheduled = false then abortTransfer t (.failed (.errno .ENOMEM))
    else
      let t := { t with nextActionJob := some .timeout }
      match response.reads with
      | some (read, more) => handleHttpPacket handler read more t
      | none => t

/-! ## 4. Events -/

/-- `suspend_http_transfer`. -/
def suspendHttpTransfer (t : Transfer) : Transfer := { t with nextActionJob := none, stream := none }

/-- `reconnect_http_transfer`, by `reconnect_transfer`; a job that waits is replaced. -/
def reconnectHttpTransfer (scheduled : Bool) (t : Transfer) : Transfer :=
  let t := { t with stream := none }
  if scheduled then { t with nextActionJob := some .sendRequest }
  else abortTransfer t (.failed (.errno .ENOMEM))

inductive Event
  | sendRequest (response : Response)
  | timeout
  | packet (read : ReadResult) (more : List ReadResult)
  | suspend
  | reconnect (scheduled : Bool)
  | abort

/-- A job runs when it is scheduled, and a packet comes on the socket of the stream. -/
def step (t : Transfer) (event : Event) : Option Transfer :=
  if t.status ≠ none then none
  else
    match event with
    | .sendRequest response =>
        if t.nextActionJob = some .sendRequest then some (sendRequest handler response t) else none
    | .timeout =>
        if t.nextActionJob = some .timeout then some (abortTransfer t (.failed (.errno .ETIMEDOUT))) else none
    | .packet read more => if t.stream.isSome then some (handleHttpPacket handler read more t) else none
    | .suspend => some (suspendHttpTransfer t)
    | .reconnect scheduled => some (reconnectHttpTransfer scheduled t)
    | .abort => some (abortTransfer t .aborted)

end Receiving

end Anjay.Http
