/-
  File:      Anjay/FwUpdate/Object.lean
  Subject:   The Firmware Update object (`anjay_fw_update.c`): its two states, the download and the
             upgrade job, and what each event does to them.

  The handlers of the user are part of the events: what each of them returns, and which calls of
  `anjay_fw_update_set_result` it makes.
-/
import Anjay.Commons.Basic

namespace Anjay.FwUpdate

/-! ## 1. States and results -/

/-- `fw_update_state_t`. -/
inductive UpdateState
  | idle
  | downloading
  | downloaded
  | updating
  deriving DecidableEq, Repr

/-- `anjay_fw_update_result_t`. -/
inductive UpdateResult
  | initial
  | success
  | notEnoughSpace
  | outOfMemory
  | connectionLost
  | integrityFailure
  | unsupportedPackageType
  | invalidUri
  | failed
  | unsupportedProtocol
  deriving DecidableEq, Repr

/-- `is_error_result`. -/
def isErrorResult (result : UpdateResult) : Bool := result ≠ .initial && result ≠ .success

/-- `is_result_change_allowed`. -/
def isResultChangeAllowed (currentState : UpdateState) (newResult : UpdateResult) : Bool :=
  match currentState with
  | .idle => false
  | .downloading | .downloaded => isErrorResult newResult
  | .updating => newResult ≠ .initial

/-- Where the bytes of a firmware come from: a Write to Package, or a download. -/
inductive Source
  | package (number : Nat)
  | download (id : Nat)
  deriving DecidableEq, Repr

/-- Calls of the handlers of the user, and returns from them. -/
inductive Entry
  | streamOpen (source : Source)
  | streamOpened (ret : Int)
  | streamWrite (source : Source) (data : List UInt8)
  | streamWritten (ret : Int)
  | streamFinish
  | streamFinished (ret : Int)
  | performUpgrade
  | upgradePerformed (ret : Int)
  | reset
  deriving DecidableEq, Repr

/-- `fw_repr_t`; with the downloads that are live in the downloader, the numbers given to sources so
    far, and the calls of the handlers. `installed`: the object is registered. -/
structure FwRepr where
  userState : UpdateState
  state : UpdateState
  result : UpdateResult
  packageUri : Option String
  retryDownloadOnExpired : Bool
  downloadHandle : Option Nat
  updateJob : Bool
  installed : Bool
  live : List Nat
  sources : Nat
  notified : List Nat
  log : List Entry
  deriving DecidableEq, Repr

/-- `FW_RES_STATE`, `FW_RES_UPDATE_RESULT`. -/
def resState : Nat := 3
def resUpdateResult : Nat := 5

/-- `set_update_result`. -/
def setUpdateResult (fw : FwRepr) (newResult : UpdateResult) : FwRepr :=
  if fw.result ≠ newResult then
    { fw with result := newResult, notified := fw.notified ++ [resUpdateResult] }
  else fw

/-- `set_state`. -/
def setState (fw : FwRepr) (newState : UpdateState) : FwRepr :=
  if fw.state ≠ newState then { fw with state := newState, notified := fw.notified ++ [resState] }
  else fw

/-- `update_state_and_update_result`. -/
def updateStateAndUpdateResult (fw : FwRepr) (newState : UpdateState) (newResult : UpdateResult) :
    FwRepr :=
  setState (setUpdateResult fw newResult) newState

/-- `set_user_state`. -/
def setUserState (fw : FwRepr) (newState : UpdateState) : FwRepr := { fw with userState := newState }

def FwRepr.logged (fw : FwRepr) (entry : Entry) : FwRepr := { fw with log := fw.log ++ [entry] }

/-! ## 2. The handlers of the user -/

/-- A call of `anjay_fw_update_set_result`, with the calls that the `reset` handler makes meanwhile. -/
inductive SetResultCall
  | mk (result : UpdateResult) (inReset : List SetResultCall)

def SetResultCall.result : SetResultCall → UpdateResult
  | mk result _ => result

mutual

/-- `anjay_fw_update_set_result`. -/
def setResult : SetResultCall → FwRepr → Int × FwRepr
  | .mk result inReset, fw =>
      if fw.installed = false then (-1, fw)
      else if isResultChangeAllowed fw.state result = false then (-1, fw)
      else
        -- `reset_user_state`
        let fw := setUserState (setResults inReset (fw.logged .reset)) .idle
        (0, updateStateAndUpdateResult fw .idle result)

/-- The calls a handler makes, one after the other. -/
def setResults : List SetResultCall → FwRepr → FwRepr
  | [], fw => fw
  | call :: calls, fw => setResults calls (setResult call fw).2

end

/-- What a handler does: the calls it makes, and the code it returns. -/
structure Callback where
  calls : List SetResultCall
  ret : Int

/-- Some call is one the code obeys in the state. -/
def Callback.Changes (callback : Callback) (state : UpdateState) : Prop :=
  ∃ call ∈ callback.calls, isResultChangeAllowed state call.result = true

def callHandler (call : Entry) (done : Int → Entry) (callback : Callback) (fw : FwRepr) :
    Int × FwRepr :=
  (callback.ret, (setResults callback.calls (fw.logged call)).logged (done callback.ret))

/-- `reset_user_state`. -/
def resetUserState (calls : List SetResultCall) (fw : FwRepr) : FwRepr :=
  setUserState (setResults calls (fw.logged .reset)) .idle

/-- `user_state_ensure_stream_open`. -/
def userStateEnsureStreamOpen (source : Source) (streamOpen : Callback) (fw : FwRepr) : Int × FwRepr :=
  if fw.userState = .downloading then (0, fw)
  else
    let (result, fw) := callHandler (.streamOpen source) .streamOpened streamOpen fw
    if result = 0 then (0, setUserState fw .downloading) else (result, fw)

/-- `user_state_stream_write`. -/
def userStateStreamWrite (source : Source) (streamWrite : Callback) (data : List UInt8) (fw : FwRepr) :
    Int × FwRepr :=
  callHandler (.streamWrite source data) .streamWritten streamWrite fw

/-- `user_state_perform_upgrade`. -/
def userStatePerformUpgrade (performUpgrade : Callback) (fw : FwRepr) : Int × FwRepr :=
  if fw.userState ≠ .downloaded then (-1, fw)
  else
    let (result, fw) := callHandler .performUpgrade .upgradePerformed performUpgrade fw
    if result = 0 ∧ fw.userState = .downloaded then (result, setUserState fw .updating) else (result, fw)

/-- `finish_user_stream`. -/
def finishUserStream (streamFinish : Callback) (fw : FwRepr) : Int × FwRepr :=
  let (result, fw) := callHandler .streamFinish .streamFinished streamFinish fw
  if result ≠ 0 then (result, setUserState fw .idle) else (result, setUserState fw .downloaded)

/-- `handle_err_result`. -/
def handleErrResult (fw : FwRepr) (newState : UpdateState) (result : Int)
    (defaultResult : UpdateResult) : FwRepr :=
  let newResult :=
    if result = -2 then .notEnoughSpace
    else if result = -3 then .outOfMemory
    else if result = -5 then .integrityFailure
    else if result = -6 then .unsupportedPackageType
    else defaultResult
  updateStateAndUpdateResult fw newState newResult

/-- `reset`. -/
def reset (calls : List SetResultCall) (fw : FwRepr) : FwRepr :=
  updateStateAndUpdateResult (resetUserState calls fw) .idle .initial

/-! ## 3. Downloads -/

/-- `anjay_transport_security_t`. -/
inductive TransportSecurity
  | undefined
  | nosec
  | encrypted
  deriving DecidableEq, Repr

/-- What the handlers and the downloader do while a download is scheduled; the handlers for the
    security configuration and for the transmission parameters may be missing. `download`: no handle
    is given, and this error returned. -/
structure DownloadStart where
  getSecurityConfig : Option Callback
  securityConfigFromDm : Bool
  getCoapTxParams : Option (List SetResultCall)
  download : Option AvsError

/-- What the handlers of the user do in one event; `resets i` is the call number `i` of `reset`. -/
structure Handlers where
  streamOpen : Callback
  streamWrite : Callback
  streamFinish : Callback
  resets : Nat → List SetResultCall
  start : DownloadStart

/-- `get_security_config`. -/
def getSecurityConfig (start : DownloadStart) (fw : FwRepr) : Int × FwRepr :=
  match start.getSecurityConfig with
  | some callback => (callback.ret, setResults callback.calls fw)
  | none => (if start.securityConfigFromDm then 0 else -1, fw)

/-- `get_coap_tx_params`. -/
def getCoapTxParams (start : DownloadStart) (fw : FwRepr) : FwRepr :=
  match start.getCoapTxParams with
  | some calls => setResults calls fw
  | none => fw

/-- The result of an update whose download is not scheduled because of this error. -/
def scheduleUpdateResult (err : AvsError) : UpdateResult :=
  if err.isOk = false ∧ err.category = AvsError.errnoCategory then
    if err.code = Errno.EADDRNOTAVAIL.toNat ∨ err.code = Errno.EINVAL.toNat then .invalidUri
    else if err.code = Errno.ENOMEM.toNat then .outOfMemory
    else if err.code = Errno.EPROTONOSUPPORT.toNat then .unsupportedProtocol
    else .connectionLost
  else .connectionLost

/-- The result of an update whose download ended with this status. -/
def downloadUpdateResult : DownloadStatus → UpdateResult
  | .failed err =>
      if err.category = AvsError.errnoCategory then
        if err.code = Errno.ENOMEM.toNat then .outOfMemory
        else if err.code = Errno.EADDRNOTAVAIL.toNat then .invalidUri
        else .connectionLost
      else .connectionLost
  | .invalidResponse statusCode =>
      if statusCode = 132 ∨ statusCode = 404 then .invalidUri else .connectionLost
  | _ => .connectionLost

section Downloads

variable (transportSecurityFromUri : Option String → TransportSecurity)

/-- `schedule_download`, the call of `reset` being `calls`; the offset is passed on to the downloader. -/
def scheduleDownload (start : DownloadStart) (calls : List SetResultCall) (etag : Bool) (fw : FwRepr) :
    Int × FwRepr :=
  let (result, fw) :=
    if transportSecurityFromUri fw.packageUri = .encrypted then getSecurityConfig start fw else (0, fw)
  if result ≠ 0 then (-1, handleErrResult fw .idle result .unsupportedProtocol)
  else
    let fw := getCoapTxParams start fw
    -- `anjay_download` writes the handle only when it succeeds
    let fw :=
      if start.download = none then
        { fw with downloadHandle := some fw.sources, live := fw.live ++ [fw.sources], sources := fw.sources + 1 }
      else fw
    match fw.downloadHandle with
    | none =>
        let fw := resetUserState calls fw
        (-1, setUpdateResult fw (scheduleUpdateResult (start.download.getD .ok)))
    | some _ =>
        (0, updateStateAndUpdateResult { fw with retryDownloadOnExpired := etag } .downloading .initial)

/-- `download_finished`, for the download `id`. -/
def downloadFinished (id : Nat) (status : DownloadStatus) (handlers : Handlers) (fw : FwRepr) : FwRepr :=
  let fw := { fw with downloadHandle := none }
  if fw.state ≠ .downloading then resetUserState (handlers.resets 0) fw
  else if status ≠ .finished then
    let fw := resetUserState (handlers.resets 0) fw
    if fw.retryDownloadOnExpired ∧ status = .expired then
      let (result, fw) := scheduleDownload transportSecurityFromUri handlers.start (handlers.resets 1) false fw
      if result ≠ 0 then setState fw .idle else fw
    else updateStateAndUpdateResult fw .idle (downloadUpdateResult status)
  else
    let (result, fw) := userStateEnsureStreamOpen (.download id) handlers.streamOpen fw
    if result ≠ 0 then handleErrResult fw .idle result .notEnoughSpace
    else
      let (result, fw) := finishUserStream handlers.streamFinish fw
      if result ≠ 0 then handleErrResult fw .idle result .notEnoughSpace
      else updateStateAndUpdateResult fw .downloaded .initial

/-- The downloader ends a download: it calls `download_finished`, and frees the download. -/
def endDownload (id : Nat) (status : DownloadStatus) (handlers : Handlers) (fw : FwRepr) : FwRepr :=
  let fw := downloadFinished transportSecurityFromUri id status handlers fw
  { fw with live := fw.live.erase id }

/-- `download_write_block`. -/
def downloadWriteBlock (id : Nat) (data : List UInt8) (handlers : Handlers) (fw : FwRepr) :
    AvsError × FwRepr :=
  let (result, fw) := userStateEnsureStreamOpen (.download id) handlers.streamOpen fw
  let (result, fw) :=
    if result = 0 ∧ 0 < data.length then userStateStreamWrite (.download id) handlers.streamWrite data fw
    else (result, fw)
  if result ≠ 0 then (.errno .UNKNOWN_ERROR, handleErrResult fw .idle result .notEnoughSpace)
  else (.ok, fw)

/-- The downloader passes a block on, and aborts the download when it is not taken. -/
def receiveBlock (id : Nat) (data : List UInt8) (handlers : Handlers) (fw : FwRepr) : FwRepr :=
  let (err, fw) := downloadWriteBlock id data handlers fw
  if err.isOk then fw else endDownload transportSecurityFromUri id (.failed err) handlers fw

/-! ## 4. Writes -/

/-- The payload of a Write to Package: what the calls of `anjay_get_bytes` with the buffer of 1024 bytes
    give and `stream_write` does with it, until the end or a failure; and what a call with a buffer of
    two bytes gives. -/
structure PackageInput where
  reads : List (List UInt8 × Callback)
  failure : Option { result : Int // result ≠ 0 }
  short : Option (List UInt8 × Bool)

/-- `ANJAY_ERR_BAD_REQUEST`, `ANJAY_ERR_METHOD_NOT_ALLOWED`, `ANJAY_ERR_INTERNAL`. -/
def errBadRequest : Int := -0x80
def errMethodNotAllowed : Int := -0x85
def errInternal : Int := -0xA0

/-- The loop of `write_firmware_to_stream`, over the reads to come: the code returned, and
    `*out_is_reset_request`. -/
def writeFirmwareToStream (source : Source) (failure : Option { result : Int // result ≠ 0 }) :
    List (List UInt8 × Callback) → Option UInt8 → Nat → FwRepr → Int × Bool × FwRepr
  | [], firstByte, written, fw =>
      match failure with
      | some result => (result, false, updateStateAndUpdateResult fw .idle .connectionLost)
      | none => (0, decide (written = 1 ∧ firstByte = some 0), fw)
  | (data, streamWrite) :: reads, firstByte, written, fw =>
      let firstByte := firstByte.or data.head?
      let (result, fw) := if 0 < data.length then userStateStreamWrite source streamWrite data fw else (0, fw)
      if result ≠ 0 then (errInternal, false, handleErrResult fw .idle result .notEnoughSpace)
      else writeFirmwareToStream source failure reads firstByte (written + data.length) fw

/-- `expect_single_nullbyte`. -/
def expectSingleNullbyte : Option (List UInt8 × Bool) → Int
  | none => errInternal
  | some (bytes, finished) => if bytes = [0] ∧ finished = true then 0 else errBadRequest

/-- `write_firmware`. -/
def writeFirmware (input : PackageInput) (handlers : Handlers) (fw : FwRepr) : Int × Bool × FwRepr :=
  let source := Source.package fw.sources
  let (result, fw) := userStateEnsureStreamOpen source handlers.streamOpen { fw with sources := fw.sources + 1 }
  if result ≠ 0 then (-1, false, fw)
  else
    let (result, isResetRequest, fw) := writeFirmwareToStream source input.failure input.reads none 0 fw
    if result ≠ 0 then (result, isResetRequest, resetUserState (handlers.resets 0) fw)
    else if isResetRequest = false then
      let (streamFinishResult, fw) := finishUserStream handlers.streamFinish fw
      if streamFinishResult ≠ 0 then
        (result, isResetRequest, handleErrResult fw .idle streamFinishResult .notEnoughSpace)
      else (result, isResetRequest, updateStateAndUpdateResult fw .downloaded .initial)
    else (result, isResetRequest, fw)

/-- `cancel_existing_download_if_in_progress`; `anjay_download_abort` does nothing for a download that
    is not live. -/
def cancelExistingDownloadIfInProgress (handlers : Handlers) (fw : FwRepr) : FwRepr :=
  if fw.state = .downloading then
    match fw.downloadHandle with
    | some id => if id ∈ fw.live then endDownload transportSecurityFromUri id .aborted handlers fw else fw
    | none => fw
  else fw

/-- `fw_write` of Package. -/
def fwWritePackage (input : PackageInput) (handlers : Handlers) (fw : FwRepr) : Int × FwRepr :=
  if fw.state = .updating then (errMethodNotAllowed, fw)
  else if fw.state = .idle then
    let (result, isResetRequest, fw) := writeFirmware input handlers fw
    if result = 0 ∧ isResetRequest = true then (result, reset (handlers.resets 0) fw) else (result, fw)
  else
    let result := expectSingleNullbyte input.short
    if result = 0 then
      let fw := cancelExistingDownloadIfInProgress transportSecurityFromUri handlers fw
      (result, reset (handlers.resets 2) fw)
    else (result, fw)

/-- `fw_write` of Package URI; `newUri` is what `_anjay_io_fetch_string` gives. -/
def fwWritePackageUri (newUri : Except Int String) (handlers : Handlers) (fw : FwRepr) : Int × FwRepr :=
  match newUri with
  | .error result => (result, fw)
  | .ok newUri =>
      if newUri.length = 0 then
        if fw.state = .updating then (errMethodNotAllowed, fw)
        else
          let fw := cancelExistingDownloadIfInProgress transportSecurityFromUri handlers fw
          (0, reset (handlers.resets 2) { fw with packageUri := none })
      else if fw.state ≠ .idle then (errBadRequest, fw)
      else if transportSecurityFromUri (some newUri) = .undefined then
        (errBadRequest, setUpdateResult fw .unsupportedProtocol)
      else
        let fw := { fw with packageUri := some newUri }
        let (_, fw) := scheduleDownload transportSecurityFromUri handlers.start (handlers.resets 0) false fw
        (0, fw)

/-! ## 5. The upgrade -/

/-- `fw_execute`. -/
def fwExecute (fw : FwRepr) : Int × FwRepr :=
  if fw.state ≠ .downloaded then (errMethodNotAllowed, fw)
  else (0, updateStateAndUpdateResult fw .updating .initial)

/-- `fw_on_notify`; `scheduled`: the scheduler takes the job. -/
def fwOnNotify (scheduled : Bool) (fw : FwRepr) : FwRepr :=
  if fw.updateJob = false ∧ fw.state = .updating ∧ fw.userState ≠ .updating then
    if scheduled then { fw with updateJob := true }
    else { fw with state := .downloaded, result := .outOfMemory }
  else fw

/-- `perform_upgrade`, the job; its handle is cleared when it starts. -/
def performUpgrade (callback : Callback) (fw : FwRepr) : FwRepr :=
  let (result, fw) := userStatePerformUpgrade callback { fw with updateJob := false }
  if result ≠ 0 then handleErrResult fw .downloaded result .failed else fw

/-! ## 6. Installation -/

/-- The `result` of `anjay_fw_update_initial_state_t`. -/
inductive InitialResult
  | updating
  | downloaded
  | downloading
  | neutral
  | success
  | integrityFailure
  | failed
  deriving DecidableEq, Repr

/-- `anjay_fw_update_initial_state_t`. -/
structure InitialState where
  result : InitialResult
  persistedUri : Option String
  resumeOffset : Nat
  resumeEtag : Bool

/-- `fw_repr_t` filled with zeros. -/
def FwRepr.zero : FwRepr :=
  ⟨.idle, .idle, .initial, none, false, none, false, false, [], 0, [], []⟩

/-- `initialize_fw_repr`; `starts` are the two times a download may be scheduled, `copied` whether there
    is memory for the URI. -/
def initializeFwRepr (initialState : Option InitialState) (copied : Bool) (starts : DownloadStart × DownloadStart)
    (resets : Nat → List SetResultCall) (repr : FwRepr) : FwRepr :=
  match initialState with
  | none => repr
  | some initial =>
      let uri := if copied then initial.persistedUri else none
      match initial.result with
      | .downloaded => { repr with packageUri := uri, userState := .downloaded, state := .downloaded }
      | .downloading =>
          let repr := setUserState repr .downloading
          let restart := decide (0 < initial.resumeOffset) && !initial.resumeEtag
          let repr := if restart then resetUserState (resets 0) repr else repr
          match uri with
          | none => resetUserState (resets 1) repr
          | some uri =>
              let (result, repr) := scheduleDownload transportSecurityFromUri starts.1 (resets 1)
                initial.resumeEtag { repr with packageUri := some uri }
              if result ≠ 0 then
                let repr := resetUserState (resets 2) repr
                if repr.result = .connectionLost ∧ initial.resumeEtag = true then
                  (scheduleDownload transportSecurityFromUri starts.2 (resets 3) false repr).2
                else repr
              else repr
      | .updating => { repr with userState := .updating, state := .updating, result := .initial }
      | .neutral => { repr with result := .initial }
      | .success => { repr with result := .success }
      | .integrityFailure => { repr with result := .integrityFailure }
      | .failed => { repr with result := .failed }

/-- `anjay_fw_update_install`, when the module and the object are registered. -/
def install (initialState : Option InitialState) (copied : Bool) (starts : DownloadStart × DownloadStart)
    (resets : Nat → List SetResultCall) : FwRepr :=
  { initializeFwRepr transportSecurityFromUri initialState copied starts resets .zero with installed := true }

/-! ## 7. Events -/

/-- What can happen to the object. -/
inductive Event
  | writePackage (input : PackageInput) (handlers : Handlers)
  | writePackageUri (newUri : Except Int String) (handlers : Handlers)
  | execute
  | notify (scheduled : Bool)
  | upgradeJob (callback : Callback)
  | block (id : Nat) (data : List UInt8) (handlers : Handlers)
  | downloadEnd (id : Nat) (status : DownloadStatus) (handlers : Handlers)
  | setResult (call : SetResultCall)

/-- A block or the end of a download comes from a live one, and the job runs when it is scheduled. -/
def step (fw : FwRepr) : Event → Option FwRepr
  | .writePackage input handlers => some (fwWritePackage transportSecurityFromUri input handlers fw).2
  | .writePackageUri newUri handlers => some (fwWritePackageUri transportSecurityFromUri newUri handlers fw).2
  | .execute => some (fwExecute fw).2
  | .notify scheduled => some (fwOnNotify scheduled fw)
  | .upgradeJob callback => if fw.updateJob then some (performUpgrade callback fw) else none
  | .block id data handlers =>
      if id ∈ fw.live then some (receiveBlock transportSecurityFromUri id data handlers fw) else none
  | .downloadEnd id status handlers =>
      if id ∈ fw.live then some (endDownload transportSecurityFromUri id status handlers fw) else none
  | .setResult call => some (setResult call fw).2

end Downloads

end Anjay.FwUpdate
