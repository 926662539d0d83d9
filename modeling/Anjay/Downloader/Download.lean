/-
  File:      Anjay/Downloader/Download.lean
  Subject:   Starting a download (`anjay_downloader.c`, `anjay_coap.c`, `anjay_http.c`): the free id,
             the two constructors with all their ways to fail, and `_anjay_downloader_download`.

  * `findFreeId_spec`: the search for a free id ends, with an id no listed transfer has.
  * `coapCtxNew_spec`, `httpCtxNew_spec`: which constructor calls fail without setting the error.
  * `download_agrees_iff`: success is reported exactly for the transfers that were appended, but for
    those calls.

  An `assert` is not modelled: a build with assertions stops where one fails.
-/
import Anjay.Commons.Basic
import Mathlib.Data.List.Perm.Subperm
import Mathlib.Data.List.Nodup

namespace Anjay.Download

/-! ## 1. Configuration -/

/-- `anjay_socket_transport_t`. -/
inductive Transport
  | udp
  | tcp
  deriving DecidableEq, Repr

/-- `avs_net_socket_type_t`. -/
inductive SocketType
  | tcp
  | udp
  | ssl
  | dtls
  deriving DecidableEq, Repr

/-- `anjay_transport_info_t`, without the default port and the security. -/
structure TransportInfo where
  transport : Transport
  socketType : Option SocketType
  uriScheme : String

/-- `TRANSPORTS`. -/
def transports : List TransportInfo :=
  [⟨.udp, some .udp, "coap"⟩, ⟨.udp, some .dtls, "coaps"⟩,
   ⟨.tcp, some .tcp, "coap+tcp"⟩, ⟨.tcp, some .ssl, "coaps+tcp"⟩]

/-- `avs_strncasecmp(haystack, needle, strlen(needle)) == 0`. -/
def startsWith (haystack needle : String) : Bool :=
  (haystack.toList.take needle.toList.length).map Char.toLower == needle.toList.map Char.toLower

/-- `_anjay_transport_info_by_uri_scheme`. -/
def transportInfoByUriScheme (uri : String) : Option TransportInfo :=
  transports.find? fun info =>
    startsWith uri info.uriScheme &&
      (match (uri.toList.drop info.uriScheme.toList.length).head? with
        | none => true
        | some c => c == ':')

/-- `avs_coap_udp_tx_params_t`. -/
structure TxParams where
  ackTimeout : Duration
  ackRandomFactor : Double
  maxRetransmit : Nat
  nstart : Nat
  deriving DecidableEq

/-- `avs_coap_udp_tx_params_valid`. -/
def TxParams.valid (p : TxParams) : Bool :=
  if p.ackTimeout.less ⟨1, 0⟩ then false
  else if Double.lt p.ackRandomFactor Double.one then false
  else if p.nstart = 0 then false
  else true

/-- `anjay_download_config_t`; of a pointer to a handler or to a security setting it matters here only
    whether it is set. -/
structure DownloadConfig where
  url : String
  startOffset : Nat
  etag : Option (List UInt8)
  onNextBlock : Bool
  onDownloadFinished : Bool
  numCiphersuites : Nat
  daneTlsaRecord : Bool
  coapTxParams : Option TxParams

/-- What the calls into other modules give: whether an allocation or a parser succeeds, and the errors
    of the others. A socket that could not be created is not set. -/
structure Env where
  withHttpDownload : Bool
  udpTxParams : TxParams
  newElement : Bool
  urlParse : Bool
  socketCreate : SocketType → AvsError
  socketSetDane : AvsError
  socketConnect : AvsError
  coapCtxCreate : Bool
  coapCtxSetSocket : AvsError
  schedNow : Bool
  httpNew : Bool
  copySecurityInfo : AvsError
  copyCiphersuites : Bool
  copyDaneTlsaRecord : Bool
  etagClone : Bool

/-! ## 2. The list of transfers -/

/-- A transfer context: the common part, and what the constructor copies from the configuration. -/
structure Transfer where
  id : UInt64
  transport : Transport
  offset : Nat
  etag : Option (List UInt8)
  txParams : Option TxParams
  deriving DecidableEq

/-- `anjay_downloader_t` with the transports that are online and the calls of `on_download_finished`
    so far. A listed transfer takes more than one byte of the address space. -/
structure Downloader where
  nextId : UInt64
  downloads : List Transfer
  online : Transport → Bool
  finishedCalls : List UInt64
  fits : 2 * downloads.length < 2 ^ 64

/-- A transfer that was allocated while those of `dl` are listed. -/
abbrev Allocated (dl : Downloader) := { _t : Transfer // 2 * (dl.downloads.length + 1) < 2 ^ 64 }

/-- `_anjay_downloader_find_ctx_ptr_by_id`. -/
def findCtxById (downloads : List Transfer) (id : UInt64) : Option Transfer :=
  downloads.find? fun t => t.id == id

/-- The loop of `find_free_id`: the id found, and `next_id` after it. -/
def findFreeIdLoop (downloads : List Transfer) : Nat → UInt64 → Option (UInt64 × UInt64)
  | 0, _ => none
  | fuel + 1, nextId =>
      if nextId = 0 ∨ (findCtxById downloads nextId).isSome then
        findFreeIdLoop downloads fuel (nextId + 1)
      else some (nextId, nextId + 1)

/-- `find_free_id`; `none` stands for a loop that does not end. -/
def findFreeId (dl : Downloader) : Option (UInt64 × UInt64) :=
  findFreeIdLoop dl.downloads (dl.downloads.length + 2) dl.nextId

/-! ## 3. The constructors -/

/-- Creating and connecting the socket; `true` when it is set afterwards. -/
def openSocket (env : Env) (cfg : DownloadConfig) (type : SocketType) : AvsError × Bool :=
  let err := env.socketCreate type
  if !err.isOk then (err, false)
  else if cfg.daneTlsaRecord && !env.socketSetDane.isOk then (env.socketSetDane, false)
  else if !env.socketConnect.isOk then (env.socketConnect, false)
  else (env.socketConnect, true)

/-- `reset_coap_ctx`. -/
def resetCoapCtx (env : Env) : Transport → AvsError
  | .udp => if !env.coapCtxCreate then .errno .ENOMEM else env.coapCtxSetSocket
  | .tcp => .errno .EPROTONOSUPPORT

/-- `_anjay_downloader_coap_ctx_new`. -/
def coapCtxNew (env : Env) (dl : Downloader) (cfg : DownloadConfig) (id : UInt64) :
    AvsError × Option (Allocated dl) :=
  if hfits : env.newElement = true ∧ 2 * (dl.downloads.length + 1) < 2 ^ 64 then
    match transportInfoByUriScheme cfg.url with
    | none => (.errno .EINVAL, none)
    | some info =>
        if !env.urlParse then (.errno .EINVAL, none)
        else if cfg.etag.any fun e => decide (8 < e.length) then (.errno .EPROTO, none)
        else if !cfg.onNextBlock || !cfg.onDownloadFinished then (.errno .EINVAL, none)
        else match info.socketType with
          | none => (.errno .EPROTONOSUPPORT, none)
          | some type =>
              let (err, isSet) := openSocket env cfg type
              if !isSet then (err, none)
              else if cfg.coapTxParams.any fun p => !p.valid then
                -- nothing is assigned to `err` here
                (err, none)
              else
                let err := resetCoapCtx env info.transport
                if !err.isOk then (err, none)
                else if !env.schedNow then (.errno .ENOMEM, none)
                else (.ok, some ⟨{ id := id
                                   transport := info.transport
                                   offset := cfg.startOffset
                                   etag := cfg.etag
                                   txParams := some (cfg.coapTxParams.getD env.udpTxParams) }, hfits.2⟩)
  else (.errno .ENOMEM, none)

/-- `_anjay_downloader_http_ctx_new`. -/
def httpCtxNew (env : Env) (dl : Downloader) (cfg : DownloadConfig) (id : UInt64) :
    AvsError × Option (Allocated dl) :=
  if !cfg.onNextBlock || !cfg.onDownloadFinished then (.errno .EINVAL, none)
  else if hfits : env.newElement = true ∧ 2 * (dl.downloads.length + 1) < 2 ^ 64 then
    if !env.httpNew then (.errno .ENOMEM, none)
    else if !env.copySecurityInfo.isOk then (env.copySecurityInfo, none)
    else if decide (cfg.numCiphersuites ≠ 0) && !env.copyCiphersuites then (.errno .ENOMEM, none)
    else if cfg.daneTlsaRecord && !env.copyDaneTlsaRecord then
      -- `err` is the result of `copy_security_info` still
      (env.copySecurityInfo, none)
    else if !env.urlParse then (.errno .EINVAL, none)
    else if cfg.etag.isSome && !env.etagClone then (.errno .ENOMEM, none)
    else if !env.schedNow then (.errno .ENOMEM, none)
    else (.ok, some ⟨{ id := id
                       transport := .tcp
                       offset := cfg.startOffset
                       etag := cfg.etag
                       txParams := none }, hfits.2⟩)
  else (.errno .ENOMEM, none)

/-- The two constructors. -/
inductive Constructor
  | coap
  | http
  deriving DecidableEq, Repr

def Constructor.call (env : Env) (dl : Downloader) (cfg : DownloadConfig) (id : UInt64) :
    Constructor → AvsError × Option (Allocated dl)
  | coap => coapCtxNew env dl cfg id
  | http => httpCtxNew env dl cfg id

/-- `find_downloader_ctx_constructor`. -/
def findDownloaderCtxConstructor (env : Env) (url : String) : Except AvsError (Constructor × Transport) :=
  match transportInfoByUriScheme url with
  | some info => .ok (.coap, info.transport)
  | none =>
      if env.withHttpDownload && startsWith url "http" then .ok (.http, .tcp)
      else .error (.errno .EPROTONOSUPPORT)

/-! ## 4. Starting a download -/

structure Result where
  err : AvsError
  dl : Downloader
  outHandle : UInt64

/-- The end of `_anjay_downloader_download`. -/
def finish (dl : Downloader) (outHandle : UInt64) (nextId : UInt64) :
    AvsError × Option (Allocated dl) → Result
  | (_, some ⟨t, h⟩) =>
      { err := .ok
        dl := { dl with nextId := nextId, downloads := dl.downloads ++ [t], fits := by simpa using h }
        outHandle := t.id }
  | (err, none) => { err := err, dl := { dl with nextId := nextId }, outHandle := outHandle }

/-- `_anjay_downloader_download`; `outHandle` is what `*out_handle` holds before. -/
def download (env : Env) (dl : Downloader) (outHandle : UInt64) (cfg : DownloadConfig) : Option Result :=
  match findDownloaderCtxConstructor env cfg.url with
  | .error err => some (finish dl outHandle dl.nextId (err, none))
  | .ok (constructor, transport) =>
      if dl.online transport then
        (findFreeId dl).map fun (id, nextId) =>
          finish dl outHandle nextId (constructor.call env dl cfg id)
      else some (finish dl outHandle dl.nextId (.errno .ENODEV, none))

/-! ## 5. The free id -/

theorem findCtxById_eq_none {downloads : List Transfer} {id : UInt64} :
    findCtxById downloads id = none ↔ id ∉ downloads.map Transfer.id := by
  rw [findCtxById, List.find?_eq_none]
  constructor
  · intro h hmem
    obtain ⟨t, ht, rfl⟩ := List.mem_map.mp hmem
    exact h t ht (beq_self_eq_true _)
  · intro h t ht heq
    exact h (List.mem_map.mpr ⟨t, ht, eq_of_beq heq⟩)

/-- The ids the loop passes over are used, or zero. -/
theorem findFreeIdLoop_cases (downloads : List Transfer) : ∀ (fuel : Nat) (nextId : UInt64),
    (∃ id nextId', findFreeIdLoop downloads fuel nextId = some (id, nextId') ∧ id ≠ 0 ∧
      id ∉ downloads.map Transfer.id) ∨
    ∀ i < fuel, nextId + UInt64.ofNat i ∈ 0 :: downloads.map Transfer.id
  | 0, _ => Or.inr fun _ hi => absurd hi (Nat.not_lt_zero _)
  | fuel + 1, nextId => by
      rw [findFreeIdLoop]
      by_cases hused : nextId = 0 ∨ (findCtxById downloads nextId).isSome
      · rw [if_pos hused]
        have hmem : nextId ∈ 0 :: downloads.map Transfer.id := by
          rcases hused with h0 | hs
          · exact h0 ▸ List.mem_cons_self
          · refine List.mem_cons_of_mem _ (not_not.mp fun h => ?_)
            rw [findCtxById_eq_none.mpr h] at hs
            cases hs
        refine (findFreeIdLoop_cases downloads fuel (nextId + 1)).imp_right fun hall i hi => ?_
        cases i with
        | zero => rwa [show nextId + UInt64.ofNat 0 = nextId by simp]
        | succ i =>
            have h := hall i (Nat.lt_of_succ_lt_succ hi)
            rwa [show nextId + UInt64.ofNat (i + 1) = nextId + 1 + UInt64.ofNat i by
              rw [UInt64.ofNat_add, UInt64.add_comm (UInt64.ofNat i), UInt64.add_assoc]; rfl]
      · rw [if_neg hused]
        refine Or.inl ⟨nextId, nextId + 1, rfl, fun h => hused (Or.inl h), ?_⟩
        refine findCtxById_eq_none.mp (Option.not_isSome_iff_eq_none.mp fun h => hused (Or.inr h))

/-- **The search for a free id ends**: there are more candidates than listed transfers. -/
theorem findFreeId_spec (dl : Downloader) : ∃ id nextId, findFreeId dl = some (id, nextId) ∧ id ≠ 0 ∧
    ∀ u ∈ dl.downloads, u.id ≠ id := by
  rcases findFreeIdLoop_cases dl.downloads (dl.downloads.length + 2) dl.nextId with
    ⟨id, nextId, hfound, h0, hnew⟩ | hall
  · exact ⟨id, nextId, hfound, h0, fun u hu heq => hnew (List.mem_map.mpr ⟨u, hu, heq⟩)⟩
  · exfalso
    let candidates := (List.range (dl.downloads.length + 2)).map fun i => dl.nextId + UInt64.ofNat i
    have hbound : dl.downloads.length + 2 ≤ 2 ^ 64 := by
      have := dl.fits
      omega
    have hnodup : candidates.Nodup := by
      refine List.Nodup.map_on (fun i hi j hj heq => ?_) List.nodup_range
      have hij : UInt64.ofNat i = UInt64.ofNat j := by simpa using heq
      have hlt : ∀ k ∈ List.range (dl.downloads.length + 2), k < 2 ^ 64 := fun k hk =>
        Nat.lt_of_lt_of_le (List.mem_range.mp hk) hbound
      have := congrArg UInt64.toNat hij
      rwa [UInt64.toNat_ofNat_of_lt' (hlt i hi), UInt64.toNat_ofNat_of_lt' (hlt j hj)] at this
    have hsub : candidates ⊆ 0 :: dl.downloads.map Transfer.id := by
      intro c hc
      obtain ⟨i, hi, rfl⟩ := List.mem_map.mp hc
      exact hall i (List.mem_range.mp hi)
    have hle := (List.subperm_of_subset hnodup hsub).length_le
    simp only [candidates, List.length_map, List.length_range, List.length_cons] at hle
    omega

/-! ## 6. Success and failure -/

/-- The CoAP constructor gets as far as the transmission parameters, and these are not valid. -/
structure CoapErrorUnset (env : Env) (dl : Downloader) (cfg : DownloadConfig) : Prop where
  allocated : env.newElement = true ∧ 2 * (dl.downloads.length + 1) < 2 ^ 64
  urlParse : env.urlParse = true
  etag : ∀ e ∈ cfg.etag, e.length ≤ 8
  handlers : cfg.onNextBlock = true ∧ cfg.onDownloadFinished = true
  socketCreate : ∃ info ∈ transportInfoByUriScheme cfg.url, ∃ type ∈ info.socketType,
    (env.socketCreate type).isOk = true
  socketSetDane : cfg.daneTlsaRecord = true → env.socketSetDane.isOk = true
  socketConnect : env.socketConnect.isOk = true
  params : ∃ p ∈ cfg.coapTxParams, p.valid = false

/-- The HTTP constructor gets as far as the copy of the DANE record, and this copy fails. -/
structure HttpErrorUnset (env : Env) (dl : Downloader) (cfg : DownloadConfig) : Prop where
  handlers : cfg.onNextBlock = true ∧ cfg.onDownloadFinished = true
  allocated : env.newElement = true ∧ 2 * (dl.downloads.length + 1) < 2 ^ 64
  httpNew : env.httpNew = true
  copySecurityInfo : env.copySecurityInfo.isOk = true
  copyCiphersuites : cfg.numCiphersuites ≠ 0 → env.copyCiphersuites = true
  copyDane : cfg.daneTlsaRecord = true ∧ env.copyDaneTlsaRecord = false

/-- What a constructor is to give: an error, or a transfer of the id it was called with; but for the
    calls of `unset`, which give neither. -/
def Constructs {dl : Downloader} (id : UInt64) (unset : Prop) : AvsError × Option (Allocated dl) → Prop
  | (err, some t) => err = .ok ∧ t.val.id = id ∧ ¬unset
  | (err, none) => err.isOk = true ↔ unset

theorem Constructs.error {dl : Downloader} {id : UInt64} {unset : Prop} {err : AvsError}
    (herr : err.isOk = false) (h : ¬unset) : @Constructs dl id unset (err, none) :=
  iff_of_false (by simp [herr]) h

theorem openSocket_cases (env : Env) (cfg : DownloadConfig) (type : SocketType) :
    (∃ err, openSocket env cfg type = (err, false) ∧ err.isOk = false ∧
      ¬((env.socketCreate type).isOk = true ∧
        (cfg.daneTlsaRecord = true → env.socketSetDane.isOk = true) ∧ env.socketConnect.isOk = true)) ∨
    (openSocket env cfg type = (env.socketConnect, true) ∧ (env.socketCreate type).isOk = true ∧
      (cfg.daneTlsaRecord = true → env.socketSetDane.isOk = true) ∧ env.socketConnect.isOk = true) := by
  unfold openSocket
  dsimp only
  split
  · next hc => exact Or.inl ⟨_, rfl, by simpa using hc, fun h => by simp [h.1] at hc⟩
  · next hc =>
    split
    · next hd =>
      obtain ⟨hrec, hset⟩ := Bool.and_eq_true_iff.mp hd
      exact Or.inl ⟨_, rfl, by simpa using hset, fun h => by simp [h.2.1 hrec] at hset⟩
    · next hd =>
      split
      · next hk => exact Or.inl ⟨_, rfl, by simpa using hk, fun h => by simp [h.2.2] at hk⟩
      · next hk =>
        refine Or.inr ⟨rfl, by simpa using hc, fun hrec => ?_, by simpa using hk⟩
        simpa [hrec] using hd

/-- **Which CoAP constructor calls leave the error unset.** -/
theorem coapCtxNew_spec (env : Env) (dl : Downloader) (cfg : DownloadConfig) (id : UInt64) :
    Constructs id (CoapErrorUnset env dl cfg) (coapCtxNew env dl cfg id) := by
  unfold coapCtxNew
  split
  case isFalse hfits => exact .error (AvsError.isOk_errno _) fun h => hfits h.allocated
  case isTrue hfits =>
  cases hinfo : transportInfoByUriScheme cfg.url with
  | none => exact .error (AvsError.isOk_errno _) fun h => by simpa [hinfo] using h.socketCreate
  | some info =>
  dsimp only
  split
  case isTrue hurl => exact .error (AvsError.isOk_errno _) fun h => by simp [h.urlParse] at hurl
  case isFalse hurl =>
  split
  case isTrue hetag =>
    refine .error (AvsError.isOk_errno _) fun h => ?_
    obtain ⟨e, he, hlong⟩ := (Option.any_eq_true _ _).mp hetag
    exact absurd (h.etag e he) (Nat.not_le.mpr (of_decide_eq_true hlong))
  case isFalse hetag =>
  split
  case isTrue hh => exact .error (AvsError.isOk_errno _) fun h => by simp [h.handlers] at hh
  case isFalse hh =>
  cases htype : info.socketType with
  | none => exact .error (AvsError.isOk_errno _) fun h => by simpa [hinfo, htype] using h.socketCreate
  | some type =>
  rcases openSocket_cases env cfg type with ⟨err, hopen, herr, hnot⟩ | ⟨hopen, hcreate, hdane, hconnect⟩
  · dsimp only
    rw [hopen]
    refine .error herr fun h => hnot ⟨?_, h.socketSetDane, h.socketConnect⟩
    simpa [hinfo, htype] using h.socketCreate
  · dsimp only
    rw [hopen]
    dsimp only
    rw [if_neg (by decide)]
    split
    case isTrue hparams =>
      -- the socket is there, so the error is still the success of its connection
      obtain ⟨p, hp, hinvalid⟩ := (Option.any_eq_true _ _).mp hparams
      refine iff_of_true hconnect
        { allocated := hfits
          urlParse := by simpa using hurl
          etag := fun e he => ?_
          handlers := by simpa using hh
          socketCreate := ⟨info, hinfo, type, htype, hcreate⟩
          socketSetDane := hdane
          socketConnect := hconnect
          params := ⟨p, hp, by simpa using hinvalid⟩ }
      refine Nat.not_lt.mp fun hlong => hetag ((Option.any_eq_true _ _).mpr ⟨e, he, ?_⟩)
      exact decide_eq_true hlong
    case isFalse hparams =>
    have hvalid : ¬CoapErrorUnset env dl cfg := fun h => by
      obtain ⟨p, hp, hinvalid⟩ := h.params
      exact hparams ((Option.any_eq_true _ _).mpr ⟨p, hp, by simp [hinvalid]⟩)
    split
    case isTrue hreset => exact .error (by simpa using hreset) hvalid
    case isFalse hreset =>
    split
    case isTrue hsched => exact .error (AvsError.isOk_errno _) hvalid
    case isFalse hsched => exact ⟨rfl, rfl, hvalid⟩

/-- **Which HTTP constructor calls leave the error unset.** -/
theorem httpCtxNew_spec (env : Env) (dl : Downloader) (cfg : DownloadConfig) (id : UInt64) :
    Constructs id (HttpErrorUnset env dl cfg) (httpCtxNew env dl cfg id) := by
  unfold httpCtxNew
  split
  case isTrue hh => exact .error (AvsError.isOk_errno _) fun h => by simp [h.handlers] at hh
  case isFalse hh =>
  split
  case isFalse hfits => exact .error (AvsError.isOk_errno _) fun h => hfits h.allocated
  case isTrue hfits =>
  split
  case isTrue hnew => exact .error (AvsError.isOk_errno _) fun h => by simp [h.httpNew] at hnew
  case isFalse hnew =>
  split
  case isTrue hsec =>
    exact .error (by simpa using hsec) fun h => by simp [h.copySecurityInfo] at hsec
  case isFalse hsec =>
  split
  case isTrue hciph =>
    refine .error (AvsError.isOk_errno _) fun h => ?_
    obtain ⟨hnum, hcopy⟩ := Bool.and_eq_true_iff.mp hciph
    simp [h.copyCiphersuites (of_decide_eq_true hnum)] at hcopy
  case isFalse hciph =>
  split
  case isTrue hdane =>
    refine iff_of_true (by simpa using hsec)
      { handlers := by simpa using hh
        allocated := hfits
        httpNew := by simpa using hnew
        copySecurityInfo := by simpa using hsec
        copyCiphersuites := fun hnum => by simpa [hnum] using hciph
        copyDane := by simpa using hdane }
  case isFalse hdane =>
  have hvalid : ¬HttpErrorUnset env dl cfg := fun h => by simp [h.copyDane] at hdane
  repeat' split
  · exact .error (AvsError.isOk_errno _) hvalid
  · exact .error (AvsError.isOk_errno _) hvalid
  · exact .error (AvsError.isOk_errno _) hvalid
  · exact ⟨rfl, rfl, hvalid⟩

/-- What `_anjay_downloader_download` is to do: success is returned iff a transfer of a new, non-zero
    id was appended and the handle set to the id; else nothing changed, and no handler was called. -/
def Agrees (dl : Downloader) (outHandle : UInt64) (r : Result) : Prop :=
  (r.err.isOk = true ↔ ∃ t, r.dl.downloads = dl.downloads ++ [t] ∧ t.id ≠ 0 ∧
    (∀ u ∈ dl.downloads, u.id ≠ t.id) ∧ r.outHandle = t.id) ∧
  (r.err.isOk = false → r.dl.downloads = dl.downloads ∧ r.outHandle = outHandle) ∧
  r.dl.finishedCalls = dl.finishedCalls

/-- The call reaches a constructor, and this leaves the error unset. -/
def ErrorUnset (env : Env) (dl : Downloader) (cfg : DownloadConfig) : Prop :=
  match findDownloaderCtxConstructor env cfg.url with
  | .error _ => False
  | .ok (.coap, transport) => dl.online transport = true ∧ CoapErrorUnset env dl cfg
  | .ok (.http, transport) => dl.online transport = true ∧ HttpErrorUnset env dl cfg

theorem finish_agrees {dl : Downloader} {outHandle id nextId : UInt64} (unset : Prop) (h0 : id ≠ 0)
    (hnew : ∀ u ∈ dl.downloads, u.id ≠ id) :
    ∀ (r : AvsError × Option (Allocated dl)), Constructs id unset r →
      (Agrees dl outHandle (finish dl outHandle nextId r) ↔ ¬unset)
  | (_, some ⟨t, h⟩), ⟨_, hid, hvalid⟩ => by
      refine iff_of_true ⟨iff_of_true rfl ⟨t, rfl, ?_, ?_, rfl⟩, fun hok => ?_, rfl⟩ hvalid
      · rwa [hid]
      · rwa [hid]
      · simp [finish] at hok
  | (err, none), hok => by
      have hsame : ¬∃ t, (finish dl outHandle nextId (err, none)).dl.downloads = dl.downloads ++ [t] ∧
          t.id ≠ 0 ∧ (∀ u ∈ dl.downloads, u.id ≠ t.id) ∧
          (finish dl outHandle nextId (err, none)).outHandle = t.id := by
        rintro ⟨t, happ, -⟩
        simpa [finish] using congrArg List.length happ
      refine ⟨fun hagr hunset => hsame (hagr.1.mp (hok.mpr hunset)), fun hvalid => ?_⟩
      exact ⟨iff_of_false (fun h => hvalid (hok.mp h)) hsame, fun _ => ⟨rfl, rfl⟩, rfl⟩

/-- **Success is reported exactly for the transfers that were appended**, unless a constructor leaves
    the error unset. -/
theorem download_agrees_iff (env : Env) (dl : Downloader) (outHandle : UInt64) (cfg : DownloadConfig) :
    ∃ r, download env dl outHandle cfg = some r ∧ (Agrees dl outHandle r ↔ ¬ErrorUnset env dl cfg) := by
  obtain ⟨id, nextId, hid, h0, hnew⟩ := findFreeId_spec dl
  unfold download ErrorUnset
  cases hctor : findDownloaderCtxConstructor env cfg.url with
  | error err =>
      have herr : err.isOk = false := by
        unfold findDownloaderCtxConstructor at hctor
        split at hctor
        · cases hctor
        · split at hctor
          · cases hctor
          · cases hctor
            exact AvsError.isOk_errno _
      exact ⟨_, rfl, finish_agrees False h0 hnew (err, none) (.error herr not_false)⟩
  | ok c =>
      obtain ⟨constructor, transport⟩ := c
      dsimp only
      by_cases hon : dl.online transport = true
      · rw [if_pos hon, hid]
        refine ⟨_, rfl, ?_⟩
        cases constructor with
        | coap =>
            refine (finish_agrees _ h0 hnew _ (coapCtxNew_spec env dl cfg id)).trans (not_congr ?_)
            exact (and_iff_right hon).symm
        | http =>
            refine (finish_agrees _ h0 hnew _ (httpCtxNew_spec env dl cfg id)).trans (not_congr ?_)
            exact (and_iff_right hon).symm
      · rw [if_neg hon]
        refine ⟨_, rfl, ?_⟩
        refine (finish_agrees False h0 hnew _ (.error (AvsError.isOk_errno _) not_false)).trans
          (not_congr ?_)
        cases constructor with
        | coap => exact ⟨False.elim, fun h => hon h.1⟩
        | http => exact ⟨False.elim, fun h => hon h.1⟩

/-- A download from `coap://h/f` where every call succeeds, with a random factor of 0.5: success is
    reported, the list is empty still, and the handle is what it was. -/
theorem download_unset_error :
    let params : TxParams := ⟨⟨2, 0⟩, 0x3FE0000000000000, 4, 1⟩
    let env : Env :=
      { withHttpDownload := false, udpTxParams := ⟨⟨2, 0⟩, 0x3FF8000000000000, 4, 1⟩
        newElement := true, urlParse := true, socketCreate := fun _ => .ok, socketSetDane := .ok
        socketConnect := .ok, coapCtxCreate := true, coapCtxSetSocket := .ok, schedNow := true
        httpNew := true, copySecurityInfo := .ok, copyCiphersuites := true, copyDaneTlsaRecord := true
        etagClone := true }
    let dl : Downloader := ⟨1, [], fun _ => true, [], by decide⟩
    let cfg : DownloadConfig := ⟨"coap://h/f", 0, none, true, true, 0, false, some params⟩
    ∃ r, download env dl 0 cfg = some r ∧ r.err = .ok ∧ r.dl.downloads = [] ∧ r.outHandle = 0 ∧
      ¬Agrees dl 0 r := by
  intro params env dl cfg
  have hrun : (download env dl 0 cfg).map (fun r => (r.err, r.dl.downloads, r.outHandle)) =
      some (.ok, [], 0) := by decide +kernel
  obtain ⟨r, hr, heq⟩ := Option.map_eq_some_iff.mp hrun
  obtain ⟨herr, hlist, hout⟩ : r.err = .ok ∧ r.dl.downloads = [] ∧ r.outHandle = 0 := by
    simpa using heq
  refine ⟨r, hr, herr, hlist, hout, fun h => ?_⟩
  obtain ⟨t, happ, -⟩ := h.1.mp (by rw [herr]; rfl)
  simpa [dl] using hlist.symm.trans happ

end Anjay.Download
