/-
  File:      Anjay/Servers/Connection.lean
  Subject:   The primary connection of a server (`anjay_connections.c`, `anjay_connection_ip.c`): the socket, the
             URI that is kept beside it, and the requests that carry the segments of that URI.

  * `reachable_consistent`: what the kept URI is, in terms of the URI that the socket was created for.
  * `reachable_uri_iff`: when it is that URI; `reachable_described`: the runs in which it always is;
    `described_not_always`: not all runs are such.
-/
import Anjay.Registration.Register
import Anjay.Servers.Url

namespace Anjay.Servers

open Download

/-! ## 1. Data -/

/-- `anjay_server_connection_state_t`. -/
inductive ConnectionState
  | inProgress
  | freshlyConnected
  | stable
  | offline
  deriving DecidableEq, Repr

/-- A socket: its type, whether it is connected, the URI that it was created for, and whether a refresh came upon
    it since then. The last two are not in the code. -/
structure Socket where
  type : SocketType
  online : Bool
  uri : AvsUrl
  refreshed : Bool
  deriving DecidableEq, Repr

/-- `anjay_server_connection_t`. -/
structure Connection where
  uri : Url
  transport : Transport
  socket : Option Socket
  coapCtx : Bool
  stateful : Bool
  state : ConnectionState
  sessionToken : Duration
  needsObserveFlush : Bool
  queueModeCloseSocket : Bool
  deriving DecidableEq, Repr

/-- `anjay_connection_info_t`. -/
structure ConnectionInfo where
  uri : Option AvsUrl
  transportInfo : Option Sec.SchemeInfo

/-- What the functions find around them: the transports that are online, the clock, the security configuration
    and the record for DANE, and the calls that fail. -/
structure Env where
  transportOnline : Transport → Bool
  now : Duration
  securityConfig : AvsError
  memory : Bool
  socketCreate : Bool
  dane : Option AvsError
  coapCtxCreate : Bool
  connect : AvsError
  sessionResumed : Bool

/-! ## 2. The connection -/

namespace Connection

/-- A connection that was never used. -/
def unused : Connection := ⟨.empty, .udp, none, false, false, .inProgress, .zero, false, false⟩

/-- `_anjay_connection_is_online`. -/
def isOnline (c : Connection) : Bool :=
  match c.socket with
  | none => false
  | some socket => socket.online

/-- `avs_net_socket_close`. -/
def closeSocket (c : Connection) : Connection :=
  { c with socket := c.socket.map fun socket => { socket with online := false } }

/-- `_anjay_connection_internal_clean_socket`. -/
def internalCleanSocket (c : Connection) : Connection :=
  { c with coapCtx := false, socket := none, queueModeCloseSocket := false }

/-- `connection_cleanup`. -/
def cleanup (c : Connection) : Connection :=
  { c.internalCleanSocket with uri := c.uri.cleanup }

/-- `_anjay_connection_suspend`, without the exchanges that it cancels. -/
def suspend (c : Connection) : Connection := c.closeSocket

/-- `_anjay_server_connection_internal_bring_online`, where it fails. -/
def connectFailed (c : Connection) : Connection :=
  { c.closeSocket with state := .offline, coapCtx := false }

/-- `_anjay_server_connection_internal_bring_online`. There is a socket. -/
def internalBringOnline (env : Env) (c : Connection) : AvsError × Connection :=
  if c.isOnline then (.ok, { c with state := .stable, needsObserveFlush := true })
  else if !(c.coapCtx || env.coapCtxCreate) then (.errno .ENOMEM, c.connectFailed)
  else if !env.connect.isOk then (env.connect, c.connectFailed)
  else
    (.ok,
      { c with
        coapCtx := true
        socket := c.socket.map fun socket => { socket with online := true }
        sessionToken := if env.sessionResumed then c.sessionToken else env.now
        state := .freshlyConnected
        needsObserveFlush := true })

/-- `socket_type` of `TRANSPORTS`. -/
def socketType (info : Sec.SchemeInfo) : SocketType :=
  match info.transport, decide (info.security = .encrypted) with
  | .udp, false => .udp
  | .udp, true => .dtls
  | .tcp, false => .tcp
  | .tcp, true => .ssl

def isTls : SocketType → Bool
  | .ssl | .dtls => true
  | .tcp | .udp => false

/-- `prepare_connection`. -/
def prepareConnection (env : Env) (info : ConnectionInfo) (c : Connection) : AvsError × Connection :=
  match info.uri, info.transportInfo with
  | some uri, some transportInfo =>
      let url := urlFromAvsUrl env.memory uri c.uri
      let type := socketType transportInfo
      if !url.1 then (.errno .ENOMEM, { c with uri := url.2 })
      else
        let c := { c with uri := url.2, stateful := decide (type ≠ .udp) }
        if !env.socketCreate then (.errno .ENOMEM, c)
        else
          match (if isTls type then env.dane else none) with
          | some err => if !err.isOk then (err, c) else (.ok, { c with socket := some ⟨type, false, uri, false⟩ })
          | none => (.ok, { c with socket := some ⟨type, false, uri, false⟩ })
  | _, _ => (.errno .EINVAL, c)

/-- `recreate_socket`. There is no socket, and none is left where it fails. -/
def recreateSocket (env : Env) (info : ConnectionInfo) (c : Connection) : AvsError × Connection :=
  if !env.securityConfig.isOk then (env.securityConfig, c) else c.prepareConnection env info

/-- `ensure_socket_connected`. -/
def ensureSocketConnected (env : Env) (info : ConnectionInfo) (c : Connection) : AvsError × Connection :=
  if c.socket.isNone then
    let created := c.recreateSocket env info
    if !created.1.isOk then (created.1, { created.2 with state := .offline }) else created.2.internalBringOnline env
  else c.internalBringOnline env

/-- The URI is cleaned up, and a socket that is there is a refreshed one. -/
def clearUri (c : Connection) : Connection :=
  { c with uri := c.uri.cleanup, socket := c.socket.map fun socket => { socket with refreshed := true } }

/-- `refresh_connection`. -/
def refreshConnection (env : Env) (enabled : Bool) (info : ConnectionInfo) (c : Connection) : AvsError × Connection :=
  let c := c.clearUri
  if !enabled then (.ok, { c.suspend with state := .offline, needsObserveFlush := false })
  else c.ensureSocketConnected env info

/-- `_anjay_socket_transport_supported`: there is no definition for TCP. -/
def socketTransportSupported : Transport → Bool
  | .udp => true
  | .tcp => false

/-- The transport of the URI, if it can be used. -/
def usableTransport (env : Env) (uri : AvsUrl) : Option Sec.SchemeInfo :=
  match uri.protocol.bind Sec.schemeInfoByUri with
  | none => none
  | some info => if socketTransportSupported info.transport && env.transportOnline info.transport then some info else none

/-- The transport is another one: the connection is given up. -/
def changeTransport (transportInfo : Option Sec.SchemeInfo) (c : Connection) : Connection :=
  match transportInfo with
  | none => c
  | some info => if c.transport = info.transport then c else { c.cleanup with transport := info.transport }

/-- `_anjay_server_connections_refresh`. -/
def serverConnectionsRefresh (env : Env) (moveUri : Option AvsUrl) (c : Connection) : AvsError × Connection :=
  let transportInfo := moveUri.bind (usableTransport env)
  let c := { c.changeTransport transportInfo with state := .inProgress, queueModeCloseSocket := false }
  c.refreshConnection env transportInfo.isSome ⟨moveUri, transportInfo⟩

/-- Whether `_anjay_server_connections_refresh` suspends the connection or drops the CoAP context that was there. -/
def dropsExchange (env : Env) (moveUri : Option AvsUrl) (c : Connection) : Bool :=
  match moveUri.bind (usableTransport env) with
  | none => true
  | some info => decide (c.transport ≠ info.transport) || !(c.serverConnectionsRefresh env moveUri).2.coapCtx

/-- `_anjay_connection_bring_online`. There is a socket, and it is not online. -/
def bringOnline (env : Env) (c : Connection) : Connection :=
  if !env.transportOnline c.transport then c else (c.internalBringOnline env).2

end Connection

/-! ## 3. Requests -/

/-- The options of a request. -/
structure Options where
  contentFormat : Option Nat
  uriPath : List CString
  uriQuery : List CString
  deriving DecidableEq, Repr

/-- `key=value`. -/
def queryOption (key value : List UInt8) : CString := .ofBytes (key ++ 61 :: value)

/-- `_anjay_lwm2m_version_as_string`. -/
def lwm2mVersionAsString : Reg.Lwm2mVersion → List UInt8
  | .v1_0 => [49, 46, 48]

/-- `AVS_INT64_AS_STRING`. -/
def int64AsString (n : Int) : List UInt8 := (toString n).toList.map fun c => UInt8.ofNat c.toNat

/-- `_anjay_coap_add_query_options`: "lwm2m", "ep", "lt", "b" and "sms". -/
def coapAddQueryOptions (version : Option Reg.Lwm2mVersion) (endpointName : Option CString) (lifetime : Option Int)
    (bindingMode smsMsisdn : Option CString) : List CString :=
  (version.map fun v => queryOption [108, 119, 109, 50, 109] (lwm2mVersionAsString v)).toList ++
    (endpointName.map fun s => queryOption [101, 112] s.bytes).toList ++
    (lifetime.map fun n => queryOption [108, 116] (int64AsString n)).toList ++
    (bindingMode.map fun s => queryOption [98] s.bytes).toList ++
    (smsMsisdn.map fun s => queryOption [115, 109, 115] s.bytes).toList

/-- What a request is for. -/
inductive Purpose
  | register (version : Reg.Lwm2mVersion) (params : Reg.UpdateParameters)
  | requestBootstrap

/-- The last segment of the path: "rd", "bs". -/
def Purpose.segment : Purpose → CString
  | register _ _ => .ofBytes [114, 100]
  | requestBootstrap => .ofBytes [98, 115]

/-- What the query says of the client. -/
def Purpose.queryOptions (endpointName : CString) : Purpose → List CString
  | register version params =>
      coapAddQueryOptions (some version) (some endpointName) (some params.lifetimeS)
        (if params.bindingMode = Reg.bindingModeUdp then none else some params.bindingMode) none
  | requestBootstrap => coapAddQueryOptions none (some endpointName) none none none

/-- `setup_register_request_options`, with `AVS_COAP_FORMAT_LINK_FORMAT`. -/
def setupRegisterRequestOptions (version : Reg.Lwm2mVersion) (endpointName : CString) (uri : Url)
    (params : Reg.UpdateParameters) : Options :=
  ⟨some 40, uri.uriPath ++ [(Purpose.register version params).segment],
    uri.uriQuery ++ (Purpose.register version params).queryOptions endpointName⟩

/-- The options of `send_request_bootstrap`. -/
def requestBootstrapOptions (endpointName : CString) (uri : Url) : Options :=
  ⟨none, uri.uriPath ++ [Purpose.requestBootstrap.segment],
    uri.uriQuery ++ Purpose.requestBootstrap.queryOptions endpointName⟩

def Purpose.options (endpointName : CString) (uri : Url) : Purpose → Options
  | register version params => setupRegisterRequestOptions version endpointName uri params
  | requestBootstrap => requestBootstrapOptions endpointName uri

/-- A request that was sent, through a socket that was created for `serverUri`. -/
structure Request where
  purpose : Purpose
  serverUri : AvsUrl
  options : Options

/-! ## 4. What a refresh does to the socket and to the kept URI -/

namespace Connection

/-- The refresh finds a socket, and the transport stays. -/
def keepsSocket (env : Env) (moveUri : Option AvsUrl) (c : Connection) : Bool :=
  c.socket.isSome &&
    (match moveUri.bind (usableTransport env) with
      | none => true
      | some info => decide (c.transport = info.transport))

/-- The socket is the same, though it can be online or not. -/
structure Same (c c' : Connection) : Prop where
  uri : c'.uri = c.uri
  socket : c'.socket = none ∧ c.socket = none ∨
    ∃ s s', c.socket = some s ∧ c'.socket = some s' ∧ s'.uri = s.uri ∧ s'.refreshed = s.refreshed

theorem same_map {c c' : Connection} (huri : c'.uri = c.uri) (f : Socket → Bool)
    (hsocket : c'.socket = c.socket.map fun socket => { socket with online := f socket }) : c.Same c' := by
  refine ⟨huri, ?_⟩
  rw [hsocket]
  cases c.socket with
  | none => exact .inl ⟨rfl, rfl⟩
  | some socket => exact .inr ⟨_, _, rfl, rfl, rfl, rfl⟩

theorem closeSocket_same (c : Connection) : c.Same c.closeSocket := same_map rfl (fun _ => false) rfl

theorem same_of_eq {c c' : Connection} (huri : c'.uri = c.uri) (hsocket : c'.socket = c.socket) : c.Same c' := by
  refine ⟨huri, ?_⟩
  rw [hsocket]
  cases c.socket with
  | none => exact .inl ⟨rfl, rfl⟩
  | some socket => exact .inr ⟨_, _, rfl, rfl, rfl, rfl⟩

theorem Same.trans {c c' c'' : Connection} (h : c.Same c') (h' : c'.Same c'') : c.Same c'' := by
  refine ⟨h'.uri.trans h.uri, ?_⟩
  rcases h.socket with ⟨h1, h2⟩ | ⟨s, s', hold, hmid, huri, hrefreshed⟩
  · rcases h'.socket with ⟨h3, -⟩ | ⟨s, s', hmid, -⟩
    · exact .inl ⟨h3, h2⟩
    · rw [h1] at hmid
      cases hmid
  · rcases h'.socket with ⟨-, h3⟩ | ⟨t, t', hmid', hnew, huri', hrefreshed'⟩
    · rw [hmid] at h3
      cases h3
    · obtain rfl := Option.some.inj (hmid.symm.trans hmid')
      exact .inr ⟨s, t', hold, hnew, huri'.trans huri, hrefreshed'.trans hrefreshed⟩

theorem internalBringOnline_same (env : Env) (c : Connection) : c.Same (c.internalBringOnline env).2 := by
  unfold internalBringOnline
  split
  · exact same_of_eq rfl rfl
  · split
    · exact same_map rfl (fun _ => false) rfl
    · split
      · exact same_map rfl (fun _ => false) rfl
      · exact same_map rfl (fun _ => true) rfl

theorem bringOnline_same (env : Env) (c : Connection) : c.Same (c.bringOnline env) := by
  unfold bringOnline
  split
  · exact same_of_eq rfl rfl
  · exact c.internalBringOnline_same env

/-- No socket, or one that was created just now. -/
def Fresh (c : Connection) : Prop :=
  ∀ socket, c.socket = some socket → socket.refreshed = false ∧ c.uri = socket.uri.parsed

theorem fresh_none {c : Connection} (h : c.socket = none) : c.Fresh := by
  intro socket hs
  rw [h] at hs
  cases hs

theorem Fresh.same {c c' : Connection} (h : c.Fresh) (hs : c.Same c') : c'.Fresh := by
  intro socket hsocket
  rcases hs.socket with ⟨hnone, -⟩ | ⟨s, s', hold, hnew, huri, hrefreshed⟩
  · rw [hnone] at hsocket
    cases hsocket
  · obtain rfl := Option.some.inj (hnew.symm.trans hsocket)
    have hf := h s hold
    rw [hrefreshed, huri, hs.uri]
    exact hf

theorem prepareConnection_fresh (env : Env) (info : ConnectionInfo) {c : Connection} (h : c.socket = none) :
    (c.prepareConnection env info).2.Fresh := by
  unfold prepareConnection
  split
  next uri transportInfo _ _ =>
    dsimp only
    split
    next => exact fresh_none h
    next hurl =>
      have hparsed : (urlFromAvsUrl env.memory uri c.uri).2 = uri.parsed := by
        refine urlFromAvsUrl_parsed ?_
        cases hok : (urlFromAvsUrl env.memory uri c.uri).1 with
        | true => rfl
        | false => rw [hok] at hurl; exact absurd rfl hurl
      have hcreated : Fresh { c with
          uri := (urlFromAvsUrl env.memory uri c.uri).2, stateful := decide (socketType transportInfo ≠ .udp)
          socket := some ⟨socketType transportInfo, false, uri, false⟩ } := by
        intro socket hs
        obtain rfl := Option.some.inj hs
        exact ⟨rfl, hparsed⟩
      split
      next => exact fresh_none h
      next =>
        split
        next =>
          split
          · exact fresh_none h
          · exact hcreated
        next => exact hcreated
  next => exact fresh_none h

theorem ensureSocketConnected_fresh (env : Env) (info : ConnectionInfo) {c : Connection} (h : c.socket = none) :
    (c.ensureSocketConnected env info).2.Fresh := by
  have hrecreated : (c.recreateSocket env info).2.Fresh := by
    unfold recreateSocket
    split
    · exact fresh_none h
    · exact prepareConnection_fresh env info h
  unfold ensureSocketConnected
  rw [if_pos (by rw [h]; rfl)]
  dsimp only
  split
  · exact hrecreated.same (same_of_eq rfl rfl)
  · exact hrecreated.same (internalBringOnline_same env _)

theorem clearUri_none {c : Connection} (h : c.socket = none) : c.clearUri.socket = none := by
  unfold clearUri
  dsimp only
  rw [h]
  rfl

/-- A refresh of a connection without a socket. -/
theorem refreshConnection_fresh (env : Env) (enabled : Bool) (info : ConnectionInfo) {c : Connection}
    (h : c.socket = none) : (c.refreshConnection env enabled info).2.Fresh := by
  unfold refreshConnection
  dsimp only
  split
  · exact ((fresh_none (clearUri_none h)).same (closeSocket_same _)).same (same_of_eq rfl rfl)
  · exact ensureSocketConnected_fresh env info (clearUri_none h)

/-- A refresh of a connection with a socket leaves the socket, and no segments. -/
theorem refreshConnection_kept (env : Env) (enabled : Bool) (info : ConnectionInfo) {c : Connection}
    (h : c.socket.isSome = true) : c.clearUri.Same (c.refreshConnection env enabled info).2 := by
  unfold refreshConnection
  dsimp only
  split
  · exact same_map rfl (fun _ => false) rfl
  · unfold ensureSocketConnected
    have hsome : c.clearUri.socket.isNone = false := by
      unfold clearUri
      rw [Option.isNone_map, ← Option.not_isSome, h]
      rfl
    rw [if_neg (ne_true_of_eq_false hsome)]
    exact internalBringOnline_same env c.clearUri

theorem changeTransport_kept {env : Env} {moveUri : Option AvsUrl} {c : Connection}
    (h : c.keepsSocket env moveUri = true) : c.changeTransport (moveUri.bind (usableTransport env)) = c := by
  unfold keepsSocket at h
  unfold changeTransport
  cases hinfo : moveUri.bind (usableTransport env) with
  | none => rfl
  | some info =>
      rw [hinfo] at h
      exact if_pos (of_decide_eq_true (Bool.and_eq_true_iff.mp h).2)

theorem changeTransport_socket {env : Env} {moveUri : Option AvsUrl} {c : Connection}
    (h : c.keepsSocket env moveUri = false) :
    (c.changeTransport (moveUri.bind (usableTransport env))).socket = none := by
  unfold keepsSocket at h
  unfold changeTransport
  cases hinfo : moveUri.bind (usableTransport env) with
  | none =>
      rw [hinfo, Bool.and_true] at h
      exact Option.not_isSome_iff_eq_none.mp (ne_true_of_eq_false h)
  | some info =>
      rw [hinfo] at h
      dsimp only at h ⊢
      split
      next htransport =>
        rw [decide_eq_true htransport, Bool.and_true] at h
        exact Option.not_isSome_iff_eq_none.mp (ne_true_of_eq_false h)
      next => rfl

/-- What a refresh leaves: no socket or a new one, or the socket that was there and no segments. -/
theorem serverConnectionsRefresh_cases (env : Env) (moveUri : Option AvsUrl) (c : Connection) :
    (c.serverConnectionsRefresh env moveUri).2.Fresh ∨
      c.keepsSocket env moveUri = true ∧ c.clearUri.Same (c.serverConnectionsRefresh env moveUri).2 := by
  unfold serverConnectionsRefresh
  dsimp only
  cases hkeeps : c.keepsSocket env moveUri with
  | true =>
      rw [changeTransport_kept hkeeps]
      have hcleared : c.clearUri.Same
          (clearUri { c with state := .inProgress, queueModeCloseSocket := false }) := same_of_eq rfl rfl
      exact .inr ⟨rfl, hcleared.trans (refreshConnection_kept _ _ _ (Bool.and_eq_true_iff.mp hkeeps).1)⟩
  | false => exact .inl (refreshConnection_fresh _ _ _ (changeTransport_socket hkeeps))

/-! ## 5. The kept URI -/

/-- The kept URI is that of the socket, or, if a refresh came upon the socket, that URI without its segments. -/
def Consistent (c : Connection) : Prop :=
  ∀ socket, c.socket = some socket →
    c.uri = if socket.refreshed then socket.uri.parsed.cleanup else socket.uri.parsed

theorem consistent_none {c : Connection} (h : c.socket = none) : c.Consistent := by
  intro socket hs
  rw [h] at hs
  cases hs

theorem Consistent.same {c c' : Connection} (h : c.Consistent) (hs : c.Same c') : c'.Consistent := by
  intro socket hsocket
  rcases hs.socket with ⟨hnone, -⟩ | ⟨s, s', hold, hnew, huri, hrefreshed⟩
  · rw [hnone] at hsocket
    cases hsocket
  · obtain rfl := Option.some.inj (hnew.symm.trans hsocket)
    rw [hrefreshed, huri, hs.uri]
    exact h s hold

theorem Fresh.consistent {c : Connection} (h : c.Fresh) : c.Consistent := by
  intro socket hsocket
  obtain ⟨hrefreshed, huri⟩ := h socket hsocket
  rw [hrefreshed]
  exact huri

theorem Consistent.clearUri {c : Connection} (h : c.Consistent) : c.clearUri.Consistent := by
  intro socket hsocket
  obtain ⟨s, hs, rfl⟩ := Option.map_eq_some_iff.mp hsocket
  show c.uri.cleanup = s.uri.parsed.cleanup
  rw [h s hs]
  split <;> rfl

theorem Consistent.serverConnectionsRefresh {c : Connection} (h : c.Consistent) (env : Env) (moveUri : Option AvsUrl) :
    (c.serverConnectionsRefresh env moveUri).2.Consistent := by
  rcases serverConnectionsRefresh_cases env moveUri c with hfresh | ⟨-, hsame⟩
  · exact hfresh.consistent
  · exact h.clearUri.same hsame

theorem Consistent.uri_eq_iff {c : Connection} (h : c.Consistent) {socket : Socket} (hs : c.socket = some socket) :
    c.uri = socket.uri.parsed ↔
      socket.refreshed = false ∨ socket.uri.parsed.uriPath = [] ∧ socket.uri.parsed.uriQuery = [] := by
  have huri := h socket hs
  cases hrefreshed : socket.refreshed with
  | false =>
      rw [hrefreshed] at huri
      exact ⟨fun _ => .inl rfl, fun _ => huri⟩
  | true =>
      rw [hrefreshed] at huri
      rw [huri]
      constructor
      · intro heq
        exact .inr ⟨(congrArg Url.uriPath heq).symm, (congrArg Url.uriQuery heq).symm⟩
      · rintro (hno | ⟨hpath, hquery⟩)
        · cases hno
        · exact Url.cleanup_eq hpath hquery

/-- The kept URI is that of the socket. -/
def Described (c : Connection) : Prop := ∀ socket, c.socket = some socket → c.uri = socket.uri.parsed

theorem described_none {c : Connection} (h : c.socket = none) : c.Described := by
  intro socket hs
  rw [h] at hs
  cases hs

theorem Described.same {c c' : Connection} (h : c.Described) (hs : c.Same c') : c'.Described := by
  intro socket hsocket
  rcases hs.socket with ⟨hnone, -⟩ | ⟨s, s', hold, hnew, huri, -⟩
  · rw [hnone] at hsocket
    cases hsocket
  · obtain rfl := Option.some.inj (hnew.symm.trans hsocket)
    rw [huri, hs.uri]
    exact h s hold

theorem Described.serverConnectionsRefresh {c : Connection} (h : c.Described) {env : Env} {moveUri : Option AvsUrl}
    (hkeeps : c.keepsSocket env moveUri = true → ∀ socket, c.socket = some socket →
      socket.uri.parsed.uriPath = [] ∧ socket.uri.parsed.uriQuery = []) :
    (c.serverConnectionsRefresh env moveUri).2.Described := by
  rcases serverConnectionsRefresh_cases env moveUri c with hfresh | ⟨hkept, hsame⟩
  · exact fun socket hs => (hfresh socket hs).2
  · refine same (c := c.clearUri) ?_ hsame
    intro socket hs
    obtain ⟨s, hold, rfl⟩ := Option.map_eq_some_iff.mp hs
    obtain ⟨hpath, hquery⟩ := hkeeps hkept s hold
    show c.uri.cleanup = s.uri.parsed
    rw [h s hold]
    exact Url.cleanup_eq hpath hquery

end Connection

/-! ## 6. Runs -/

/-- What a request has to carry: the segments of the URI of its socket, and those of its own after them. -/
def Request.Described (endpointName : CString) (r : Request) : Prop :=
  r.options.uriPath = r.serverUri.parsed.uriPath ++ [r.purpose.segment] ∧
    r.options.uriQuery = r.serverUri.parsed.uriQuery ++ r.purpose.queryOptions endpointName

/-- The connection of a server, and the requests that were sent over it. -/
structure RunState where
  endpointName : CString
  connection : Connection
  sent : List Request

def RunState.init (endpointName : CString) : RunState := ⟨endpointName, .unused, []⟩

inductive Event
  /-- `_anjay_active_server_refresh`, where the configuration of the server can be read. -/
  | refresh (env : Env) (moveUri : Option AvsUrl)
  | bringOnline (env : Env)
  /-- Queue mode, a reconnection, the beginning of a bootstrap. -/
  | suspend
  /-- The socket loses its connection. -/
  | loseConnection
  /-- `_anjay_server_on_fatal_coap_error`. -/
  | cleanSocket
  /-- `_anjay_connections_close`. -/
  | close
  | send (purpose : Purpose)

namespace RunState

/-- `send_register`, `send_request_bootstrap`: only where the socket is online. -/
def send (r : RunState) (purpose : Purpose) : RunState :=
  match r.connection.socket with
  | none => r
  | some socket =>
      if socket.online then
        { r with sent := ⟨purpose, socket.uri, purpose.options r.endpointName r.connection.uri⟩ :: r.sent }
      else r

def withConnection (r : RunState) (c : Connection) : RunState := { r with connection := c }

end RunState

def perform : Event → RunState → RunState
  | .refresh env moveUri, r => r.withConnection (r.connection.serverConnectionsRefresh env moveUri).2
  | .bringOnline env, r => r.withConnection (r.connection.bringOnline env)
  | .suspend, r => r.withConnection r.connection.suspend
  | .loseConnection, r => r.withConnection r.connection.closeSocket
  | .cleanSocket, r => r.withConnection r.connection.internalCleanSocket
  | .close, r => r.withConnection r.connection.cleanup
  | .send purpose, r => r.send purpose

/-- The states of the runs whose events meet the condition `C`. -/
inductive ReachableWith (C : Event → RunState → Prop) : RunState → Prop
  | init (endpointName : CString) : ReachableWith C (.init endpointName)
  | step {r : RunState} (event : Event) (h : ReachableWith C r) (hc : C event r) : ReachableWith C (perform event r)

/-- A refresh that keeps the socket finds one whose URI has no segments. -/
def Event.KeepsSegments : Event → RunState → Prop
  | .refresh env moveUri, r => r.connection.keepsSocket env moveUri = true → ∀ socket, r.connection.socket = some socket →
      socket.uri.parsed.uriPath = [] ∧ socket.uri.parsed.uriQuery = []
  | _, _ => True

theorem consistent_step {r : RunState} (h : r.connection.Consistent) (event : Event) :
    (perform event r).connection.Consistent := by
  cases event with
  | refresh env moveUri => exact h.serverConnectionsRefresh env moveUri
  | bringOnline env => exact h.same (Connection.bringOnline_same env _)
  | suspend => exact h.same (Connection.closeSocket_same _)
  | loseConnection => exact h.same (Connection.closeSocket_same _)
  | cleanSocket => exact Connection.consistent_none rfl
  | close => exact Connection.consistent_none rfl
  | send purpose =>
      show (r.send purpose).connection.Consistent
      unfold RunState.send
      split
      · exact h
      · split
        · exact h
        · exact h

/-- **The kept URI is that of the socket**, without its segments once a refresh came upon the socket. -/
theorem reachable_consistent {C : Event → RunState → Prop} {r : RunState} (h : ReachableWith C r) :
    r.connection.Consistent := by
  induction h with
  | init endpointName => exact Connection.consistent_none rfl
  | step event _ _ ih => exact consistent_step ih event

/-- **When the kept URI is that of the socket.** -/
theorem reachable_uri_iff {C : Event → RunState → Prop} {r : RunState} (h : ReachableWith C r) {socket : Socket}
    (hs : r.connection.socket = some socket) :
    r.connection.uri = socket.uri.parsed ↔
      socket.refreshed = false ∨ socket.uri.parsed.uriPath = [] ∧ socket.uri.parsed.uriQuery = [] :=
  (reachable_consistent h).uri_eq_iff hs

/-- The connection is described, and all requests that were sent are. -/
def RunState.Described (r : RunState) : Prop :=
  r.connection.Described ∧ ∀ request ∈ r.sent, request.Described r.endpointName

theorem described_options (endpointName : CString) (uri : AvsUrl) (purpose : Purpose) :
    (Request.mk purpose uri (purpose.options endpointName uri.parsed)).Described endpointName := by
  cases purpose with
  | register version params => exact ⟨rfl, rfl⟩
  | requestBootstrap => exact ⟨rfl, rfl⟩

theorem described_send {r : RunState} (h : r.Described) (purpose : Purpose) : (r.send purpose).Described := by
  unfold RunState.send
  split
  next => exact h
  next socket hs =>
    split
    next =>
      refine ⟨h.1, fun request hmem => ?_⟩
      rcases List.mem_cons.mp hmem with rfl | hmem
      · rw [h.1 socket hs]
        exact described_options r.endpointName socket.uri purpose
      · exact h.2 request hmem
    next => exact h

theorem described_step {r : RunState} {event : Event} (h : r.Described) (hc : event.KeepsSegments r) :
    (perform event r).Described := by
  cases event with
  | refresh env moveUri => exact ⟨h.1.serverConnectionsRefresh hc, h.2⟩
  | bringOnline env => exact ⟨h.1.same (Connection.bringOnline_same env _), h.2⟩
  | suspend => exact ⟨h.1.same (Connection.closeSocket_same _), h.2⟩
  | loseConnection => exact ⟨h.1.same (Connection.closeSocket_same _), h.2⟩
  | cleanSocket => exact ⟨Connection.described_none rfl, h.2⟩
  | close => exact ⟨Connection.described_none rfl, h.2⟩
  | send purpose => exact described_send h purpose

/-- **The requests carry the segments of the Server URI**, and the connection keeps them, in the runs in which no
    refresh keeps a socket whose URI has segments. -/
theorem reachable_described {r : RunState} (h : ReachableWith Event.KeepsSegments r) :
    (∀ socket, r.connection.socket = some socket → socket.online = true → r.connection.uri = socket.uri.parsed) ∧
      ∀ request ∈ r.sent, request.Described r.endpointName := by
  have hall : r.Described := by
    induction h with
    | init endpointName => exact ⟨Connection.described_none rfl, fun request hmem => nomatch hmem⟩
    | step event _ hc ih => exact described_step ih hc
  exact ⟨fun socket hs _ => hall.1 socket hs, hall.2⟩

/-! ## 7. A run in which a request loses the segments -/

/-- "coap://h/p". -/
def uriWithPath : AvsUrl :=
  ⟨some (.ofBytes [99, 111, 97, 112]), none, none, some (.ofBytes [104]), none, some (.ofBytes [47, 112])⟩

/-- Everything succeeds. -/
def plainEnv : Env := ⟨fun _ => true, .zero, .ok, true, true, none, true, .ok, false⟩

def connected : RunState := perform (.refresh plainEnv (some uriWithPath)) (.init (.ofBytes [101]))

def refreshedTwice : RunState := perform (.refresh plainEnv (some uriWithPath)) connected

theorem parsed_uriWithPath : uriWithPath.parsed.uriPath = [.ofBytes [112]] := by decide +kernel

theorem refreshedTwice_uri : refreshedTwice.connection.uri.uriPath = [] ∧
    refreshedTwice.connection.socket = some ⟨.udp, true, uriWithPath, true⟩ := by decide +kernel

/-- A request that is sent after a refresh that changes nothing does not have the path. -/
theorem described_not_always :
    ∃ r : RunState, ReachableWith (fun _ _ => True) r ∧
      (∃ socket, r.connection.socket = some socket ∧ socket.online = true ∧ r.connection.uri ≠ socket.uri.parsed) ∧
      ∃ request ∈ r.sent, ¬request.Described r.endpointName := by
  obtain ⟨huri, hsocket⟩ := refreshedTwice_uri
  have hreach : ReachableWith (fun _ _ => True) refreshedTwice :=
    .step _ (.step _ (.init _) trivial) trivial
  have hsent : (refreshedTwice.send .requestBootstrap).sent =
      [⟨.requestBootstrap, uriWithPath, requestBootstrapOptions (.ofBytes [101]) refreshedTwice.connection.uri⟩] := by
    unfold RunState.send
    rw [hsocket]
    rfl
  have hconnection : (refreshedTwice.send .requestBootstrap).connection = refreshedTwice.connection := by
    unfold RunState.send
    rw [hsocket]
    rfl
  let request : Request :=
    ⟨.requestBootstrap, uriWithPath, requestBootstrapOptions (.ofBytes [101]) refreshedTwice.connection.uri⟩
  refine ⟨perform (.send .requestBootstrap) refreshedTwice, .step _ hreach trivial, ?_, request, ?_, ?_⟩
  · refine ⟨_, (congrArg Connection.socket hconnection).trans hsocket, rfl, ?_⟩
    intro heq
    have hpath := congrArg Url.uriPath heq
    rw [parsed_uriWithPath] at hpath
    have hempty : (perform (.send .requestBootstrap) refreshedTwice).connection.uri.uriPath = [] :=
      (congrArg (fun c => Url.uriPath (Connection.uri c)) hconnection).trans huri
    rw [hempty] at hpath
    cases hpath
  · exact hsent ▸ List.mem_singleton.mpr rfl
  · rintro ⟨hpath, -⟩
    change refreshedTwice.connection.uri.uriPath ++ [Purpose.requestBootstrap.segment] = _ at hpath
    rw [huri] at hpath
    change [Purpose.requestBootstrap.segment] =
      uriWithPath.parsed.uriPath ++ [Purpose.requestBootstrap.segment] at hpath
    rw [parsed_uriWithPath] at hpath
    exact absurd (congrArg List.length hpath) (by decide)

/-- "coap://h". -/
def uriWithoutPath : AvsUrl := { uriWithPath with path := none }

theorem parsed_uriWithoutPath : uriWithoutPath.parsed.uriPath = [] ∧ uriWithoutPath.parsed.uriQuery = [] := by
  decide +kernel

/-- The same refreshes, with a URI that has no segments, and a request between them. -/
def refreshedPlain : RunState :=
  let first := perform (.refresh plainEnv (some uriWithoutPath)) (.init (.ofBytes [101]))
  perform (.refresh plainEnv (some uriWithoutPath)) (perform (.send .requestBootstrap) first)

theorem reachable_described_refreshed :
    (∀ socket, (refreshedPlain.send .requestBootstrap).connection.socket = some socket → socket.online = true →
        (refreshedPlain.send .requestBootstrap).connection.uri = socket.uri.parsed) ∧
      ∀ request ∈ (refreshedPlain.send .requestBootstrap).sent,
        request.Described (refreshedPlain.send .requestBootstrap).endpointName := by
  have hfirst : ReachableWith Event.KeepsSegments _ :=
    .step (.refresh plainEnv (some uriWithoutPath)) (.init (.ofBytes [101])) fun _ _ hs => nomatch hs
  have hsent := hfirst.step (.send .requestBootstrap) trivial
  have hsecond : ReachableWith Event.KeepsSegments refreshedPlain := by
    refine hsent.step (.refresh plainEnv (some uriWithoutPath)) fun _ socket hs => ?_
    have hsocket : some socket = some ⟨.udp, true, uriWithoutPath, false⟩ := hs.symm.trans (by decide +kernel)
    rw [Option.some.inj hsocket]
    exact parsed_uriWithoutPath
  exact reachable_described (hsecond.step (.send .requestBootstrap) trivial)

end Anjay.Servers
