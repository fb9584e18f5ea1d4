import Mathlib.Data.List.Induction
import Upst.HttpApart

/-!
Two connections of `A_TCP` in `A_HTTP`. `A_TCP` tells connections apart by the addresses and ports
of client and server, `A_HTTP` by those of the client only.
-/

namespace Upst.Http

set_option autoImplicit false

section Tables

variable {Key Value : Type} [DecidableEq Key] {table other : AList fun _ : Key => Value}

end Tables

/-- What `A_TCP` makes its key of. -/
structure Conn where
  uiCliIP : Nat
  usCliPort : Nat
  uiSrvIP : Nat
  usSrvPort : Nat
  deriving DecidableEq, Repr

def TcpInfo.conn (info : TcpInfo) : Conn where
  uiCliIP := info.uiCliIP
  usCliPort := info.usCliPort
  uiSrvIP := info.uiSrvIP
  usSrvPort := info.usSrvPort

def LogHttp.conn (log : LogHttp) : Conn where
  uiCliIP := log.uiClientIP
  usCliPort := log.usClientPort
  uiSrvIP := log.uiServerIP
  usSrvPort := log.usServerPort

/-- The key `A_HTTP` makes of a connection. -/
def Conn.client (conn : Conn) : TSessKey where
  uiCliIP := conn.uiCliIP
  usCliPort := conn.usCliPort
  usReserved := 0

instance (log : LogHttp) (client : TSessKey) : Decidable (log.ofClient client) :=
  inferInstanceAs (Decidable (_ ∧ _))

def Event.isLogOf (conn : Conn) (event : Event) : Bool :=
  event.logged.elim false fun log => log.conn = conn

/-- The logs of a connection that are handed over. -/
def logsOf (conn : Conn) (world : World) : List Event := world.events.filter (Event.isLogOf conn)

def Event.isLogFor (client : TSessKey) (event : Event) : Bool :=
  event.logged.elim false fun log => log.ofClient client

def clientLogs (client : TSessKey) (world : World) : List Event :=
  world.events.filter (Event.isLogFor client)

/-- Every log in the table is the log of the client whose key it is under. -/
def LogsOwn (world : World) : Prop :=
  ∀ key found, world.http.lookup key = some found →
    found.log.uiClientIP = key.uiCliIP ∧ found.log.usClientPort = key.usCliPort

theorem LogsOwn.ofClient {world : World} (own : LogsOwn world) {client : TSessKey}
    {key : TransKey} (ofClient : key.ofClient client) {found : Trans}
    (lookup : world.http.lookup key = some found) : found.log.ofClient client := by
  obtain ⟨ip, port⟩ := own key found lookup
  exact ⟨ip.trans ofClient.1, port.trans ofClient.2⟩

theorem LogsOwn.insert {world : World} (own : LogsOwn world) {client : TSessKey} {key : TransKey}
    (ofClient : key.ofClient client) {trans : Trans} (ownLog : trans.log.ofClient client) :
    LogsOwn { world with http := world.http.insert key trans } := by
  intro other found lookup
  dsimp only at lookup
  by_cases same : other = key
  · subst same
    rw [AList.lookup_insert] at lookup
    cases lookup
    exact ⟨ownLog.1.trans ofClient.1.symm, ownLog.2.trans ofClient.2.symm⟩
  · rw [AList.lookup_insert_ne same] at lookup
    exact own other found lookup

theorem LogsOwn.erase {world : World} (own : LogsOwn world) (key : TransKey) :
    LogsOwn { world with http := world.http.erase key } := by
  intro other found lookup
  dsimp only at lookup
  by_cases same : other = key
  · subst same
    rw [AList.lookup_erase] at lookup
    cases lookup
  · rw [AList.lookup_erase_ne same] at lookup
    exact own other found lookup

/-- Two worlds that look the same to a client. -/
structure Agree (client : TSessKey) (world other : World) : Prop where
  own : LogsOwn world
  own' : LogsOwn other
  calls : world.calls client = other.calls client
  sess : world.tcp.lookup client = other.tcp.lookup client
  trans : ∀ key : TransKey, key.ofClient client →
    world.http.lookup key = other.http.lookup key
  logs : clientLogs client world = clientLogs client other

theorem Agree.refl {client : TSessKey} {world : World} (own : LogsOwn world) :
    Agree client world world :=
  ⟨own, own, rfl, rfl, fun _ _ => rfl, rfl⟩

theorem Agree.symm {client : TSessKey} {world other : World} (agree : Agree client world other) :
    Agree client other world :=
  ⟨agree.own', agree.own, agree.calls.symm, agree.sess.symm,
    fun key ofClient => (agree.trans key ofClient).symm, agree.logs.symm⟩

/-- Another address is another client, also for the keys of the transactions. -/
def Elsewhere (client other : TSessKey) : Prop :=
  ¬ (client.uiCliIP = other.uiCliIP ∧ client.usCliPort = other.usCliPort)

theorem Elsewhere.key {client other : TSessKey} (elsewhere : Elsewhere client other)
    {key key' : TransKey} (ofClient : key.ofClient client) (ofOther : key'.ofClient other) :
    key' ≠ key := by
  intro same
  subst same
  exact elsewhere ⟨ofClient.1.symm.trans ofOther.1, ofClient.2.symm.trans ofOther.2⟩

theorem Elsewhere.ne {client other : TSessKey} (elsewhere : Elsewhere client other) :
    other ≠ client := by
  intro same
  subst same
  exact elsewhere ⟨rfl, rfl⟩

theorem Elsewhere.log {client other : TSessKey} (elsewhere : Elsewhere client other)
    {event : Event} {log : LogHttp} (logged : event.logged = some log)
    (own : log.ofClient client) : event.isLogFor other = false := by
  rw [Event.isLogFor, logged]
  apply decide_eq_false
  intro ofOther
  exact elsewhere ⟨own.1.symm.trans ofOther.1, own.2.symm.trans ofOther.2⟩

/-- The world in which a node that was read is processed. -/
def World.began (world : World) : World :=
  { world.emit (.read (.read world.reads)) with reads := world.reads + 1 }

/-- The nodes of one connection. -/
def only (conn : Conn) (infos : List TcpInfo) : List (Option TcpInfo) :=
  (infos.filter fun info => info.conn = conn).map some

theorem run_cons {env : Env} {world final : World} {input : Option TcpInfo}
    {rest : List (Option TcpInfo)} (ran : run env world (input :: rest) = some final) :
    ∃ after, step env world input = some after ∧ run env after rest = some final := by
  rw [run, List.foldlM_cons] at ran
  exact Option.bind_eq_some_iff.mp ran

/-- `"GET / HTTP/1.1\r\n"` -/
def getLine : List UInt8 :=
  [0x47, 0x45, 0x54, 0x20, 0x2F, 0x20, 0x48, 0x54, 0x54, 0x50, 0x2F, 0x31, 0x2E, 0x31, 0x0D, 0x0A]

def bareInfo (conn : Conn) (flag : TcpFlag) (payload : List UInt8) : TcpInfo where
  cTcpFlag := flag
  uiCliIP := conn.uiCliIP
  usCliPort := conn.usCliPort
  uiSrvIP := conn.uiSrvIP
  usSrvPort := conn.usSrvPort
  ucRtx := 1
  uiSeqNum := 1
  uiAckNum := 1
  capTime := ⟨1, 0⟩
  ackTime := ⟨1, 0⟩
  usL4FailCode := 0
  usAppCode := SEQ_PROC_A_CALL
  usL4Code := 0
  usL7Code := 0
  ucTcpClientStatus := 0
  ucTcpServerStatus := 0
  counts := .zero
  payload := payload

/-- A session for the connection without a transaction, and its messages. -/
structure Opened (conn : Conn) (status : Status) (sess : TSess) : Prop where
  ip : sess.uiSrvIP = conn.uiSrvIP
  port : sess.usSrvPort = conn.usSrvPort
  rtx : sess.ucSynRtx = 1
  cur : sess.usCurTransCnt = 0
  first : sess.usFirstTransID = 0
  next : sess.usNextTransID = 1
  hdr : ∃ chain, sess.req.hdr = some chain
  body : ∃ chain, sess.req.body = some chain
  reqStatus : sess.req.ucStatus = status
  resStatus : sess.res.ucStatus = .hdrWait

/-- The session found for the client is one for the connection. -/
structure Serving (conn : Conn) (status : Status) (world : World) : Prop where
  sess : ∃ sess, world.tcp.lookup conn.client = some sess ∧ Opened conn status sess ∧
    (status = .hdrWait → sess.req.ucEndStatus = .empty)
  free : ∀ key : TransKey, key.ofClient conn.client → world.http.lookup key = none

section Confusion

variable {env : Env} (granting : Granting env)

include granting

theorem replaceSess_serving {client : TSessKey} (sess : TSess) {world : World}
    (idle : ∀ old, world.tcp.lookup client = some old → Idle old) :
    ∃ after, replaceSess env client sess world = some (true, after) ∧
      after.tcp.lookup client = some sess ∧ after.http = world.http ∧
      after.handed = world.handed := by
  cases found : world.tcp.lookup client with
  | none =>
      rw [replaceSess, addSess_granted granting client sess found]
      exact ⟨_, rfl, AList.lookup_insert _, rfl, rfl⟩
  | some old =>
      have taken : addSess env client sess world = (false, world) := by
        rw [addSess, found]
      have quiet := quiet_deleteChains world old
      rw [replaceSess, taken]
      dsimp only
      rw [found]
      dsimp only
      rw [dCloseTcpSess_idle env client (idle old found)]
      dsimp only
      rw [addSess_granted granting client sess (AList.lookup_erase _ _)]
      exact ⟨_, rfl, AList.lookup_insert _, quiet.http, quiet.handed⟩

theorem start_serving (conn : Conn) {world : World}
    (idle : ∀ old, world.tcp.lookup conn.client = some old → Idle old)
    (free : ∀ key : TransKey, key.ofClient conn.client → world.http.lookup key = none) :
    ∃ after, step env world (some (bareInfo conn .start [])) = some after ∧
      Serving conn .hdrWait after ∧ after.handed = world.handed := by
  obtain ⟨reqHdr, reqBody, resHdr, resBody, middle, created, -, -, -, -, quiet⟩ :=
    pCreateTcpSess_granted granting conn.client (bareInfo conn .start [])
      { world.emit (.read (.read world.reads)) with reads := world.reads + 1 }
  have quietRead : Quiet world middle := (quiet_emit world rfl).trans_quiet
    ⟨quiet.tcp, quiet.http, quiet.count, quiet.handed⟩
  have idleNow : ∀ old, middle.tcp.lookup conn.client = some old → Idle old := by
    rw [quietRead.tcp]
    exact idle
  obtain ⟨opened, replaced, found, http, handed⟩ :=
    replaceSess_serving granting (newSess (bareInfo conn .start [])
      (newMsg (bareInfo conn .start []).uiSeqNum reqHdr reqBody)
      (newMsg (bareInfo conn .start []).uiAckNum resHdr resBody)) idleNow
  obtain ⟨after, sent, quietSent⟩ :=
    sendNode_granted granting conn.client .writeTcp (tcpDest env (bareInfo conn .start []))
      (.read world.reads) opened
  have proc : dProcHttpTrans env (bareInfo conn .start []) (.read world.reads)
      { world.emit (.read (.read world.reads)) with reads := world.reads + 1 } =
      some (0, after) := by
    have key : makeTcpHashKey (bareInfo conn .start []) = conn.client := rfl
    have flag : (bareInfo conn .start []).cTcpFlag = .start := rfl
    rw [dProcHttpTrans, flag, key]
    dsimp only
    rw [created, replaced]
    dsimp only
    rw [sent]
  have fresh : Opened conn .hdrWait (newSess (bareInfo conn .start [])
      (newMsg (bareInfo conn .start []).uiSeqNum reqHdr reqBody)
      (newMsg (bareInfo conn .start []).uiAckNum resHdr resBody)) :=
    ⟨rfl, rfl, rfl, rfl, rfl, rfl, ⟨reqHdr, rfl⟩, ⟨reqBody, rfl⟩, rfl, rfl⟩
  refine ⟨after, ?_, ⟨⟨_, quietSent.tcp ▸ found, fresh, fun _ => rfl⟩, ?_⟩, ?_⟩
  · rw [step]
    dsimp only
    rw [proc]
    rfl
  · intro key ofClient
    rw [quietSent.http, http, quietRead.http]
    exact free key ofClient
  · rw [quietSent.handed, handed, quietRead.handed]

end Confusion

section Confused

variable {env : Env} (granting : Granting env) {line : HeaderLine}
  (scans : env.parsers.httpheader getLine = some line) (request : line.method ≠ .response)

include granting scans request

end Confused

/-- What the scanner finds in the request line. -/
def getHeader : HeaderLine where
  method := .get
  url := [0x2F]
  urlType := some .nohostNoport
  resCode := 0

/-- A header in which only the `Host` field matters. -/
def hostInfo (host : List UInt8) : HdrInfo where
  host := host
  ctype := []
  clen := 0
  chunked := false
  zip := none
  pktCnt := 0

/-- Every call is granted, and the scanner of the header knows the one request line. -/
def plainEnv : Env where
  grants := fun _ _ _ => true
  writesVod := fun _ => true
  headRoom := 6000
  contRoom := 6000
  gACALLCnt := 1
  parsers :=
    { httpheader := fun bytes => if bytes = getLine then some getHeader else none
      httphdrinfo := fun start _ _ => (hostInfo [], start)
      httpctype := fun start _ => ({ ctype := 0, multi := none }, start)
      httphost := fun _ => []
      platformType := fun _ _ => 0 }

theorem plainEnv_granting : Granting plainEnv :=
  ⟨fun _ _ _ => rfl⟩

/-- `"GET / HTTP/1.1\r\nHost: \r\n\r\n"` -/
def blankHost : List UInt8 := getLine ++ [0x48, 0x6F, 0x73, 0x74, 0x3A, 0x20, 0x0D, 0x0A, 0x0D, 0x0A]

def isBlank (byte : UInt8) : Bool := byte = 0x20 ∨ byte = 0x0D ∨ byte = 0x0A

/-- The scanner takes the first word for the host where it was left in `HOST`, and a `Host` field
without a name leaves it there. -/
def hostEnv : Env :=
  { plainEnv with
    parsers := { plainEnv.parsers with
      httpheader := fun _ => some getHeader
      httphdrinfo := fun start bytes _ =>
        match start with
        | .host => (hostInfo ((bytes.dropWhile isBlank).takeWhile (!isBlank ·)), .initial)
        | _ => (hostInfo [], if bytes = blankHost.map toLower then .host else .initial) } }

/-- The first client's header has no host name, the second client's no `Host` field. -/
def leftNodes : List TcpInfo :=
  [bareInfo ⟨10, 1000, 20, 80⟩ .start [], bareInfo ⟨11, 1000, 20, 80⟩ .start [],
    bareInfo ⟨10, 1000, 20, 80⟩ .data blankHost,
    bareInfo ⟨11, 1000, 20, 80⟩ .data (getLine ++ [0x0D, 0x0A]),
    bareInfo ⟨11, 1000, 20, 80⟩ .finish []]

def hostsOf (conn : Conn) (world : World) : List (List UInt8) :=
  (logsOf conn world).filterMap fun event => event.logged.map LogHttp.szHostName

/-- So the logs of two clients are confused where the scanners do not go on as they do alone. -/
theorem left_start_confused : ∃ together alone, run hostEnv .start (leftNodes.map some) = some together ∧
    run hostEnv .start (only ⟨11, 1000, 20, 80⟩ leftNodes) = some alone ∧
      logsOf ⟨11, 1000, 20, 80⟩ together ≠ logsOf ⟨11, 1000, 20, 80⟩ alone := by
  have mixed : (run hostEnv .start (leftNodes.map some)).map (hostsOf ⟨11, 1000, 20, 80⟩) =
      some [[0x67, 0x65, 0x74]] := by
    decide +kernel
  have single : (run hostEnv .start (only ⟨11, 1000, 20, 80⟩ leftNodes)).map
      (hostsOf ⟨11, 1000, 20, 80⟩) = some [dotted 20] := by
    decide +kernel
  obtain ⟨together, ran, hosts⟩ := Option.map_eq_some_iff.mp mixed
  obtain ⟨alone, ran', hosts'⟩ := Option.map_eq_some_iff.mp single
  refine ⟨together, alone, ran, ran', fun same => ?_⟩
  rw [hostsOf, same] at hosts
  exact absurd (hosts.symm.trans hosts') (by decide)

end Upst.Http
