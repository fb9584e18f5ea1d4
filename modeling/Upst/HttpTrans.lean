import Upst.Http

/-!
The transactions of a session: entered for a request, closed with its log by the response or with
the session. A transaction is found by the client and an identifier of 16 bits; the session keeps
the first identifier, the next one and the number of its transactions.
-/

namespace Upst.Http

set_option autoImplicit false

def HTTP_UERR_EMPTY : Nat := 0
def HTTP_UERR_900 : Nat := 900
def HTTP_UERR_910 : Nat := 910
def HTTP_UERR_911 : Nat := 911
def HTTP_UERR_920 : Nat := 920
def HTTP_UERR_930 : Nat := 930
def HTTP_UERR_940 : Nat := 940
def HTTP_UERR_941 : Nat := 941
def HTTP_UERR_950 : Nat := 950
def HTTP_UERR_960 : Nat := 960
def MAX_LOGURL_LEN : Nat := 1024
def MAX_URL_LEN : Nat := 555
def MAX_K3G_SIZE : Nat := 1024
def MAX_STREAM_SIZE : Nat := 10240
def MAX_EMS_SIZE : Nat := 10240

/-! ## The header -/

section Header

variable (parsers : Parsers)

/-- The length is passed as 16 bits. -/
def dCheckReqHeader (sess : TSess) (payload : List UInt8) : Option TSess :=
  match parsers.httpheader (payload.take (payload.length % 2 ^ 16)) with
  | none => none
  | some line =>
      if line.method = .response then none
      else some { sess with
        urlType := line.urlType
        szUrl := line.url
        ucMethod := some line.method }

def dCheckResHeader (sess : TSess) (payload : List UInt8) : Option TSess :=
  match parsers.httpheader (payload.take (payload.length % 2 ^ 16)) with
  | none => none
  | some line =>
      if line.method = .response then some { sess with usResCode := line.resCode } else none

def checkHeader (isNotREQ : Bool) (sess : TSess) (payload : List UInt8) : Option TSess :=
  match isNotREQ with
  | false => dCheckReqHeader parsers sess payload
  | true => dCheckResHeader parsers sess payload

/-- What the first line of a message leaves in the session. -/
def TSess.setLine (sess : TSess) (isNotREQ : Bool) (line : HeaderLine) : TSess :=
  match isNotREQ with
  | false => { sess with
      urlType := line.urlType
      szUrl := line.url
      ucMethod := some line.method }
  | true => { sess with usResCode := line.resCode }

/-- The line is one of a message in that direction. -/
def HeaderLine.suits (line : HeaderLine) (isNotREQ : Bool) : Prop :=
  line.method = .response ↔ isNotREQ = true

variable {parsers}

theorem checkHeader_iff {isNotREQ : Bool} {sess sess' : TSess} {payload : List UInt8} :
    checkHeader parsers isNotREQ sess payload = some sess' ↔
      ∃ line, parsers.httpheader (payload.take (payload.length % 2 ^ 16)) = some line ∧
        line.suits isNotREQ ∧ sess.setLine isNotREQ line = sess' := by
  cases isNotREQ with
  | false =>
      rw [checkHeader, dCheckReqHeader]
      cases parsers.httpheader (payload.take (payload.length % 2 ^ 16)) with
      | none => simp
      | some line => simp [HeaderLine.suits, TSess.setLine]
  | true =>
      rw [checkHeader, dCheckResHeader]
      cases parsers.httpheader (payload.take (payload.length % 2 ^ 16)) with
      | none => simp
      | some line => simp [HeaderLine.suits, TSess.setLine]

variable (parsers)

def HdrInfo.lenType (info : HdrInfo) (ctype : Nat) : LenType :=
  if 0 < info.clen then .contentLength
  else if info.chunked then .chunked
  else if ctype = 3 then .multipart
  else if 0 < info.pktCnt then .packetCounter
  else .none

def HdrInfo.len (info : HdrInfo) (ctype : Nat) : Int :=
  if info.lenType ctype = .packetCounter then info.pktCnt else info.clen

def maxLenOf (ctype : Nat) : Nat :=
  match ctype with
  | 2 => MAX_K3G_SIZE
  | 4 => MAX_STREAM_SIZE
  | 5 => MAX_EMS_SIZE
  | _ => 0

/-- What both `dGetReqHeaderInfo` and `dGetResHeaderInfo` write for a message. -/
def MsgInfo.headerInfo (msg : MsgInfo) (info : HdrInfo) (ctype : CType) : MsgInfo :=
  { msg with
    ucLenType := info.lenType ctype.ctype
    uiLen := (info.len ctype.ctype % 2 ^ 32).toNat
    buffering := decide (ctype.ctype ≠ 0)
    uiMaxLen := maxLenOf ctype.ctype
    multiKey := { msg.multiKey with key := ctype.multi.getD msg.multiKey.key }
    dZip := info.zip.getD msg.dZip }

def decimal (byte : Nat) : List UInt8 :=
  if byte < 10 then [.ofNat (48 + byte)]
  else if byte < 100 then [.ofNat (48 + byte / 10), .ofNat (48 + byte % 10)]
  else [.ofNat (48 + byte / 100), .ofNat (48 + byte / 10 % 10), .ofNat (48 + byte % 10)]

/-- `"%d.%d.%d.%d"` of `HIPADDR`. -/
def dotted (ip : Nat) : List UInt8 :=
  decimal (ip / 2 ^ 24 % 256) ++ [46] ++ decimal (ip / 2 ^ 16 % 256) ++ [46] ++
    decimal (ip / 2 ^ 8 % 256) ++ [46] ++ decimal (ip % 256)

/-- The `Host` field, else the host of the URL, else the address of the server. -/
def hostName (sess : TSess) (info : HdrInfo) : List UInt8 :=
  if info.host ≠ [] then info.host
  else if parsers.httphost sess.szUrl ≠ [] then parsers.httphost sess.szUrl
  else dotted sess.uiSrvIP

/-- `httphdrinfo`, then `httpctype` of what it found, each from the start condition it was left in. -/
def scanHeader (starts : Starts) (headRoom : Nat) (chain : Chain) : (HdrInfo × CType) × Starts :=
  match parsers.httphdrinfo starts.hdr (chain.bytes.take headRoom) chain.bytes.length with
  | (info, hdr) =>
      match parsers.httpctype starts.ctype info.ctype with
      | (ctype, after) => ((info, ctype), ⟨hdr, after⟩)

def dGetReqHeaderInfo (starts : Starts) (headRoom : Nat) (sess : TSess) (chain : Chain) :
    TSess × Starts :=
  match scanHeader parsers starts headRoom chain with
  | ((info, ctype), starts) =>
      ({ sess with
        szHostName := hostName parsers sess info
        req := sess.req.headerInfo info ctype }, starts)

def dGetResHeaderInfo (starts : Starts) (headRoom : Nat) (sess : TSess) (chain : Chain) :
    TSess × Starts :=
  match scanHeader parsers starts headRoom chain with
  | ((info, ctype), starts) => ({ sess with res := sess.res.headerInfo info ctype }, starts)

def getHeaderInfo (isNotREQ : Bool) (starts : Starts) (headRoom : Nat) (sess : TSess)
    (chain : Chain) : TSess × Starts :=
  match isNotREQ with
  | false => dGetReqHeaderInfo parsers starts headRoom sess chain
  | true => dGetResHeaderInfo parsers starts headRoom sess chain

end Header

/-- `"http://"` -/
def scheme : List UInt8 := [104, 116, 116, 112, 58, 47, 47]

def getURL (url : List UInt8) (urlType : Option UrlType) (host : List UInt8) : List UInt8 :=
  match urlType with
  | some .hostPort => url.map toLower
  | some .hostNoport => url.map toLower
  | some .nohostNoport => (scheme ++ host ++ url.map toLower).take MAX_LOGURL_LEN
  | some .connect => (scheme ++ url.map toLower).take MAX_LOGURL_LEN
  | none => []

/-! ## The log -/

def getLogHttpStatus (msg : MsgInfo) (isNotREQ : Bool) : LogStatus :=
  match msg.ucStatus with
  | .hdrWait | .hdrDoing =>
      if 0 < msg.uiLen then (if isNotREQ then .resDoing else .reqDoing)
      else if msg.ucEndStatus = .s0D0A0D0A then
        if 0 < msg.ackTime.sec then (if isNotREQ then .resAck else .reqAck)
        else (if isNotREQ then .resDone else .reqDone)
      else (if isNotREQ then .resDoing else .reqDoing)
  | .bodyWait | .bodyDoing =>
      if msg.ucEndStatus = .s0D0A0D0A then
        if 0 < msg.ackTime.sec then (if isNotREQ then .resAck else .reqAck)
        else (if isNotREQ then .resDone else .reqDone)
      else (if isNotREQ then .resDoing else .reqDoing)

def getHtttpTransStatus (msg : MsgInfo) (isNotREQ : Bool) : TransStatus :=
  match msg.ucStatus with
  | .hdrWait | .hdrDoing =>
      if msg.ucEndStatus = .s0D0A0D0A then (if isNotREQ then .resHdr else .reqHdr)
      else (if isNotREQ then .resHdring else .reqHdring)
  | .bodyWait | .bodyDoing =>
      if msg.ucEndStatus = .s0D0A0D0A then (if isNotREQ then .resBody else .reqBody)
      else (if isNotREQ then .resBodying else .reqBodying)

/-- `STG_DiffTIME64`, 0 for a difference of more than a day. -/
def diffTIME64 (endTime startTime : Stamp) : Nat :=
  if endTime.micros - startTime.micros > 3600 * 24 * 1000000 then 0
  else endTime.micros - startTime.micros

/-- The code found last, where the status alone does not tell. -/
def lastFailCode (log : LogHttp) : Nat :=
  if log.ucMethod = none then HTTP_UERR_960
  else if 400 ≤ log.usResCode then HTTP_UERR_900
  else if 0 < log.usL7FailCode then log.usL7FailCode
  else HTTP_UERR_EMPTY

def getFailCode (log : LogHttp) (status : TransStatus) : Nat :=
  match status with
  | .reqHdring | .reqBodying => HTTP_UERR_910
  | .reqHdr | .reqBody => if log.reqAckTime.sec = 0 then HTTP_UERR_920 else HTTP_UERR_930
  | .resHdring | .resBodying => HTTP_UERR_940
  | .resHdr =>
      if 0 < log.uiContentLength then HTTP_UERR_940
      else if log.mnAckTime.sec = 0 then HTTP_UERR_950
      else lastFailCode log
  | .resBody => if log.mnAckTime.sec = 0 then HTTP_UERR_950 else lastFailCode log

def dGetSeqProcID (gACALLCnt appCode uiClientIP : Nat) : Nat :=
  if appCode = SEQ_PROC_A_CALL then appCode + uiClientIP % gACALLCnt
  else if SEQ_PROC_A_WAP20 ≤ appCode ∧ appCode ≤ SEQ_PROC_A_WIDGET then appCode
  else 0

/-- The log of a request as `dProcStatus` fills it in. -/
def reqLog (env : Env) (client : TSessKey) (failCode : Nat) (sess : TSess) : LogHttp where
  callTime := sess.tcpSynTime
  uiClientIP := client.uiCliIP
  usClientPort := client.usCliPort
  uiServerIP := sess.uiSrvIP
  usServerPort := sess.usSrvPort
  tcpSynTime := sess.tcpSynTime
  usTransID := (makeHttpHashKey client sess.usNextTransID).usHttpTransID
  usPlatformType := env.parsers.platformType sess.usL4Code sess.usL7Code
  usSvcL4Type := sess.usL4Code
  usSvcL7Type := sess.usL7Code
  usContentsType := sess.usContentsType
  ucMethod := sess.ucMethod
  reqStartTime := sess.req.startTime
  reqEndTime := sess.req.lastUpdateTime
  reqAckTime := sess.req.ackTime
  resStartTime := .zero
  resEndTime := .zero
  mnAckTime := .zero
  lastPktTime := if sess.req.ackTime.usec = 0 then sess.req.lastUpdateTime else sess.req.ackTime
  llTransGapTime := 0
  usResCode := 0
  ucTcpClientStatus := sess.ucTcpClientStatus
  ucTcpServerStatus := sess.ucTcpServerStatus
  ucStatus := getLogHttpStatus sess.req false
  usUserErrorCode := failCode
  usL4FailCode := sess.usL4FailCode
  usL7FailCode := failCode
  szLOGURL := getURL sess.szUrl sess.urlType sess.szHostName
  szURL := (getURL sess.szUrl sess.urlType sess.szHostName).take MAX_URL_LEN
  counts := Counts.zero.add sess.counts
  uiTcpUpBodySize := (sess.req.uiHdrLen + sess.req.uiBodyLen) % 2 ^ 32
  uiTcpDnBodySize := 0
  uiUpHeaderSize := sess.req.uiHdrLen
  uiDnHeaderSize := 0
  uiUpBodySize := sess.req.uiBodyLen
  uiDnBodySize := 0
  uiContentLength := sess.req.uiLen
  uiLimitDataSize := 0
  szHostName := sess.szHostName
  dChunked := 0
  dReqZip := sess.req.dZip
  szReqMulti := sess.req.multiKey.key
  dResZip := 0
  szResMulti := []

/-- What `dProcStatus` adds to the log for the response. -/
def resLog (sess : TSess) (trans : Trans) (log : LogHttp) : LogHttp :=
  { log with
    resStartTime := sess.res.startTime
    resEndTime := sess.res.lastUpdateTime
    mnAckTime := sess.res.ackTime
    lastPktTime := if sess.res.ackTime.sec = 0 then sess.res.lastUpdateTime else sess.res.ackTime
    usResCode := sess.usResCode
    ucStatus := getLogHttpStatus sess.res true
    uiTcpDnBodySize := (sess.res.uiHdrLen + sess.res.uiBodyLen) % 2 ^ 32
    uiLimitDataSize := sess.res.uiLimitLen
    uiDnHeaderSize := sess.res.uiHdrLen
    uiDnBodySize := sess.res.uiBodyLen
    uiContentLength := sess.res.uiLen
    dChunked := sess.res.dChunked
    dResZip := sess.res.dZip
    szResMulti := sess.res.multiKey.key
    ucTcpClientStatus := sess.ucTcpClientStatus
    ucTcpServerStatus := sess.ucTcpServerStatus
    usUserErrorCode := trans.usL7FailCode
    usL4FailCode := if log.usL4FailCode = 0 then trans.usL4FailCode else log.usL4FailCode
    usL7FailCode := trans.usL7FailCode
    counts := log.counts.add sess.counts }

def closingCode (trans : Trans) : Nat :=
  if trans.usL7FailCode = HTTP_UERR_EMPTY then getFailCode trans.log trans.ucStatus
  else trans.usL7FailCode

/-- What `dCloseHttpTrans` adds to the log. -/
def closeLog (sess : TSess) (trans : Trans) : LogHttp :=
  { trans.log with
    llTransGapTime := diffTIME64 trans.log.lastPktTime trans.log.reqStartTime
    usL7FailCode := closingCode trans
    usUserErrorCode := closingCode trans
    counts := trans.log.counts.add sess.counts
    usL4FailCode :=
      if trans.log.usL4FailCode = 0 then sess.usL4FailCode else trans.log.usL4FailCode
    ucTcpClientStatus := sess.ucTcpClientStatus
    ucTcpServerStatus := sess.ucTcpServerStatus }

/-! ## Transactions -/

/-- `InitCount` -/
def TSess.initCount (sess : TSess) : TSess := { sess with counts := .zero }

def TSess.setChains (sess : TSess) (isNotREQ : Bool) (hdr body : Option Chain) : TSess :=
  sess.setMsg isNotREQ { sess.msg isNotREQ with hdr := hdr, body := body }

def TSess.setStatus (sess : TSess) (isNotREQ : Bool) (status : Status) : TSess :=
  sess.setMsg isNotREQ { sess.msg isNotREQ with ucStatus := status }

/-- What a successful `dProcStatus` leaves of the message. -/
def MsgInfo.clear (msg : MsgInfo) : MsgInfo :=
  { msg with
    startTime := .zero
    lastUpdateTime := .zero
    ackTime := .zero
    uiHdrLen := 0
    uiBodyLen := 0
    uiLimitLen := 0
    ucLenType := .none
    uiLen := 0
    uiMaxLen := 0
    ucEndStatus := .empty
    multiKey := { key := [], state := 0 }
    dZip := 0
    dChunked := 0 }

def TSess.clearMsg (sess : TSess) (isNotREQ : Bool) : TSess :=
  sess.setMsg isNotREQ (sess.msg isNotREQ).clear

/-- The counters when a transaction is entered; an `usFirstTransID` of 0 is taken for none. -/
def TSess.enterTrans (sess : TSess) : TSess :=
  { sess with
    usFirstTransID := if sess.usFirstTransID = 0 then sess.usNextTransID else sess.usFirstTransID
    usLastTransID := sess.usNextTransID
    usNextTransID := (sess.usNextTransID + 1) % 2 ^ 16
    usCurTransCnt := (sess.usCurTransCnt + 1) % 2 ^ 16
    usTotTransCnt := (sess.usTotTransCnt + 1) % 2 ^ 16 }

/-- The counters when a transaction is closed. -/
def TSess.leaveTrans (sess : TSess) : TSess :=
  if (sess.usCurTransCnt + 65535) % 2 ^ 16 = 0 then
    { sess with usCurTransCnt := 0, usFirstTransID := 0, usLastTransID := 0 }
  else
    { sess with
      usCurTransCnt := (sess.usCurTransCnt + 65535) % 2 ^ 16
      usFirstTransID := (sess.usFirstTransID + 1) % 2 ^ 16 }

def TSess.statusLine (sess : TSess) (isNotREQ : Bool) : StatusLine where
  isNotREQ := isNotREQ
  usNextTransID := sess.usNextTransID
  usFirstTransID := sess.usFirstTransID
  usLastTransID := sess.usLastTransID
  usCurTransCnt := sess.usCurTransCnt
  usTotTransCnt := sess.usTotTransCnt

def newTrans (env : Env) (client : TSessKey) (failCode : Nat) (sess : TSess) (node : NodeId) :
    Trans where
  usL4FailCode := sess.usL4FailCode
  usL7FailCode := failCode
  usL4Code := sess.usL4Code
  usL7Code := sess.usL7Code
  ucStatus := getHtttpTransStatus sess.req false
  dSndMsgQ := dGetSeqProcID env.gACALLCnt sess.usAppCode client.uiCliIP
  reqHdr := sess.req.hdr
  reqBody := sess.req.body
  resHdr := none
  resBody := none
  logNode := node
  log := reqLog env client failCode sess

/-- The transaction with the response attached to it. -/
def Trans.attach (trans : Trans) (failCode : Nat) (sess : TSess) : Trans :=
  { trans with
    usL7FailCode := if trans.usL7FailCode = HTTP_UERR_EMPTY then failCode else trans.usL7FailCode
    ucStatus := getHtttpTransStatus sess.res true
    resHdr := sess.res.hdr
    resBody := sess.res.body }

def Trans.linked (trans : Trans) : List Chain :=
  [trans.reqHdr, trans.reqBody, trans.resHdr, trans.resBody].reduceOption

section Trans

variable (env : Env) (client : TSessKey)

/-- `hasho_add` of a transaction. -/
def addTrans (key : TransKey) (trans : Trans) (world : World) : Bool × World :=
  match world.http.lookup key with
  | some _ => (false, world.emit (.refused key))
  | none =>
      match granted env client .addTrans world with
      | (false, world) => (false, world)
      | (true, world) =>
          (true, { world with http := world.http.insert key trans }.emit (.entered key))

/-- The return value of `dSend_HTTP_Data` is only printed. -/
def dCloseHttpTrans (key : TransKey) (trans : Trans) (sess : TSess) (world : World) :
    TSess × World :=
  match dSendHTTPData env client .writeLog trans.dSndMsgQ
    (.log trans.logNode (closeLog sess trans) trans.linked)
    { world with curSessCnt := world.curSessCnt - 1 } with
  | (_, world) =>
      (sess.initCount.leaveTrans, { world with http := world.http.erase key }.emit (.left key))

/-- The chains of the message are taken over before anything is allocated. -/
def dProcStatusReq (failCode : Nat) (sess : TSess) (world : World) : (Int × TSess) × World :=
  match pAllocDataNode env client .status false false world with
  | (none, world) => ((-43, sess.setChains false none none), world)
  | (some hdr, world) =>
      match pAllocDataNode env client .status false true world with
      | (none, world) => ((-53, sess.setChains false (some hdr) none), world)
      | (some body, world) =>
          match nifoNodeAlloc env client .logNode world with
          | (none, world) => ((-111, sess.setChains false (some hdr) (some body)), world)
          | (some node, world) =>
              match granted env client .logTlv world with
              | (false, world) =>
                  ((-112, sess.setChains false (some hdr) (some body)),
                    world.emit (.delete [node]))
              | (true, world) =>
                  match addTrans env client (makeHttpHashKey client sess.usNextTransID)
                    (newTrans env client failCode sess node) world with
                  | (false, world) =>
                      ((-114, (sess.setChains false (some hdr) (some body)).initCount),
                        world.emit (.delete [node]))
                  | (true, world) =>
                      ((0, ((sess.setChains false (some hdr) (some body)).initCount.enterTrans).clearMsg
                        false), world)

/-- The response goes to the first transaction of the session. -/
def dProcStatusRes (failCode : Nat) (sess : TSess) (world : World) : (Int × TSess) × World :=
  match world.http.lookup (makeHttpHashKey client sess.usFirstTransID) with
  | none =>
      match initBuffer env client true sess.res world with
      | (msg, world) => ((-21, sess.setMsg true msg), world)
  | some found =>
      match pAllocDataNode env client .status true false
        ({ world with
          http := world.http.insert (makeHttpHashKey client sess.usFirstTransID)
            (found.attach failCode sess) }.emit
          (.attached (makeHttpHashKey client sess.usFirstTransID) sess.res.hdr sess.res.body)) with
      | (none, world) => ((-83, sess.setChains true none none), world)
      | (some hdr, world) =>
          match pAllocDataNode env client .status true true world with
          | (none, world) => ((-84, sess.setChains true (some hdr) none), world)
          | (some body, world) =>
              match dCloseHttpTrans env client (makeHttpHashKey client sess.usFirstTransID)
                { found.attach failCode sess with
                  log := resLog sess (found.attach failCode sess) found.log }
                (sess.setChains true (some hdr) (some body)).initCount world with
              | (sess, world) => ((0, sess.clearMsg true), world)

def dProcStatus (isNotREQ : Bool) (failCode : Nat) (sess : TSess) (world : World) :
    (Int × TSess) × World :=
  match isNotREQ with
  | false =>
      dProcStatusReq env client failCode sess
        { world.emit (.status client (sess.statusLine false)) with
          curSessCnt := world.curSessCnt + 1 }
  | true =>
      dProcStatusRes env client failCode sess
        (world.emit (.status client (sess.statusLine true)))

/-! ## Sessions -/

/-- A message that has begun is closed as it is. -/
def closeMsg (isNotREQ : Bool) (failCode : Nat) (sess : TSess) (world : World) : TSess × World :=
  match (sess.msg isNotREQ).ucStatus with
  | .hdrWait => (sess, world)
  | _ =>
      match dProcStatus env client isNotREQ failCode sess world with
      | ((_, sess), world) => (sess.setStatus isNotREQ .hdrWait, world)

/-- `none` where a transaction is not found. The second `hasho_del` finds nothing to delete. -/
def closeTrans (failCode : Nat) : Nat → Nat → TSess → World → Option (TSess × World)
  | 0, _, sess, world => some (sess, world)
  | count + 1, i, sess, world =>
      match world.http.lookup (makeHttpHashKey client i) with
      | none => none
      | some found =>
          match dCloseHttpTrans env client (makeHttpHashKey client i)
            { found with usL7FailCode := failCode } sess world with
          | (sess, world) =>
              closeTrans failCode count (i + 1)
                { sess with usTotTransCnt := (sess.usTotTransCnt + 1) % 2 ^ 16 } world

def dCloseAllHttpTrans (failCode : Nat) (sess : TSess) (world : World) :
    Option (TSess × World) :=
  match closeMsg env client false failCode sess world with
  | (sess, world) =>
      match closeMsg env client true failCode sess world with
      | (sess, world) =>
          match closeTrans env client failCode sess.usCurTransCnt sess.usFirstTransID sess world with
          | none => none
          | some (sess, world) =>
              some ({ sess with usFirstTransID := 0, usLastTransID := 0, usCurTransCnt := 0 }, world)

def World.deleteChains (world : World) (sess : TSess) : World :=
  (((world.deleteChain sess.req.hdr).deleteChain sess.req.body).deleteChain
    sess.res.hdr).deleteChain sess.res.body

def dCloseTcpSess (sess : TSess) (world : World) : Option World :=
  match dCloseAllHttpTrans env client HTTP_UERR_EMPTY sess world with
  | none => none
  | some (sess, world) =>
      some { world.deleteChains sess with tcp := (world.deleteChains sess).tcp.erase client }

def newMsg (uiNextSeq : Nat) (hdr body : Chain) : MsgInfo where
  uiLastSeq := 0
  uiNextSeq := uiNextSeq
  startTime := .zero
  lastUpdateTime := .zero
  ackTime := .zero
  uiHdrLen := 0
  uiBodyLen := 0
  uiLimitLen := 0
  ucLenType := .none
  uiLen := 0
  uiMaxLen := 0
  buffering := true
  ucStatus := .hdrWait
  ucEndStatus := .empty
  hdr := some hdr
  body := some body
  dZip := 0
  dChunked := 0
  multiKey := { key := [], state := 0 }

def newSess (info : TcpInfo) (req res : MsgInfo) : TSess where
  uiSrvIP := info.uiSrvIP
  usSrvPort := info.usSrvPort
  tcpSynTime := info.capTime
  usNextTransID := 1
  usFirstTransID := 0
  usLastTransID := 0
  usCurTransCnt := 0
  usTotTransCnt := 0
  ucSynRtx := info.ucRtx
  usL4FailCode := info.usL4FailCode
  usAppCode := info.usAppCode
  usL4Code := info.usL4Code
  usL7Code := info.usL7Code
  ucMethod := none
  usResCode := 0
  szHostName := []
  urlType := none
  szUrl := []
  usContentsType := 0
  ucTcpClientStatus := info.ucTcpClientStatus
  ucTcpServerStatus := info.ucTcpServerStatus
  req := req
  res := res
  counts := info.counts

/-- `hasho_add` of a session. -/
def addSess (sess : TSess) (world : World) : Bool × World :=
  match world.tcp.lookup client with
  | some _ => (false, world)
  | none =>
      match granted env client .addSess world with
      | (false, world) => (false, world)
      | (true, world) => (true, { world with tcp := world.tcp.insert client sess })

/-- A session that is there for the client is closed first. `none` at the `exit` when the table
has no room. -/
def replaceSess (sess : TSess) (world : World) : Option (Bool × World) :=
  match addSess env client sess world with
  | (true, world) => some (true, world)
  | (false, world) =>
      match world.tcp.lookup client with
      | none => none
      | some old =>
          match dCloseTcpSess env client old world with
          | none => none
          | some world =>
              match addSess env client sess world with
              | (true, world) => some (true, world)
              | (false, world) => some (false, world.deleteChains sess)

/-- The chains of the request are not deleted when one of the response is missing. -/
def pCreateTcpSess (info : TcpInfo) (world : World) : Option (Bool × World) :=
  match pAllocDataNode env client .create false false world with
  | (none, world) => some (false, world)
  | (some reqHdr, world) =>
      match pAllocDataNode env client .create false true world with
      | (none, world) => some (false, world.deleteChain (some reqHdr))
      | (some reqBody, world) =>
          match pAllocDataNode env client .create true false world with
          | (none, world) => some (false, world)
          | (some resHdr, world) =>
              match pAllocDataNode env client .create true true world with
              | (none, world) => some (false, world.deleteChain (some resHdr))
              | (some resBody, world) =>
                  replaceSess env client
                    (newSess info (newMsg info.uiSeqNum reqHdr reqBody)
                      (newMsg info.uiAckNum resHdr resBody)) world

/-- `UpdateHttpTsess` -/
def updateHttpTsess (info : TcpInfo) (sess : TSess) : TSess :=
  { sess with
    usL4FailCode := info.usL4FailCode
    ucTcpClientStatus := info.ucTcpClientStatus
    ucTcpServerStatus := info.ucTcpServerStatus
    counts := sess.counts.add info.counts }

/-! ## A node of data -/

def MsgInfo.touch (msg : MsgInfo) (info : TcpInfo) : MsgInfo :=
  { msg with
    startTime := if msg.ucStatus = .hdrWait then info.capTime else msg.startTime
    lastUpdateTime := info.capTime
    ackTime := info.ackTime }

/-- The message is complete; whatever else is in the node is passed over. -/
def endMessage (isNotREQ : Bool) (sess : TSess) (world : World) : (Int × TSess) × World :=
  match dProcStatus env client isNotREQ HTTP_UERR_EMPTY sess world with
  | ((dRet, sess), world) =>
      if dRet < 0 then ((-41, sess), world)
      else
        ((0, sess.setMsg isNotREQ { sess.msg isNotREQ with
          ucStatus := .hdrWait
          ucEndStatus := .empty }), world)

def restart (isNotREQ : Bool) (sess : TSess) (world : World) : (Int × TSess) × World :=
  match initBuffer env client isNotREQ (sess.msg isNotREQ) world with
  | (msg, world) => ((0, sess.setMsg isNotREQ msg), world)

def MsgInfo.setChunked (msg : MsgInfo) : MsgInfo := { msg with dChunked := 1 }

def getBody (isNotREQ : Bool) (data : List UInt8) (msg : MsgInfo) (world : World) :
    Option ((Got × MsgInfo) × World) :=
  match msg.ucLenType with
  | .contentLength | .packetCounter => dGetLengthData env client isNotREQ msg.limit data msg world
  | .chunked => dGetChunkedData env client isNotREQ msg.limit data msg.setChunked world
  | .multipart => dGetMultiData env client isNotREQ msg.limit data msg world
  | .none => some ((.failed, msg), world)

/-- A body that goes on is `BODYDOING`. -/
def procBody (info : TcpInfo) (isNotREQ : Bool) (data : List UInt8) (sess : TSess)
    (world : World) : Option ((Int × TSess) × World) :=
  match getBody env client isNotREQ data ((sess.msg isNotREQ).touch info) world with
  | none => none
  | some ((.more, msg), world) =>
      some ((0, sess.setMsg isNotREQ { msg with ucStatus := .bodyDoing }), world)
  | some ((.ended, msg), world) =>
      some (endMessage env client isNotREQ (sess.setMsg isNotREQ msg) world)
  | some ((.failed, msg), world) =>
      some (restart env client isNotREQ (sess.setMsg isNotREQ msg) world)

/-- After a header with a body the loop goes round once more, with what is behind the header. -/
def afterHeader (info : TcpInfo) (isNotREQ : Bool) (rest : List UInt8) (sess : TSess)
    (world : World) : Option ((Int × TSess) × World) :=
  match (sess.msg isNotREQ).ucLenType with
  | .none => some (endMessage env client isNotREQ sess world)
  | _ =>
      match sess.setMsg isNotREQ { sess.msg isNotREQ with
        ucStatus := .bodyWait
        ucEndStatus := .empty } with
      | sess =>
          if rest = [] then some ((0, sess), world)
          else procBody env client info isNotREQ rest sess world

def procHeader (info : TcpInfo) (isNotREQ : Bool) (data : List UInt8) (sess : TSess)
    (world : World) : Option ((Int × TSess) × World) :=
  match dGetData env client isNotREQ ((sess.msg isNotREQ).touch info).limit data
    ((sess.msg isNotREQ).touch info) world with
  | none => none
  | some ((.more, _, msg), world) =>
      some ((0, sess.setMsg isNotREQ { msg with ucStatus := .hdrDoing }), world)
  | some ((.failed, _, msg), world) =>
      some (restart env client isNotREQ (sess.setMsg isNotREQ msg) world)
  | some ((.ended, rest, msg), world) =>
      match msg.hdr with
      | none => none
      | some chain =>
          match getHeaderInfo env.parsers isNotREQ world.starts env.headRoom
            (sess.setMsg isNotREQ msg) chain with
          | (sess, starts) =>
              afterHeader env client info isNotREQ rest sess { world with starts := starts }

/-- The loop over the bytes of a node. -/
def procData (info : TcpInfo) (isNotREQ : Bool) (sess : TSess) (world : World) :
    Option ((Int × TSess) × World) :=
  if info.payload = [] then some ((0, sess), world)
  else
    match (sess.msg isNotREQ).ucStatus with
    | .hdrWait | .hdrDoing => procHeader env client info isNotREQ info.payload sess world
    | .bodyWait | .bodyDoing => procBody env client info isNotREQ info.payload sess world

/-- A sequence number other than the expected one is only printed and counted. -/
def MsgInfo.nextSeq (msg : MsgInfo) (info : TcpInfo) : MsgInfo :=
  { msg with
    uiNextSeq := (info.uiSeqNum + info.payload.length) % 2 ^ 32
    uiLastSeq := info.uiSeqNum }

def abnormalCode (isNotREQ : Bool) : Nat := if isNotREQ then HTTP_UERR_941 else HTTP_UERR_911

/-- A header that begins in the midst of a message closes that message. -/
def dProcData (info : TcpInfo) (isNotREQ : Bool) (sess : TSess) (world : World) :
    Option ((Int × TSess) × World) :=
  match (sess.msg isNotREQ).ucStatus, checkHeader env.parsers isNotREQ sess info.payload with
  | .hdrWait, none => some ((-51, sess), world)
  | .hdrWait, some sess => procData env client info isNotREQ sess world
  | _, none => procData env client info isNotREQ sess world
  | _, some sess =>
      match dProcStatus env client isNotREQ (abnormalCode isNotREQ) sess world with
      | ((_, sess), world) =>
          procData env client info isNotREQ (sess.setStatus isNotREQ .hdrWait) world

def dProcTcpData (info : TcpInfo) (sess : TSess) (world : World) : Option ((Int × TSess) × World) :=
  match decide (info.ucRtx ≠ sess.ucSynRtx) with
  | isNotREQ =>
      match (sess.msg isNotREQ).hdr, (sess.msg isNotREQ).body with
      | some _, some _ =>
          dProcData env client info isNotREQ
            (sess.setMsg isNotREQ ((sess.msg isNotREQ).nextSeq info)) world
      | _, _ => some ((-100, sess), world)

end Trans

/-! ## The main loop -/

def tcpDest (env : Env) (info : TcpInfo) : Nat :=
  if info.usAppCode = SEQ_PROC_A_VOD then SEQ_PROC_A_VOD
  else SEQ_PROC_A_CALL + info.uiCliIP % env.gACALLCnt

/-- `none` where the process ends. A node of data is deleted unless a value below 0 is returned. -/
def dProcHttpTrans (env : Env) (info : TcpInfo) (node : NodeId) (world : World) :
    Option (Int × World) :=
  match info.cTcpFlag with
  | .start =>
      match pCreateTcpSess env (makeTcpHashKey info) info world with
      | none => none
      | some (false, world) => some (-11, world)
      | some (true, world) =>
          match dSendHTTPData env (makeTcpHashKey info) .writeTcp (tcpDest env info) (.node node)
            world with
          | (false, world) => some (-12, world)
          | (true, world) => some (0, world)
  | .finish =>
      match world.tcp.lookup (makeTcpHashKey info) with
      | none => some (-21, world)
      | some sess =>
          match dCloseTcpSess env (makeTcpHashKey info) (updateHttpTsess info sess) world with
          | none => none
          | some world =>
              match dSendHTTPData env (makeTcpHashKey info) .writeTcp (tcpDest env info)
                (.node node) world with
              | (false, world) => some (-23, world)
              | (true, world) => some (0, world)
  | .data =>
      match world.tcp.lookup (makeTcpHashKey info) with
      | none => some (-31, world)
      | some sess =>
          match dProcTcpData env (makeTcpHashKey info) info (updateHttpTsess info sess) world with
          | none => none
          | some ((dRet, sess), world) =>
              if dRet = 0 then
                some (0, { world with
                  tcp := world.tcp.insert (makeTcpHashKey info) sess }.emit (.delete [node]))
              else
                some (dRet, { world with tcp := world.tcp.insert (makeTcpHashKey info) sess })
  | .other => some (-100, world)

/-- One node of the main loop, with its `TCP_INFO` when it has one. -/
def step (env : Env) (world : World) (input : Option TcpInfo) : Option World :=
  match { world.emit (.read (.read world.reads)) with reads := world.reads + 1 }, input with
  | after, none =>
      if env.writesVod world.reads then
        some (after.emit (.written SEQ_PROC_A_VOD (.node (.read world.reads))))
      else some (after.emit (.delete [.read world.reads]))
  | after, some info =>
      match dProcHttpTrans env info (.read world.reads) after with
      | none => none
      | some (dRet, after) =>
          if dRet < 0 then some (after.emit (.delete [.read world.reads])) else some after

def run (env : Env) (world : World) (inputs : List (Option TcpInfo)) : Option World :=
  inputs.foldlM (step env) world

end Upst.Http
