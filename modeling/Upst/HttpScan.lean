import Upst.HttpRounds
import Upst.HttpStatus

/-!
The header in `A_HTTP`. The scanners that `flex` makes of their rules are parameters, the actions of the
rules are those of the source: each cuts the text of its match to the size of the field it goes to. So
the texts that a session keeps fit in the fields that `GetURL` and `dProcStatus` write. The header itself
is read from the first of its nodes on, for the length of all of it.
-/

namespace Upst.Http

set_option autoImplicit false

/-! ## Scanners -/

def MAX_HOSTNAME_LEN : Nat := 40
def MAX_CONTENTSTYPE_LEN : Nat := 36
def MAX_MULTIPART_LEN : Nat := 160
def MAX_TEMP_CONTENT_LEN : Nat := MAX_CONTENTSTYPE_LEN + MAX_MULTIPART_LEN

/-- What a rule of `httphdrinfo` matched: its text, or what `atoi` makes of it. -/
inductive HdrMatch
  | host (yytext : List UInt8)
  | contentType (yytext : List UInt8)
  | contentLength (value : Int)
  | chunked
  | contentEncoding (value : Nat)
  | packetCounter (value : Int)

def HdrInfo.act (info : HdrInfo) : HdrMatch → HdrInfo
  | .host yytext => { info with host := yytext.take MAX_HOSTNAME_LEN }
  | .contentType yytext => { info with ctype := yytext.take MAX_TEMP_CONTENT_LEN }
  | .contentLength value => { info with clen := value }
  | .chunked => { info with chunked := true }
  | .contentEncoding value => { info with zip := some value }
  | .packetCounter value => { info with pktCnt := value }

def HdrInfo.empty : HdrInfo where
  host := []
  ctype := []
  clen := 0
  chunked := false
  zip := none
  pktCnt := 0

/-- What a rule of `httpctype` matched. -/
inductive CTypeMatch
  | type (value : Nat)
  | boundary (yytext : List UInt8)

/-- Two hyphens on either side. -/
def boundaryKey (yytext : List UInt8) : List UInt8 :=
  [0x2D, 0x2D] ++ yytext.take (MAX_MULTIPART_LEN - 4) ++ [0x2D, 0x2D]

def CType.act (ctype : CType) : CTypeMatch → CType
  | .type value => { ctype with ctype := value }
  | .boundary yytext => { ctype with multi := some (boundaryKey yytext) }

/-- What the scanners match in the bytes that they are given, and the start conditions they end in. -/
structure Scanners where
  /-- The request or response line, with the text of the last match that is taken for a URL. -/
  line : List UInt8 → Option HeaderLine
  hdrMatches : HdrStart → List UInt8 → Nat → List HdrMatch × HdrStart
  ctypeMatches : CTypeStart → List UInt8 → List CTypeMatch × CTypeStart
  /-- The texts behind `http://`. -/
  hostMatches : List UInt8 → List (List UInt8)
  platformType : Nat → Nat → Nat

def Scanners.httpheader (scan : Scanners) (payload : List UInt8) : Option HeaderLine :=
  (scan.line payload).map fun line => { line with url := line.url.take MAX_LOGURL_LEN }

def Scanners.httphdrinfo (scan : Scanners) (start : HdrStart) (present : List UInt8) (slen : Nat) :
    HdrInfo × HdrStart :=
  match scan.hdrMatches start present slen with
  | (matched, after) => (matched.foldl HdrInfo.act .empty, after)

def Scanners.httpctype (scan : Scanners) (start : CTypeStart) (ctype : List UInt8) :
    CType × CTypeStart :=
  match scan.ctypeMatches start ctype with
  | (matched, after) => (matched.foldl CType.act ⟨0, none⟩, after)

/-- The last match stays. -/
def Scanners.httphost (scan : Scanners) (url : List UInt8) : List UInt8 :=
  (scan.hostMatches url).foldl (fun _ yytext => yytext.take MAX_HOSTNAME_LEN) []

def Scanners.parsers (scan : Scanners) : Parsers where
  httpheader := scan.httpheader
  httphdrinfo := scan.httphdrinfo
  httpctype := scan.httpctype
  httphost := scan.httphost
  platformType := scan.platformType

section Bounds

variable (scan : Scanners)

theorem line_bound {payload : List UInt8} {line : HeaderLine}
    (found : scan.httpheader payload = some line) : line.url.length ≤ MAX_LOGURL_LEN := by
  obtain ⟨matched, -, rfl⟩ := Option.map_eq_some_iff.mp found
  exact List.length_take_le _ _

theorem act_host {info : HdrInfo} (small : info.host.length ≤ MAX_HOSTNAME_LEN) (matched : HdrMatch) :
    (info.act matched).host.length ≤ MAX_HOSTNAME_LEN := by
  cases matched with
  | host yytext => exact List.length_take_le _ _
  | _ => exact small

theorem host_bound (start : HdrStart) (present : List UInt8) (slen : Nat) :
    (scan.httphdrinfo start present slen).1.host.length ≤ MAX_HOSTNAME_LEN := by
  rw [Scanners.httphdrinfo]
  dsimp only
  have none : HdrInfo.empty.host.length ≤ MAX_HOSTNAME_LEN := Nat.zero_le _
  generalize HdrInfo.empty = info at none ⊢
  induction (scan.hdrMatches start present slen).1 generalizing info with
  | nil => exact none
  | cons matched rest ih => exact ih _ (act_host none matched)

theorem boundary_bound (yytext : List UInt8) : (boundaryKey yytext).length ≤ MAX_MULTIPART_LEN := by
  have cut := List.length_take_le (MAX_MULTIPART_LEN - 4) yytext
  have room : MAX_MULTIPART_LEN - 4 + 4 = MAX_MULTIPART_LEN := rfl
  rw [boundaryKey, List.length_append, List.length_append, List.length_cons, List.length_singleton]
  omega

theorem key_bound (start : CTypeStart) (text : List UInt8) {key : List UInt8}
    (found : (scan.httpctype start text).1.multi = some key) : key.length ≤ MAX_MULTIPART_LEN := by
  rw [Scanners.httpctype] at found
  have none : ∀ key, (CType.mk 0 none).multi = some key → key.length ≤ MAX_MULTIPART_LEN := nofun
  dsimp only at found
  generalize (scan.ctypeMatches start text).1 = all at found
  generalize CType.mk 0 Option.none = ctype at none found
  induction all generalizing ctype with
  | nil => exact none key found
  | cons matched rest ih =>
      refine ih (ctype.act matched) ?_ found
      intro key' held
      cases matched with
      | type value => exact none key' held
      | boundary yytext =>
          obtain rfl := Option.some.inj held
          exact boundary_bound yytext

theorem url_host_bound (url : List UInt8) : (scan.httphost url).length ≤ MAX_HOSTNAME_LEN := by
  rw [Scanners.httphost]
  have start : ([] : List UInt8).length ≤ MAX_HOSTNAME_LEN := Nat.zero_le _
  generalize ([] : List UInt8) = host at start ⊢
  induction scan.hostMatches url generalizing host with
  | nil => exact start
  | cons yytext rest ih => exact ih _ (List.length_take_le _ _)

theorem decimal_length (byte : Nat) : (decimal byte).length ≤ 3 := by
  rw [decimal]
  split
  · exact Nat.le_of_ble_eq_true rfl
  · split <;> exact Nat.le_of_ble_eq_true rfl

theorem dotted_length (ip : Nat) : (dotted ip).length ≤ MAX_HOSTNAME_LEN := by
  have first := decimal_length (ip / 2 ^ 24 % 256)
  have second := decimal_length (ip / 2 ^ 16 % 256)
  have third := decimal_length (ip / 2 ^ 8 % 256)
  have last := decimal_length (ip % 256)
  have room : 15 ≤ MAX_HOSTNAME_LEN := by decide
  simp only [dotted, List.length_append, List.length_singleton]
  omega

theorem name_bound (sess : TSess) {info : HdrInfo} (small : info.host.length ≤ MAX_HOSTNAME_LEN) :
    (hostName scan.parsers sess info).length ≤ MAX_HOSTNAME_LEN := by
  rw [hostName]
  split
  · exact small
  · split
    · exact url_host_bound scan sess.szUrl
    · exact dotted_length sess.uiSrvIP

end Bounds

/-! ## What a session keeps -/

/-- The texts that go into a log. -/
structure Core.Fits (core : Core) : Prop where
  url : core.szUrl.length ≤ MAX_LOGURL_LEN
  host : core.szHostName.length ≤ MAX_HOSTNAME_LEN
  reqKey : core.reqKey.length ≤ MAX_MULTIPART_LEN
  resKey : core.resKey.length ≤ MAX_MULTIPART_LEN

section Fits

variable {sess : TSess}

theorem fits_message (fits : sess.core.Fits) {isNotREQ : Bool} {msg : MsgInfo}
    (key : msg.multiKey.key.length ≤ MAX_MULTIPART_LEN) : (sess.setMsg isNotREQ msg).core.Fits := by
  cases isNotREQ with
  | false => exact ⟨fits.url, fits.host, key, fits.resKey⟩
  | true => exact ⟨fits.url, fits.host, fits.reqKey, key⟩

theorem fits_key (fits : sess.core.Fits) (isNotREQ : Bool) :
    (sess.msg isNotREQ).multiKey.key.length ≤ MAX_MULTIPART_LEN := by
  cases isNotREQ with
  | false => exact fits.reqKey
  | true => exact fits.resKey

theorem fits_kept (fits : sess.core.Fits) {isNotREQ : Bool} {msg : MsgInfo}
    (key : msg.multiKey.key = (sess.msg isNotREQ).multiKey.key ∨ msg.multiKey.key = []) :
    (sess.setMsg isNotREQ msg).core.Fits := by
  apply fits_message fits
  rcases key with same | empty
  · rw [same]
    exact fits_key fits isNotREQ
  · rw [empty]
    exact Nat.zero_le _

theorem fits_chains (fits : sess.core.Fits) {isNotREQ : Bool} {hdr body : Option Chain} :
    (sess.setChains isNotREQ hdr body).core.Fits :=
  fits_kept fits (Or.inl rfl)

theorem fits_clear (fits : sess.core.Fits) {isNotREQ : Bool} : (sess.clearMsg isNotREQ).core.Fits :=
  fits_kept fits (Or.inr rfl)

theorem fits_counts (fits : sess.core.Fits) : sess.initCount.core.Fits :=
  ⟨fits.url, fits.host, fits.reqKey, fits.resKey⟩

theorem fits_enter (fits : sess.core.Fits) : sess.enterTrans.core.Fits :=
  ⟨fits.url, fits.host, fits.reqKey, fits.resKey⟩

theorem fits_total (fits : sess.core.Fits) (count : Nat) :
    ({ sess with usTotTransCnt := count } : TSess).core.Fits :=
  ⟨fits.url, fits.host, fits.reqKey, fits.resKey⟩

theorem fits_leave (fits : sess.core.Fits) : sess.leaveTrans.core.Fits := by
  rw [TSess.leaveTrans]
  split
  · exact ⟨fits.url, fits.host, fits.reqKey, fits.resKey⟩
  · exact ⟨fits.url, fits.host, fits.reqKey, fits.resKey⟩

variable {scan : Scanners} {env : Env} (parsers : env.parsers = scan.parsers)

include parsers

theorem fits_checked (fits : sess.core.Fits) {sess' : TSess} {isNotREQ : Bool} {payload : List UInt8}
    (checked : checkHeader env.parsers isNotREQ sess payload = some sess') : sess'.core.Fits := by
  rw [parsers] at checked
  obtain ⟨line, found, -, rfl⟩ := checkHeader_iff.mp checked
  cases isNotREQ with
  | false => exact ⟨line_bound scan found, fits.host, fits.reqKey, fits.resKey⟩
  | true => exact ⟨fits.url, fits.host, fits.reqKey, fits.resKey⟩

theorem header_key {msg : MsgInfo} (small : msg.multiKey.key.length ≤ MAX_MULTIPART_LEN)
    (info : HdrInfo) (start : CTypeStart) (text : List UInt8) :
    (msg.headerInfo info (env.parsers.httpctype start text).1).multiKey.key.length ≤
      MAX_MULTIPART_LEN := by
  rw [parsers]
  show ((scan.httpctype start text).1.multi.getD msg.multiKey.key).length ≤ _
  cases found : (scan.httpctype start text).1.multi with
  | none => exact small
  | some key => exact key_bound scan start text found

theorem fits_scanned (fits : sess.core.Fits) (isNotREQ : Bool) (starts : Starts) (chain : Chain) :
    (getHeaderInfo env.parsers isNotREQ starts env.headRoom sess chain).1.core.Fits := by
  cases isNotREQ with
  | false =>
      have key info := header_key parsers fits.reqKey info starts.ctype info.ctype
      refine ⟨fits.url, ?_, key (scanHeader env.parsers starts env.headRoom chain).1.1, fits.resKey⟩
      show (hostName env.parsers sess (scanHeader env.parsers starts env.headRoom chain).1.1).length ≤ _
      rw [parsers]
      exact name_bound scan sess (host_bound scan _ _ _)
  | true =>
      have key info := header_key parsers fits.resKey info starts.ctype info.ctype
      exact ⟨fits.url, fits.host, fits.reqKey, key (scanHeader env.parsers starts env.headRoom chain).1.1⟩

end Fits

section Run

variable {env : Env} {client : TSessKey} {sess sess' : TSess} {world after : World} {dRet : Int}
  {failCode : Nat}

theorem close_fits (fits : sess.core.Fits) {key : TransKey} {trans : Trans}
    (done : dCloseHttpTrans env client key trans sess world = (sess', after)) :
    sess'.core.Fits ∧ after.tcp = world.tcp := by
  obtain ⟨closed, tcp, -, -⟩ := close_cases done
  rw [closed]
  exact ⟨fits_leave (fits_counts fits), tcp⟩

theorem request_fits (fits : sess.core.Fits)
    (done : dProcStatusReq env client failCode sess world = ((dRet, sess'), after)) :
    sess'.core.Fits ∧ after.tcp = world.tcp := by
  obtain ⟨hdr, body, ⟨still, same⟩ | ⟨still, same, -⟩ | ⟨middle, node, still, -, same, grown⟩⟩ :=
    request_cases done
  · rw [same]
    exact ⟨fits_chains fits, still.tcp⟩
  · rw [same]
    exact ⟨fits_counts (fits_chains fits), still.tcp⟩
  · rw [same, grown]
    exact ⟨fits_clear (fits_enter (fits_counts (fits_chains fits))), still.tcp⟩

theorem response_fits (fits : sess.core.Fits)
    (done : dProcStatusRes env client failCode sess world = ((dRet, sess'), after)) :
    sess'.core.Fits ∧ after.tcp = world.tcp := by
  obtain ⟨still, msg, rfl, key⟩ | ⟨found, hdr, body, middle, -, still, ⟨rfl, rfl⟩ | ⟨closed, closing, rfl⟩⟩ :=
    response_cases done
  · exact ⟨fits_kept fits key, still.tcp⟩
  · exact ⟨fits_chains fits, still.tcp⟩
  · obtain ⟨fits', tcp⟩ := close_fits (fits_counts (fits_chains fits)) closing
    exact ⟨fits_clear fits', tcp.trans still.tcp⟩

theorem status_fits (fits : sess.core.Fits) {isNotREQ : Bool}
    (done : dProcStatus env client isNotREQ failCode sess world = ((dRet, sess'), after)) :
    sess'.core.Fits ∧ after.tcp = world.tcp := by
  cases isNotREQ with
  | false =>
      have later := request_fits fits done
      exact later
  | true =>
      have later := response_fits fits done
      exact later

theorem close_all_fits {count i : Nat} (fits : sess.core.Fits)
    (done : closeTrans env client failCode count i sess world = some (sess', after)) :
    sess'.core.Fits ∧ after.tcp = world.tcp := by
  induction count generalizing i sess world with
  | zero =>
      cases done
      exact ⟨fits, rfl⟩
  | succ count ih =>
      rw [closeTrans] at done
      split at done
      · cases done
      · split at done
        next closing =>
          obtain ⟨fits', same⟩ := close_fits fits closing
          obtain ⟨all, tcp⟩ := ih (fits_total fits' _) done
          exact ⟨all, tcp.trans same⟩

/-- The texts of every session in the table fit. -/
def AllFit (world : World) : Prop :=
  ∀ client sess, world.tcp.lookup client = some sess → sess.core.Fits

theorem AllFit.tcp (all : AllFit world) (same : after.tcp = world.tcp) : AllFit after := by
  intro client sess found
  rw [same] at found
  exact all client sess found

theorem all_fit_put (all : AllFit world) (fits : sess.core.Fits) : AllFit (world.put client sess) := by
  intro other held found
  rw [World.put] at found
  by_cases same : other = client
  · rw [same, AList.lookup_insert] at found
    exact Option.some.inj found ▸ fits
  · rw [AList.lookup_insert_ne same] at found
    exact all other held found

theorem all_fit_own (all : AllFit (world.put client sess)) : sess.core.Fits :=
  all client sess (AList.lookup_insert _)

/-- What the table is without the session. -/
theorem all_fit_turn (all : AllFit (world.put client sess)) (same : after.tcp = world.tcp)
    (fits : sess'.core.Fits) : AllFit (after.put client sess') := by
  intro other held found
  rw [World.put] at found
  by_cases own : other = client
  · rw [own, AList.lookup_insert] at found
    exact Option.some.inj found ▸ fits
  · rw [AList.lookup_insert_ne own, same] at found
    refine all other held ?_
    rw [World.put, AList.lookup_insert_ne own]
    exact found

theorem all_fit_remove (all : AllFit (world.put client sess)) (same : after.tcp = world.tcp) :
    AllFit (after.remove client) := by
  intro other held found
  rw [World.remove] at found
  by_cases own : other = client
  · rw [own, AList.lookup_erase] at found
    cases found
  · rw [AList.lookup_erase_ne own, same] at found
    refine all other held ?_
    rw [World.put, AList.lookup_insert_ne own]
    exact found

variable {scan : Scanners} (parsers : env.parsers = scan.parsers)

include parsers

theorem fit_tends : Tends env client fun sess world => AllFit (world.put client sess) where
  message isNotREQ all passes key := all_fit_turn all passes.tcp (fits_kept (all_fit_own all) key)
  same all core := all_fit_turn all rfl (core ▸ all_fit_own all)
  checked isNotREQ all checked := all_fit_turn all rfl (fits_checked parsers (all_fit_own all) checked)
  scanned isNotREQ starts chain all :=
    all_fit_turn all rfl (fits_scanned parsers (all_fit_own all) isNotREQ starts chain)
  status isNotREQ failCode all done := by
    obtain ⟨fits, same⟩ := status_fits (all_fit_own all) done
    exact all_fit_turn all same fits
  closeAll failCode all done := by
    obtain ⟨fits, same⟩ := close_all_fits (all_fit_own all) done
    exact all_fit_turn all same ⟨fits.url, fits.host, fits.reqKey, fits.resKey⟩

theorem fit_rounds : Rounds env (fun _ (account : Unit) => account) (fun _ => True) (fun _ _ => True)
    fun _ world => AllFit world where
  passes all passes := all.tcp passes.tcp
  tends _ _ _ := fit_tends parsers
  found all found := all_fit_put all (all _ _ found)
  adds all := by
    have own := all_fit_own all
    exact all_fit_turn all rfl ⟨own.url, own.host, own.reqKey, own.resKey⟩
  created _ all _ :=
    all_fit_put all ⟨Nat.zero_le _, Nat.zero_le _, Nat.zero_le _, Nat.zero_le _⟩
  closed _ all _ done := by
    have later := (fit_tends parsers).dCloseAllHttpTrans all done
    exact all_fit_remove later rfl
  emits _ all := all
  reads _ all := all

/-- The texts of every session in the table fit at every point of a run. -/
theorem run_fits {inputs : List (Option TcpInfo)} (ran : run env .start inputs = some world) :
    AllFit world := by
  have start : AllFit .start := fun client sess found => nomatch found
  exact @Rounds.run _ _ _ _ _ _ (fit_rounds parsers) () _ _ _ (fun _ _ _ => trivial) start
    (closes_any env .start inputs) ran

end Run

end Upst.Http
