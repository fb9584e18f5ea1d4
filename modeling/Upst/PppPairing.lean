import Upst.PppSignal
import Mathlib.Data.List.Induction
import Mathlib.Tactic.SplitIfs

/-!
When a signal log of a session is reported. A frame belongs to at most one of the records, as a request
or as a reply, and the log of a record is reported at the reply that carries the identifier of the last
request since the report before.
-/

namespace Upst.PppSignal

open Psess

set_option autoImplicit false

section Route

/-- A reply under any identifier is one that the record takes without a look at it. -/
inductive Role where
  | request
  | reply
  | anyReply
  deriving DecidableEq, Repr

def echoOf : Direction → Transaction
  | .client => .DownLCPEcho
  | .server => .UpLCPEcho

def lcpNum : Direction → Nat
  | .client => NUM_UP_LCP
  | .server => NUM_DOWN_LCP

def ipcpNum : Direction → Nat
  | .client => NUM_UP_IPCP
  | .server => NUM_DOWN_IPCP

def routeLCP (frame : Frame) : Option (Transaction × Role × Nat) :=
  if frame.ucCode = DEF_LCP_CONF_REQ then
    some (lcpOf frame.bRtxType.opposite, .request, lcpNum frame.bRtxType)
  else if frame.ucCode = DEF_LCP_CONF_ACK then
    some (lcpOf frame.bRtxType, .reply, lcpNum frame.bRtxType.opposite)
  else if frame.ucCode = DEF_LCP_TERM_REQ then some (.LCPTerm, .request, lcpNum frame.bRtxType)
  else if frame.ucCode = DEF_LCP_TERM_ACK then some (.LCPTerm, .reply, lcpNum frame.bRtxType.opposite)
  else if frame.ucCode = DEF_LCP_CONF_NAK then none
  else if frame.ucCode = DEF_LCP_CONF_REJ then none
  else if frame.ucCode = DEF_LCP_ECHO_REQ then
    some (echoOf frame.bRtxType.opposite, .request, lcpNum frame.bRtxType)
  else if frame.ucCode = DEF_LCP_ECHO_REP then
    some (echoOf frame.bRtxType, .reply, lcpNum frame.bRtxType.opposite)
  else none

def routeCHAP (frame : Frame) : Option (Transaction × Role × Nat) :=
  if frame.ucCode = DEF_CHAP_CHAL then some (.CHAPAP, .request, NUM_CHAP)
  else if frame.ucCode = DEF_CHAP_RESP then none
  else if frame.ucCode = DEF_CHAP_SUCC then some (.CHAPAP, .reply, NUM_CHAP)
  else if frame.ucCode = DEF_CHAP_FAIL then some (.CHAPAP, .reply, NUM_CHAP)
  else none

def routePAP (frame : Frame) : Option (Transaction × Role × Nat) :=
  if frame.ucCode = DEF_PAP_AUTH_REQ then some (.CHAPAP, .request, NUM_PAP)
  else if frame.ucCode = DEF_PAP_AUTH_ACK then some (.CHAPAP, .anyReply, NUM_PAP)
  else if frame.ucCode = DEF_PAP_AUTH_NAK then some (.CHAPAP, .anyReply, NUM_PAP)
  else none

def routeIPCP (frame : Frame) : Option (Transaction × Role × Nat) :=
  if frame.ucCode = DEF_IPCP_CONF_REQ then
    some (ipcpOf frame.bRtxType.opposite, .request, ipcpNum frame.bRtxType)
  else if frame.ucCode = DEF_IPCP_CONF_ACK then
    some (ipcpOf frame.bRtxType, .reply, ipcpNum frame.bRtxType.opposite)
  else if frame.ucCode = DEF_IPCP_CONF_NAK then none
  else if frame.ucCode = DEF_IPCP_CONF_REJ then none
  else none

/-- The record that a frame begins or ends the transaction of, and the number of its log. -/
def route (frame : Frame) : Option (Transaction × Role × Nat) :=
  if frame.wProtocol = PPP_LCP then routeLCP frame
  else if frame.wProtocol = PPP_CHAP then routeCHAP frame
  else if frame.wProtocol = PPP_PAP then routePAP frame
  else if frame.wProtocol = PPP_IPCP then routeIPCP frame
  else none

end Route

section Core

/-- What a record is looked at for. -/
structure Core where
  flag : Nat
  id : Nat
  code : Nat
  deriving DecidableEq, Repr

def TSess.core (record : TSess) : Core := ⟨record.ucFlag, record.uiID, record.ucReqMsgCode⟩

/-- The record that a frame makes, before it is closed. -/
def TSess.meets (record : TSess) (frame : Frame) : Role → Core
  | .request => ⟨record.ucFlag ||| 0x01, frame.ucID, frame.ucCode⟩
  | .reply =>
      if record.uiID ≠ frame.ucID then record.core
      else ⟨record.ucFlag ||| 0x02, frame.ucID, record.ucReqMsgCode⟩
  | .anyReply => ⟨record.ucFlag ||| 0x02, frame.ucID, record.ucReqMsgCode⟩

/-- One record is written and closed, and the other ones are left. -/
structure Closes (session : PSession) (transaction : Transaction) (ucProtoType : Nat) (record : TSess)
    (done : PSession × List Report) : Prop where
  sess : done.1.sess = Function.update session.sess transaction (record.closed ucProtoType).1
  reports : done.2 = (record.closed ucProtoType).2

/-- No record is closed, and what the records are looked at for is left. -/
structure Keeps (session : PSession) (done : PSession × List Report) : Prop where
  cores : ∀ transaction, (done.1.sess transaction).core = (session.sess transaction).core
  reports : done.2 = []

theorem lcp_duration_sess (session : PSession) (frame : Frame) :
    (lcpDuration session frame).sess = session.sess := by
  unfold lcpDuration
  split_ifs <;> rfl

theorem ppp_setup_sess (session : PSession) (frame : Frame) :
    (pppSetup session frame).sess = session.sess := by
  unfold pppSetup
  split_ifs <;> rfl

/-- A reply under another identifier leaves its record as it is. -/
theorem checked_closes {session : PSession} {transaction : Transaction} {ucProtoType : Nat} {frame : Frame}
    {reply : PSession × List Report} (open_ : (session.sess transaction).ucFlag ≠ 0x03)
    (closes : Closes session transaction ucProtoType ((session.sess transaction).answered frame) reply) :
    ∃ record, record.core = (session.sess transaction).meets frame .reply ∧
      Closes session transaction ucProtoType record (session.checked transaction frame reply) := by
  rw [PSession.checked, TSess.meets]
  split
  · refine ⟨session.sess transaction, rfl, ?_⟩
    have stays : (session.sess transaction).closed ucProtoType = (session.sess transaction, []) :=
      if_neg open_
    refine ⟨?_, ?_⟩
    · rw [stays, Function.update_eq_self]
    · rw [stays]
  · exact ⟨_, rfl, closes⟩

theorem keeps_of_sess {session : PSession} {done : PSession × List Report}
    (sess : done.1.sess = session.sess) (reports : done.2 = []) : Keeps session done where
  cores transaction := by rw [sess]
  reports := reports

/-- A record is written that is looked at for the same as before. -/
theorem keeps_of_record {session : PSession} {done : PSession × List Report} {transaction : Transaction}
    {record : TSess} (core : record.core = (session.sess transaction).core)
    (sess : done.1.sess = Function.update session.sess transaction record) (reports : done.2 = []) :
    Keeps session done where
  cores other := by
    rw [sess]
    by_cases own : other = transaction
    · subst own
      rw [Function.update_self, core]
    · rw [Function.update_of_ne own]
  reports := reports

theorem refused_core (record : TSess) (frame : Frame) : (record.refused frame).core = record.core := by
  rw [TSess.refused]
  split
  · rfl
  · rfl

theorem nak_keeps (session : PSession) (transaction : Transaction) (frame : Frame) :
    Keeps session (session.nak transaction frame) :=
  @keeps_of_record session _ transaction ((session.sess transaction).nak frame) (refused_core _ frame) rfl rfl

theorem rej_keeps (session : PSession) (transaction : Transaction) (frame : Frame) :
    Keeps session (session.rej transaction frame) :=
  @keeps_of_record session _ transaction ((session.sess transaction).rej frame) (refused_core _ frame) rfl rfl

end Core

section Routed

variable {session : PSession} {frame : Frame}

/-- What a frame does by the record that it belongs to. -/
def Follows (session : PSession) (frame : Frame) (done : PSession × List Report) :
    Option (Transaction × Role × Nat) → Prop
  | none => Keeps session done
  | some (transaction, role, ucProtoType) =>
      ∃ record, record.core = (session.sess transaction).meets frame role ∧
        Closes session transaction ucProtoType record done

theorem conf_req_follows : Follows session frame (lcpConfReq session frame)
    (some (lcpOf frame.bRtxType.opposite, .request, lcpNum frame.bRtxType)) := by
  rw [lcpConfReq]
  cases frame.bRtxType with
  | client => exact ⟨_, rfl, rfl, rfl⟩
  | server => exact ⟨_, rfl, rfl, rfl⟩

theorem conf_ack_follows (open_ : ∀ transaction, (session.sess transaction).ucFlag ≠ 0x03) :
    Follows session frame (lcpConfAck session frame)
      (some (lcpOf frame.bRtxType, .reply, lcpNum frame.bRtxType.opposite)) := by
  rw [lcpConfAck]
  cases frame.bRtxType with
  | client => exact checked_closes (open_ _) ⟨lcp_duration_sess _ frame, rfl⟩
  | server => exact checked_closes (open_ _) ⟨lcp_duration_sess _ frame, rfl⟩

theorem term_req_follows : Follows session frame (lcpTermReq session frame)
    (some (.LCPTerm, .request, lcpNum frame.bRtxType)) := by
  rw [lcpTermReq]
  cases frame.bRtxType with
  | client => exact ⟨_, rfl, rfl, rfl⟩
  | server => exact ⟨_, rfl, rfl, rfl⟩

theorem term_ack_follows (open_ : ∀ transaction, (session.sess transaction).ucFlag ≠ 0x03) :
    Follows session frame (lcpTermAck session frame)
      (some (.LCPTerm, .reply, lcpNum frame.bRtxType.opposite)) := by
  rw [lcpTermAck]
  cases frame.bRtxType with
  | client => exact checked_closes (open_ _) ⟨rfl, rfl⟩
  | server => exact checked_closes (open_ _) ⟨rfl, rfl⟩

theorem echo_req_follows : Follows session frame (lcpEchoReq session frame)
    (some (echoOf frame.bRtxType.opposite, .request, lcpNum frame.bRtxType)) := by
  rw [lcpEchoReq]
  cases frame.bRtxType with
  | client => exact ⟨_, rfl, rfl, rfl⟩
  | server => exact ⟨_, rfl, rfl, rfl⟩

theorem echo_rep_follows (open_ : ∀ transaction, (session.sess transaction).ucFlag ≠ 0x03) :
    Follows session frame (lcpEchoRep session frame)
      (some (echoOf frame.bRtxType, .reply, lcpNum frame.bRtxType.opposite)) := by
  rw [lcpEchoRep]
  cases frame.bRtxType with
  | client => exact checked_closes (open_ _) ⟨rfl, rfl⟩
  | server => exact checked_closes (open_ _) ⟨rfl, rfl⟩

theorem lcp_follows (open_ : ∀ transaction, (session.sess transaction).ucFlag ≠ 0x03) :
    Follows session frame (procLCP session frame) (routeLCP frame) := by
  rw [procLCP, routeLCP]
  split_ifs
  · exact conf_req_follows
  · exact conf_ack_follows open_
  · exact term_req_follows
  · exact term_ack_follows open_
  · exact nak_keeps session _ frame
  · exact rej_keeps session _ frame
  · exact echo_req_follows
  · exact echo_rep_follows open_
  · exact keeps_of_sess rfl rfl

theorem response_keeps (session : PSession) (frame : Frame) :
    Keeps session (session.checked .CHAPAP frame (chapResponse session frame, [])) := by
  rw [PSession.checked]
  split
  · exact keeps_of_sess rfl rfl
  · next same =>
      apply keeps_of_record _ rfl rfl
      rw [TSess.core, ← not_not.mp same]
      rfl

theorem end_follows (open_ : ∀ transaction, (session.sess transaction).ucFlag ≠ 0x03)
    (flagged : PSession) (same : flagged.sess = session.sess) :
    Follows session frame
      ((session.flagged 0x0100).checked .CHAPAP frame (authEnd flagged NUM_CHAP frame))
      (some (.CHAPAP, .reply, NUM_CHAP)) := by
  have closes : Closes session .CHAPAP NUM_CHAP ((session.sess .CHAPAP).answered frame)
      (authEnd flagged NUM_CHAP frame) := by
    refine ⟨?_, ?_⟩
    · rw [← same]
      rfl
    · rw [← same]
      rfl
  obtain ⟨record, core, checked⟩ := @checked_closes (session.flagged 0x0100) .CHAPAP NUM_CHAP frame _
    (open_ .CHAPAP) ⟨closes.sess, closes.reports⟩
  exact ⟨record, core, checked.sess, checked.reports⟩

theorem chap_follows (open_ : ∀ transaction, (session.sess transaction).ucFlag ≠ 0x03) :
    Follows session frame (procCHAP session frame) (routeCHAP frame) := by
  rw [procCHAP, routeCHAP]
  split_ifs
  · exact ⟨_, rfl, rfl, rfl⟩
  · have keeps := response_keeps (session.flagged 0x0100) frame
    exact ⟨keeps.cores, keeps.reports⟩
  · exact end_follows open_ ((session.flagged 0x0100).flagged 0x0800) rfl
  · exact end_follows open_ (session.flagged 0x0100) rfl
  · exact keeps_of_sess rfl rfl

theorem pap_follows : Follows session frame (procPAP session frame) (routePAP frame) := by
  rw [procPAP, routePAP]
  split_ifs
  · exact ⟨_, rfl, rfl, rfl⟩
  · exact ⟨_, rfl, rfl, rfl⟩
  · exact ⟨_, rfl, rfl, rfl⟩
  · exact keeps_of_sess rfl rfl

theorem ipcp_req_follows : Follows session frame (ipcpConfReq (ipcpStart session frame) frame)
    (some (ipcpOf frame.bRtxType.opposite, .request, ipcpNum frame.bRtxType)) := by
  rw [ipcpConfReq]
  cases frame.bRtxType with
  | client => exact ⟨_, rfl, rfl, rfl⟩
  | server => exact ⟨_, rfl, rfl, rfl⟩

theorem ipcp_ack_follows (open_ : ∀ transaction, (session.sess transaction).ucFlag ≠ 0x03) :
    Follows session frame (ipcpConfAck session frame)
      (some (ipcpOf frame.bRtxType, .reply, ipcpNum frame.bRtxType.opposite)) := by
  rw [ipcpConfAck]
  cases frame.bRtxType with
  | client => exact checked_closes (open_ _) ⟨ppp_setup_sess _ frame, rfl⟩
  | server => exact checked_closes (open_ _) ⟨ppp_setup_sess _ frame, rfl⟩

theorem ipcp_follows (open_ : ∀ transaction, (session.sess transaction).ucFlag ≠ 0x03) :
    Follows session frame (procIPCP session frame) (routeIPCP frame) := by
  rw [procIPCP, routeIPCP]
  split_ifs
  · exact ipcp_req_follows
  · exact ipcp_ack_follows open_
  · exact nak_keeps session _ frame
  · exact rej_keeps session _ frame
  · exact keeps_of_sess rfl rfl

theorem proc_follows (open_ : ∀ transaction, (session.sess transaction).ucFlag ≠ 0x03) (frame : Frame) :
    Follows session frame (ProcPPP session frame) (route frame) := by
  rw [ProcPPP, route]
  split_ifs
  · exact lcp_follows open_
  · exact chap_follows open_
  · exact pap_follows
  · exact ipcp_follows open_
  · exact keeps_of_sess rfl rfl

end Routed

section Sound

variable {session : PSession} {frame : Frame} {transaction : Transaction} {role : Role} {ucProtoType : Nat}

/-- The numbers that the logs of a record go under. -/
def Transaction.protos : Transaction → List Nat
  | .UpLCP | .UpLCPEcho => [NUM_UP_LCP]
  | .DownLCP | .DownLCPEcho => [NUM_DOWN_LCP]
  | .CHAPAP => [NUM_CHAP, NUM_PAP]
  | .UpIPCP => [NUM_UP_IPCP]
  | .DownIPCP => [NUM_DOWN_IPCP]
  | .LCPTerm => [NUM_UP_LCP, NUM_DOWN_LCP]

/-- The log under the code of the request is filled from the record. -/
def Logged (transaction : Transaction) (ucMsgType : Nat) : Prop :=
  ∀ ucProtoType ∈ transaction.protos, loggedRecord ucProtoType ucMsgType = some transaction

instance (transaction : Transaction) (ucMsgType : Nat) : Decidable (Logged transaction ucMsgType) :=
  inferInstanceAs (Decidable (∀ ucProtoType ∈ transaction.protos, _))

/-- No record is left with both flags, and one with a request has its code. -/
def Sound (session : PSession) : Prop :=
  ∀ transaction, (session.sess transaction).ucFlag < 3 ∧
    ((session.sess transaction).ucFlag = 1 → Logged transaction (session.sess transaction).ucReqMsgCode)

theorem sound_zero : Sound .zero :=
  fun _ => ⟨Nat.succ_pos 2, fun asked => absurd asked Nat.zero_ne_one⟩

theorem Sound.opened (sound : Sound session) (transaction : Transaction) :
    (session.sess transaction).ucFlag ≠ 0x03 := Nat.ne_of_lt (sound transaction).1

/-- The log of a routed frame has a number of its record, and a request the code of a log. -/
def Proper (frame : Frame) (routed : Option (Transaction × Role × Nat)) : Prop :=
  ∀ transaction role ucProtoType, routed = some (transaction, role, ucProtoType) →
    ucProtoType ∈ transaction.protos ∧ (role = .request → Logged transaction frame.ucCode)

theorem proper_none (frame : Frame) : Proper frame none := nofun

theorem proper_some (member : ucProtoType ∈ transaction.protos)
    (logged : role = .request → Logged transaction frame.ucCode) :
    Proper frame (some (transaction, role, ucProtoType)) := by
  intro transaction' role' ucProtoType' same
  cases same
  exact ⟨member, logged⟩

theorem proper_reply (member : ucProtoType ∈ transaction.protos) (answers : role ≠ .request) :
    Proper frame (some (transaction, role, ucProtoType)) :=
  proper_some member fun asks => absurd asks answers

theorem lcp_proper (frame : Frame) : Proper frame (routeLCP frame) := by
  rw [routeLCP]
  split_ifs with req ack term termAck nak rej echo rep
  · apply proper_some
    · cases frame.bRtxType <;> decide
    · rw [req]
      cases frame.bRtxType <;> decide
  · apply proper_reply
    · cases frame.bRtxType <;> decide
    · decide
  · apply proper_some
    · cases frame.bRtxType <;> decide
    · rw [term]
      decide
  · apply proper_reply
    · cases frame.bRtxType <;> decide
    · decide
  · exact proper_none frame
  · exact proper_none frame
  · apply proper_some
    · cases frame.bRtxType <;> decide
    · rw [echo]
      cases frame.bRtxType <;> decide
  · apply proper_reply
    · cases frame.bRtxType <;> decide
    · decide
  · exact proper_none frame

/-- A log of the authentication is filled from its record whatever the code. -/
theorem auth_logged (ucMsgType : Nat) : Logged .CHAPAP ucMsgType := by
  intro ucProtoType member
  simp only [Transaction.protos, List.mem_cons, List.not_mem_nil, or_false] at member
  rcases member with rfl | rfl
  · rfl
  · rfl

theorem chap_proper (frame : Frame) : Proper frame (routeCHAP frame) := by
  rw [routeCHAP]
  split_ifs
  · exact proper_some (by decide) fun _ => auth_logged _
  · exact proper_none frame
  · exact proper_some (by decide) fun _ => auth_logged _
  · exact proper_some (by decide) fun _ => auth_logged _
  · exact proper_none frame

theorem pap_proper (frame : Frame) : Proper frame (routePAP frame) := by
  rw [routePAP]
  split_ifs
  · exact proper_some (by decide) fun _ => auth_logged _
  · exact proper_some (by decide) fun _ => auth_logged _
  · exact proper_some (by decide) fun _ => auth_logged _
  · exact proper_none frame

theorem ipcp_proper (frame : Frame) : Proper frame (routeIPCP frame) := by
  rw [routeIPCP]
  split_ifs with req
  · apply proper_some
    · cases frame.bRtxType <;> decide
    · rw [req]
      cases frame.bRtxType <;> decide
  · apply proper_reply
    · cases frame.bRtxType <;> decide
    · decide
  · exact proper_none frame
  · exact proper_none frame
  · exact proper_none frame

theorem route_proper (frame : Frame) : Proper frame (route frame) := by
  rw [route]
  split_ifs
  · exact lcp_proper frame
  · exact chap_proper frame
  · exact pap_proper frame
  · exact ipcp_proper frame
  · exact proper_none frame

/-- The record that a frame makes is looked at for no more than one or both flags, the code with the
flag of a request. -/
theorem meets_sound (sound : Sound session) (routed : route frame = some (transaction, role, ucProtoType))
    {record : TSess} (core : record.core = (session.sess transaction).meets frame role) :
    record.ucFlag < 4 ∧ (record.ucFlag = 1 ∨ record.ucFlag = 3 →
      Logged transaction record.ucReqMsgCode) := by
  obtain ⟨low, code⟩ := sound transaction
  have logged := (route_proper frame transaction role ucProtoType routed).2
  have flag : record.ucFlag = record.core.flag := rfl
  have msg : record.ucReqMsgCode = record.core.code := rfl
  rw [flag, msg, core]
  have asked : ∀ flag < 3, flag ||| 0x01 < 4 := by decide
  have answered : ∀ flag < 3, flag ||| 0x02 < 4 ∧ (flag ||| 0x02 = 1 ∨ flag ||| 0x02 = 3 → flag = 1) := by
    decide
  have replied : (session.sess transaction).ucFlag ||| 0x02 < 4 ∧
      ((session.sess transaction).ucFlag ||| 0x02 = 1 ∨ (session.sess transaction).ucFlag ||| 0x02 = 3 →
        Logged transaction (session.sess transaction).ucReqMsgCode) := by
    obtain ⟨small, one⟩ := answered _ low
    exact ⟨small, fun either => code (one either)⟩
  cases role with
  | request => exact ⟨asked _ low, fun _ => logged rfl⟩
  | anyReply => exact replied
  | reply =>
      rw [TSess.meets]
      split
      · refine ⟨Nat.lt_succ_of_lt low, fun either => code ?_⟩
        exact either.resolve_right (Nat.ne_of_lt low)
      · exact replied

theorem closed_sess (record : TSess) (ucProtoType : Nat) :
    ((record.closed ucProtoType).1 = .zero ∧ record.ucFlag = 3) ∨
      ((record.closed ucProtoType).1 = record ∧ record.ucFlag ≠ 3) := by
  rw [TSess.closed]
  split
  · next both => exact Or.inl ⟨rfl, both⟩
  · next open_ => exact Or.inr ⟨rfl, open_⟩

/-- The records stay sound, and each log is filled from the record of the frame. -/
theorem proc_sound (sound : Sound session) (frame : Frame) :
    Sound (ProcPPP session frame).1 ∧ ∀ report ∈ (ProcPPP session frame).2,
      ∃ transaction role, route frame = some (transaction, role, report.ucProtoType) ∧
        loggedRecord report.ucProtoType report.ucMsgType = some transaction := by
  have follows := proc_follows sound.opened frame
  cases routed : route frame with
  | none =>
      rw [routed] at follows
      refine ⟨fun transaction => ?_, fun report member => ?_⟩
      · have core := follows.cores transaction
        have flag : ((ProcPPP session frame).1.sess transaction).ucFlag =
            (session.sess transaction).ucFlag := congrArg Core.flag core
        have code : ((ProcPPP session frame).1.sess transaction).ucReqMsgCode =
            (session.sess transaction).ucReqMsgCode := congrArg Core.code core
        rw [flag, code]
        exact sound transaction
      · rw [follows.reports] at member
        exact nomatch member
  | some entry =>
      obtain ⟨transaction, role, ucProtoType⟩ := entry
      rw [routed] at follows
      obtain ⟨record, core, closes⟩ := follows
      obtain ⟨low, logged⟩ := meets_sound sound routed core
      refine ⟨fun other => ?_, fun report member => ?_⟩
      · rw [closes.sess]
        by_cases own : other = transaction
        · subst own
          rw [Function.update_self]
          rcases closed_sess record ucProtoType with ⟨zero, -⟩ | ⟨same, open_⟩
          · rw [zero]
            exact sound_zero other
          · rw [same]
            exact ⟨Nat.lt_of_le_of_ne (Nat.le_of_lt_succ low) open_, fun one => logged (Or.inl one)⟩
        · rw [Function.update_of_ne own]
          exact sound other
      · rw [closes.reports, TSess.closed] at member
        split at member
        · next both =>
            obtain rfl := List.mem_singleton.mp member
            refine ⟨transaction, role, rfl, ?_⟩
            exact logged (Or.inr both) ucProtoType
              (route_proper frame transaction role ucProtoType routed).1
        · exact nomatch member

end Sound

section Runs

/-- The session behind the frames. -/
def run (frames : List Frame) : PSession :=
  frames.foldl (fun session frame => (ProcPPP session frame).1) .zero

/-- The reports whose log is filled from the record. -/
def logs (transaction : Transaction) (reports : List Report) : List Report :=
  reports.filter fun report => loggedRecord report.ucProtoType report.ucMsgType = some transaction

def reported (transaction : Transaction) (frames : List Frame) (frame : Frame) : List Report :=
  logs transaction (ProcPPP (run frames) frame).2

/-- The frames since the last report of the record, the newest in front. -/
def sinceBack (transaction : Transaction) : List Frame → List Frame
  | [] => []
  | frame :: before =>
      if reported transaction before.reverse frame = [] then frame :: sinceBack transaction before else []

def since (transaction : Transaction) (frames : List Frame) : List Frame :=
  (sinceBack transaction frames.reverse).reverse

theorem run_snoc (frames : List Frame) (frame : Frame) :
    run (frames ++ [frame]) = (ProcPPP (run frames) frame).1 := by
  rw [run, List.foldl_append]
  rfl

theorem since_snoc (transaction : Transaction) (frames : List Frame) (frame : Frame) :
    since transaction (frames ++ [frame]) =
      if reported transaction frames frame = [] then since transaction frames ++ [frame] else [] := by
  rw [since, List.reverse_append, List.reverse_singleton, List.singleton_append, sinceBack,
    List.reverse_reverse]
  split
  · rw [List.reverse_cons]
    rfl
  · rfl

theorem run_sound (frames : List Frame) : Sound (run frames) := by
  induction frames using List.reverseRecOn with
  | nil => exact sound_zero
  | append_singleton frames frame ih =>
      rw [run_snoc]
      exact (proc_sound ih frame).1

end Runs

section Claim

/-- The frame is a request or a reply of the record. -/
def Frame.Is (frame : Frame) (transaction : Transaction) (role : Role) : Prop :=
  (route frame).map (fun entry => (entry.1, entry.2.1)) = some (transaction, role)

instance (frame : Frame) (transaction : Transaction) (role : Role) : Decidable (frame.Is transaction role) :=
  inferInstanceAs (Decidable (_ = _))

def lastRequest (transaction : Transaction) (seen : List Frame) : Option Frame :=
  seen.reverse.find? fun frame => frame.Is transaction .request

/-- A reply that carries the identifier of the last request. -/
def Completes (transaction : Transaction) (seen : List Frame) (frame : Frame) : Prop :=
  (frame.Is transaction .reply ∨ frame.Is transaction .anyReply) ∧
    ∃ ask ∈ lastRequest transaction seen, ask.ucID = frame.ucID

/-- No reply under the identifier zero comes before a request, and no PAP reply comes under an identifier
other than that of the last request. -/
def RegularFrame (transaction : Transaction) (seen : List Frame) (frame : Frame) : Prop :=
  (frame.Is transaction .reply → lastRequest transaction seen = none → frame.ucID ≠ 0) ∧
    (frame.Is transaction .anyReply → ∃ ask ∈ lastRequest transaction seen, ask.ucID = frame.ucID)

def Regular (transaction : Transaction) (seen : List Frame) : Prop :=
  ∀ before frame, before ++ [frame] <+: seen → RegularFrame transaction before frame

/-- The log of a report: the code and the identifier of its request, which for a record of one direction
came the other way. -/
def Describes (transaction : Transaction) (seen : List Frame) (frame : Frame) (report : Report) : Prop :=
  ∃ ask ∈ lastRequest transaction seen, report.ucMsgType = ask.ucCode ∧
    report.record.uiID = ask.ucID ∧ ask.ucID = frame.ucID ∧
      (transaction ≠ .LCPTerm → transaction ≠ .CHAPAP → frame.bRtxType = ask.bRtxType.opposite)

end Claim

section Tracks

variable {transaction : Transaction} {seen : List Frame} {frame : Frame} {record : TSess}

theorem last_request_snoc : lastRequest transaction (seen ++ [frame]) =
    if frame.Is transaction .request then some frame else lastRequest transaction seen := by
  rw [lastRequest, List.reverse_append, List.reverse_singleton, List.singleton_append]
  split
  · next asks => exact List.find?_cons_of_pos (decide_eq_true asks)
  · next other => exact List.find?_cons_of_neg (mt of_decide_eq_true other)

theorem last_request_is {ask : Frame} (last : lastRequest transaction seen = some ask) :
    ask.Is transaction .request := by
  have holds := List.find?_some last
  exact of_decide_eq_true holds

theorem regular_snoc : Regular transaction (seen ++ [frame]) ↔
    Regular transaction seen ∧ RegularFrame transaction seen frame := by
  constructor
  · intro regular
    refine ⟨fun before other shorter => ?_, ?_⟩
    · exact regular before other (shorter.trans (List.prefix_append seen [frame]))
    · exact regular seen frame (List.prefix_refl _)
  · intro parts before other shorter
    rcases List.prefix_concat_iff.mp shorter with same | inside
    · obtain ⟨rfl, single⟩ := List.append_inj' same rfl
      cases single
      exact parts.2
    · exact parts.1 before other inside

theorem is_routed {role : Role} {ucProtoType : Nat} (routed : route frame = some (transaction, role, ucProtoType))
    (role' : Role) : frame.Is transaction role' ↔ role = role' := by
  rw [Frame.Is, routed]
  constructor
  · intro same
    exact (Prod.mk.inj (Option.some.inj same)).2
  · intro same
    rw [← same]
    rfl

/-- The record that the frames since its last report leave. -/
def Tracks (transaction : Transaction) (seen : List Frame) (record : TSess) : Prop :=
  match lastRequest transaction seen with
  | none => record.ucFlag = 0 ∧ record.uiID = 0
  | some ask => record.core = ⟨1, ask.ucID, ask.ucCode⟩

theorem tracks_kept {record' : TSess} (tracks : Tracks transaction seen record)
    (core : record'.core = record.core) (other : ¬frame.Is transaction .request) :
    Tracks transaction (seen ++ [frame]) record' := by
  rw [Tracks, last_request_snoc, if_neg other]
  rw [Tracks] at tracks
  cases last : lastRequest transaction seen with
  | none =>
      rw [last] at tracks
      exact ⟨(congrArg Core.flag core).trans tracks.1, (congrArg Core.id core).trans tracks.2⟩
  | some ask =>
      rw [last] at tracks
      exact core.trans tracks

/-- The side that the requests of a record come from, where it is one. -/
def Transaction.asker : Transaction → Option Direction
  | .UpLCP | .UpLCPEcho | .UpIPCP => some .client
  | .DownLCP | .DownLCPEcho | .DownIPCP => some .server
  | .CHAPAP | .LCPTerm => none

theorem route_asker {role : Role} {ucProtoType : Nat}
    (routed : route frame = some (transaction, role, ucProtoType)) : transaction.asker = none ∨
      transaction.asker = some (if role = .request then frame.bRtxType else frame.bRtxType.opposite) := by
  unfold route routeLCP routeCHAP routePAP routeIPCP at routed
  split_ifs at routed
  all_goals
    cases routed
    cases frame.bRtxType <;> decide

theorem is_entry {role : Role} (is : frame.Is transaction role) :
    ∃ ucProtoType, route frame = some (transaction, role, ucProtoType) := by
  obtain ⟨⟨transaction', role', ucProtoType⟩, routed, same⟩ := Option.map_eq_some_iff.mp is
  cases same
  exact ⟨ucProtoType, routed⟩

theorem asker_none (none : transaction.asker = none) : transaction = .LCPTerm ∨ transaction = .CHAPAP := by
  cases transaction
  case LCPTerm => exact Or.inl rfl
  case CHAPAP => exact Or.inr rfl
  all_goals exact nomatch none

theorem reply_opposite {ask : Frame} {role : Role} (asks : ask.Is transaction .request)
    (replies : frame.Is transaction role) (answers : role ≠ .request)
    (shared : transaction ≠ .LCPTerm) (auth : transaction ≠ .CHAPAP) :
    frame.bRtxType = ask.bRtxType.opposite := by
  have sided (none : transaction.asker = none) : False :=
    (asker_none none).elim shared auth
  obtain ⟨_, asked⟩ := is_entry asks
  obtain ⟨_, replied⟩ := is_entry replies
  have front := (route_asker asked).resolve_left sided
  have back := (route_asker replied).resolve_left sided
  rw [if_pos rfl] at front
  rw [if_neg answers, front] at back
  have same := Option.some.inj back
  rw [same]
  cases frame.bRtxType with
  | client => rfl
  | server => rfl

end Tracks

section Steps

variable {transaction : Transaction} {seen : List Frame} {session : PSession}

/-- What a frame does with the reports of a record that the frames before are known of. -/
def Stepped (transaction : Transaction) (seen : List Frame) (frame : Frame) (session : PSession) : Prop :=
  (logs transaction (ProcPPP session frame).2 = [] ∧ ¬Completes transaction seen frame ∧
      Tracks transaction (seen ++ [frame]) ((ProcPPP session frame).1.sess transaction)) ∨
    (∃ report, logs transaction (ProcPPP session frame).2 = [report] ∧ Completes transaction seen frame ∧
      Describes transaction seen frame report ∧
        Tracks transaction [] ((ProcPPP session frame).1.sess transaction))

theorem not_completes {frame : Frame} (reply : ¬frame.Is transaction .reply)
    (anyReply : ¬frame.Is transaction .anyReply) : ¬Completes transaction seen frame :=
  fun completes => completes.1.elim reply anyReply

/-- A frame of no record, or of another one. -/
theorem stepped_apart {frame : Frame} (tracks : Tracks transaction seen (session.sess transaction))
    (apart : ∀ role, ¬frame.Is transaction role) (none : logs transaction (ProcPPP session frame).2 = [])
    (core : ((ProcPPP session frame).1.sess transaction).core = (session.sess transaction).core) :
    Stepped transaction seen frame session :=
  Or.inl ⟨none, not_completes (apart .reply) (apart .anyReply), tracks_kept tracks core (apart .request)⟩

theorem other_record {frame : Frame} {other : Transaction} {role : Role} {ucProtoType : Nat}
    (routed : route frame = some (other, role, ucProtoType)) (different : other ≠ transaction) (role' : Role) :
    ¬frame.Is transaction role' := by
  intro is
  rw [Frame.Is, routed] at is
  exact different (Prod.mk.inj (Option.some.inj is)).1

theorem logs_other {frame : Frame} (sound : Sound session)
    (apart : ∀ role ucProtoType, route frame ≠ some (transaction, role, ucProtoType)) :
    logs transaction (ProcPPP session frame).2 = [] := by
  rw [logs, List.filter_eq_nil_iff]
  intro report member logged
  obtain ⟨owner, role, routed, own⟩ := (proc_sound sound frame).2 report member
  have same : owner = transaction := Option.some.inj (own.symm.trans (of_decide_eq_true logged))
  exact apart role report.ucProtoType (same ▸ routed)

theorem logs_own {frame : Frame} {role : Role} {ucProtoType : Nat} (sound : Sound session)
    (routed : route frame = some (transaction, role, ucProtoType)) :
    logs transaction (ProcPPP session frame).2 = (ProcPPP session frame).2 := by
  rw [logs, List.filter_eq_self]
  intro report member
  obtain ⟨owner, role', routed', own⟩ := (proc_sound sound frame).2 report member
  rw [routed] at routed'
  obtain rfl : transaction = owner := (Prod.mk.inj (Option.some.inj routed')).1
  exact decide_eq_true own

theorem closed_open {record : TSess} (ucProtoType : Nat) (open_ : record.ucFlag ≠ 3) :
    record.closed ucProtoType = (record, []) := if_neg open_

theorem closed_both {record : TSess} (ucProtoType : Nat) (both : record.ucFlag = 3) :
    record.closed ucProtoType = (.zero, [⟨ucProtoType, record.ucReqMsgCode, record⟩]) := if_pos both

theorem tracks_open {frame : Frame} {role : Role} {ucProtoType : Nat} {record : TSess} (sound : Sound session)
    (routed : route frame = some (transaction, role, ucProtoType))
    (closes : Closes session transaction ucProtoType record (ProcPPP session frame))
    (incomplete : ¬Completes transaction seen frame) (open_ : record.ucFlag ≠ 3)
    (tracks : Tracks transaction (seen ++ [frame]) record) : Stepped transaction seen frame session := by
  refine Or.inl ⟨?_, incomplete, ?_⟩
  · rw [logs_own sound routed, closes.reports, closed_open ucProtoType open_]
  · rw [closes.sess, Function.update_self, closed_open ucProtoType open_]
    exact tracks

/-- The reply to the last request. -/
theorem tracks_completed {frame ask : Frame} {role : Role} {ucProtoType : Nat} {record : TSess}
    (sound : Sound session) (routed : route frame = some (transaction, role, ucProtoType))
    (answers : role ≠ .request) (closes : Closes session transaction ucProtoType record (ProcPPP session frame))
    (last : lastRequest transaction seen = some ask) (same : ask.ucID = frame.ucID)
    (core : record.core = ⟨3, frame.ucID, ask.ucCode⟩) : Stepped transaction seen frame session := by
  have both : record.ucFlag = 3 := congrArg Core.flag core
  have replies : frame.Is transaction role := (is_routed routed role).mpr rfl
  refine Or.inr ⟨⟨ucProtoType, record.ucReqMsgCode, record⟩, ?_, ⟨?_, ask, last, same⟩, ?_, ?_⟩
  · rw [logs_own sound routed, closes.reports, closed_both ucProtoType both]
  · cases role with
    | request => exact absurd rfl answers
    | reply => exact Or.inl replies
    | anyReply => exact Or.inr replies
  · refine ⟨ask, last, congrArg Core.code core, (congrArg Core.id core).trans same.symm, same, ?_⟩
    exact reply_opposite (last_request_is last) replies answers
  · rw [closes.sess, Function.update_self, closed_both ucProtoType both]
    exact ⟨rfl, rfl⟩

theorem stepped (sound : Sound session) (frame : Frame)
    (tracks : Tracks transaction seen (session.sess transaction))
    (regular : RegularFrame transaction seen frame) : Stepped transaction seen frame session := by
  have follows := proc_follows sound.opened frame
  cases routed : route frame with
  | none =>
      rw [routed] at follows
      apply stepped_apart tracks _ _ (follows.cores transaction)
      · intro role is
        rw [Frame.Is, routed] at is
        exact nomatch is
      · rw [follows.reports]
        rfl
  | some entry =>
      obtain ⟨owner, role, ucProtoType⟩ := entry
      rw [routed] at follows
      obtain ⟨record, core, closes⟩ := follows
      by_cases own : owner = transaction
      · subst own
        have is := is_routed routed
        rw [Tracks] at tracks
        cases role with
        | request =>
            have incomplete : ¬Completes owner seen frame :=
              not_completes (fun other => nomatch (is .reply).mp other) fun other => nomatch (is .anyReply).mp other
            have asked : record.core = ⟨1, frame.ucID, frame.ucCode⟩ := by
              rw [core, TSess.meets]
              cases last : lastRequest owner seen with
              | none =>
                  rw [last] at tracks
                  rw [tracks.1]
                  rfl
              | some ask =>
                  rw [last] at tracks
                  have flag : (session.sess owner).ucFlag = 1 := congrArg Core.flag tracks
                  rw [flag]
                  rfl
            have flag : record.ucFlag = 1 := congrArg Core.flag asked
            apply tracks_open sound routed closes incomplete (by rw [flag]; decide)
            rw [Tracks, last_request_snoc, if_pos ((is .request).mpr rfl)]
            exact asked
        | reply =>
            have other : ¬frame.Is owner .request := fun asks => nomatch (is .request).mp asks
            rw [TSess.meets] at core
            cases last : lastRequest owner seen with
            | none =>
                rw [last] at tracks
                have incomplete : ¬Completes owner seen frame := by
                  intro completes
                  obtain ⟨-, ask, member, -⟩ := completes
                  rw [last] at member
                  exact nomatch member
                have apart : (session.sess owner).uiID ≠ frame.ucID := by
                  rw [tracks.2]
                  exact Ne.symm (regular.1 ((is .reply).mpr rfl) last)
                rw [if_pos apart] at core
                have flag : record.ucFlag = 0 := (congrArg Core.flag core).trans tracks.1
                apply tracks_open sound routed closes incomplete (by rw [flag]; decide)
                refine tracks_kept ?_ core other
                rw [Tracks, last]
                exact tracks
            | some ask =>
                rw [last] at tracks
                have flag : (session.sess owner).ucFlag = 1 := congrArg Core.flag tracks
                have id : (session.sess owner).uiID = ask.ucID := congrArg Core.id tracks
                have code : (session.sess owner).ucReqMsgCode = ask.ucCode := congrArg Core.code tracks
                rw [id] at core
                by_cases same : ask.ucID = frame.ucID
                · rw [if_neg (not_not_intro same), flag, code] at core
                  exact tracks_completed sound routed (by decide) closes last same core
                · rw [if_pos same] at core
                  have incomplete : ¬Completes owner seen frame := by
                    intro completes
                    obtain ⟨-, ask', member, equal⟩ := completes
                    rw [last] at member
                    cases member
                    exact same equal
                  have stays : record.ucFlag = 1 := (congrArg Core.flag core).trans flag
                  apply tracks_open sound routed closes incomplete (by rw [stays]; decide)
                  refine tracks_kept ?_ core other
                  rw [Tracks, last]
                  exact tracks
        | anyReply =>
            obtain ⟨ask, last, same⟩ := regular.2 ((is .anyReply).mpr rfl)
            rw [last] at tracks
            have flag : (session.sess owner).ucFlag = 1 := congrArg Core.flag tracks
            have code : (session.sess owner).ucReqMsgCode = ask.ucCode := congrArg Core.code tracks
            rw [TSess.meets, flag, code] at core
            exact tracks_completed sound routed (by decide) closes last same core
      · apply stepped_apart tracks (other_record routed own)
        · apply logs_other sound
          intro role' ucProtoType' routed'
          rw [routed] at routed'
          exact own (Prod.mk.inj (Option.some.inj routed')).1
        · rw [closes.sess, Function.update_of_ne (Ne.symm own)]

/-- A record is cleared when it is reported. -/
theorem reported_clears {frame : Frame} (sound : Sound session)
    (some : logs transaction (ProcPPP session frame).2 ≠ []) :
    (ProcPPP session frame).1.sess transaction = .zero := by
  have follows := proc_follows sound.opened frame
  cases routed : route frame with
  | none =>
      rw [routed] at follows
      rw [follows.reports] at some
      exact absurd rfl some
  | some entry =>
      obtain ⟨owner, role, ucProtoType⟩ := entry
      rw [routed] at follows
      obtain ⟨record, -, closes⟩ := follows
      by_cases own : owner = transaction
      · subst own
        rw [closes.sess, Function.update_self]
        rcases closed_sess record ucProtoType with ⟨zero, -⟩ | ⟨-, open_⟩
        · exact zero
        · rw [closes.reports, closed_open ucProtoType open_] at some
          exact absurd rfl some
      · refine absurd (logs_other sound ?_) some
        intro role' ucProtoType' routed'
        rw [routed] at routed'
        exact own (Prod.mk.inj (Option.some.inj routed')).1

/-- The record behind any frames, of which those since its last report are regular. -/
theorem run_tracks (frames : List Frame) (regular : Regular transaction (since transaction frames)) :
    Tracks transaction (since transaction frames) ((run frames).sess transaction) := by
  induction frames using List.reverseRecOn with
  | nil => exact ⟨rfl, rfl⟩
  | append_singleton frames frame ih =>
      rw [since_snoc] at regular ⊢
      rw [run_snoc]
      by_cases none : reported transaction frames frame = []
      · rw [if_pos none] at regular ⊢
        obtain ⟨before, here⟩ := regular_snoc.mp regular
        rcases stepped (run_sound frames) frame (ih before) here with ⟨-, -, tracks⟩ | ⟨report, some, -⟩
        · exact tracks
        · rw [reported, some] at none
          exact nomatch none
      · rw [if_neg none, reported_clears (run_sound frames) none]
        exact ⟨rfl, rfl⟩

end Steps

section Pairing

variable (transaction : Transaction) (frames : List Frame) (frame : Frame)

/-- A request and a reply of the record with one identifier that come from opposite sides. -/
def Paired (seen : List Frame) : Prop :=
  ∃ ask ∈ seen, ∃ answer ∈ seen, ask.Is transaction .request ∧
    (answer.Is transaction .reply ∨ answer.Is transaction .anyReply) ∧ answer.ucID = ask.ucID ∧
      answer.bRtxType = ask.bRtxType.opposite

/-- At each frame, the log is reported once if the reply to the last request comes with it, and else not.
What is reported is not looked at again. -/
theorem signal_reported_iff (regular : Regular transaction (since transaction frames ++ [frame])) :
    (Completes transaction (since transaction frames) frame →
      since transaction (frames ++ [frame]) = [] ∧ ∃ report, reported transaction frames frame = [report] ∧
        Describes transaction (since transaction frames) frame report) ∧
      (¬Completes transaction (since transaction frames) frame →
        since transaction (frames ++ [frame]) = since transaction frames ++ [frame] ∧
          reported transaction frames frame = []) := by
  obtain ⟨before, here⟩ := regular_snoc.mp regular
  rw [since_snoc]
  rcases stepped (run_sound frames) frame (run_tracks frames before) here with
    ⟨none, incomplete, -⟩ | ⟨report, single, completes, describes, -⟩
  · exact ⟨fun completes => absurd completes incomplete, fun _ => ⟨if_pos none, none⟩⟩
  · have some : reported transaction frames frame ≠ [] := by
      rw [reported, single]
      exact List.cons_ne_nil _ _
    exact ⟨fun _ => ⟨if_neg some, report, single, describes⟩, fun incomplete => absurd completes incomplete⟩

def lcpFrame (bRtxType : Direction) (ucCode ucID : Nat) : Frame where
  bRtxType := bRtxType
  time := ⟨1, 0⟩
  wProtocol := PPP_LCP
  ucCode := ucCode
  ucID := ucID
  ucIPAddr := 0
  szUserName := []

theorem conf_ack_reported : ∃ report, reported .UpLCP [lcpFrame .client DEF_LCP_CONF_REQ 1]
      (lcpFrame .server DEF_LCP_CONF_ACK 1) = [report] ∧
    Describes .UpLCP (since .UpLCP [lcpFrame .client DEF_LCP_CONF_REQ 1])
      (lcpFrame .server DEF_LCP_CONF_ACK 1) report := by
  have seen : since .UpLCP [lcpFrame .client DEF_LCP_CONF_REQ 1] = [] ++ [lcpFrame .client DEF_LCP_CONF_REQ 1] := by
    decide
  have regular : Regular .UpLCP (since .UpLCP [lcpFrame .client DEF_LCP_CONF_REQ 1] ++
      [lcpFrame .server DEF_LCP_CONF_ACK 1]) := by
    rw [seen, regular_snoc, regular_snoc]
    refine ⟨⟨?_, by decide, fun other => absurd other (by decide)⟩,
      by decide, fun other => absurd other (by decide)⟩
    intro before frame inside
    exact absurd (List.prefix_nil.mp inside) (List.append_ne_nil_of_right_ne_nil _ (List.cons_ne_nil _ _))
  have completes : Completes .UpLCP (since .UpLCP [lcpFrame .client DEF_LCP_CONF_REQ 1])
      (lcpFrame .server DEF_LCP_CONF_ACK 1) := by
    refine ⟨Or.inl (by decide), lcpFrame .client DEF_LCP_CONF_REQ 1, ?_, rfl⟩
    rw [seen]
    decide
  exact ((signal_reported_iff .UpLCP _ _ regular).1 completes).2

/-- The reply to a request that another one followed is not reported, and the two sides of a termination
are not told apart. -/
theorem signal_pairs_missed :
    (¬ ∀ transaction frames frame, Paired transaction (since transaction frames ++ [frame]) →
        reported transaction frames frame ≠ []) ∧
      ¬ ∀ transaction frames frame, reported transaction frames frame ≠ [] →
        Paired transaction (since transaction frames ++ [frame]) := by
  constructor
  · intro every
    apply every .UpLCP [lcpFrame .client DEF_LCP_CONF_REQ 1, lcpFrame .client DEF_LCP_CONF_REQ 2]
      (lcpFrame .server DEF_LCP_CONF_ACK 1)
    · refine ⟨lcpFrame .client DEF_LCP_CONF_REQ 1, ?_, lcpFrame .server DEF_LCP_CONF_ACK 1, ?_, ?_, ?_, rfl, rfl⟩
      · decide
      · decide
      · decide
      · decide
    · decide
  · intro every
    obtain ⟨ask, asked, answer, answered, -, -, -, opposite⟩ := every .LCPTerm
      [lcpFrame .client DEF_LCP_TERM_REQ 1] (lcpFrame .client DEF_LCP_TERM_ACK 1) (by decide)
    have client : ∀ frame ∈ since .LCPTerm [lcpFrame .client DEF_LCP_TERM_REQ 1] ++
        [lcpFrame .client DEF_LCP_TERM_ACK 1], frame.bRtxType = .client := by decide
    rw [client ask asked, client answer answered] at opposite
    exact nomatch opposite

end Pairing

end Upst.PppSignal
