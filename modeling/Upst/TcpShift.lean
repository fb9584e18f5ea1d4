import Upst.TcpDeliver

/-!
The first sequence number of a direction takes no part in what is delivered. A session whose numbers are
all moved, by one amount for each direction, hands over the same segments, cut at the same places, and
deletes the same nodes.
-/

namespace Upst.TcpDeliver

open Tcp TcpOverlap TcpPending TcpAck

set_option autoImplicit false

section Numbers

variable {add : UInt32}

theorem offset_shift (base seq : UInt32) : offsetSeq (base + add) (seq + add) = offsetSeq base seq := by
  rw [offset_seq_eq, offset_seq_eq]
  grind

theorem next_shift (next last : UInt32) : next + add - (last + add) = next - last := by
  grind

theorem end_shift (seq size : UInt32) : seq + add + size = seq + size + add := by
  grind

theorem add_s32_shift (word : UInt32) (size : Int) :
    addS32 (word + add) size = addS32 word size + add := by
  apply UInt32.toNat_inj.mp
  have moved := add_s32_nat (word + add) size
  have plain := add_s32_nat word size
  rw [UInt32.toNat_add] at moved ⊢
  omega

end Numbers

section Shift

def TcpInfo.shift (add : UInt32) (info : TcpInfo) : TcpInfo :=
  { info with uiSeqNum := info.uiSeqNum + add }

def Segment.shift (add : UInt32) (seg : Segment) : Segment :=
  { seg with
    seq := seg.seq + add
    info := TcpInfo.shift add seg.info }

def Stream.shift (add : UInt32) (stream : TcpPending.Stream) : TcpPending.Stream :=
  { stream with
    uiBase := stream.uiBase + add
    uiLastSeq := stream.uiLastSeq + add
    uiNextSeq := stream.uiNextSeq + add
    uiRcvAck := stream.uiRcvAck + add
    data := stream.data.map (Segment.shift add) }

/-- The numbers of the packet by its direction, and what it acknowledges by the other one. -/
def Arrival.shift (ucSynRtx : Rtx) (req res : UInt32) (packet : Arrival) : Arrival :=
  if ucSynRtx ≠ packet.bRtxType then { packet with seq := packet.seq + res, ack := packet.ack + req }
  else { packet with seq := packet.seq + req, ack := packet.ack + res }

def Calc.shift (add : UInt32) (outcome : Calc) : Calc :=
  { outcome with info := TcpInfo.shift add outcome.info }

def Inserted.shift (add : UInt32) (inserted : Inserted) : Inserted :=
  { inserted with data := inserted.data.map (Segment.shift add) }

def Streams.shift (req res : UInt32) (sess : Streams) : Streams :=
  { sess with
    req := Stream.shift req sess.req
    res := Stream.shift res sess.res }

/-- The state with the numbers of each direction moved. What was counted and deleted is the same. -/
def Delivery.shift (req res : UInt32) (delivery : Delivery) : Delivery :=
  { delivery with
    sess := Streams.shift req res delivery.sess
    req := delivery.req.map (Segment.shift req)
    res := delivery.res.map (Segment.shift res) }

end Shift

section Insert

variable {add : UInt32} {stream : TcpPending.Stream} {new : Segment} {info : TcpInfo}

theorem cut_front_shift (size : Int) :
    (TcpInfo.shift add info).cutFront size = TcpInfo.shift add (info.cutFront size) := by
  simp only [TcpInfo.cutFront, TcpInfo.shift, add_s32_shift]

theorem cut_back_shift (size : Int) :
    (TcpInfo.shift add info).cutBack size = TcpInfo.shift add (info.cutBack size) := by
  simp only [TcpInfo.cutBack, TcpInfo.shift]

theorem calc_retrans_shift (base old size : UInt32) :
    calcRetrans (TcpInfo.shift add info) (base + add) (old + add) size =
      Calc.shift add (calcRetrans info base old size) := by
  have start : offsetSeq (base + add) (TcpInfo.shift add info).uiSeqNum =
      offsetSeq base info.uiSeqNum := offset_shift ..
  have same : (TcpInfo.shift add info).uiDataSize = info.uiDataSize := rfl
  simp only [calcRetrans, start, same, offset_shift, cut_front_shift, cut_back_shift,
    apply_ite (Calc.shift add)]
  simp only [Calc.shift]

theorem calc_base_shift :
    (Stream.shift add stream).base (Segment.shift add new).info =
      Calc.shift add (stream.base new.info) := by
  have start : offsetSeq (stream.uiBase + add) (TcpInfo.shift add new.info).uiSeqNum =
      offsetSeq stream.uiBase new.info.uiSeqNum := offset_shift ..
  have same : (TcpInfo.shift add new.info).uiDataSize = new.info.uiDataSize := rfl
  have marked : (Segment.shift add new).info = TcpInfo.shift add new.info := rfl
  simp only [TcpPending.Stream.base, Stream.shift, calcBase, marked, start, same, offset_shift, next_shift,
    cut_front_shift, apply_ite (Calc.shift add)]
  simp only [Calc.shift]

theorem mark_shift :
    (Stream.shift add stream).markRcvAck (TcpInfo.shift add info) =
      TcpInfo.shift add (stream.markRcvAck info) := by
  have start : offsetSeq (stream.uiBase + add) (TcpInfo.shift add info).uiSeqNum =
      offsetSeq stream.uiBase info.uiSeqNum := offset_shift ..
  simp only [TcpPending.Stream.markRcvAck, Stream.shift, start, offset_shift,
    apply_ite (TcpInfo.shift add)]
  rfl

theorem copy_shift (prev : TcpInfo) :
    copyAck (TcpInfo.shift add prev) (TcpInfo.shift add info) =
      TcpInfo.shift add (copyAck prev info) := by
  rw [copyAck, copyAck, apply_ite (TcpInfo.shift add)]
  rfl

theorem insert_head_shift (head : Segment) (after : List Segment) :
    (Stream.shift add stream).insertHead (Segment.shift add head) (after.map (Segment.shift add))
        (Segment.shift add new) = Inserted.shift add (stream.insertHead head after new) := by
  simp only [TcpPending.Stream.insertHead, calc_base_shift, apply_ite (Inserted.shift add)]
  rfl

theorem replace_head_shift (head : Segment) (after : List Segment) :
    (Stream.shift add stream).replaceHead (Segment.shift add head) (after.map (Segment.shift add))
        (Segment.shift add new) = Inserted.shift add (stream.replaceHead head after new) := by
  simp only [TcpPending.Stream.replaceHead, calc_base_shift]
  rfl

theorem count_shift (inserted : Inserted) (size : Int) :
    (Inserted.shift add inserted).count size = Inserted.shift add (inserted.count size) := rfl

theorem copied_shift (prev : Segment) (info : TcpInfo) :
    ({ Segment.shift add new with
      info := copyAck (Segment.shift add prev).info (TcpInfo.shift add info) } : Segment) =
        Segment.shift add { new with info := copyAck prev.info info } :=
  congrArg (fun info => ({ Segment.shift add new with info := info } : Segment)) (copy_shift prev.info)

theorem compared_shift (prev : Segment) :
    calcRetrans (Segment.shift add new).info (Stream.shift add stream).uiBase
        (Segment.shift add prev).info.uiSeqNum (Segment.shift add prev).info.uiDataSize =
      Calc.shift add (calcRetrans new.info stream.uiBase prev.info.uiSeqNum prev.info.uiDataSize) :=
  calc_retrans_shift ..

/-- Each comparison comes out as before, and so the loop goes on with the same part of the segment. -/
theorem scan_shift (before : List Segment) (prev : Segment) (after : List Segment) :
    (Stream.shift add stream).scan (before.map (Segment.shift add)) (Segment.shift add prev)
        (after.map (Segment.shift add)) (Segment.shift add new) =
      Inserted.shift add (stream.scan before prev after new) := by
  induction before generalizing prev after new with
  | nil =>
      rw [TcpPending.Stream.scan.eq_def, TcpPending.Stream.scan.eq_def]
      dsimp only
      rw [compared_shift]
      generalize calcRetrans new.info stream.uiBase prev.info.uiSeqNum prev.info.uiDataSize = found
      cases kind : found.result with
      | noRetransUnder | retransUnder =>
          simp only [Calc.shift, kind, List.map_nil, copied_shift, insert_head_shift, count_shift]
      | retransRsubset =>
          simp only [Calc.shift, kind, List.map_nil, copied_shift, replace_head_shift, count_shift]
      | noRetransOver | retransOver | retransSubset =>
          simp only [Calc.shift, kind, mark_shift]
          simp [Inserted.shift, Inserted.count, Segment.shift]
  | cons next before ih =>
      rw [TcpPending.Stream.scan.eq_def, TcpPending.Stream.scan.eq_def]
      dsimp only
      rw [compared_shift]
      generalize calcRetrans new.info stream.uiBase prev.info.uiSeqNum prev.info.uiDataSize = found
      cases kind : found.result with
      | noRetransUnder | retransUnder =>
          have later : ∀ new, (Stream.shift add stream).scan (before.map (Segment.shift add))
              (Segment.shift add next) (Segment.shift add prev :: after.map (Segment.shift add))
              (Segment.shift add new) = Inserted.shift add (stream.scan before next (prev :: after) new) :=
            fun _ => ih next (prev :: after)
          simp only [Calc.shift, kind, List.map_cons, copied_shift, later, count_shift]
      | retransRsubset =>
          simp only [Calc.shift, kind, List.map_cons, copied_shift, ih]
          rfl
      | noRetransOver | retransOver | retransSubset =>
          simp only [Calc.shift, kind, mark_shift]
          simp [Inserted.shift, Inserted.count, Segment.shift]

theorem insert_shift :
    (Stream.shift add stream).insert (Segment.shift add new) =
      Inserted.shift add (stream.insert new) := by
  have backwards : (Stream.shift add stream).data.reverse =
      stream.data.reverse.map (Segment.shift add) := List.map_reverse.symm
  rw [TcpPending.Stream.insert, TcpPending.Stream.insert, backwards]
  cases stream.data.reverse with
  | nil =>
      simp only [List.map_nil, TcpPending.Stream.insertFirst, calc_base_shift, Calc.shift, mark_shift,
        apply_ite (Inserted.shift add)]
      rfl
  | cons last before => exact scan_shift before last []

end Insert

section Session

variable {req res add : UInt32} {sess : Streams} {packet : Arrival} {stream : TcpPending.Stream}

theorem mark_acked_shift (base ack : UInt32) (curtime ucurtime : Int) (data : List Segment) :
    markAcked (base + add) (ack + add) curtime ucurtime (data.map (Segment.shift add)) =
      (markAcked base ack curtime ucurtime data).map (Segment.shift add) := by
  induction data with
  | nil => rfl
  | cons seg rest ih =>
      have begins : offsetSeq (base + add) (Segment.shift add seg).seq = offsetSeq base seg.seq :=
        offset_shift ..
      rw [List.map_cons, markAcked, markAcked, begins, offset_shift, ih, apply_ite (List.map _)]
      by_cases acked : seg.info.uiAckTime = 0
      · simp only [Segment.shift, TcpInfo.shift, acked, List.map_cons, if_true]
      · simp only [Segment.shift, TcpInfo.shift, acked, List.map_cons, if_false]

theorem shift_others : (Arrival.shift sess.ucSynRtx req res packet).bRtxType = packet.bRtxType ∧
    (Arrival.shift sess.ucSynRtx req res packet).wDataLen = packet.wDataLen ∧
    (Arrival.shift sess.ucSynRtx req res packet).node = packet.node := by
  rw [Arrival.shift]
  split <;> exact ⟨rfl, rfl, rfl⟩

theorem dCheckAck_shift :
    dCheckAck (Streams.shift req res sess) (Arrival.shift sess.ucSynRtx req res packet) =
      Streams.shift req res (dCheckAck sess packet) := by
  rw [dCheckAck, shift_others.1, dCheckAck, apply_ite (Streams.shift req res)]
  refine ite_congr rfl (fun other => ?_) fun other => ?_
  · simp only [Arrival.shift, if_pos other, Streams.shift, TcpAck.Stream.checkAck, Stream.shift, mark_acked_shift]
  · simp only [Arrival.shift, if_neg other, Streams.shift, TcpAck.Stream.checkAck, Stream.shift, mark_acked_shift]

theorem dInsertTCPData_shift :
    (dInsertTCPData (Streams.shift req res sess) (Arrival.shift sess.ucSynRtx req res packet)).1 =
        Streams.shift req res (dInsertTCPData sess packet).1 ∧
      (dInsertTCPData (Streams.shift req res sess) (Arrival.shift sess.ucSynRtx req res packet)).2.freed =
        (dInsertTCPData sess packet).2.freed := by
  have first : (Streams.shift req res sess).req.insert (Segment.shift req packet.segment) =
      Inserted.shift req (sess.req.insert packet.segment) := insert_shift
  have second : (Streams.shift req res sess).res.insert (Segment.shift res packet.segment) =
      Inserted.shift res (sess.res.insert packet.segment) := insert_shift
  rw [dInsertTCPData, shift_others.1, dInsertTCPData]
  by_cases other : sess.ucSynRtx ≠ packet.bRtxType
  · have segment : (Arrival.shift sess.ucSynRtx req res packet).segment = Segment.shift res packet.segment := by
      rw [Arrival.shift, if_pos other]
      rfl
    rw [if_pos other, if_pos (show (Streams.shift req res sess).ucSynRtx ≠ _ from other), segment, second]
    exact ⟨rfl, rfl⟩
  · have segment : (Arrival.shift sess.ucSynRtx req res packet).segment = Segment.shift req packet.segment := by
      rw [Arrival.shift, if_neg other]
      rfl
    rw [if_neg other, if_neg (show ¬(Streams.shift req res sess).ucSynRtx ≠ _ from other), segment, first]
    exact ⟨rfl, rfl⟩

/-- Whether a segment is handed over is a matter of offsets and times. -/
def Unmoved (may : TcpPending.Stream → Segment → Bool) : Prop :=
  ∀ add stream seg, may (Stream.shift add stream) (Segment.shift add seg) = may stream seg

theorem ready_unmoved : Unmoved ready := by
  intro add stream seg
  simp only [ready, Stream.shift, Segment.shift, TcpInfo.shift, offset_shift]

theorem jump_shift (seg : Segment) :
    jump (Stream.shift add stream) (Segment.shift add seg) = jump stream seg := by
  simp only [jump, Stream.shift, Segment.shift, TcpInfo.shift, offset_shift]

theorem send_shift (seg : Segment) (rest : List Segment) :
    send (Stream.shift add stream) (Segment.shift add seg) (rest.map (Segment.shift add)) =
      Stream.shift add (send stream seg rest) := by
  simp only [send, Stream.shift, Segment.shift, TcpInfo.shift, end_shift]

theorem send_loop_shift {may : TcpPending.Stream → Segment → Bool} (unmoved : Unmoved may)
    (data : List Segment) :
    sendLoop may (Stream.shift add stream) (data.map (Segment.shift add)) =
      { sendLoop may stream data with
        stream := Stream.shift add (sendLoop may stream data).stream
        out := (sendLoop may stream data).out.map (Segment.shift add) } := by
  induction data generalizing stream with
  | nil => rfl
  | cons seg rest ih =>
      rw [List.map_cons, sendLoop, sendLoop, unmoved, send_shift, ih, jump_shift]
      split
      · rfl
      · rfl

theorem sends_shift {may : TcpPending.Stream → Segment → Bool} (unmoved : Unmoved may) (delivery : Delivery) :
    (Delivery.shift req res delivery).sends may = Delivery.shift req res (delivery.sends may) := by
  have first : sendLoop may (Delivery.shift req res delivery).sess.req
      (Delivery.shift req res delivery).sess.req.data = _ := send_loop_shift unmoved delivery.sess.req.data
  have second : sendLoop may (Delivery.shift req res delivery).sess.res
      (Delivery.shift req res delivery).sess.res.data = _ := send_loop_shift unmoved delivery.sess.res.data
  rw [Delivery.sends, first, second, Delivery.sends, Delivery.shift, Delivery.shift]
  simp only [List.map_append]
  rfl

theorem kept_shift (delivery : Delivery) :
    (Delivery.shift req res delivery).kept (Arrival.shift delivery.sess.ucSynRtx req res packet) =
      Delivery.shift req res (delivery.kept packet) := by
  have acked : dCheckAck (Delivery.shift req res delivery).sess
      (Arrival.shift delivery.sess.ucSynRtx req res packet) =
        Streams.shift req res (dCheckAck delivery.sess packet) := dCheckAck_shift
  rw [Delivery.kept, acked, shift_others.2.1, shift_others.2.2, ← check_ack_syn delivery.sess packet]
  dsimp only
  rw [dInsertTCPData_shift.1, dInsertTCPData_shift.2, Delivery.kept, apply_ite (Delivery.shift req res)]
  rfl

theorem payload_shift (delivery : Delivery) :
    (Delivery.shift req res delivery).payload (Arrival.shift delivery.sess.ucSynRtx req res packet) =
      Delivery.shift req res (delivery.payload packet) := by
  rw [Delivery.payload, kept_shift]
  exact sends_shift ready_unmoved _

theorem payload_syn (delivery : Delivery) :
    (delivery.payload packet).sess.ucSynRtx = delivery.sess.ucSynRtx := by
  show (delivery.kept packet).sess.ucSynRtx = _
  rw [Delivery.kept]
  split
  · exact (insert_syn _ packet).trans (check_ack_syn ..)
  · exact check_ack_syn ..

/-- A run, and the end of the session after it, with all numbers of each direction moved is the run moved. -/
theorem sequence_shift (req res : UInt32) (sess : Streams) (packets : List Arrival) :
    ((packets.map (Arrival.shift sess.ucSynRtx req res)).foldl Delivery.payload
        (opening (Streams.shift req res sess))).dSendAllData =
      Delivery.shift req res ((packets.foldl Delivery.payload (opening sess)).dSendAllData) := by
  have run : ∀ delivery : Delivery, delivery.sess.ucSynRtx = sess.ucSynRtx →
      (packets.map (Arrival.shift sess.ucSynRtx req res)).foldl Delivery.payload
        (Delivery.shift req res delivery) = Delivery.shift req res (packets.foldl Delivery.payload delivery) := by
    induction packets with
    | nil => exact fun _ _ => rfl
    | cons packet packets ih =>
        intro delivery same
        rw [List.map_cons, List.foldl_cons, List.foldl_cons, ← same, payload_shift, same]
        exact ih (delivery.payload packet) ((payload_syn delivery).trans same)
  have begun : opening (Streams.shift req res sess) = Delivery.shift req res (opening sess) := rfl
  rw [begun, run (opening sess) rfl]
  exact sends_shift (fun _ _ _ => rfl) _

end Session

end Upst.TcpDeliver
