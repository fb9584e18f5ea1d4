import Upst.Spans
import Upst.Tcp
import Upst.TcpOverlap

/-!
The segments of a TCP session that wait for their acknowledgement. Each direction keeps them on
a ring of nodes; `data` lists the ring from the node that the session points to. A new segment
is compared with the ring from its last node backwards.
-/

namespace Upst.TcpPending

open Spans Tcp TcpOverlap

set_option autoImplicit false

section Streams

/-- A node of the ring: what `INFO_ETH` says of its packet, and its `TCP_INFO`. -/
structure Segment where
  node : Nat
  seq : UInt32
  wDataLen : UInt16
  info : TcpInfo
  deriving DecidableEq, Repr

/-- The fields of a session that belong to one direction: `uiSynSeq` and the `Req` fields, or
`uiSynAckSeq` and the `Res` fields. -/
structure Stream where
  uiBase : UInt32
  uiLastSeq : UInt32
  uiNextSeq : UInt32
  uiRcvAck : UInt32
  uiRcvAckTime : Int
  uiRcvAckMTime : Int
  data : List Segment
  deriving DecidableEq, Repr

structure Streams where
  ucSynRtx : Rtx
  req : Stream
  res : Stream
  deriving DecidableEq, Repr

/-- The node of a packet with what `CAP_HEADER` and `INFO_ETH` say of it. -/
structure Arrival where
  node : Nat
  bRtxType : Rtx
  seq : UInt32
  ack : UInt32
  wDataLen : UInt16
  offset : Int
  curtime : Int
  ucurtime : Int
  deriving DecidableEq, Repr

end Streams

section Insert

/-- The fresh segment of a packet. -/
def Arrival.segment (packet : Arrival) : Segment where
  node := packet.node
  seq := packet.seq
  wDataLen := packet.wDataLen
  info :=
    { uiSeqNum := packet.seq
      uiDataSize := packet.wDataLen.toUInt32
      uiSOffset := packet.offset
      uiAckTime := 0
      uiAckMTime := 0 }

/-- The acknowledgement that was seen before its segment. -/
def Stream.markRcvAck (stream : Stream) (info : TcpInfo) : TcpInfo :=
  if stream.uiRcvAckTime > 0 ∧
      offsetSeq stream.uiBase info.uiSeqNum + info.uiDataSize ≤
        offsetSeq stream.uiBase stream.uiRcvAck then
    { info with uiAckTime := stream.uiRcvAckTime, uiAckMTime := stream.uiRcvAckMTime }
  else info

/-- A segment takes the time of the later segment it overlaps or precedes. -/
def copyAck (prev info : TcpInfo) : TcpInfo :=
  if prev.uiAckTime > 0 ∧ info.uiAckTime = 0 then
    { info with uiAckTime := prev.uiAckTime, uiAckMTime := prev.uiAckMTime }
  else info

def Stream.base (stream : Stream) (info : TcpInfo) : Calc :=
  calcBase info stream.uiBase stream.uiLastSeq (stream.uiNextSeq - stream.uiLastSeq)

def linked (result : Retrans) : Bool :=
  result = .noRetransOver ∨ result = .retransOver

/-- The ring, the deleted nodes and the amount added to `*delFlag`. -/
structure Inserted where
  data : List Segment
  freed : List Nat
  delFlag : Int
  deriving DecidableEq, Repr

def Inserted.count (inserted : Inserted) (retransSize : Int) : Inserted :=
  { inserted with delFlag := inserted.delFlag + retransSize }

def Inserted.free (inserted : Inserted) (node : Nat) : Inserted :=
  { inserted with freed := node :: inserted.freed }

/-- `pHead == NULL`. -/
def Stream.insertFirst (stream : Stream) (new : Segment) : Inserted :=
  let outcome := stream.base new.info
  if linked outcome.result then
    ⟨[{ new with info := stream.markRcvAck outcome.info }], [], outcome.retransSize⟩
  else ⟨[], [new.node], outcome.retransSize⟩

/-- `pHead == pPrev`, and the segment lies below the head or overlaps its lower part. -/
def Stream.insertHead (stream : Stream) (head : Segment) (after : List Segment) (new : Segment) :
    Inserted :=
  let outcome := stream.base new.info
  if linked outcome.result then
    ⟨{ new with info := outcome.info } :: head :: after, [], outcome.retransSize⟩
  else ⟨head :: after, [new.node], outcome.retransSize⟩

/-- `pHead == pPrev`, and the segment covers the head. What `CalcBase` returns is not looked at. -/
def Stream.replaceHead (stream : Stream) (head : Segment) (after : List Segment) (new : Segment) :
    Inserted :=
  let outcome := stream.base new.info
  ⟨{ new with info := outcome.info } :: after, [head.node], outcome.retransSize⟩

/-- One turn of the loop, and those after it. `prev` is compared with the new segment; `before`
lists the nodes that precede it, the nearest first. -/
def Stream.scan (stream : Stream) :
    List Segment → Segment → List Segment → Segment → Inserted
  | before, prev, after, new =>
    let outcome := calcRetrans new.info stream.uiBase prev.info.uiSeqNum prev.info.uiDataSize
    let copied := { new with info := copyAck prev.info outcome.info }
    let turn : Inserted :=
      match outcome.result with
      | .noRetransOver | .retransOver =>
        ⟨before.reverse ++
          prev :: { new with info := stream.markRcvAck outcome.info } :: after, [], 0⟩
      | .retransSubset => ⟨before.reverse ++ prev :: after, [new.node], 0⟩
      | .noRetransUnder | .retransUnder =>
        match before with
        | [] => stream.insertHead prev after copied
        | next :: before =>
          (stream.scan before next (prev :: after) copied).count outcome.retransSize
      | .retransRsubset =>
        match before with
        | [] => stream.replaceHead prev after copied
        | next :: before =>
          ((stream.scan before next after copied).free prev.node).count outcome.retransSize
    turn.count outcome.retransSize

def Stream.insert (stream : Stream) (new : Segment) : Inserted :=
  match stream.data.reverse with
  | [] => stream.insertFirst new
  | last :: before => stream.scan before last [] new

/-- Data from the side that sent the SYN goes to the request ring. -/
def dInsertTCPData (sess : Streams) (packet : Arrival) : Streams × Inserted :=
  if sess.ucSynRtx ≠ packet.bRtxType then
    let inserted := sess.res.insert packet.segment
    ({ sess with res := { sess.res with data := inserted.data } }, inserted)
  else
    let inserted := sess.req.insert packet.segment
    ({ sess with req := { sess.req with data := inserted.data } }, inserted)

/-- The direction that a packet goes to. -/
def Streams.side (sess : Streams) (packet : Arrival) : Stream :=
  if sess.ucSynRtx ≠ packet.bRtxType then sess.res else sess.req

theorem insert_side (sess : Streams) (packet : Arrival) :
    (dInsertTCPData sess packet).2 = (sess.side packet).insert packet.segment := by
  rw [dInsertTCPData, Streams.side]
  split
  · rfl
  · rfl

theorem side_insert (sess : Streams) (packet : Arrival) :
    (dInsertTCPData sess packet).1.side packet =
      { sess.side packet with data := ((sess.side packet).insert packet.segment).data } := by
  by_cases other : sess.ucSynRtx ≠ packet.bRtxType
  · have side : sess.side packet = sess.res := if_pos other
    rw [side, dInsertTCPData, if_pos other]
    exact if_pos other
  · have side : sess.side packet = sess.req := if_neg other
    rw [side, dInsertTCPData, if_neg other]
    exact if_neg other

end Insert

section Places

variable {base : UInt32}

def Segment.start (base : UInt32) (seg : Segment) : Nat := seg.info.start base

def Segment.stop (base : UInt32) (seg : Segment) : Nat := seg.info.stop base

/-- All before this offset was sent. -/
def Stream.sent (stream : Stream) : Nat :=
  (offsetSeq stream.uiBase stream.uiLastSeq).toNat + (stream.uiNextSeq - stream.uiLastSeq).toNat

theorem Segment.start_lt_stop {seg : Segment} (fits : seg.info.Fits base) : seg.start base < seg.stop base := by
  have filled := fits.filled
  rw [Segment.start, Segment.stop, TcpInfo.stop]
  omega

/-- The segment of the same packet after comparisons that cut it. -/
structure Kept (base : UInt32) (new placed : Segment) : Prop where
  node : placed.node = new.node
  seq : placed.seq = new.seq
  wDataLen : placed.wDataLen = new.wDataLen
  fits : placed.info.Fits base
  offset : placed.info.uiSOffset - new.info.uiSOffset = (placed.start base : Int) - new.start base

theorem Kept.trans {new middle placed : Segment} (first : Kept base new middle)
    (second : Kept base middle placed) : Kept base new placed := by
  have left := first.offset
  have right := second.offset
  exact
    { node := second.node.trans first.node
      seq := second.seq.trans first.seq
      wDataLen := second.wDataLen.trans first.wDataLen
      fits := second.fits
      offset := by omega }

/-- The times of a segment take no part in where it is. -/
def TimesOnly (info marked : TcpInfo) : Prop :=
  marked.uiSeqNum = info.uiSeqNum ∧ marked.uiDataSize = info.uiDataSize ∧
    marked.uiSOffset = info.uiSOffset

theorem times_only_copy (prev info : TcpInfo) : TimesOnly info (copyAck prev info) := by
  rw [copyAck]
  split
  · exact ⟨rfl, rfl, rfl⟩
  · exact ⟨rfl, rfl, rfl⟩

theorem times_only_mark (stream : Stream) (info : TcpInfo) : TimesOnly info (stream.markRcvAck info) := by
  rw [Stream.markRcvAck]
  split
  · exact ⟨rfl, rfl, rfl⟩
  · exact ⟨rfl, rfl, rfl⟩

theorem TimesOnly.start {info marked : TcpInfo} (times : TimesOnly info marked) :
    marked.start base = info.start base := by
  rw [TcpInfo.start, TcpInfo.start, times.1]

theorem TimesOnly.stop {info marked : TcpInfo} (times : TimesOnly info marked) :
    marked.stop base = info.stop base := by
  rw [TcpInfo.stop, TcpInfo.stop, times.start, times.2.1]

theorem TimesOnly.fits {info marked : TcpInfo} (times : TimesOnly info marked) (fits : info.Fits base) :
    marked.Fits base := by
  constructor
  · rw [times.2.1]
    exact fits.filled
  · rw [times.2.1]
    exact fits.short
  · rw [times.stop]
    exact fits.inside

theorem kept_cut_front {new : Segment} (fits : new.info.Fits base) (retransSize : Int)
    (low : 0 ≤ new.start base + retransSize) (high : retransSize < new.info.uiDataSize.toNat)
    (short : new.info.uiDataSize.toNat - retransSize < 2 ^ 31) {marked : TcpInfo}
    (times : TimesOnly (new.info.cutFront retransSize) marked) :
    Kept base new { new with info := marked } ∧
    (({ new with info := marked } : Segment).start base : Int) = new.start base + retransSize ∧
    ({ new with info := marked } : Segment).stop base = new.stop base := by
  obtain ⟨cutFits, start, stop⟩ := fits_cut_front fits retransSize low high short
  have moved : (marked.start base : Int) = new.info.start base + retransSize := by
    rw [times.start]
    exact start
  refine ⟨⟨rfl, rfl, rfl, times.fits cutFits, ?_⟩, moved, ?_⟩
  · rw [Segment.start, moved, Segment.start, times.2.2]
    simp only [TcpInfo.cutFront]
    omega
  · rw [Segment.stop, times.stop]
    exact stop

theorem kept_cut_back {new : Segment} (fits : new.info.Fits base) (retransSize : Int)
    (low : 0 ≤ retransSize) (high : retransSize < new.info.uiDataSize.toNat) {marked : TcpInfo}
    (times : TimesOnly (new.info.cutBack retransSize) marked) :
    Kept base new { new with info := marked } ∧
    ({ new with info := marked } : Segment).start base = new.start base ∧
    (({ new with info := marked } : Segment).stop base : Int) = new.stop base - retransSize := by
  obtain ⟨cutFits, stop⟩ := fits_cut_back fits retransSize low high
  have same : marked.start base = new.info.start base := by
    rw [times.start]
    exact start_cut_back retransSize
  refine ⟨⟨rfl, rfl, rfl, times.fits cutFits, ?_⟩, same, ?_⟩
  · rw [Segment.start, same, Segment.start, times.2.2]
    simp [TcpInfo.cutBack]
  · rw [Segment.stop, times.stop]
    exact stop

theorem kept_times {new : Segment} (fits : new.info.Fits base) {marked : TcpInfo}
    (times : TimesOnly new.info marked) :
    Kept base new { new with info := marked } ∧
    ({ new with info := marked } : Segment).start base = new.start base ∧
    ({ new with info := marked } : Segment).stop base = new.stop base := by
  have same : marked.start base = new.info.start base := times.start
  refine ⟨⟨rfl, rfl, rfl, times.fits fits, ?_⟩, same, times.stop⟩
  rw [Segment.start, same, Segment.start, times.2.2]
  simp

end Places

section Rule

variable {base : UInt32}

/-- The nodes not compared yet, in their order, and the segment to compare them with. -/
structure Ready (base : UInt32) (before : List Segment) (prev new : Segment) : Prop where
  fits : new.info.Fits base
  all : ∀ seg ∈ prev :: before, seg.info.Fits base
  ordered : (prev :: before).Pairwise fun later earlier => earlier.stop base ≤ later.start base

theorem Ready.next {before : List Segment} {next prev new placed : Segment}
    (ready : Ready base (next :: before) prev new) (fits : placed.info.Fits base) :
    Ready base before next placed where
  fits := fits
  all := fun seg member => ready.all seg (List.mem_cons_of_mem _ member)
  ordered := (List.pairwise_cons.mp ready.ordered).2

theorem Ready.earlier {before : List Segment} {prev new seg : Segment}
    (ready : Ready base before prev new) (member : seg ∈ before) : seg.stop base ≤ prev.start base :=
  (List.pairwise_cons.mp ready.ordered).1 seg member

/-- The new segment lies before the end of `prev`; `lower` is its part before `prev`. -/
structure Below (base : UInt32) (prev new lower : Segment) : Prop where
  kept : Kept base new lower
  left : new.start base < prev.start base
  right : new.stop base ≤ prev.stop base
  start : lower.start base = new.start base
  stop : lower.stop base = min (new.stop base) (prev.start base)

/-- The new segment covers `prev` and ends after it; `same` is the new segment. -/
structure Around (base : UInt32) (prev new same : Segment) : Prop where
  kept : Kept base new same
  left : new.start base < prev.start base
  right : prev.stop base < new.stop base
  start : same.start base = new.start base
  stop : same.stop base = new.stop base

/-- What has to be shown of a property of the outcomes of the loop: each way a turn can end it,
and each way a turn can go on to the node before. -/
structure ScanRule (stream : Stream)
    (P : List Segment → Segment → List Segment → Segment → Inserted → Prop) : Prop where
  link : ∀ before prev after new placed, Ready stream.uiBase before prev new →
    Kept stream.uiBase new placed →
    prev.start stream.uiBase ≤ new.start stream.uiBase →
    prev.stop stream.uiBase < new.stop stream.uiBase →
    placed.start stream.uiBase = max (new.start stream.uiBase) (prev.stop stream.uiBase) →
    placed.stop stream.uiBase = new.stop stream.uiBase →
    P before prev after new
      ⟨before.reverse ++ prev :: placed :: after, [],
        placed.start stream.uiBase - new.start stream.uiBase⟩
  within : ∀ before prev after new, Ready stream.uiBase before prev new →
    prev.start stream.uiBase ≤ new.start stream.uiBase →
    new.stop stream.uiBase ≤ prev.stop stream.uiBase →
    P before prev after new ⟨before.reverse ++ prev :: after, [new.node], new.info.uiDataSize.toNat⟩
  belowHead : ∀ prev after new lower, Ready stream.uiBase [] prev new →
    Below stream.uiBase prev new lower →
    P [] prev after new ((stream.insertHead prev after lower).count
      (new.stop stream.uiBase - lower.stop stream.uiBase))
  below : ∀ next rest prev after new lower inserted, Ready stream.uiBase (next :: rest) prev new →
    Below stream.uiBase prev new lower → P rest next (prev :: after) lower inserted →
    P (next :: rest) prev after new
      ((inserted.count (new.stop stream.uiBase - lower.stop stream.uiBase)).count
        (new.stop stream.uiBase - lower.stop stream.uiBase))
  aroundHead : ∀ prev after new same, Ready stream.uiBase [] prev new →
    Around stream.uiBase prev new same →
    P [] prev after new ((stream.replaceHead prev after same).count prev.info.uiDataSize.toNat)
  around : ∀ next rest prev after new same inserted, Ready stream.uiBase (next :: rest) prev new →
    Around stream.uiBase prev new same → P rest next after same inserted →
    P (next :: rest) prev after new (((inserted.free prev.node).count
      prev.info.uiDataSize.toNat).count prev.info.uiDataSize.toNat)

theorem Inserted.count_zero (data : List Segment) (freed : List Nat) (retransSize : Int) :
    Inserted.count ⟨data, freed, 0⟩ retransSize = ⟨data, freed, retransSize⟩ := by
  rw [Inserted.count, Int.zero_add]

variable {stream : Stream} {P : List Segment → Segment → List Segment → Segment → Inserted → Prop}

/-- One turn of the loop on an ordered ring. -/
theorem ScanRule.turn (rule : ScanRule stream P) {before after : List Segment} {prev new : Segment}
    (ready : Ready stream.uiBase before prev new)
    (later : ∀ next rest, before = next :: rest → ∀ after new, Ready stream.uiBase rest next new →
      P rest next after new (stream.scan rest next after new)) :
    P before prev after new (stream.scan before prev after new) := by
  have view := calc_retrans_compared ready.fits (ready.all prev List.mem_cons_self)
  have newStop : new.stop stream.uiBase = new.start stream.uiBase + new.info.uiDataSize.toNat := rfl
  have prevStop : prev.stop stream.uiBase = prev.start stream.uiBase + prev.info.uiDataSize.toNat := rfl
  have newFilled := ready.fits.filled
  have newShort := ready.fits.short
  have prevFilled := (ready.all prev List.mem_cons_self).filled
  rw [Stream.scan.eq_def]
  dsimp only
  generalize calcRetrans new.info stream.uiBase prev.info.uiSeqNum prev.info.uiDataSize = outcome at *
  cases view with
  | after apart =>
    change prev.stop stream.uiBase ≤ new.start stream.uiBase at apart
    obtain ⟨kept, start, stop⟩ := kept_times ready.fits (times_only_mark stream new.info)
    have shown := rule.link before prev after new _ ready kept (by omega) (by omega) (by omega) stop
    rw [start, Int.sub_self] at shown
    exact shown
  | within left right =>
    have shown := rule.within before prev after new ready left right
    rw [← Inserted.count_zero] at shown
    exact shown
  | beyond left overlap right =>
    change prev.start stream.uiBase ≤ new.start stream.uiBase at left
    change new.start stream.uiBase < prev.stop stream.uiBase at overlap
    change prev.stop stream.uiBase < new.stop stream.uiBase at right
    obtain ⟨kept, start, stop⟩ := kept_cut_front ready.fits
      (prev.stop stream.uiBase - new.start stream.uiBase) (by omega) (by omega) (by omega)
      (times_only_mark stream _)
    have shown := rule.link before prev after new _ ready kept left right (by omega) stop
    rw [start, add_sub_cancel_left, ← Inserted.count_zero] at shown
    exact shown
  | before apart =>
    change new.stop stream.uiBase ≤ prev.start stream.uiBase at apart
    obtain ⟨kept, start, stop⟩ := kept_times ready.fits (times_only_copy prev.info new.info)
    have lower : Below stream.uiBase prev new _ :=
      ⟨kept, by omega, by omega, start, by omega⟩
    cases before with
    | nil =>
      have shown := rule.belowHead prev after new _ ready lower
      rw [stop, Int.sub_self] at shown
      exact shown
    | cons next rest =>
      have shown := rule.below next rest prev after new _ _ ready lower
        (later next rest rfl _ _ (ready.next kept.fits))
      rw [stop, Int.sub_self] at shown
      exact shown
  | under left overlap right =>
    change new.start stream.uiBase < prev.start stream.uiBase at left
    change prev.start stream.uiBase < new.stop stream.uiBase at overlap
    change new.stop stream.uiBase ≤ prev.stop stream.uiBase at right
    obtain ⟨kept, start, stop⟩ := kept_cut_back ready.fits
      (new.stop stream.uiBase - prev.start stream.uiBase) (by omega) (by omega)
      (times_only_copy prev.info _)
    have lower : Below stream.uiBase prev new _ := ⟨kept, left, right, start, by omega⟩
    cases before with
    | nil =>
      have shown := rule.belowHead prev after new _ ready lower
      rw [stop, Int.sub_sub_self] at shown
      exact shown
    | cons next rest =>
      have shown := rule.below next rest prev after new _ _ ready lower
        (later next rest rfl _ _ (ready.next kept.fits))
      rw [stop, Int.sub_sub_self] at shown
      exact shown
  | around left right =>
    obtain ⟨kept, start, stop⟩ := kept_times ready.fits (times_only_copy prev.info new.info)
    have same : Around stream.uiBase prev new _ := ⟨kept, left, right, start, stop⟩
    cases before with
    | nil => exact rule.aroundHead prev after new _ ready same
    | cons next rest =>
      exact rule.around next rest prev after new _ _ ready same
        (later next rest rfl after _ (ready.next kept.fits))

/-- The whole loop, by induction on the nodes before the one compared. -/
theorem ScanRule.run (rule : ScanRule stream P) (before : List Segment) :
    ∀ prev after new, Ready stream.uiBase before prev new →
      P before prev after new (stream.scan before prev after new) := by
  induction before with
  | nil =>
    intro prev after new ready
    exact rule.turn ready nofun
  | cons next rest ih =>
    intro prev after new ready
    apply rule.turn ready
    intro other others same after new ready
    cases same
    exact ih next after new ready

end Rule

section Base

/-- The numbers of the sent part are in range. -/
structure Stream.SentFits (stream : Stream) : Prop where
  short : (stream.uiNextSeq - stream.uiLastSeq).toNat < 2 ^ 31
  inside : stream.sent ≤ 2 ^ 32

/-- The segment goes to this place, whatever its times are. -/
def Placed (base : UInt32) (new : Segment) (info : TcpInfo) (start : Nat) : Prop :=
  ∀ marked, TimesOnly info marked → Kept base new { new with info := marked } ∧
    ({ new with info := marked } : Segment).start base = start ∧
    ({ new with info := marked } : Segment).stop base = new.stop base

/-- What `CalcBase` makes of a segment. Only where nothing was sent may it be wrong. -/
inductive Settled (stream : Stream) (new : Segment) (outcome : Calc) : Prop where
  | fresh (isLinked : linked outcome.result = true)
      (placed : Placed stream.uiBase new outcome.info (max (new.start stream.uiBase) stream.sent))
      (remains : stream.sent < new.stop stream.uiBase)
      (first : stream.sent = 0 → new.start stream.uiBase = 0)
      (amount : outcome.retransSize =
        (max (new.start stream.uiBase) stream.sent : Nat) - new.start stream.uiBase)
  | known (notLinked : linked outcome.result = false) (same : outcome.info = new.info)
      (covered : new.stop stream.uiBase ≤ stream.sent)
      (amount : outcome.retransSize = new.info.uiDataSize.toNat)
  | extended (isLinked : linked outcome.result = true) (nothing : stream.sent = 0)
      (above : 0 < new.start stream.uiBase)
      (placed : Placed stream.uiBase new outcome.info 0)
      (amount : outcome.retransSize = -new.start stream.uiBase)
  | lost (notLinked : linked outcome.result = false) (same : outcome.info = new.info)
      (nothing : stream.sent = 0) (above : 0 < new.start stream.uiBase)
      (far : 2 ^ 31 ≤ new.stop stream.uiBase)
      (amount : outcome.retransSize = new.info.uiDataSize.toNat)

variable {stream : Stream} {new : Segment}

theorem linked_dropped {result : Retrans} (dropped : result.dropped) : linked result = false := by
  rcases dropped with rfl | rfl
  · rfl
  · rfl

theorem base_settled (sentFits : stream.SentFits) (fits : new.info.Fits stream.uiBase) :
    Settled stream new (stream.base new.info) := by
  have stop : new.stop stream.uiBase = new.start stream.uiBase + new.info.uiDataSize.toNat := rfl
  have filled := fits.filled
  have short := fits.short
  have inside : new.stop stream.uiBase ≤ 2 ^ 32 := fits.inside
  rw [Stream.base]
  by_cases live : 0 < stream.sent
  · have view := calc_base_based fits sentFits.short live sentFits.inside
    change Based stream.uiBase stream.sent new.info _ at view
    generalize calcBase new.info stream.uiBase _ _ = outcome at *
    cases view with
    | fresh apart =>
      change stream.sent ≤ new.start stream.uiBase at apart
      have place : max (new.start stream.uiBase) stream.sent = new.start stream.uiBase := by
        omega
      refine .fresh rfl ?_ (by omega) (by omega) (by rw [place, Int.sub_self])
      intro marked times
      obtain ⟨kept, start, same⟩ := kept_times fits times
      exact ⟨kept, start.trans place.symm, same⟩
    | known result dropped covered =>
      exact .known (linked_dropped dropped) rfl covered rfl
    | part left right =>
      change new.start stream.uiBase < stream.sent at left
      change stream.sent < new.stop stream.uiBase at right
      have place : max (new.start stream.uiBase) stream.sent = stream.sent := by
        omega
      refine .fresh rfl ?_ right (by omega) (by rw [place]; rfl)
      intro marked times
      obtain ⟨kept, start, same⟩ := kept_cut_front fits (stream.sent - new.start stream.uiBase)
        (by omega) (by omega) (by omega) times
      exact ⟨kept, by omega, same⟩
  · have nothing : stream.sent = 0 := Nat.eq_zero_of_not_pos live
    have view := calc_base_opened fits nothing
    generalize calcBase new.info stream.uiBase _ _ = outcome at *
    cases view with
    | first atBase =>
      change new.start stream.uiBase = 0 at atBase
      have place : max (new.start stream.uiBase) stream.sent = 0 := by
        omega
      refine .fresh rfl ?_ (by omega) (fun _ => atBase) (by rw [place, atBase]; rfl)
      intro marked times
      obtain ⟨kept, start, same⟩ := kept_cut_front fits 0 (by omega) (by omega) (by omega) times
      exact ⟨kept, by omega, same⟩
    | extended above near =>
      change 0 < new.start stream.uiBase at above
      change new.stop stream.uiBase < 2 ^ 31 at near
      refine .extended rfl nothing above ?_ rfl
      intro marked times
      obtain ⟨kept, start, same⟩ := kept_cut_front fits (-new.start stream.uiBase)
        (by omega) (by omega) (by omega) times
      exact ⟨kept, by omega, same⟩
    | lost result dropped far =>
      change 2 ^ 31 ≤ new.stop stream.uiBase at far
      exact .lost (linked_dropped dropped) rfl nothing (by omega) far rfl

end Base

section Ring

/-- A ring as the insertion leaves it: its segments in order, apart, and after the sent part. -/
structure Stream.Pending (stream : Stream) : Prop where
  sentFits : stream.SentFits
  fits : ∀ seg ∈ stream.data, seg.info.Fits stream.uiBase
  ordered : Ordered (Segment.start stream.uiBase) (Segment.stop stream.uiBase) stream.data
  unsent : ∀ seg ∈ stream.data, stream.sent ≤ seg.start stream.uiBase

instance (stream : Stream) : Decidable stream.SentFits :=
  decidable_of_iff ((stream.uiNextSeq - stream.uiLastSeq).toNat < 2 ^ 31 ∧ stream.sent ≤ 2 ^ 32)
    ⟨fun ⟨short, inside⟩ => ⟨short, inside⟩, fun ⟨short, inside⟩ => ⟨short, inside⟩⟩

instance (stream : Stream) : Decidable stream.Pending :=
  decidable_of_iff (stream.SentFits ∧ (∀ seg ∈ stream.data, seg.info.Fits stream.uiBase) ∧
      Ordered (Segment.start stream.uiBase) (Segment.stop stream.uiBase) stream.data ∧
      ∀ seg ∈ stream.data, stream.sent ≤ seg.start stream.uiBase)
    ⟨fun ⟨sentFits, fits, ordered, unsent⟩ => ⟨sentFits, fits, ordered, unsent⟩,
      fun ⟨sentFits, fits, ordered, unsent⟩ => ⟨sentFits, fits, ordered, unsent⟩⟩

theorem Stream.Pending.ready {stream : Stream} (pending : stream.Pending) {last new : Segment}
    {before : List Segment} (listed : stream.data.reverse = last :: before)
    (fits : new.info.Fits stream.uiBase) : Ready stream.uiBase before last new where
  fits := fits
  all := by
    intro seg member
    apply pending.fits
    rw [← List.mem_reverse, listed]
    exact member
  ordered := by
    rw [← listed, List.pairwise_reverse]
    exact pending.ordered

end Ring

end Upst.TcpPending
