import Upst.TcpAck
import Mathlib.Data.List.Flatten
import Mathlib.Data.List.Induction

/-!
What the applications get of an established session. `dSendPayLoad` hands over the acknowledged segments of
each direction, `dSendAllData` all that are left. Whatever order the packets come in, the bytes of a direction
are handed over in their order and each once, and all of them where no gap was jumped.
-/

namespace Upst.TcpDeliver

open Spans Tcp TcpOverlap TcpPending TcpRing TcpAck

set_option autoImplicit false

section Model

/-- The times of a segment, in microseconds. -/
def micros (time mtime : Int) : Int := time * 1000000 + mtime

/-- The condition of `dSendPayLoad`. -/
def ready (stream : TcpPending.Stream) (seg : Segment) : Bool :=
  seg.info.uiAckTime > 0 ∧
    (offsetSeq stream.uiBase stream.uiNextSeq = offsetSeq stream.uiBase seg.info.uiSeqNum ∨
      micros seg.info.uiAckTime seg.info.uiAckMTime < micros stream.uiRcvAckTime stream.uiRcvAckMTime)

/-- `dSendAllData` has none. -/
def always (_ : TcpPending.Stream) (_ : Segment) : Bool := true

/-- A direction, the segments handed to `dSend_TCP_Data` in turn, and what they add to `diffSeqCnt`. -/
structure Sending where
  stream : TcpPending.Stream
  out : List Segment
  diffSeqCnt : Nat

def send (stream : TcpPending.Stream) (seg : Segment) (rest : List Segment) : TcpPending.Stream :=
  { stream with
    uiLastSeq := seg.info.uiSeqNum
    uiNextSeq := seg.info.uiSeqNum + seg.info.uiDataSize
    data := rest }

def jump (stream : TcpPending.Stream) (seg : Segment) : Nat :=
  if offsetSeq stream.uiBase stream.uiNextSeq ≠ offsetSeq stream.uiBase seg.info.uiSeqNum then 1 else 0

/-- The loop over a ring from its head. -/
def sendLoop (may : TcpPending.Stream → Segment → Bool) (stream : TcpPending.Stream) : List Segment → Sending
  | [] => ⟨{ stream with data := [] }, [], 0⟩
  | seg :: rest =>
      if may stream seg then
        let later := sendLoop may (send stream seg rest) rest
        { later with
          out := seg :: later.out
          diffSeqCnt := jump stream seg + later.diffSeqCnt }
      else ⟨{ stream with data := seg :: rest }, [], 0⟩

/-- A session with what was handed over and deleted so far. -/
structure Delivery where
  sess : Streams
  req : List Segment
  res : List Segment
  diffSeqCnt : Nat
  freed : List Nat

/-- The requests first, then the responses. -/
def Delivery.sends (delivery : Delivery) (may : TcpPending.Stream → Segment → Bool) : Delivery :=
  let req := sendLoop may delivery.sess.req delivery.sess.req.data
  let res := sendLoop may delivery.sess.res delivery.sess.res.data
  { delivery with
    sess := { delivery.sess with req := req.stream, res := res.stream }
    req := delivery.req ++ req.out
    res := delivery.res ++ res.out
    diffSeqCnt := delivery.diffSeqCnt + req.diffSeqCnt + res.diffSeqCnt }

def Delivery.dSendPayLoad (delivery : Delivery) : Delivery := delivery.sends ready

def Delivery.dSendAllData (delivery : Delivery) : Delivery := delivery.sends always

/-- The acknowledgement of a packet, and its payload if there is one. -/
def Delivery.kept (delivery : Delivery) (packet : Arrival) : Delivery :=
  let sess := dCheckAck delivery.sess packet
  if 0 < packet.wDataLen then
    let inserted := dInsertTCPData sess packet
    { delivery with
      sess := inserted.1
      freed := inserted.2.freed ++ delivery.freed }
  else
    { delivery with
      sess := sess
      freed := packet.node :: delivery.freed }

/-- `dProcTcpSess` behind the switch over the control, up to the end of the session. -/
def Delivery.payload (delivery : Delivery) (packet : Arrival) : Delivery :=
  (delivery.kept packet).dSendPayLoad

end Model

variable {stream : TcpPending.Stream}

section Parts

variable {new : Segment}

/-- A part of the segment, or all of it. -/
structure Part (base : UInt32) (new seg : Segment) : Prop where
  kept : Kept base new seg
  left : new.start base ≤ seg.start base
  right : seg.stop base ≤ new.stop base

theorem Part.trans {base : UInt32} {new middle seg : Segment} (one : Part base new middle)
    (two : Part base middle seg) : Part base new seg :=
  ⟨one.kept.trans two.kept, one.left.trans two.left, two.right.trans one.right⟩

/-- The segments of a ring are those of the old one or parts of the new segment. -/
def MadeOf (base : UInt32) (old : List Segment) (new : Segment) (data : List Segment) : Prop :=
  ∀ seg ∈ data, seg ∈ old ∨ Part base new seg

theorem made_same {base : UInt32} {old data : List Segment} (inside : data ⊆ old) : MadeOf base old new data :=
  fun _ member => Or.inl (inside member)

theorem made_cons {base : UInt32} {old rest : List Segment} {placed : Segment} (part : Part base new placed)
    (inside : rest ⊆ old) : MadeOf base old new (placed :: rest) := by
  intro seg member
  rcases List.mem_cons.mp member with rfl | later
  · exact Or.inr part
  · exact Or.inl (inside later)

theorem MadeOf.mono {base : UInt32} {old larger data : List Segment} {middle : Segment}
    (made : MadeOf base old middle data) (part : Part base new middle) (inside : old ⊆ larger) :
    MadeOf base larger new data := by
  intro seg member
  rcases made seg member with there | piece
  · exact Or.inl (inside there)
  · exact Or.inr (part.trans piece)

theorem base_part (sentFits : stream.SentFits) (live : 0 < stream.sent) (fits : new.info.Fits stream.uiBase)
    {marked : TcpInfo} (times : TimesOnly (stream.base new.info).info marked) :
    linked (stream.base new.info).result = true ∨ stream.sent < new.stop stream.uiBase →
      Part stream.uiBase new { new with info := marked } := by
  intro placed
  cases base_settled sentFits fits with
  | fresh _ place _ _ _ =>
      obtain ⟨kept, start, stop⟩ := place marked times
      exact ⟨kept, by omega, stop.le⟩
  | known notLinked _ covered _ =>
      rcases placed with isLinked | remains
      · rw [notLinked] at isLinked
        cases isLinked
      · omega
  | extended _ nothing _ _ _ => omega
  | lost _ _ nothing _ _ _ => omega

theorem below_part {prev lower : Segment} (below : Below stream.uiBase prev new lower) :
    Part stream.uiBase new lower := by
  have stop := below.stop
  exact ⟨below.kept, below.start.ge, by omega⟩

theorem around_part {prev same : Segment} (around : Around stream.uiBase prev new same) :
    Part stream.uiBase new same :=
  ⟨around.kept, around.start.ge, around.stop.le⟩

theorem parts_rule (sentFits : stream.SentFits) (live : 0 < stream.sent) : ScanRule stream
    fun before prev after new inserted => Room stream before prev after new →
      MadeOf stream.uiBase (before.reverse ++ prev :: after) new inserted.data where
  link := by
    intro before prev after new placed ready kept left right start stop room seg member
    have part : Part stream.uiBase new placed := ⟨kept, by omega, stop.le⟩
    rcases List.mem_append.mp member with first | later
    · exact Or.inl (List.mem_append_left _ first)
    · rcases List.mem_cons.mp later with rfl | later
      · exact Or.inl (List.mem_append_right _ List.mem_cons_self)
      · rcases List.mem_cons.mp later with rfl | later
        · exact Or.inr part
        · exact Or.inl (List.mem_append_right _ (List.mem_cons_of_mem _ later))
  within := by
    intro before prev after new ready left right room
    exact made_same fun seg member => member
  belowHead := by
    intro prev after new lower ready below room
    rw [Inserted.count, Stream.insertHead]
    dsimp only
    split
    · next isLinked =>
      have part := base_part sentFits live below.kept.fits
        (⟨rfl, rfl, rfl⟩ : TimesOnly (stream.base lower.info).info _) (Or.inl isLinked)
      exact made_cons ((below_part below).trans part) fun seg member => member
    · exact made_same fun seg member => member
  below := by
    intro next rest prev after new lower inserted ready below made room
    rw [reverse_cons_append]
    exact (made (room.lower (ready.all prev List.mem_cons_self) below)).mono (below_part below)
      fun seg member => member
  aroundHead := by
    intro prev after new same ready around room
    rw [Inserted.count, Stream.replaceHead]
    have first := room.unsent prev (List.mem_append_right _ List.mem_cons_self)
    have order := Segment.start_lt_stop (ready.all prev List.mem_cons_self)
    have right := around.right
    have stop := around.stop
    have part := base_part sentFits live around.kept.fits
      (⟨rfl, rfl, rfl⟩ : TimesOnly (stream.base same.info).info _) (Or.inr (by omega))
    exact made_cons ((around_part around).trans part) fun seg member => List.mem_cons_of_mem _ member
  around := by
    intro next rest prev after new same inserted ready around made room
    rw [reverse_cons_append]
    refine (made (room.without around)).mono (around_part around) fun seg member => ?_
    rcases List.mem_append.mp member with first | later
    · exact List.mem_append_left _ first
    · rcases List.mem_cons.mp later with rfl | later
      · exact List.mem_append_right _ List.mem_cons_self
      · exact List.mem_append_right _ (List.mem_cons_of_mem _ (List.mem_cons_of_mem _ later))

theorem insert_parts (pending : stream.Pending) (live : 0 < stream.sent) (fits : new.info.Fits stream.uiBase) :
    MadeOf stream.uiBase stream.data new (stream.insert new).data := by
  rw [Stream.insert]
  cases listed : stream.data.reverse with
  | nil =>
      dsimp only
      rw [Stream.insertFirst]
      split
      · next isLinked =>
        exact made_cons (base_part pending.sentFits live fits (times_only_mark stream _) (Or.inl isLinked))
          (List.nil_subset _)
      · exact made_same (List.nil_subset _)
  | cons last before =>
      have ring : before.reverse ++ [last] = stream.data := by
        rw [← List.reverse_cons, ← listed, List.reverse_reverse]
      have made := (parts_rule pending.sentFits live).run before last [] new (pending.ready listed fits)
        (Stream.Pending.room pending listed)
      rwa [ring] at made

end Parts

section Content

variable {base : UInt32} {bytes : Nat → Int → UInt8} {content : Nat → UInt8}

/-- The bytes of a segment: `bytes` gives those of a node by offset. -/
def payloadOf (bytes : Nat → Int → UInt8) (seg : Segment) : List UInt8 :=
  (List.range seg.info.uiDataSize.toNat).map fun (i : Nat) => bytes seg.node (seg.info.uiSOffset + i)

/-- The bytes of a direction from one offset up to another. -/
def between (content : Nat → UInt8) (lo hi : Nat) : List UInt8 := (List.range' lo (hi - lo)).map content

/-- The packet has its part of the bytes of the direction. -/
def Carries (bytes : Nat → Int → UInt8) (content : Nat → UInt8) (base : UInt32) (packet : Arrival) : Prop :=
  ∀ i < packet.wDataLen.toNat, bytes packet.node (packet.offset + i) = content (packet.segment.start base + i)

instance (bytes : Nat → Int → UInt8) (content : Nat → UInt8) (base : UInt32) (packet : Arrival) :
    Decidable (Carries bytes content base packet) :=
  inferInstanceAs (Decidable (∀ i < packet.wDataLen.toNat, _))

theorem between_append {lo mid hi : Nat} (left : lo ≤ mid) (right : mid ≤ hi) :
    between content lo mid ++ between content mid hi = between content lo hi := by
  have first : lo + 1 * (mid - lo) = mid := by omega
  have whole : mid - lo + (hi - mid) = hi - lo := by omega
  have joined := @List.range'_append lo (mid - lo) (hi - mid) 1
  rw [first, whole] at joined
  rw [between, between, between, ← List.map_append, joined]

/-- The segment has the bytes of its place. -/
def Right (bytes : Nat → Int → UInt8) (content : Nat → UInt8) (base : UInt32) (seg : Segment) : Prop :=
  payloadOf bytes seg = between content (seg.start base) (seg.stop base)

theorem part_right {packet : Arrival} {seg : Segment} (carries : Carries bytes content base packet)
    (part : Part base packet.segment seg) : Right bytes content base seg := by
  have node := part.kept.node
  have offset := part.kept.offset
  have left := part.left
  have right := part.right
  have stop : packet.segment.stop base = packet.segment.start base + packet.wDataLen.toNat := rfl
  have size : seg.stop base - seg.start base = seg.info.uiDataSize.toNat := Nat.add_sub_cancel_left ..
  have end_ : seg.stop base = seg.start base + seg.info.uiDataSize.toNat := rfl
  have own : packet.segment.node = packet.node := rfl
  have begins : packet.segment.info.uiSOffset = packet.offset := rfl
  rw [Right, payloadOf, between, size, List.range'_eq_map_range, List.map_map]
  refine List.map_congr_left fun i member => ?_
  have inside := List.mem_range.mp member
  have there := carries (seg.start base - packet.segment.start base + i) (by omega)
  have place : packet.offset + ((seg.start base - packet.segment.start base + i : Nat) : Int) =
      seg.info.uiSOffset + i := by omega
  have same : packet.segment.start base + (seg.start base - packet.segment.start base + i) =
      seg.start base + i := by omega
  rw [node, own, ← place, there, same]
  rfl

end Content

section Direction

variable {bytes : Nat → Int → UInt8} {content : Nat → UInt8} {opening jumps : Nat}
  {came : List Arrival} {out : List Segment} {seg : Segment} {rest : List Segment} {packet : Arrival}

/-- What holds of a direction from which these packets with payload came. Its bytes are sent from `opening`
on; `jumps` counts the segments that were sent behind a gap. -/
structure Delivering (bytes : Nat → Int → UInt8) (content : Nat → UInt8) (opening : Nat) (came : List Arrival)
    (stream : TcpPending.Stream) (out : List Segment) (jumps : Nat) : Prop where
  pending : stream.Pending
  live : 0 < stream.sent
  opened : opening ≤ stream.sent
  ordered : Ordered (Segment.start stream.uiBase) (Segment.stop stream.uiBase) out
  behind : ∀ seg ∈ out, opening ≤ seg.start stream.uiBase ∧ seg.stop stream.uiBase ≤ stream.sent
  right : ∀ seg ∈ out ++ stream.data, Right bytes content stream.uiBase seg
  held : ∀ packet ∈ came, ∀ x, packet.segment.start stream.uiBase ≤ x → x < packet.segment.stop stream.uiBase →
    x < stream.sent ∨ Held stream stream.data x
  gapless : jumps = 0 → out.flatMap (payloadOf bytes) = between content opening stream.sent

/-- The direction is open, and nothing of it is pending. -/
structure Opened (stream : TcpPending.Stream) : Prop where
  empty : stream.data = []
  sentFits : stream.SentFits
  some : 0 < (stream.uiNextSeq - stream.uiLastSeq).toNat

theorem opened_delivering (opened : Opened stream) :
    Delivering bytes content stream.sent [] stream [] 0 := by
  have none : ∀ seg, seg ∉ stream.data := by
    intro seg
    rw [opened.empty]
    exact List.not_mem_nil
  constructor
  · refine ⟨opened.sentFits, fun seg member => absurd member (none seg), ?_, fun seg member => absurd member (none seg)⟩
    rw [opened.empty]
    exact List.Pairwise.nil
  · rw [Stream.sent]
    exact Nat.lt_of_lt_of_le opened.some (Nat.le_add_left _ _)
  · exact Nat.le_refl _
  · exact List.Pairwise.nil
  · exact fun seg member => absurd member List.not_mem_nil
  · exact fun seg member => absurd member (none seg)
  · exact fun packet member => absurd member List.not_mem_nil
  · rw [between, Nat.sub_self]
    exact fun _ => rfl

/-- A direction with the same places has the same deliveries. -/
theorem delivering_congr (delivering : Delivering bytes content opening came stream out jumps)
    {stream' : TcpPending.Stream} (base : stream'.uiBase = stream.uiBase) (sent : stream'.sent = stream.sent)
    (pending : stream'.Pending) (right : ∀ seg ∈ stream'.data, Right bytes content stream.uiBase seg)
    (held : ∀ x, Held stream stream.data x → Held stream' stream'.data x) :
    Delivering bytes content opening came stream' out jumps := by
  constructor
  · exact pending
  · rw [sent]
    exact delivering.live
  · rw [sent]
    exact delivering.opened
  · rw [base]
    exact delivering.ordered
  · rw [base, sent]
    exact delivering.behind
  · rw [base]
    intro seg member
    rcases List.mem_append.mp member with before | waits
    · exact delivering.right seg (List.mem_append_left _ before)
    · exact right seg waits
  · rw [base, sent]
    intro packet member x low high
    exact (delivering.held packet member x low high).imp_right (held x)
  · rw [sent]
    exact delivering.gapless

/-- A segment is put on the ring of its direction. -/
theorem delivering_insert (delivering : Delivering bytes content opening came stream out jumps)
    (data : 0 < packet.wDataLen.toNat) (inside : packet.segment.stop stream.uiBase ≤ 2 ^ 32)
    (carries : Carries bytes content stream.uiBase packet) :
    Delivering bytes content opening (came ++ [packet])
      { stream with data := (stream.insert packet.segment).data } out jumps := by
  have small := packet.wDataLen.toNat_lt
  have size : packet.segment.info.uiDataSize.toNat = packet.wDataLen.toNat := rfl
  have fits : packet.segment.info.Fits stream.uiBase := ⟨by omega, by omega, inside⟩
  have pending := insert_pending delivering.pending fits
  have made := insert_parts delivering.pending delivering.live fits
  have held := insert_held delivering.pending delivering.live fits
  have kept : Delivering bytes content opening came { stream with data := (stream.insert packet.segment).data }
      out jumps := by
    refine delivering_congr delivering rfl rfl pending (fun seg member => ?_) (fun x waits => ?_)
    · rcases made seg member with old | part
      · exact delivering.right seg (List.mem_append_right _ old)
      · exact part_right carries part
    · exact (held x).mpr (Or.inl waits)
  refine { kept with held := fun other member x low high => ?_ }
  rcases List.mem_append.mp member with before | here
  · exact kept.held other before x low high
  · rw [List.mem_singleton.mp here] at low high
    by_cases sent : x < stream.sent
    · exact Or.inl sent
    · exact Or.inr ((held x).mpr (Or.inr ⟨low, high, Nat.not_lt.mp sent⟩))

/-- What marking leaves of a segment, and all that its bytes depend on. -/
def source (seg : Segment) : (UInt32 × UInt16 × UInt32 × UInt32) × Nat × Int :=
  (place seg, seg.node, seg.info.uiSOffset)

theorem mark_acked_sources {base ack : UInt32} {curtime ucurtime : Int} (data : List Segment) :
    (markAcked base ack curtime ucurtime data).map source = data.map source := by
  induction data with
  | nil => rfl
  | cons seg rest ih =>
      rw [markAcked]
      split
      · rw [List.map_cons, List.map_cons, ih]
        congr 1
        rw [source, place]
        dsimp only
        split
        · rfl
        · rfl
      · rfl

theorem source_eq {left right : Segment} (same : source left = source right) :
    place left = place right ∧ left.node = right.node ∧ left.info.uiSOffset = right.info.uiSOffset := by
  simpa [source] using same

theorem member_of_sources {data marked : List Segment} (sources : marked.map source = data.map source)
    (member : seg ∈ marked) : ∃ other ∈ data, source other = source seg := by
  have found := List.mem_map_of_mem (f := source) member
  rw [sources] at found
  exact List.mem_map.mp found

theorem right_of_source {left right : Segment} (same : source left = source right) {base : UInt32}
    (fine : Right bytes content base right) : Right bytes content base left := by
  obtain ⟨places, node, offset⟩ := source_eq same
  rw [Right, start_of_place places, stop_of_place places, payloadOf, node, offset, (place_eq places).2.2.2]
  exact fine

/-- An acknowledgement moves no segment. -/
theorem delivering_ack (delivering : Delivering bytes content opening came stream out jumps) (packet : Arrival) :
    Delivering bytes content opening came (Stream.checkAck stream packet) out jumps := by
  have sources := @mark_acked_sources stream.uiBase packet.ack packet.curtime packet.ucurtime stream.data
  have places := @mark_acked_places stream.uiBase packet.ack packet.curtime packet.ucurtime stream.data
  refine delivering_congr delivering rfl rfl
    ⟨⟨delivering.pending.sentFits.short, delivering.pending.sentFits.inside⟩, fun seg member => ?_,
      ordered_of_places places delivering.pending.ordered, fun seg member => ?_⟩
    (fun seg member => ?_) (fun x waits => ?_)
  · obtain ⟨other, found, same⟩ := member_of_places places member
    have fits := delivering.pending.fits other found
    refine ⟨?_, ?_, ?_⟩
    · rw [← (place_eq same).2.2.2]
      exact fits.filled
    · rw [← (place_eq same).2.2.2]
      exact fits.short
    · change seg.stop stream.uiBase ≤ 2 ^ 32
      rw [← stop_of_place same]
      exact fits.inside
  · obtain ⟨other, found, same⟩ := member_of_places places member
    exact start_of_place same ▸ delivering.pending.unsent other found
  · obtain ⟨other, found, same⟩ := member_of_sources sources member
    exact right_of_source same.symm (delivering.right other (List.mem_append_right _ found))
  · obtain ⟨seg, member, low, high⟩ := waits
    obtain ⟨other, found, same⟩ := member_of_places places.symm member
    refine ⟨other, found, ?_, ?_⟩
    · rw [start_of_place same]
      exact low
    · rw [stop_of_place same]
      exact high

theorem send_sent : (send stream seg rest).sent = seg.stop stream.uiBase := by
  have gap : seg.info.uiSeqNum + seg.info.uiDataSize - seg.info.uiSeqNum = seg.info.uiDataSize := by
    grind
  rw [Stream.sent, send]
  dsimp only
  rw [gap]
  rfl

theorem send_pending (pending : stream.Pending) (listed : stream.data = seg :: rest) :
    (send stream seg rest).Pending := by
  have fits := pending.fits seg (listed ▸ List.mem_cons_self)
  have ordered := pending.ordered
  rw [listed] at ordered
  obtain ⟨later, tail⟩ := List.pairwise_cons.mp ordered
  have gap : seg.info.uiSeqNum + seg.info.uiDataSize - seg.info.uiSeqNum = seg.info.uiDataSize := by
    grind
  refine ⟨⟨?_, ?_⟩, fun other member => ?_, tail, fun other member => ?_⟩
  · rw [send]
    dsimp only
    rw [gap]
    exact fits.short
  · rw [send_sent]
    exact fits.inside
  · exact pending.fits other (listed ▸ List.mem_cons_of_mem _ member)
  · rw [send_sent]
    exact later other member

/-- `uiNextSeq` is where the sent part ends. -/
theorem next_offset (inside : stream.sent < 2 ^ 32) :
    (offsetSeq stream.uiBase stream.uiNextSeq).toNat = stream.sent := by
  have sum : stream.uiNextSeq - stream.uiBase =
      (stream.uiLastSeq - stream.uiBase) + (stream.uiNextSeq - stream.uiLastSeq) := by
    grind
  rw [Stream.sent, offset_seq_eq] at *
  rw [offset_seq_eq, sum, UInt32.toNat_add]
  exact Nat.mod_eq_of_lt inside

theorem jump_none (unsent : stream.sent ≤ seg.start stream.uiBase) (none : jump stream seg = 0) :
    seg.start stream.uiBase = stream.sent := by
  have small := (offsetSeq stream.uiBase seg.info.uiSeqNum).toNat_lt
  have begins : seg.start stream.uiBase = (offsetSeq stream.uiBase seg.info.uiSeqNum).toNat := rfl
  rw [jump] at none
  split at none
  · cases none
  · next same =>
    rw [begins, ← not_not.mp same, next_offset (by omega)]

/-- The first segment of the ring is handed over. -/
theorem delivering_send (delivering : Delivering bytes content opening came stream out jumps)
    (listed : stream.data = seg :: rest) :
    Delivering bytes content opening came (send stream seg rest) (out ++ [seg]) (jumps + jump stream seg) := by
  have member : seg ∈ stream.data := listed ▸ List.mem_cons_self
  have unsent := delivering.pending.unsent seg member
  have order := Segment.start_lt_stop (delivering.pending.fits seg member)
  have opened := delivering.opened
  constructor
  · exact send_pending delivering.pending listed
  · rw [send_sent]
    omega
  · rw [send_sent]
    omega
  · refine List.pairwise_append.mpr ⟨delivering.ordered, List.pairwise_singleton _ _, fun other before next here => ?_⟩
    rw [List.mem_singleton.mp here]
    exact (delivering.behind other before).2.trans unsent
  · rw [send_sent]
    intro other sent
    rcases List.mem_append.mp sent with before | here
    · obtain ⟨low, high⟩ := delivering.behind other before
      exact ⟨low, high.trans (unsent.trans order.le)⟩
    · rw [List.mem_singleton.mp here]
      exact ⟨opened.trans unsent, Nat.le_refl _⟩
  · intro other inside
    apply delivering.right
    rw [listed]
    rwa [List.append_assoc] at inside
  · rw [send_sent]
    intro packet inside x low high
    rcases delivering.held packet inside x low high with sent | ⟨other, waits, left, right⟩
    · exact Or.inl (by omega)
    · rw [listed] at waits
      rcases List.mem_cons.mp waits with rfl | later
      · exact Or.inl right
      · exact Or.inr ⟨other, later, left, right⟩
  · intro none
    obtain ⟨before, here⟩ := Nat.add_eq_zero_iff.mp none
    have begins := jump_none unsent here
    have fine : payloadOf bytes seg = between content (seg.start stream.uiBase) (seg.stop stream.uiBase) :=
      delivering.right seg (List.mem_append_right _ member)
    rw [begins] at fine
    rw [List.flatMap_append, List.flatMap_singleton, delivering.gapless before, fine, send_sent]
    exact between_append opened (by omega)

theorem delivering_sends (may : TcpPending.Stream → Segment → Bool) (data : List Segment) :
    ∀ {stream : TcpPending.Stream} {out : List Segment} {jumps : Nat}, stream.data = data →
      Delivering bytes content opening came stream out jumps →
      Delivering bytes content opening came (sendLoop may stream data).stream
        (out ++ (sendLoop may stream data).out) (jumps + (sendLoop may stream data).diffSeqCnt) := by
  induction data with
  | nil =>
      intro stream out jumps listed delivering
      rw [sendLoop, List.append_nil]
      dsimp only
      rw [← listed]
      exact delivering
  | cons seg rest ih =>
      intro stream out jumps listed delivering
      rw [sendLoop]
      split
      · have later := ih rfl (delivering_send delivering listed)
        dsimp only
        rwa [List.append_assoc, Nat.add_assoc] at later
      · rw [List.append_nil]
        dsimp only
        rw [← listed]
        exact delivering

/-- `dSendAllData` leaves nothing. -/
theorem always_empty (data : List Segment) :
    ∀ stream : TcpPending.Stream, (sendLoop always stream data).stream.data = [] := by
  induction data with
  | nil => exact fun _ => rfl
  | cons seg rest ih =>
      intro stream
      change (sendLoop always (send stream seg rest) rest).stream.data = []
      exact ih _

/-- The loop divides the ring. -/
theorem send_divides (may : TcpPending.Stream → Segment → Bool) (data : List Segment) :
    ∀ stream : TcpPending.Stream,
      (sendLoop may stream data).out ++ (sendLoop may stream data).stream.data = data := by
  induction data with
  | nil => exact fun _ => rfl
  | cons seg rest ih =>
      intro stream
      rw [sendLoop]
      split
      · exact congrArg (seg :: ·) (ih _)
      · rfl

theorem send_base (may : TcpPending.Stream → Segment → Bool) (data : List Segment) :
    ∀ stream : TcpPending.Stream, (sendLoop may stream data).stream.uiBase = stream.uiBase := by
  induction data with
  | nil => exact fun _ => rfl
  | cons seg rest ih =>
      intro stream
      rw [sendLoop]
      split
      · exact ih _
      · rfl

end Direction

section Session

/-- The two directions of a session. -/
inductive Dir where
  | req
  | res
  deriving DecidableEq, Repr

def dirOf (sess : Streams) : Dir → TcpPending.Stream
  | .req => sess.req
  | .res => sess.res

def Delivery.out (delivery : Delivery) : Dir → List Segment
  | .req => delivery.req
  | .res => delivery.res

/-- The direction of a packet. -/
def carried (ucSynRtx : Rtx) (packet : Arrival) : Dir :=
  if ucSynRtx ≠ packet.bRtxType then .res else .req

theorem dir_check_ack (sess : Streams) (packet : Arrival) (dir : Dir) :
    dirOf (dCheckAck sess packet) dir =
      if carried sess.ucSynRtx packet = dir then dirOf sess dir else Stream.checkAck (dirOf sess dir) packet := by
  rw [dCheckAck, carried]
  cases dir <;> split <;> rfl

theorem dir_insert (sess : Streams) (packet : Arrival) (dir : Dir) :
    dirOf (dInsertTCPData sess packet).1 dir =
      if carried sess.ucSynRtx packet = dir then
        { dirOf sess dir with data := ((dirOf sess dir).insert packet.segment).data }
      else dirOf sess dir := by
  rw [dInsertTCPData, carried]
  cases dir <;> split <;> rfl

theorem check_ack_syn (sess : Streams) (packet : Arrival) : (dCheckAck sess packet).ucSynRtx = sess.ucSynRtx := by
  rw [dCheckAck]
  split <;> rfl

theorem insert_syn (sess : Streams) (packet : Arrival) :
    (dInsertTCPData sess packet).1.ucSynRtx = sess.ucSynRtx := by
  rw [dInsertTCPData]
  split <;> rfl

/-- A session that was just opened. -/
def opening (sess : Streams) : Delivery := ⟨sess, [], [], 0, []⟩

/-- The packets of a direction that have payload. -/
def cameTo (ucSynRtx : Rtx) (dir : Dir) (packets : List Arrival) : List Arrival :=
  packets.filter fun packet => carried ucSynRtx packet = dir ∧ 0 < packet.wDataLen

variable {bytes : Nat → Int → UInt8} {content : Nat → UInt8} {first : Nat} {came : List Arrival}
  {delivery : Delivery} {dir : Dir} {packet : Arrival} {may : TcpPending.Stream → Segment → Bool}

/-- A direction of a session that is served. -/
structure Serves (bytes : Nat → Int → UInt8) (content : Nat → UInt8) (first : Nat) (came : List Arrival)
    (delivery : Delivery) (dir : Dir) : Prop where
  delivering : ∃ jumps ≤ delivery.diffSeqCnt,
    Delivering bytes content first came (dirOf delivery.sess dir) (delivery.out dir) jumps

theorem sends_dir (delivery : Delivery) (may : TcpPending.Stream → Segment → Bool) (dir : Dir) :
    dirOf (delivery.sends may).sess dir =
        (sendLoop may (dirOf delivery.sess dir) (dirOf delivery.sess dir).data).stream ∧
      (delivery.sends may).out dir =
        delivery.out dir ++ (sendLoop may (dirOf delivery.sess dir) (dirOf delivery.sess dir).data).out ∧
      delivery.diffSeqCnt + (sendLoop may (dirOf delivery.sess dir) (dirOf delivery.sess dir).data).diffSeqCnt ≤
        (delivery.sends may).diffSeqCnt := by
  cases dir with
  | req => exact ⟨rfl, rfl, Nat.le_add_right _ _⟩
  | res => exact ⟨rfl, rfl, Nat.add_le_add_right (Nat.le_add_right _ _) _⟩

theorem sends_serves (serves : Serves bytes content first came delivery dir) :
    Serves bytes content first came (delivery.sends may) dir := by
  obtain ⟨jumps, upTo, delivering⟩ := serves.delivering
  obtain ⟨stream, out, count⟩ := sends_dir delivery may dir
  refine ⟨_, (Nat.add_le_add_right upTo _).trans count, ?_⟩
  rw [stream, out]
  exact delivering_sends may _ rfl delivering

theorem kept_dir (delivery : Delivery) (packet : Arrival) (dir : Dir) :
    dirOf (delivery.kept packet).sess dir =
        (if carried delivery.sess.ucSynRtx packet = dir then
          if 0 < packet.wDataLen then
            { dirOf delivery.sess dir with data := ((dirOf delivery.sess dir).insert packet.segment).data }
          else dirOf delivery.sess dir
        else Stream.checkAck (dirOf delivery.sess dir) packet) ∧
      (delivery.kept packet).out dir = delivery.out dir ∧
      (delivery.kept packet).diffSeqCnt = delivery.diffSeqCnt := by
  rw [Delivery.kept]
  dsimp only
  by_cases data : 0 < packet.wDataLen
  · rw [if_pos data, if_pos data]
    refine ⟨?_, by cases dir <;> rfl, rfl⟩
    rw [dir_insert, check_ack_syn, dir_check_ack]
    split <;> rfl
  · rw [if_neg data, if_neg data]
    exact ⟨dir_check_ack _ _ _, by cases dir <;> rfl, rfl⟩

theorem came_snoc (ucSynRtx : Rtx) (dir : Dir) (packets : List Arrival) (packet : Arrival) :
    cameTo ucSynRtx dir (packets ++ [packet]) = if carried ucSynRtx packet = dir ∧ 0 < packet.wDataLen then
      cameTo ucSynRtx dir packets ++ [packet] else cameTo ucSynRtx dir packets := by
  rw [cameTo, List.filter_append]
  split
  · next own => exact congrArg (cameTo ucSynRtx dir packets ++ ·) (List.filter_cons_of_pos (decide_eq_true own))
  · next other =>
    have none : [packet].filter (fun packet => carried ucSynRtx packet = dir ∧ 0 < packet.wDataLen) = [] :=
      List.filter_cons_of_neg fun own => other (of_decide_eq_true own)
    rw [none, List.append_nil]
    rfl

/-- What the packets bring, whatever direction they go to. -/
structure Fine (sess : Streams) (bytes : Nat → Int → UInt8) (content : Dir → Nat → UInt8) (packet : Arrival) :
    Prop where
  inside : packet.segment.stop (dirOf sess (carried sess.ucSynRtx packet)).uiBase ≤ 2 ^ 32
  carries : Carries bytes (content (carried sess.ucSynRtx packet))
    (dirOf sess (carried sess.ucSynRtx packet)).uiBase packet

theorem kept_serves {ucSynRtx : Rtx} {packets : List Arrival}
    (serves : Serves bytes content first (cameTo ucSynRtx dir packets) delivery dir)
    (syn : delivery.sess.ucSynRtx = ucSynRtx)
    (fine : carried ucSynRtx packet = dir → 0 < packet.wDataLen →
      packet.segment.stop (dirOf delivery.sess dir).uiBase ≤ 2 ^ 32 ∧
        Carries bytes content (dirOf delivery.sess dir).uiBase packet) :
    Serves bytes content first (cameTo ucSynRtx dir (packets ++ [packet])) (delivery.kept packet) dir := by
  obtain ⟨jumps, upTo, delivering⟩ := serves.delivering
  obtain ⟨stream, out, count⟩ := kept_dir delivery packet dir
  rw [syn] at stream
  refine ⟨jumps, count ▸ upTo, ?_⟩
  rw [stream, out, came_snoc]
  by_cases own : carried ucSynRtx packet = dir
  · rw [if_pos own]
    by_cases data : 0 < packet.wDataLen
    · obtain ⟨inside, carries⟩ := fine own data
      rw [if_pos data, if_pos ⟨own, data⟩]
      exact delivering_insert delivering (UInt16.lt_iff_toNat_lt.mp data) inside carries
    · rw [if_neg data, if_neg fun both => data both.2]
      exact delivering
  · rw [if_neg own, if_neg fun both => own both.1]
    exact delivering_ack delivering packet

/-- Every node that the session has, handed over or deleted. -/
def Delivery.allNodes (delivery : Delivery) : List Nat :=
  nodes delivery.req ++ nodes delivery.sess.req.data ++
    (nodes delivery.res ++ nodes delivery.sess.res.data) ++ delivery.freed

theorem sends_nodes (delivery : Delivery) : (delivery.sends may).allNodes = delivery.allNodes := by
  have req := congrArg nodes (send_divides may delivery.sess.req.data delivery.sess.req)
  have res := congrArg nodes (send_divides may delivery.sess.res.data delivery.sess.res)
  rw [nodes_append] at req res
  rw [Delivery.allNodes, Delivery.allNodes, Delivery.sends]
  dsimp only
  rw [nodes_append, nodes_append, List.append_assoc (nodes delivery.req), req,
    List.append_assoc (nodes delivery.res), res]

theorem acked_nodes (stream : TcpPending.Stream) (packet : Arrival) :
    nodes (Stream.checkAck stream packet).data = nodes stream.data := by
  have sources := @mark_acked_sources stream.uiBase packet.ack packet.curtime packet.ucurtime stream.data
  have same := congrArg (List.map fun source => source.2.1) sources
  rw [List.map_map, List.map_map] at same
  exact same

theorem inserted_dir (sess : Streams) (packet : Arrival) :
    (dInsertTCPData sess packet).2 = (dirOf sess (carried sess.ucSynRtx packet)).insert packet.segment := by
  rw [dInsertTCPData, carried]
  split <;> rfl

theorem all_nodes_eq (delivery : Delivery) : delivery.allNodes =
    nodes (delivery.out .req) ++ nodes (dirOf delivery.sess .req).data ++
      (nodes (delivery.out .res) ++ nodes (dirOf delivery.sess .res).data) ++ delivery.freed := rfl

theorem kept_nodes (pending : ∀ dir, (dirOf delivery.sess dir).Pending)
    (fits : 0 < packet.wDataLen → packet.segment.info.Fits
      (dirOf delivery.sess (carried delivery.sess.ucSynRtx packet)).uiBase) :
    (delivery.kept packet).allNodes.Perm (packet.node :: delivery.allNodes) := by
  have outs : ∀ dir, (delivery.kept packet).out dir = delivery.out dir := fun dir => (kept_dir delivery packet dir).2.1
  have streams := fun dir => (kept_dir delivery packet dir).1
  rw [all_nodes_eq, all_nodes_eq, outs, outs, streams, streams]
  by_cases data : 0 < packet.wDataLen
  · have inserted := insert_nodes (pending _) (fits data)
    have freed : (delivery.kept packet).freed =
        ((dirOf delivery.sess (carried delivery.sess.ucSynRtx packet)).insert packet.segment).freed ++
          delivery.freed := by
      rw [Delivery.kept]
      dsimp only
      rw [if_pos data, inserted_dir, check_ack_syn, dir_check_ack, if_pos rfl]
    rw [freed, List.perm_iff_count]
    intro node
    have count := inserted.count_eq node
    have own : packet.segment.node = packet.node := rfl
    rw [own] at count
    cases dir : carried delivery.sess.ucSynRtx packet with
    | req =>
        rw [dir] at count
        rw [if_pos data, if_pos rfl, if_neg (by decide), acked_nodes]
        simp only [List.count_append, List.count_cons] at count ⊢
        omega
    | res =>
        rw [dir] at count
        rw [if_neg (by decide), if_pos rfl, if_pos data, acked_nodes]
        simp only [List.count_append, List.count_cons] at count ⊢
        omega
  · have freed : (delivery.kept packet).freed = packet.node :: delivery.freed := by
      rw [Delivery.kept]
      dsimp only
      rw [if_neg data]
    have same : ∀ dir, nodes (if carried delivery.sess.ucSynRtx packet = dir then
        if 0 < packet.wDataLen then
          { dirOf delivery.sess dir with data := ((dirOf delivery.sess dir).insert packet.segment).data }
        else dirOf delivery.sess dir
      else Stream.checkAck (dirOf delivery.sess dir) packet).data = nodes (dirOf delivery.sess dir).data := by
      intro dir
      rw [if_neg data]
      split
      · rfl
      · exact acked_nodes _ _
    rw [same, same, freed]
    exact List.perm_middle

/-- A session after these packets. -/
structure Served (sess : Streams) (bytes : Nat → Int → UInt8) (content : Dir → Nat → UInt8)
    (packets : List Arrival) (delivery : Delivery) : Prop where
  syn : delivery.sess.ucSynRtx = sess.ucSynRtx
  base : ∀ dir, (dirOf delivery.sess dir).uiBase = (dirOf sess dir).uiBase
  serves : ∀ dir, Serves bytes (content dir) (dirOf sess dir).sent (cameTo sess.ucSynRtx dir packets) delivery dir
  nodes : delivery.allNodes.Perm (packets.map Arrival.node)

variable {sess : Streams} {contents : Dir → Nat → UInt8} {packets : List Arrival}

theorem opening_served (opened : ∀ dir, Opened (dirOf sess dir)) : Served sess bytes contents [] (opening sess) := by
  refine ⟨rfl, fun _ => rfl, fun dir => ⟨0, Nat.le_refl _, ?_⟩, ?_⟩
  · have out : (opening sess).out dir = [] := by cases dir <;> rfl
    rw [out]
    exact opened_delivering (opened dir)
  · have req : sess.req.data = [] := (opened .req).empty
    have res : sess.res.data = [] := (opened .res).empty
    have none : (opening sess).allNodes = [] := by
      rw [Delivery.allNodes, opening]
      dsimp only
      rw [req, res]
      rfl
    rw [none]
    exact List.Perm.refl _

theorem sends_served (served : Served sess bytes contents packets delivery) :
    Served sess bytes contents packets (delivery.sends may) := by
  refine ⟨served.syn, fun dir => ?_, fun dir => sends_serves (served.serves dir), ?_⟩
  · rw [(sends_dir delivery may dir).1, send_base]
    exact served.base dir
  · rw [sends_nodes]
    exact served.nodes

theorem kept_served (served : Served sess bytes contents packets delivery)
    (fine : 0 < packet.wDataLen → Fine sess bytes contents packet) :
    Served sess bytes contents (packets ++ [packet]) (delivery.kept packet) := by
  have pending : ∀ dir, (dirOf delivery.sess dir).Pending := by
    intro dir
    obtain ⟨_, _, delivering⟩ := (served.serves dir).delivering
    exact delivering.pending
  constructor
  · rw [← served.syn, Delivery.kept]
    dsimp only
    split
    · rw [insert_syn, check_ack_syn]
    · exact check_ack_syn _ _
  · intro dir
    rw [(kept_dir delivery packet dir).1, ← served.base dir]
    split
    · split <;> rfl
    · rfl
  · intro dir
    refine kept_serves (served.serves dir) served.syn ?_
    rintro rfl data
    rw [served.base]
    exact ⟨(fine data).inside, (fine data).carries⟩
  · have same : packets.map Arrival.node ++ [packet.node] = (packets ++ [packet]).map Arrival.node := by
      rw [List.map_append]
      rfl
    have fits : 0 < packet.wDataLen → packet.segment.info.Fits
        (dirOf delivery.sess (carried delivery.sess.ucSynRtx packet)).uiBase := by
      intro data
      have small := packet.wDataLen.toNat_lt
      have size : packet.segment.info.uiDataSize.toNat = packet.wDataLen.toNat := rfl
      refine ⟨?_, by omega, ?_⟩
      · rw [size]
        exact UInt16.lt_iff_toNat_lt.mp data
      · rw [served.syn, served.base]
        exact (fine data).inside
    have kept := kept_nodes pending fits
    rw [← same]
    exact (kept.trans (served.nodes.cons _)).trans (List.perm_append_singleton _ _).symm

theorem packets_served (opened : ∀ dir, Opened (dirOf sess dir)) :
    (∀ packet ∈ packets, 0 < packet.wDataLen → Fine sess bytes contents packet) →
      Served sess bytes contents packets (packets.foldl Delivery.payload (opening sess)) := by
  induction packets using List.reverseRecOn with
  | nil => exact fun _ => opening_served opened
  | append_singleton packets packet ih =>
      intro fine
      rw [List.foldl_append]
      have served := ih fun other member => fine other (List.mem_append_left _ member)
      have last := fine packet (List.mem_append_right _ List.mem_cons_self)
      exact sends_served (kept_served served last)

/-- What a direction gives: `came` are its packets with payload, and `sent` is where its sent part began. -/
structure Delivered (bytes : Nat → Int → UInt8) (content : Nat → UInt8) (sent : Nat) (came : List Arrival)
    (delivery : Delivery) (dir : Dir) : Prop where
  ordered : Ordered (Segment.start (dirOf delivery.sess dir).uiBase) (Segment.stop (dirOf delivery.sess dir).uiBase)
    (delivery.out dir ++ (dirOf delivery.sess dir).data)
  right : ∀ seg ∈ delivery.out dir, Right bytes content (dirOf delivery.sess dir).uiBase seg
  known : ∀ packet ∈ came, ∀ x, packet.segment.start (dirOf delivery.sess dir).uiBase ≤ x →
    x < packet.segment.stop (dirOf delivery.sess dir).uiBase →
    x < (dirOf delivery.sess dir).sent ∨ Held (dirOf delivery.sess dir) (dirOf delivery.sess dir).data x
  gapless : delivery.diffSeqCnt = 0 →
    (delivery.out dir).flatMap (payloadOf bytes) = between content sent (dirOf delivery.sess dir).sent

theorem serves_delivered (serves : Serves bytes content first came delivery dir) :
    Delivered bytes content first came delivery dir := by
  obtain ⟨jumps, upTo, delivering⟩ := serves.delivering
  constructor
  · refine List.pairwise_append.mpr ⟨delivering.ordered, delivering.pending.ordered, ?_⟩
    intro seg before other waits
    exact (delivering.behind seg before).2.trans (delivering.pending.unsent other waits)
  · exact fun seg member => delivering.right seg (List.mem_append_left _ member)
  · exact delivering.held
  · intro none
    exact delivering.gapless (Nat.le_zero.mp (none ▸ upTo))

/-- Whatever packets come to a session and in whatever order, the bytes of each direction are handed over in
their order and each once, and when the session ends every byte that came was handed over or lies in a gap
that was jumped. Every node is handed over, waits, or was deleted, and is so once. -/
theorem payload_delivered (opened : ∀ dir, Opened (dirOf sess dir))
    (fine : ∀ packet ∈ packets, 0 < packet.wDataLen → Fine sess bytes contents packet) :
    let delivery := packets.foldl Delivery.payload (opening sess)
    (∀ dir, Delivered bytes (contents dir) (dirOf sess dir).sent (cameTo sess.ucSynRtx dir packets) delivery dir) ∧
    delivery.allNodes.Perm (packets.map Arrival.node) ∧
    (∀ dir, Delivered bytes (contents dir) (dirOf sess dir).sent (cameTo sess.ucSynRtx dir packets)
        delivery.dSendAllData dir ∧ (dirOf delivery.dSendAllData.sess dir).data = []) ∧
    delivery.dSendAllData.allNodes.Perm (packets.map Arrival.node) := by
  have served := @packets_served bytes sess contents packets opened fine
  have closed := @sends_served bytes _ always sess contents packets served
  refine ⟨fun dir => serves_delivered (served.serves dir), served.nodes,
    fun dir => ⟨serves_delivered (closed.serves dir), ?_⟩, closed.nodes⟩
  rw [Delivery.dSendAllData, (sends_dir _ always dir).1]
  exact always_empty _ _

/-- A session between its handshake and its first data. -/
def freshSession : Streams := ⟨.client, ⟨1000, 1000, 1001, 0, 0, 0, []⟩, ⟨5000, 5000, 5001, 0, 0, 0, []⟩⟩

/-- The second half of a response, the first, and an acknowledgement of both. -/
def swappedHalves : List Arrival :=
  [⟨8, .server, 5003, 1001, 2, 54, 1, 0⟩, ⟨7, .server, 5001, 1001, 2, 54, 2, 0⟩, ⟨9, .client, 1001, 5005, 0, 54, 3, 0⟩]

/-- Nodes 7 and 8 have two bytes each. -/
def halfBytes (node : Nat) (offset : Int) : UInt8 := UInt8.ofNat (2 * (node - 7) + 1 + (offset - 54).toNat)

theorem swapped_halves_delivered :
    ((swappedHalves.foldl Delivery.payload (opening freshSession)).out .res).flatMap (payloadOf halfBytes) =
      [1, 2, 3, 4] := by
  have opened : ∀ dir, Opened (dirOf freshSession dir) := by
    intro dir
    cases dir
    · exact ⟨rfl, by decide +kernel, by decide⟩
    · exact ⟨rfl, by decide +kernel, by decide⟩
  have fine : ∀ packet ∈ swappedHalves, 0 < packet.wDataLen →
      Fine freshSession halfBytes (fun _ => UInt8.ofNat) packet := by
    intro packet member data
    rcases List.mem_cons.mp member with rfl | member
    · exact ⟨by decide +kernel, by decide +kernel⟩
    · rcases List.mem_cons.mp member with rfl | member
      · exact ⟨by decide +kernel, by decide +kernel⟩
      · obtain rfl := List.mem_singleton.mp member
        cases data
  have straight : (swappedHalves.foldl Delivery.payload (opening freshSession)).diffSeqCnt = 0 := by decide +kernel
  have all := ((payload_delivered opened fine).1 .res).gapless straight
  exact all.trans (by decide +kernel)

end Session

end Upst.TcpDeliver
