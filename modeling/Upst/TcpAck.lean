import Upst.TcpRing

/-!
The marking of acknowledged segments. A ring node has its interval twice: in `TCP_INFO`, where it
is trimmed, and in `INFO_ETH`, as its packet came. The marking goes by the packet.
-/

namespace Upst.TcpAck

open Spans Tcp TcpOverlap TcpPending TcpRing

set_option autoImplicit false

section Model

/-- The loop over the ring from its head. -/
def markAcked (base ack : UInt32) (curtime ucurtime : Int) : List Segment → List Segment
  | [] => []
  | seg :: rest =>
    if offsetSeq base seg.seq + seg.wDataLen.toUInt32 ≤ offsetSeq base ack then
      let info :=
        if seg.info.uiAckTime = 0 then
          { seg.info with uiAckTime := curtime, uiAckMTime := ucurtime }
        else seg.info
      { seg with info := info } :: markAcked base ack curtime ucurtime rest
    else seg :: rest

def Stream.checkAck (stream : Stream) (packet : Arrival) : Stream :=
  { stream with
    uiRcvAck := packet.ack
    uiRcvAckTime := packet.curtime
    uiRcvAckMTime := packet.ucurtime
    data := markAcked stream.uiBase packet.ack packet.curtime packet.ucurtime stream.data }

/-- A packet acknowledges data of the direction against its own. -/
def dCheckAck (sess : Streams) (packet : Arrival) : Streams :=
  if sess.ucSynRtx ≠ packet.bRtxType then { sess with req := Stream.checkAck sess.req packet }
  else { sess with res := Stream.checkAck sess.res packet }

end Model

section Marks

variable {base : UInt32}

def packetEnd (base : UInt32) (seg : Segment) : Nat :=
  (offsetSeq base seg.seq).toNat + seg.wDataLen.toNat

/-- The segment got an ack time, and is the same otherwise. -/
def AckSet (seg marked : Segment) : Prop :=
  marked.info.uiAckTime ≠ 0 ∧ marked =
    { seg with info :=
      { seg.info with uiAckTime := marked.info.uiAckTime, uiAckMTime := marked.info.uiAckMTime } }

/-- Not yet acknowledged, and ends at or before the acknowledgement number. -/
def Due (base ack : UInt32) (seg : Segment) : Prop :=
  seg.info.uiAckTime = 0 ∧ seg.stop base ≤ (offsetSeq base ack).toNat

instance (base ack : UInt32) (seg : Segment) : Decidable (Due base ack seg) :=
  inferInstanceAs (Decidable (_ ∧ _))

/-- Exactly the due segments got an ack time, and the others are as they were. -/
def MarksDue (base ack : UInt32) (data marked : List Segment) : Prop :=
  List.Forall₂ (fun seg seg' => if Due base ack seg then AckSet seg seg' else seg' = seg) data marked

/-- No segment up to a due one came in a packet that runs past the acknowledgement number. -/
def NoneCut (base ack : UInt32) (curtime : Int) (data : List Segment) : Prop :=
  ∀ front seg back, data = front ++ seg :: back → Due base ack seg →
    curtime ≠ 0 ∧ ∀ other ∈ front ++ [seg], packetEnd base other ≤ (offsetSeq base ack).toNat

/-- The segment ends inside its packet, and the packet does not run past the base. -/
structure Traced (base : UInt32) (seg : Segment) : Prop where
  inside : seg.stop base ≤ packetEnd base seg
  ahead : packetEnd base seg < 2 ^ 31

instance (base : UInt32) (seg : Segment) : Decidable (Traced base seg) :=
  decidable_of_iff (seg.stop base ≤ packetEnd base seg ∧ packetEnd base seg < 2 ^ 31)
    ⟨fun ⟨inside, ahead⟩ => ⟨inside, ahead⟩, fun ⟨inside, ahead⟩ => ⟨inside, ahead⟩⟩

variable {ack : UInt32} {curtime ucurtime : Int} {seg : Segment} {rest : List Segment}

theorem covered_iff (ahead : packetEnd base seg < 2 ^ 31) :
    offsetSeq base seg.seq + seg.wDataLen.toUInt32 ≤ offsetSeq base ack ↔
      packetEnd base seg ≤ (offsetSeq base ack).toNat := by
  rw [packetEnd] at ahead ⊢
  rw [UInt32.le_iff_toNat_le, UInt32.toNat_add, UInt16.toNat_toUInt32, Nat.mod_eq_of_lt (by omega)]

/-- A time on a segment that is not acknowledged is an ack time when it is not 0. -/
theorem ack_set_iff : AckSet seg
    { seg with info := { seg.info with uiAckTime := curtime, uiAckMTime := ucurtime } } ↔
      curtime ≠ 0 := by
  constructor
  · intro set
    exact set.1
  · intro time
    exact ⟨time, rfl⟩

theorem not_ack_set_self (due : Due base ack seg) : ¬ AckSet seg seg := by
  intro set
  exact set.1 due.1

theorem none_cut_cons (within : packetEnd base seg ≤ (offsetSeq base ack).toNat) :
    NoneCut base ack curtime (seg :: rest) ↔
      (Due base ack seg → curtime ≠ 0) ∧ NoneCut base ack curtime rest := by
  constructor
  · intro clear
    refine ⟨fun due => (clear [] seg rest rfl due).1, ?_⟩
    intro front other back shape due
    obtain ⟨time, all⟩ := clear (seg :: front) other back (by rw [shape]; rfl) due
    exact ⟨time, fun found member => all found (List.mem_cons_of_mem _ member)⟩
  · intro ⟨first, clear⟩ front other back shape due
    cases front with
    | nil =>
      injection shape with same
      subst same
      refine ⟨first due, fun found member => ?_⟩
      rw [List.mem_singleton.mp member]
      exact within
    | cons head front =>
      injection shape with same later
      subst same
      obtain ⟨time, all⟩ := clear front other back later due
      refine ⟨time, fun found member => ?_⟩
      rcases List.mem_cons.mp member with rfl | inside
      · exact within
      · exact all found inside

theorem none_cut_past (past : ¬ packetEnd base seg ≤ (offsetSeq base ack).toNat) :
    NoneCut base ack curtime (seg :: rest) ↔ ∀ other ∈ seg :: rest, ¬ Due base ack other := by
  constructor
  · intro clear other member due
    obtain ⟨front, back, shape⟩ := List.append_of_mem member
    obtain ⟨_, all⟩ := clear front other back shape due
    apply past
    apply all
    cases front with
    | nil =>
      injection shape with same
      exact List.mem_singleton.mpr same
    | cons head front =>
      injection shape with same
      rw [same]
      exact List.mem_cons_self
  · intro none front other back shape due
    refine absurd due (none other ?_)
    rw [shape]
    exact List.mem_append_right _ List.mem_cons_self

theorem marks_none (data : List Segment) :
    MarksDue base ack data data ↔ ∀ other ∈ data, ¬ Due base ack other := by
  rw [MarksDue, List.forall₂_same]
  constructor
  · intro same other member due
    have set := same other member
    rw [if_pos due] at set
    exact not_ack_set_self due set
  · intro none other member
    rw [if_neg (none other member)]

theorem marks_due_iff (data : List Segment) (traced : ∀ seg ∈ data, Traced base seg) :
    MarksDue base ack data (markAcked base ack curtime ucurtime data) ↔
      NoneCut base ack curtime data := by
  induction data with
  | nil =>
    apply iff_of_true List.Forall₂.nil
    intro front seg back shape
    cases front <;> cases shape
  | cons seg rest ih =>
    have first := traced seg List.mem_cons_self
    rw [markAcked]
    by_cases within : packetEnd base seg ≤ (offsetSeq base ack).toNat
    · rw [if_pos ((covered_iff first.ahead).mpr within), none_cut_cons within,
        ← ih fun other member => traced other (List.mem_cons_of_mem _ member), MarksDue, MarksDue,
        List.forall₂_cons]
      apply and_congr_left'
      by_cases due : Due base ack seg
      · rw [if_pos due, if_pos due.1, ack_set_iff]
        exact ⟨fun time _ => time, fun time => time due⟩
      · have acked : seg.info.uiAckTime ≠ 0 := by
          intro fresh
          exact due ⟨fresh, first.inside.trans within⟩
        rw [if_neg due, if_neg acked]
        exact iff_of_true rfl fun wrong => absurd wrong due
    · rw [if_neg (fun covered => within ((covered_iff first.ahead).mp covered)),
        none_cut_past within]
      exact marks_none (seg :: rest)

end Marks

section Run

/-- What happens to a direction with a fixed base: it is opened, data comes, an acknowledgement
comes, and `dSendPayLoad` sends the first segment. Packets lie within 2^31 of the base. -/
inductive Reached : Stream → Prop where
  | opened (stream : Stream) (empty : stream.data = []) (sentFits : stream.SentFits) : Reached stream
  | inserted (stream : Stream) (packet : Arrival) (before : Reached stream)
      (data : 0 < packet.wDataLen.toNat)
      (ahead : packetEnd stream.uiBase packet.segment < 2 ^ 31) :
      Reached { stream with data := (stream.insert packet.segment).data }
  | acked (stream : Stream) (packet : Arrival) (before : Reached stream) :
      Reached (Stream.checkAck stream packet)
  | sent (stream : Stream) (head : Segment) (rest : List Segment) (before : Reached stream)
      (listed : stream.data = head :: rest) :
      Reached { stream with
        uiLastSeq := head.info.uiSeqNum
        uiNextSeq := head.info.uiSeqNum + head.info.uiDataSize
        data := rest }

variable {base ack : UInt32} {curtime ucurtime : Int} {stream : Stream}

/-- What marking leaves as it is, and all that the place of a segment depends on. -/
def place (seg : Segment) : UInt32 × UInt16 × UInt32 × UInt32 :=
  (seg.seq, seg.wDataLen, seg.info.uiSeqNum, seg.info.uiDataSize)

theorem mark_acked_places (data : List Segment) :
    (markAcked base ack curtime ucurtime data).map place = data.map place := by
  induction data with
  | nil => rfl
  | cons seg rest ih =>
    rw [markAcked]
    split
    · rw [List.map_cons, List.map_cons, ih]
      congr 1
      rw [place]
      dsimp only
      split
      · rfl
      · rfl
    · rfl

theorem place_eq {left right : Segment} (same : place left = place right) :
    left.seq = right.seq ∧ left.wDataLen = right.wDataLen ∧
      left.info.uiSeqNum = right.info.uiSeqNum ∧ left.info.uiDataSize = right.info.uiDataSize := by
  simpa [place] using same

theorem start_of_place {left right : Segment} (same : place left = place right) :
    left.start base = right.start base := by
  rw [Segment.start, TcpInfo.start, (place_eq same).2.2.1]
  rfl

theorem stop_of_place {left right : Segment} (same : place left = place right) :
    left.stop base = right.stop base := by
  rw [Segment.stop, TcpInfo.stop, TcpInfo.start, (place_eq same).2.2.1, (place_eq same).2.2.2]
  rfl

theorem end_of_place {left right : Segment} (same : place left = place right) :
    packetEnd base left = packetEnd base right := by
  rw [packetEnd, packetEnd, (place_eq same).1, (place_eq same).2.1]

theorem member_of_places {data marked : List Segment} (places : marked.map place = data.map place)
    {seg : Segment} (member : seg ∈ marked) : ∃ other ∈ data, place other = place seg := by
  have found := List.mem_map_of_mem (f := place) member
  rw [places] at found
  exact List.mem_map.mp found

theorem ordered_of_places {data marked : List Segment} (places : marked.map place = data.map place)
    (ordered : Ordered (Segment.start base) (Segment.stop base) data) :
    Ordered (Segment.start base) (Segment.stop base) marked := by
  have onPlaces : (data.map place).Pairwise fun left right =>
      (offsetSeq base left.2.2.1).toNat + left.2.2.2.toNat ≤ (offsetSeq base right.2.2.1).toNat :=
    List.pairwise_map.mpr ordered
  rw [← places] at onPlaces
  exact List.pairwise_map.mp onPlaces

/-- The invariant of a direction. -/
structure Sound (stream : Stream) : Prop where
  pending : stream.Pending
  traced : ∀ seg ∈ stream.data, Traced stream.uiBase seg

theorem Sound.acked (sound : Sound stream) (packet : Arrival) : Sound (Stream.checkAck stream packet) := by
  have places := @mark_acked_places stream.uiBase packet.ack packet.curtime packet.ucurtime stream.data
  refine ⟨⟨⟨sound.pending.sentFits.short, sound.pending.sentFits.inside⟩, ?_, ?_, ?_⟩, ?_⟩
  · intro seg member
    obtain ⟨other, found, same⟩ := member_of_places places member
    have fits := sound.pending.fits other found
    refine ⟨?_, ?_, ?_⟩
    · rw [← (place_eq same).2.2.2]
      exact fits.filled
    · rw [← (place_eq same).2.2.2]
      exact fits.short
    · change seg.stop stream.uiBase ≤ 2 ^ 32
      rw [← stop_of_place same]
      exact fits.inside
  · exact ordered_of_places places sound.pending.ordered
  · intro seg member
    obtain ⟨other, found, same⟩ := member_of_places places member
    exact start_of_place same ▸ sound.pending.unsent other found
  · intro seg member
    obtain ⟨other, found, same⟩ := member_of_places places member
    have traced := sound.traced other found
    exact ⟨stop_of_place same ▸ end_of_place same ▸ traced.inside, end_of_place same ▸ traced.ahead⟩

theorem Sound.inserted (sound : Sound stream) (packet : Arrival) (data : 0 < packet.wDataLen.toNat)
    (ahead : packetEnd stream.uiBase packet.segment < 2 ^ 31) :
    Sound { stream with data := (stream.insert packet.segment).data } := by
  have small := packet.wDataLen.toNat_lt
  have size : packet.segment.info.uiDataSize.toNat = packet.wDataLen.toNat := rfl
  have stop : packet.segment.stop stream.uiBase = packetEnd stream.uiBase packet.segment := rfl
  have fits : packet.segment.info.Fits stream.uiBase := by
    refine ⟨by omega, by omega, ?_⟩
    change packet.segment.stop stream.uiBase ≤ 2 ^ 32
    omega
  refine ⟨insert_pending sound.pending fits, ?_⟩
  intro seg member
  rcases (insert_settles sound.pending fits).known seg member with old | ⟨part, before⟩
  · exact sound.traced seg old
  · have same : packetEnd stream.uiBase seg = packetEnd stream.uiBase packet.segment := by
      rw [packetEnd, packetEnd, part.seq, part.wDataLen]
    constructor
    · change seg.stop stream.uiBase ≤ packetEnd stream.uiBase seg
      omega
    · change packetEnd stream.uiBase seg < 2 ^ 31
      omega

theorem Sound.sent (sound : Sound stream) {head : Segment} {rest : List Segment}
    (listed : stream.data = head :: rest) :
    Sound { stream with
      uiLastSeq := head.info.uiSeqNum
      uiNextSeq := head.info.uiSeqNum + head.info.uiDataSize
      data := rest } := by
  have inRing : ∀ seg ∈ rest, seg ∈ stream.data := by
    intro seg member
    rw [listed]
    exact List.mem_cons_of_mem _ member
  have headIn : head ∈ stream.data := by
    rw [listed]
    exact List.mem_cons_self
  have fits := sound.pending.fits head headIn
  have ordered := sound.pending.ordered
  rw [listed] at ordered
  obtain ⟨later, tail⟩ := List.pairwise_cons.mp ordered
  have gap : head.info.uiSeqNum + head.info.uiDataSize - head.info.uiSeqNum = head.info.uiDataSize := by
    grind
  have sent : Stream.sent { stream with
      uiLastSeq := head.info.uiSeqNum
      uiNextSeq := head.info.uiSeqNum + head.info.uiDataSize
      data := rest } = head.stop stream.uiBase := by
    rw [Stream.sent]
    dsimp only
    rw [gap]
    rfl
  refine ⟨⟨⟨?_, ?_⟩, fun seg member => sound.pending.fits seg (inRing seg member), tail, ?_⟩,
    fun seg member => sound.traced seg (inRing seg member)⟩
  · dsimp only
    rw [gap]
    exact fits.short
  · rw [sent]
    exact fits.inside
  · intro seg member
    rw [sent]
    exact later seg member

/-- Every ring that is reached is in order and keeps each segment inside its packet. -/
theorem reached_sound (reached : Reached stream) : Sound stream := by
  induction reached with
  | opened stream empty sentFits =>
    have none : ∀ seg, seg ∉ stream.data := by
      intro seg
      rw [empty]
      exact List.not_mem_nil
    refine ⟨⟨sentFits, fun seg member => absurd member (none seg), ?_,
      fun seg member => absurd member (none seg)⟩, fun seg member => absurd member (none seg)⟩
    rw [empty]
    exact List.Pairwise.nil
  | inserted stream packet before data ahead ih => exact ih.inserted packet data ahead
  | acked stream packet before ih => exact ih.acked packet
  | sent stream head rest before listed ih => exact ih.sent listed

end Run

section Claim

/-- The direction that a packet acknowledges. -/
def opposite (sess : Streams) (packet : Arrival) : Stream :=
  if sess.ucSynRtx ≠ packet.bRtxType then sess.req else sess.res

theorem check_ack_opposite (sess : Streams) (packet : Arrival) :
    opposite (dCheckAck sess packet) packet = Stream.checkAck (opposite sess packet) packet ∧
    (dCheckAck sess packet).side packet = sess.side packet := by
  by_cases other : sess.ucSynRtx ≠ packet.bRtxType
  · have here : opposite sess packet = sess.req := if_pos other
    have there : sess.side packet = sess.res := if_pos other
    rw [here, there, dCheckAck, if_pos other]
    exact ⟨if_pos other, if_pos other⟩
  · have here : opposite sess packet = sess.res := if_neg other
    have there : sess.side packet = sess.req := if_neg other
    rw [here, there, dCheckAck, if_neg other]
    exact ⟨if_neg other, if_neg other⟩

/-- The segments that the packet acknowledges are marked, and no other, exactly where no segment
up to one of them was cut from a packet that runs past the acknowledgement number. -/
theorem check_ack_marks_iff (sess : Streams) (packet : Arrival)
    (traced : ∀ seg ∈ (opposite sess packet).data, Traced (opposite sess packet).uiBase seg) :
    (MarksDue (opposite sess packet).uiBase packet.ack (opposite sess packet).data
        (opposite (dCheckAck sess packet) packet).data ∧
      (dCheckAck sess packet).side packet = sess.side packet) ↔
    NoneCut (opposite sess packet).uiBase packet.ack packet.curtime (opposite sess packet).data := by
  obtain ⟨marked, kept⟩ := check_ack_opposite sess packet
  rw [marked, and_iff_left kept]
  exact marks_due_iff _ traced

theorem check_ack_marks_one :
    ∃ sess packet, (opposite sess packet).data ≠ [] ∧
      MarksDue (opposite sess packet).uiBase packet.ack (opposite sess packet).data
        (opposite (dCheckAck sess packet) packet).data := by
  refine ⟨⟨.client, ⟨0, 0, 0, 0, 0, 0, []⟩, ⟨5000, 5000, 5001, 0, 0, 0,
      [⟨7, 5001, 100, ⟨5001, 100, 54, 0, 0⟩⟩]⟩⟩, ⟨9, .client, 1001, 5101, 0, 54, 7, 0⟩,
    by decide, ?_⟩
  refine ((check_ack_marks_iff _ _ (by decide +kernel)).mpr ?_).1
  intro front seg back shape _
  refine ⟨by decide, ?_⟩
  have only : front = [] ∧ seg = ⟨7, 5001, 100, ⟨5001, 100, 54, 0, 0⟩⟩ := by
    cases front with
    | nil =>
      injection shape with same
      exact ⟨rfl, same.symm⟩
    | cons head front =>
      injection shape with _ later
      exact absurd later.symm (by simp)
  rw [only.1, only.2]
  decide +kernel

/-- The server's segments 5101 to 5200 and then 5051 to 5150 come; the second is cut to 5051 to
5100. The acknowledgement of 5101 does not mark it. -/
theorem cut_segment_not_marked :
    ∃ sess packet, Reached (opposite sess packet) ∧
      (∀ seg ∈ (opposite sess packet).data, Traced (opposite sess packet).uiBase seg) ∧
      (∃ seg ∈ (opposite sess packet).data, Due (opposite sess packet).uiBase packet.ack seg) ∧
      (opposite (dCheckAck sess packet) packet).data = (opposite sess packet).data ∧
      ¬ MarksDue (opposite sess packet).uiBase packet.ack (opposite sess packet).data
        (opposite (dCheckAck sess packet) packet).data := by
  let opened : TcpPending.Stream := ⟨5000, 5000, 5001, 0, 0, 0, []⟩
  let first : Arrival := ⟨7, .server, 5101, 1001, 100, 54, 1, 0⟩
  let second : Arrival := ⟨8, .server, 5051, 1001, 100, 54, 2, 0⟩
  let one : TcpPending.Stream := { opened with data := (opened.insert first.segment).data }
  let two : TcpPending.Stream := { one with data := (one.insert second.segment).data }
  have reached : Reached two :=
    .inserted one second (.inserted opened first (.opened opened rfl (by decide +kernel))
      (by decide) (by decide +kernel)) (by decide) (by decide +kernel)
  have due : ∃ seg ∈ two.data, Due two.uiBase 5101 seg := by
    decide +kernel
  have same : (Stream.checkAck two ⟨9, .client, 1001, 5101, 0, 54, 7, 0⟩).data = two.data := by
    decide +kernel
  refine ⟨⟨.client, opened, two⟩, ⟨9, .client, 1001, 5101, 0, 54, 7, 0⟩, reached,
    (reached_sound reached).traced, due, same, ?_⟩
  intro marks
  have unmarked : MarksDue two.uiBase 5101 two.data
      (Stream.checkAck two ⟨9, .client, 1001, 5101, 0, 54, 7, 0⟩).data := marks
  rw [same, marks_none] at unmarked
  obtain ⟨seg, member, isDue⟩ := due
  exact unmarked seg member isDue

end Claim

end Upst.TcpAck
