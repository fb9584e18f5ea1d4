import Upst.TcpPending

/-!
The amount of retransmitted data that the insertion of a segment reports, against the bytes of
the segment that were held or sent before.
-/

namespace Upst.TcpRetrans

open Spans TcpOverlap TcpPending

set_option autoImplicit false

section Amount

variable {base : UInt32}

/-- The byte was sent, or is in one of these segments. -/
def HeldBy (base : UInt32) (sent : Nat) (nodes : List Segment) (x : Nat) : Prop :=
  x < sent ∨ Covers (Segment.start base) (Segment.stop base) nodes x

instance (base : UInt32) (sent : Nat) (nodes : List Segment) : DecidablePred (HeldBy base sent nodes) :=
  fun x => inferInstanceAs (Decidable (x < sent ∨ Covers _ _ nodes x))

/-- The bytes of the new segment in a segment that starts inside it, after its first byte. -/
def inside (base : UInt32) (new seg : Segment) : Nat :=
  if new.start base < seg.start base then
    min (seg.stop base) (new.stop base) - seg.start base
  else 0

def insideAll (base : UInt32) (new : Segment) (nodes : List Segment) : Nat :=
  (nodes.map (inside base new)).sum

variable {sent : Nat} {before : List Segment} {prev new placed : Segment}

theorem held_by_cons (prev : Segment) (before : List Segment) (x : Nat) :
    HeldBy base sent (prev :: before) x ↔
      (prev.start base ≤ x ∧ x < prev.stop base) ∨ HeldBy base sent before x := by
  rw [HeldBy, HeldBy, covers_cons, or_left_comm]

/-- Nothing before a segment of the ring lies at or after its start. -/
theorem not_held_before (ready : Ready base before prev new) (unsent : sent ≤ prev.start base) {x : Nat}
    (later : prev.start base ≤ x) : ¬ HeldBy base sent before x := by
  rintro (low | covered)
  · omega
  · exact not_covers_of_below (fun seg member => ready.earlier member) later covered

theorem count_link (ready : Ready base before prev new) (unsent : sent ≤ prev.start base)
    (left : prev.start base ≤ new.start base) (right : prev.stop base ≤ new.stop base) :
    countIn (HeldBy base sent (prev :: before)) (new.start base) (new.stop base) =
      max (new.start base) (prev.stop base) - new.start base := by
  have order := Segment.start_lt_stop ready.fits
  rw [count_in_split (Nat.le_max_left (new.start base) (prev.stop base)) (by omega),
    count_in_all, count_in_none, Nat.add_zero]
  · intro x low _
    rw [held_by_cons]
    rintro (within | earlier)
    · omega
    · exact not_held_before ready unsent (by omega) earlier
  · intro x low high
    rw [held_by_cons]
    exact Or.inl ⟨by omega, by omega⟩

theorem count_within (left : prev.start base ≤ new.start base) (right : new.stop base ≤ prev.stop base) :
    countIn (HeldBy base sent (prev :: before)) (new.start base) (new.stop base) =
      new.stop base - new.start base := by
  apply count_in_all
  intro x low high
  rw [held_by_cons]
  exact Or.inl ⟨by omega, by omega⟩

theorem count_below (fits : new.info.Fits base) (below : Below base prev new placed) :
    countIn (HeldBy base sent (prev :: before)) (new.start base) (new.stop base) =
      countIn (HeldBy base sent before) (placed.start base) (placed.stop base) +
        (new.stop base - placed.stop base) := by
  have order := Segment.start_lt_stop fits
  have left := below.left
  have right := below.right
  have stop := below.stop
  rw [below.start, count_in_split (show new.start base ≤ placed.stop base by omega)
    (show placed.stop base ≤ new.stop base by omega)]
  congr 1
  · apply count_in_congr
    intro x low high
    rw [held_by_cons]
    apply or_iff_right
    omega
  · apply count_in_all
    intro x low high
    rw [held_by_cons]
    exact Or.inl ⟨by omega, by omega⟩

theorem count_around (ready : Ready base before prev new) (unsent : sent ≤ prev.start base)
    (around : Around base prev new placed) :
    countIn (HeldBy base sent (prev :: before)) (new.start base) (new.stop base) =
      countIn (HeldBy base sent before) (placed.start base) (placed.stop base) +
        prev.info.uiDataSize.toNat := by
  have prevFits := ready.all prev List.mem_cons_self
  have order := Segment.start_lt_stop prevFits
  have size : prev.stop base = prev.start base + prev.info.uiDataSize.toNat := rfl
  have left := around.left
  have right := around.right
  have lower : countIn (HeldBy base sent (prev :: before)) (new.start base) (prev.start base) =
      countIn (HeldBy base sent before) (new.start base) (prev.start base) := by
    apply count_in_congr
    intro x _ high
    rw [held_by_cons]
    apply or_iff_right
    omega
  have middle : countIn (HeldBy base sent (prev :: before)) (prev.start base) (prev.stop base) =
      prev.stop base - prev.start base := by
    apply count_in_all
    intro x low high
    rw [held_by_cons]
    exact Or.inl ⟨low, high⟩
  have upper : countIn (HeldBy base sent (prev :: before)) (prev.stop base) (new.stop base) = 0 := by
    apply count_in_none
    intro x low _
    rw [held_by_cons]
    rintro (within | earlier)
    · omega
    · exact not_held_before ready unsent (by omega) earlier
  have above : countIn (HeldBy base sent before) (prev.start base) (new.stop base) = 0 := by
    apply count_in_none
    intro x low _
    exact not_held_before ready unsent low
  rw [around.start, around.stop,
    count_in_split (show new.start base ≤ prev.start base by omega)
      (show prev.start base ≤ new.stop base by omega),
    count_in_split (show prev.start base ≤ prev.stop base by omega)
      (show prev.stop base ≤ new.stop base by omega),
    count_in_split (show new.start base ≤ prev.start base by omega)
      (show prev.start base ≤ new.stop base by omega), lower, middle, upper, above]
  omega

theorem inside_none (left : ∀ seg ∈ before, seg.start base ≤ new.start base) :
    insideAll base new before = 0 := by
  apply List.sum_eq_zero
  intro amount member
  obtain ⟨seg, listed, rfl⟩ := List.mem_map.mp member
  exact if_neg (Nat.not_lt.mpr (left seg listed))

theorem inside_link (ready : Ready base before prev new) (left : prev.start base ≤ new.start base) :
    insideAll base new (prev :: before).dropLast = 0 := by
  apply inside_none
  intro seg member
  rcases List.mem_cons.mp (List.dropLast_subset _ member) with rfl | earlier
  · exact left
  · have below := ready.earlier earlier
    have order := Segment.start_lt_stop (ready.all seg (List.mem_cons_of_mem _ earlier))
    omega

theorem inside_congr (start : placed.start base = new.start base)
    (same : ∀ seg ∈ before, min (seg.stop base) (placed.stop base) = min (seg.stop base) (new.stop base)) :
    insideAll base placed before = insideAll base new before := by
  apply congrArg List.sum
  apply List.map_congr_left
  intro seg member
  rw [inside, inside, start, same seg member]

theorem inside_below (earlier : ∀ seg ∈ before, seg.stop base ≤ prev.start base)
    (below : Below base prev new placed) :
    insideAll base new (prev :: before) =
      insideAll base placed before + (new.stop base - placed.stop base) := by
  have stop := below.stop
  have right := below.right
  have rest : insideAll base placed before = insideAll base new before := by
    apply inside_congr below.start
    intro seg member
    have bound := earlier seg member
    omega
  rw [rest, insideAll, List.map_cons, List.sum_cons, inside, if_pos below.left, insideAll]
  omega

theorem inside_around (around : Around base prev new placed) :
    insideAll base new (prev :: before) =
      insideAll base placed before + prev.info.uiDataSize.toNat := by
  have size : prev.stop base = prev.start base + prev.info.uiDataSize.toNat := rfl
  have right := around.right
  have rest : insideAll base placed before = insideAll base new before := by
    apply inside_congr around.start
    intro seg _
    rw [around.stop]
  rw [rest, insideAll, List.map_cons, List.sum_cons, inside, if_pos around.left, insideAll]
  omega

end Amount

section Loop

variable {stream : Stream}

/-- Nothing was sent, and the segment comes before these. -/
def Reaches (stream : Stream) (nodes : List Segment) (new : Segment) : Prop :=
  stream.sent = 0 ∧ ∀ seg ∈ nodes, new.start stream.uiBase < seg.start stream.uiBase

instance (stream : Stream) (nodes : List Segment) (new : Segment) : Decidable (Reaches stream nodes new) :=
  inferInstanceAs (Decidable (_ ∧ _))

/-- What the comparison with the empty sent part adds. -/
def Slip (stream : Stream) (nodes : List Segment) (new : Segment) (slip : Int) : Prop :=
  (¬ Reaches stream nodes new → slip = 0) ∧
  (Reaches stream nodes new →
    slip = -new.start stream.uiBase ∨ 0 < slip ∧ 2 ^ 31 ≤ new.stop stream.uiBase)

/-- The amount is the number of bytes held or sent, and once more those in the segments that
start inside the new one, the first of the ring apart. -/
def Counted (stream : Stream) (before : List Segment) (prev : Segment) (_after : List Segment)
    (new : Segment) (inserted : Inserted) : Prop :=
  (∀ seg ∈ prev :: before, stream.sent ≤ seg.start stream.uiBase) →
  (∃ slip, Slip stream (prev :: before) new slip ∧
    inserted.delFlag =
      (countIn (HeldBy stream.uiBase stream.sent (prev :: before)) (new.start stream.uiBase)
        (new.stop stream.uiBase) : Int) +
      insideAll stream.uiBase new (prev :: before).dropLast + slip) ∧
  insideAll stream.uiBase new (prev :: before).dropLast ≤
    countIn (HeldBy stream.uiBase stream.sent (prev :: before)) (new.start stream.uiBase)
      (new.stop stream.uiBase)

variable {before after : List Segment} {prev new placed : Segment}

theorem slip_none {nodes : List Segment} (stays : ¬ Reaches stream nodes new) : Slip stream nodes new 0 :=
  ⟨fun _ => rfl, fun reaches => absurd reaches stays⟩

theorem not_reaches (left : prev.start stream.uiBase ≤ new.start stream.uiBase) :
    ¬ Reaches stream (prev :: before) new := by
  intro ⟨_, all⟩
  have later := all prev List.mem_cons_self
  omega

theorem reaches_cons (left : new.start stream.uiBase < prev.start stream.uiBase)
    (start : placed.start stream.uiBase = new.start stream.uiBase) :
    Reaches stream (prev :: before) new ↔ Reaches stream before placed := by
  rw [Reaches, Reaches, start, List.forall_mem_cons]
  tauto

theorem Slip.cons {slip : Int} (slips : Slip stream before placed slip)
    (left : new.start stream.uiBase < prev.start stream.uiBase)
    (start : placed.start stream.uiBase = new.start stream.uiBase)
    (stop : placed.stop stream.uiBase ≤ new.stop stream.uiBase) :
    Slip stream (prev :: before) new slip := by
  rw [Slip, reaches_cons left start]
  refine ⟨slips.1, fun reaches => ?_⟩
  rcases slips.2 reaches with minus | far
  · exact Or.inl (by rw [minus, start])
  · exact Or.inr ⟨far.1, far.2.trans stop⟩

/-- `CalcBase` alone: the bytes before the end of the sent part. -/
theorem base_counted {outcome : Calc} (fits : new.info.Fits stream.uiBase)
    (settled : Settled stream new outcome) :
    ∃ slip, Slip stream [] new slip ∧ outcome.retransSize =
      (countIn (HeldBy stream.uiBase stream.sent []) (new.start stream.uiBase)
        (new.stop stream.uiBase) : Int) + slip := by
  have order := Segment.start_lt_stop fits
  have size : new.stop stream.uiBase = new.start stream.uiBase + new.info.uiDataSize.toNat := rfl
  have held : ∀ x, HeldBy stream.uiBase stream.sent [] x ↔ x < stream.sent := by
    intro x
    rw [HeldBy]
    exact or_iff_left (covers_nil x)
  have none : stream.sent ≤ new.start stream.uiBase →
      countIn (HeldBy stream.uiBase stream.sent []) (new.start stream.uiBase)
        (new.stop stream.uiBase) = 0 := by
    intro apart
    apply count_in_none
    intro x low _
    rw [held]
    omega
  cases settled with
  | fresh isLinked placed remains first amount =>
    refine ⟨0, ⟨fun _ => rfl, fun reaches => Or.inl ?_⟩, ?_⟩
    · rw [first reaches.1]
      rfl
    · rw [amount, count_in_split
        (show new.start stream.uiBase ≤ max (new.start stream.uiBase) stream.sent by omega)
        (show max (new.start stream.uiBase) stream.sent ≤ new.stop stream.uiBase by omega),
        count_in_all, count_in_none]
      · omega
      · intro x low _
        rw [held]
        omega
      · intro x low high
        rw [held]
        omega
  | known notLinked same covered amount =>
    refine ⟨0, slip_none ?_, ?_⟩
    · intro reaches
      have nothing := reaches.1
      omega
    · rw [amount, count_in_all]
      · omega
      · intro x _ high
        rw [held]
        omega
  | extended isLinked nothing above placed amount =>
    refine ⟨-new.start stream.uiBase, ⟨fun stays => ?_, fun _ => Or.inl rfl⟩, ?_⟩
    · exact absurd ⟨nothing, List.forall_mem_nil _⟩ stays
    · rw [amount, none (by omega)]
      omega
  | lost notLinked same nothing above far amount =>
    refine ⟨new.info.uiDataSize.toNat, ⟨fun stays => ?_, fun _ => Or.inr ⟨by omega, far⟩⟩, ?_⟩
    · exact absurd ⟨nothing, List.forall_mem_nil _⟩ stays
    · rw [amount, none (by omega)]
      omega

theorem insert_head_flag (stream : Stream) (head new : Segment) (after : List Segment) :
    (stream.insertHead head after new).delFlag = (stream.base new.info).retransSize := by
  rw [Stream.insertHead]
  split
  · rfl
  · rfl

theorem insert_first_flag (stream : Stream) (new : Segment) :
    (stream.insertFirst new).delFlag = (stream.base new.info).retransSize := by
  rw [Stream.insertFirst]
  split
  · rfl
  · rfl

theorem counted_rule (sentFits : stream.SentFits) : ScanRule stream (Counted stream) where
  link := by
    intro before prev after new placed ready kept left right start stop unsent
    have first := unsent prev List.mem_cons_self
    rw [inside_link ready left, count_link ready first left right.le]
    refine ⟨⟨0, slip_none (not_reaches left), ?_⟩, Nat.zero_le _⟩
    dsimp only
    omega
  within := by
    intro before prev after new ready left right unsent
    have size : new.stop stream.uiBase = new.start stream.uiBase + new.info.uiDataSize.toNat := rfl
    rw [inside_link ready left, count_within left right]
    refine ⟨⟨0, slip_none (not_reaches left), ?_⟩, Nat.zero_le _⟩
    dsimp only
    omega
  belowHead := by
    intro prev after new lower ready below unsent
    have stop := below.stop
    have right := below.right
    have left := below.left
    obtain ⟨slip, slips, amount⟩ := base_counted below.kept.fits (base_settled sentFits below.kept.fits)
    rw [count_below ready.fits below]
    refine ⟨⟨slip, slips.cons left below.start (by omega), ?_⟩, Nat.zero_le _⟩
    rw [Inserted.count, insert_head_flag, amount, List.dropLast_singleton, insideAll, List.map_nil,
      List.sum_nil]
    dsimp only
    omega
  below := by
    intro next rest prev after new lower inserted ready below counted unsent
    have stop := below.stop
    have right := below.right
    have left := below.left
    obtain ⟨⟨slip, slips, amount⟩, bound⟩ :=
      counted fun seg member => unsent seg (List.mem_cons_of_mem _ member)
    rw [count_below ready.fits below, List.dropLast_cons_cons, inside_below
      (fun seg member => ready.earlier (List.dropLast_subset _ member)) below]
    refine ⟨⟨slip, slips.cons left below.start (by omega), ?_⟩, by omega⟩
    rw [Inserted.count, Inserted.count, amount]
    dsimp only
    omega
  aroundHead := by
    intro prev after new same ready around unsent
    have first := unsent prev List.mem_cons_self
    obtain ⟨slip, slips, amount⟩ := base_counted around.kept.fits (base_settled sentFits around.kept.fits)
    rw [count_around ready first around]
    refine ⟨⟨slip, slips.cons around.left around.start around.stop.le, ?_⟩, Nat.zero_le _⟩
    rw [Inserted.count, Stream.replaceHead, List.dropLast_singleton, insideAll, List.map_nil,
      List.sum_nil]
    dsimp only
    rw [amount]
    omega
  around := by
    intro next rest prev after new same inserted ready around counted unsent
    have first := unsent prev List.mem_cons_self
    obtain ⟨⟨slip, slips, amount⟩, bound⟩ :=
      counted fun seg member => unsent seg (List.mem_cons_of_mem _ member)
    rw [count_around ready first around, List.dropLast_cons_cons, inside_around around]
    refine ⟨⟨slip, slips.cons around.left around.start around.stop.le, ?_⟩, by omega⟩
    rw [Inserted.count, Inserted.count, Inserted.free]
    dsimp only
    rw [amount]
    omega

end Loop

section Claim

variable {stream : Stream} {new : Segment}

theorem inside_all_reverse (base : UInt32) (new : Segment) (nodes : List Segment) :
    insideAll base new nodes.reverse = insideAll base new nodes := by
  rw [insideAll, insideAll, List.map_reverse, List.sum_reverse]

theorem held_by_reverse (base : UInt32) (sent : Nat) (nodes : List Segment) (lo hi : Nat) :
    countIn (HeldBy base sent nodes.reverse) lo hi = countIn (HeldBy base sent nodes) lo hi := by
  apply count_in_congr
  intro x _ _
  rw [HeldBy, HeldBy, covers_reverse]

theorem Slip.reverse {nodes : List Segment} {slip : Int} (slips : Slip stream nodes new slip) :
    Slip stream nodes.reverse new slip := by
  simpa [Slip, Reaches] using slips

theorem insert_counted (pending : stream.Pending) (fits : new.info.Fits stream.uiBase) :
    (∃ slip, Slip stream stream.data new slip ∧
      (stream.insert new).delFlag =
        (countIn (HeldBy stream.uiBase stream.sent stream.data) (new.start stream.uiBase)
          (new.stop stream.uiBase) : Int) +
        insideAll stream.uiBase new stream.data.tail + slip) ∧
    insideAll stream.uiBase new stream.data.tail ≤
      countIn (HeldBy stream.uiBase stream.sent stream.data) (new.start stream.uiBase)
        (new.stop stream.uiBase) := by
  rw [Stream.insert]
  cases listed : stream.data.reverse with
  | nil =>
    have empty : stream.data = [] := List.reverse_eq_nil_iff.mp listed
    obtain ⟨slip, slips, amount⟩ := base_counted fits (base_settled pending.sentFits fits)
    rw [empty]
    refine ⟨⟨slip, slips, ?_⟩, Nat.zero_le _⟩
    dsimp only
    rw [insert_first_flag, amount, List.tail_nil, insideAll, List.map_nil, List.sum_nil]
    omega
  | cons last before =>
    have ready := pending.ready listed fits
    have ring : stream.data = (last :: before).reverse := by
      rw [← listed, List.reverse_reverse]
    have unsent : ∀ seg ∈ last :: before, stream.sent ≤ seg.start stream.uiBase := by
      intro seg member
      apply pending.unsent
      rw [ring, List.mem_reverse]
      exact member
    obtain ⟨⟨slip, slips, amount⟩, bound⟩ :=
      (counted_rule pending.sentFits).run before last [] new ready unsent
    rw [ring, List.tail_reverse, inside_all_reverse, held_by_reverse]
    exact ⟨⟨slip, slips.reverse, amount⟩, bound⟩

/-- The amount is right exactly where the bytes counted twice, those in the segments that start
inside the new one, the first of the ring apart, make up for the bytes below the new segment that
are taken off where nothing was sent. -/
theorem retransmission_counted_iff (sess : Streams) (packet : Arrival)
    (pending : (sess.side packet).Pending) (data : 0 < packet.wDataLen.toNat)
    (inside : packet.segment.stop (sess.side packet).uiBase ≤ 2 ^ 32) :
    (dInsertTCPData sess packet).2.delFlag =
      countIn (HeldBy (sess.side packet).uiBase (sess.side packet).sent
        (sess.side packet).data) (packet.segment.start (sess.side packet).uiBase)
        (packet.segment.stop (sess.side packet).uiBase) ↔
    insideAll (sess.side packet).uiBase packet.segment (sess.side packet).data.tail =
      if Reaches (sess.side packet) (sess.side packet).data packet.segment then
        packet.segment.start (sess.side packet).uiBase
      else 0 := by
  rw [insert_side]
  generalize sess.side packet = stream at *
  have size : packet.segment.info.uiDataSize.toNat = packet.wDataLen.toNat := rfl
  have small := packet.wDataLen.toNat_lt
  have stop : packet.segment.stop stream.uiBase =
    packet.segment.start stream.uiBase + packet.segment.info.uiDataSize.toNat := rfl
  have fits : packet.segment.info.Fits stream.uiBase := ⟨by omega, by omega, inside⟩
  obtain ⟨⟨slip, slips, amount⟩, bound⟩ := insert_counted pending fits
  have most := count_in_le (packet.segment.start stream.uiBase) (packet.segment.stop stream.uiBase)
    (p := HeldBy stream.uiBase stream.sent stream.data)
  rw [amount]
  by_cases reaches : Reaches stream stream.data packet.segment
  · rw [if_pos reaches]
    rcases slips.2 reaches with minus | far
    · omega
    · omega
  · rw [if_neg reaches]
    have none := slips.1 reaches
    omega

theorem retransmission_counted_one :
    ∃ sess packet, (sess.side packet).Pending ∧ (sess.side packet).data ≠ [] ∧
      (dInsertTCPData sess packet).2.delFlag = 50 := by
  have pending : (Streams.side ⟨.client, ⟨1000, 1000, 1001, 0, 0, 0,
      [⟨8, 1101, 100, ⟨1101, 100, 54, 0, 0⟩⟩]⟩, ⟨0, 0, 0, 0, 0, 0, []⟩⟩
      ⟨9, .client, 1001, 5000, 150, 54, 7, 0⟩).Pending := by
    decide +kernel
  refine ⟨_, _, pending, by decide +kernel, ?_⟩
  rw [(retransmission_counted_iff _ _ pending (by decide +kernel) (by decide +kernel)).mpr
    (by decide +kernel)]
  decide +kernel

/-- The segments 1101 to 1200 and 1301 to 1400 wait; 1001 to 1400 arrives. The second one is
counted twice. -/
theorem second_segment_counted_twice :
    ∃ sess packet, (sess.side packet).Pending ∧ 0 < packet.wDataLen.toNat ∧
      packet.segment.stop (sess.side packet).uiBase ≤ 2 ^ 32 ∧
      (dInsertTCPData sess packet).2.delFlag = 300 ∧
      countIn (HeldBy (sess.side packet).uiBase (sess.side packet).sent
        (sess.side packet).data) (packet.segment.start (sess.side packet).uiBase)
        (packet.segment.stop (sess.side packet).uiBase) = 200 := by
  refine ⟨⟨.client, ⟨1000, 1000, 1001, 0, 0, 0, [⟨7, 1101, 100, ⟨1101, 100, 54, 0, 0⟩⟩,
      ⟨8, 1301, 100, ⟨1301, 100, 54, 0, 0⟩⟩]⟩, ⟨0, 0, 0, 0, 0, 0, []⟩⟩,
    ⟨9, .client, 1001, 5000, 400, 54, 7, 0⟩, ?_⟩
  decide +kernel

end Claim

end Upst.TcpRetrans
