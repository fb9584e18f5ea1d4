import Upst.TcpPending

/-!
The ring of pending segments over the life of a direction: an insertion keeps it in order, apart
and after the sent part, and puts every unsent byte of the new segment on it.
-/

namespace Upst.TcpRing

open Spans TcpOverlap TcpPending

set_option autoImplicit false

variable {stream : Stream} {before after old data : List Segment} {prev new placed : Segment}

section Order

/-- The ring between turns: the nodes still to compare, and those that come after the segment. -/
structure Room (stream : Stream) (before : List Segment) (prev : Segment) (after : List Segment)
    (new : Segment) : Prop where
  ordered : Ordered (Segment.start stream.uiBase) (Segment.stop stream.uiBase)
    (before.reverse ++ prev :: after)
  unsent : ∀ seg ∈ before.reverse ++ prev :: after, stream.sent ≤ seg.start stream.uiBase
  above : ∀ seg ∈ after, new.stop stream.uiBase ≤ seg.start stream.uiBase

/-- A ring made of segments of the old one and parts of the new segment. -/
structure Settles (stream : Stream) (old : List Segment) (new : Segment) (data : List Segment) : Prop where
  ordered : Ordered (Segment.start stream.uiBase) (Segment.stop stream.uiBase) data
  known : ∀ seg ∈ data, seg ∈ old ∨
    Kept stream.uiBase new seg ∧ seg.stop stream.uiBase ≤ new.stop stream.uiBase
  unsent : ∀ seg ∈ data, stream.sent ≤ seg.start stream.uiBase

theorem Settles.mono {larger : List Segment} {middle : Segment} (settles : Settles stream old middle data)
    (more : ∀ seg ∈ old, seg ∈ larger) (kept : Kept stream.uiBase new middle)
    (shorter : middle.stop stream.uiBase ≤ new.stop stream.uiBase) :
    Settles stream larger new data where
  ordered := settles.ordered
  known := by
    intro seg member
    rcases settles.known seg member with inOld | ⟨part, stop⟩
    · exact Or.inl (more seg inOld)
    · exact Or.inr ⟨kept.trans part, stop.trans shorter⟩
  unsent := settles.unsent

theorem settles_same (ordered : Ordered (Segment.start stream.uiBase) (Segment.stop stream.uiBase) data)
    (unsent : ∀ seg ∈ data, stream.sent ≤ seg.start stream.uiBase) (more : ∀ seg ∈ data, seg ∈ old) :
    Settles stream old new data where
  ordered := ordered
  known := fun seg member => Or.inl (more seg member)
  unsent := unsent

/-- The new segment is put between two parts of the old ring. -/
theorem settles_insert {left right : List Segment}
    (ordered : Ordered (Segment.start stream.uiBase) (Segment.stop stream.uiBase) (left ++ right))
    (unsent : ∀ seg ∈ left ++ right, stream.sent ≤ seg.start stream.uiBase)
    (more : ∀ seg ∈ left ++ right, seg ∈ old) (kept : Kept stream.uiBase new placed)
    (stop : placed.stop stream.uiBase = new.stop stream.uiBase)
    (below : ∀ seg ∈ left, seg.stop stream.uiBase ≤ placed.start stream.uiBase)
    (above : ∀ seg ∈ right, new.stop stream.uiBase ≤ seg.start stream.uiBase)
    (place : stream.sent ≤ placed.start stream.uiBase) :
    Settles stream old new (left ++ placed :: right) where
  ordered := by
    apply ordered.insert below
    intro seg member
    rw [stop]
    exact above seg member
  known := by
    intro seg member
    rcases List.mem_append.mp member with inLeft | inRight
    · exact Or.inl (more seg (List.mem_append_left _ inLeft))
    · rcases List.mem_cons.mp inRight with rfl | later
      · exact Or.inr ⟨kept, stop.le⟩
      · exact Or.inl (more seg (List.mem_append_right _ later))
  unsent := by
    intro seg member
    rcases List.mem_append.mp member with inLeft | inRight
    · exact unsent seg (List.mem_append_left _ inLeft)
    · rcases List.mem_cons.mp inRight with rfl | later
      · exact place
      · exact unsent seg (List.mem_append_right _ later)

/-- Whatever `CalcBase` returns on a segment that is linked, it stays after the sent part. -/
theorem settled_place {outcome : Calc} (settled : Settled stream new outcome)
    (fits : new.info.Fits stream.uiBase) (unsent : stream.sent < new.stop stream.uiBase) {marked : TcpInfo}
    (times : TimesOnly outcome.info marked) :
    Kept stream.uiBase new { new with info := marked } ∧
    ({ new with info := marked } : Segment).stop stream.uiBase = new.stop stream.uiBase ∧
    stream.sent ≤ ({ new with info := marked } : Segment).start stream.uiBase := by
  cases settled with
  | fresh isLinked placed remains first amount =>
    obtain ⟨kept, start, stop⟩ := placed marked times
    exact ⟨kept, stop, by omega⟩
  | known notLinked same covered amount => omega
  | extended isLinked nothing above placed amount =>
    obtain ⟨kept, start, stop⟩ := placed marked times
    exact ⟨kept, stop, by omega⟩
  | lost notLinked same nothing above far amount =>
    rw [same] at times
    obtain ⟨kept, start, stop⟩ := kept_times fits times
    exact ⟨kept, stop, by omega⟩

theorem settled_remains {outcome : Calc} (settled : Settled stream new outcome)
    (isLinked : linked outcome.result = true) (above : 0 < new.stop stream.uiBase) :
    stream.sent < new.stop stream.uiBase := by
  cases settled with
  | fresh _ _ remains _ _ => exact remains
  | known notLinked _ _ _ => exact absurd isLinked (by simp [notLinked])
  | extended _ nothing _ _ _ => omega
  | lost notLinked _ _ _ _ _ => exact absurd isLinked (by simp [notLinked])

/-- The nodes that precede `prev` end before it starts. -/
theorem Room.earlier (room : Room stream before prev after new) {seg : Segment} (member : seg ∈ before) :
    seg.stop stream.uiBase ≤ prev.start stream.uiBase := by
  obtain ⟨_, _, apart⟩ := List.pairwise_append.mp room.ordered
  exact apart seg (List.mem_reverse.mpr member) prev List.mem_cons_self

theorem Room.later (room : Room stream before prev after new) {seg : Segment} (member : seg ∈ after) :
    prev.stop stream.uiBase ≤ seg.start stream.uiBase := by
  obtain ⟨_, second, _⟩ := List.pairwise_append.mp room.ordered
  exact (List.pairwise_cons.mp second).1 seg member

theorem reverse_cons_append (next : Segment) (rest others : List Segment) :
    (next :: rest).reverse ++ others = rest.reverse ++ next :: others := by
  rw [List.reverse_cons, List.append_assoc, List.singleton_append]

theorem Room.lower {next : Segment} {rest : List Segment} {lower : Segment}
    (room : Room stream (next :: rest) prev after new) (fits : prev.info.Fits stream.uiBase)
    (below : Below stream.uiBase prev new lower) : Room stream rest next (prev :: after) lower where
  ordered := by
    rw [← reverse_cons_append]
    exact room.ordered
  unsent := by
    rw [← reverse_cons_append]
    exact room.unsent
  above := by
    have stop := below.stop
    have order := Segment.start_lt_stop fits
    intro seg member
    rcases List.mem_cons.mp member with rfl | later
    · omega
    · have bound := room.later later
      omega

theorem Room.without {next : Segment} {rest : List Segment} {same : Segment}
    (room : Room stream (next :: rest) prev after new) (around : Around stream.uiBase prev new same) :
    Room stream rest next after same where
  ordered := by
    rw [← reverse_cons_append]
    exact room.ordered.remove
  unsent := by
    intro seg member
    apply room.unsent
    rw [← reverse_cons_append] at member
    rcases List.mem_append.mp member with inLeft | inRight
    · exact List.mem_append_left _ inLeft
    · exact List.mem_append_right _ (List.mem_cons_of_mem _ inRight)
  above := by
    rw [around.stop]
    exact room.above

theorem settles_rule (sentFits : stream.SentFits) : ScanRule stream
    fun before prev after new inserted => Room stream before prev after new →
      Settles stream (before.reverse ++ prev :: after) new inserted.data where
  link := by
    intro before prev after new placed ready kept left right start stop room
    have place := room.unsent prev (List.mem_append_right _ List.mem_cons_self)
    have order := Segment.start_lt_stop (ready.all prev List.mem_cons_self)
    have shape : before.reverse ++ prev :: placed :: after =
        (before.reverse ++ [prev]) ++ placed :: after := by
      rw [List.append_assoc, List.singleton_append]
    have split : before.reverse ++ prev :: after = (before.reverse ++ [prev]) ++ after := by
      rw [List.append_assoc, List.singleton_append]
    have ordered := room.ordered
    have unsent := room.unsent
    rw [split] at ordered unsent ⊢
    dsimp only
    rw [shape]
    apply settles_insert ordered unsent (fun seg member => member) kept stop
    · intro seg member
      rcases List.mem_append.mp member with earlier | last
      · have bound := room.earlier (List.mem_reverse.mp earlier)
        omega
      · rw [List.mem_singleton.mp last]
        omega
    · exact room.above
    · omega
  within := by
    intro before prev after new ready left right room
    exact settles_same room.ordered room.unsent fun seg member => member
  belowHead := by
    intro prev after new lower ready below room
    have stop := below.stop
    have settled := base_settled sentFits below.kept.fits
    have order := Segment.start_lt_stop below.kept.fits
    rw [Inserted.count, Stream.insertHead]
    dsimp only
    split
    · next isLinked =>
      have remains := settled_remains settled isLinked (by omega)
      obtain ⟨kept, same, place⟩ := settled_place settled below.kept.fits remains
        (⟨rfl, rfl, rfl⟩ : TimesOnly (stream.base lower.info).info _)
      have settles : Settles stream (prev :: after) lower
          ([] ++ { lower with info := (stream.base lower.info).info } :: prev :: after) := by
        apply settles_insert room.ordered room.unsent (fun seg member => member) kept same
        · exact fun seg member => absurd member List.not_mem_nil
        · intro seg member
          rcases List.mem_cons.mp member with rfl | later
          · omega
          · have bound := room.later later
            have prevOrder := Segment.start_lt_stop (ready.all prev List.mem_cons_self)
            omega
        · exact place
      exact settles.mono (fun seg member => member) below.kept (by omega)
    · exact settles_same room.ordered room.unsent fun seg member => member
  below := by
    intro next rest prev after new lower inserted ready below settles room
    have stop := below.stop
    rw [reverse_cons_append]
    exact (settles (room.lower (ready.all prev List.mem_cons_self) below)).mono
      (fun seg member => member) below.kept (by omega)
  aroundHead := by
    intro prev after new same ready around room
    have first := room.unsent prev List.mem_cons_self
    have right := around.right
    have prevOrder := Segment.start_lt_stop (ready.all prev List.mem_cons_self)
    have stop := around.stop
    obtain ⟨kept, sameStop, place⟩ := settled_place (base_settled sentFits around.kept.fits)
      around.kept.fits (by omega) (⟨rfl, rfl, rfl⟩ : TimesOnly (stream.base same.info).info _)
    rw [Inserted.count, Stream.replaceHead]
    have settles : Settles stream (prev :: after) same
        ([] ++ { same with info := (stream.base same.info).info } :: after) := by
      apply settles_insert room.ordered.remove ?_ ?_ kept sameStop
      · exact fun seg member => absurd member List.not_mem_nil
      · intro seg member
        have bound := room.above seg member
        omega
      · exact place
      · exact fun seg member => room.unsent seg (List.mem_cons_of_mem _ member)
      · exact fun seg member => List.mem_cons_of_mem _ member
    exact settles.mono (fun seg member => member) around.kept stop.le
  around := by
    intro next rest prev after new same inserted ready around settles room
    have stop := around.stop
    rw [reverse_cons_append]
    apply (settles (room.without around)).mono ?_ around.kept stop.le
    intro seg member
    rcases List.mem_append.mp member with inLeft | inRight
    · exact List.mem_append_left _ inLeft
    · rcases List.mem_cons.mp inRight with rfl | later
      · exact List.mem_append_right _ List.mem_cons_self
      · exact List.mem_append_right _ (List.mem_cons_of_mem _ (List.mem_cons_of_mem _ later))

end Order

section Cover

/-- A byte of the segment that was not sent before. -/
def Unsent (stream : Stream) (new : Segment) (x : Nat) : Prop :=
  new.start stream.uiBase ≤ x ∧ x < new.stop stream.uiBase ∧ stream.sent ≤ x

def Held (stream : Stream) (data : List Segment) (x : Nat) : Prop :=
  Covers (Segment.start stream.uiBase) (Segment.stop stream.uiBase) data x

theorem held_rule (sentFits : stream.SentFits) (live : 0 < stream.sent) : ScanRule stream
    fun before prev after new inserted => Room stream before prev after new →
      ∀ x, Held stream inserted.data x ↔
        Held stream (before.reverse ++ prev :: after) x ∨ Unsent stream new x where
  link := by
    intro before prev after new placed ready kept left right start stop room x
    have place := room.unsent prev (List.mem_append_right _ List.mem_cons_self)
    simp only [Held, Unsent, covers_append, covers_cons, start, stop]
    grind
  within := by
    intro before prev after new ready left right room x
    simp only [Held, Unsent, covers_append, covers_cons]
    grind
  belowHead := by
    intro prev after new lower ready below room x
    have place := room.unsent prev (List.mem_append_right _ List.mem_cons_self)
    have left := below.left
    have right := below.right
    have start := below.start
    have stop := below.stop
    rw [Inserted.count, Stream.insertHead]
    cases base_settled sentFits below.kept.fits with
    | fresh isLinked placed remains first amount =>
      obtain ⟨kept, placedStart, placedStop⟩ := placed _ ⟨rfl, rfl, rfl⟩
      dsimp only
      rw [if_pos isLinked]
      simp only [Held, Unsent, List.reverse_nil, List.nil_append, covers_cons, placedStart,
        placedStop, start, stop]
      grind
    | known notLinked same covered amount =>
      dsimp only
      rw [if_neg (by simp [notLinked])]
      simp only [Held, Unsent, List.reverse_nil, List.nil_append, covers_cons]
      grind
    | extended isLinked nothing above placed amount => omega
    | lost notLinked same nothing above far amount => omega
  below := by
    intro next rest prev after new lower inserted ready below held room x
    have left := below.left
    have right := below.right
    have start := below.start
    have stop := below.stop
    rw [reverse_cons_append]
    have later := held (room.lower (ready.all prev List.mem_cons_self) below) x
    simp only [Held, Unsent, covers_append, covers_cons, start, stop, Inserted.count] at later ⊢
    rw [later]
    grind
  aroundHead := by
    intro prev after new same ready around room x
    have place := room.unsent prev (List.mem_append_right _ List.mem_cons_self)
    have left := around.left
    have right := around.right
    have start := around.start
    have stop := around.stop
    have order := Segment.start_lt_stop (ready.all prev List.mem_cons_self)
    rw [Inserted.count, Stream.replaceHead]
    cases base_settled sentFits around.kept.fits with
    | fresh isLinked placed remains first amount =>
      obtain ⟨kept, placedStart, placedStop⟩ := placed _ ⟨rfl, rfl, rfl⟩
      simp only [Held, Unsent, List.reverse_nil, List.nil_append, covers_cons, placedStart,
        placedStop, start, stop]
      grind
    | known notLinked same covered amount => omega
    | extended isLinked nothing above placed amount => omega
    | lost notLinked same nothing above far amount => omega
  around := by
    intro next rest prev after new same inserted ready around held room x
    have place := room.unsent prev (List.mem_append_right _ List.mem_cons_self)
    have left := around.left
    have right := around.right
    have start := around.start
    have stop := around.stop
    rw [reverse_cons_append]
    have later := held (room.without around) x
    simp only [Held, Unsent, covers_append, covers_cons, start, stop, Inserted.count, Inserted.free] at later ⊢
    rw [later]
    grind

end Cover

section Nodes

def nodes (data : List Segment) : List Nat := data.map Segment.node

theorem nodes_append (left right : List Segment) : nodes (left ++ right) = nodes left ++ nodes right :=
  List.map_append

theorem nodes_cons (seg : Segment) (rest : List Segment) : nodes (seg :: rest) = seg.node :: nodes rest :=
  rfl

/-- The nodes of the ring and the new one, each once on the new ring or deleted. -/
theorem nodes_rule : ScanRule stream fun before prev after new inserted =>
    (nodes inserted.data ++ inserted.freed).Perm
      (new.node :: nodes (before.reverse ++ prev :: after)) where
  link := by
    intro before prev after new placed ready kept left right start stop
    rw [List.append_nil, nodes_append, nodes_append, nodes_cons, nodes_cons, nodes_cons, kept.node]
    exact (((List.Perm.swap _ _ _).append_left _).trans List.perm_middle)
  within := by
    intro before prev after new ready left right
    exact List.perm_append_singleton _ _
  belowHead := by
    intro prev after new lower ready below
    rw [Inserted.count, Stream.insertHead, ← below.kept.node]
    dsimp only
    split
    · rw [List.append_nil]
      exact List.Perm.refl _
    · exact List.perm_append_singleton _ _
  below := by
    intro next rest prev after new lower inserted ready below perm
    rw [reverse_cons_append, ← below.kept.node]
    exact perm
  aroundHead := by
    intro prev after new same ready around
    rw [Inserted.count, Stream.replaceHead, ← around.kept.node]
    exact (List.perm_append_singleton _ _).trans (List.Perm.swap _ _ _)
  around := by
    intro next rest prev after new same inserted ready around perm
    rw [reverse_cons_append, ← around.kept.node]
    have out : (nodes (rest.reverse ++ next :: prev :: after)).Perm
        (prev.node :: nodes (rest.reverse ++ next :: after)) := by
      rw [nodes_append, nodes_cons, nodes_cons, nodes_append, nodes_cons]
      exact ((List.Perm.swap _ _ _).append_left _).trans List.perm_middle
    have freed : (nodes inserted.data ++ prev.node :: inserted.freed).Perm
        (prev.node :: same.node :: nodes (rest.reverse ++ next :: after)) :=
      List.perm_middle.trans (perm.cons _)
    exact (freed.trans (List.Perm.swap _ _ _)).trans (out.symm.cons _)

end Nodes

section Insertion

theorem Stream.Pending.room (pending : stream.Pending) {last : Segment} {before : List Segment}
    (listed : stream.data.reverse = last :: before) : Room stream before last [] new := by
  have ring : before.reverse ++ [last] = stream.data := by
    rw [← List.reverse_cons, ← listed, List.reverse_reverse]
  constructor
  · rw [ring]
    exact pending.ordered
  · rw [ring]
    exact pending.unsent
  · exact fun seg member => absurd member List.not_mem_nil

theorem insert_settles (pending : stream.Pending) (fits : new.info.Fits stream.uiBase) :
    Settles stream stream.data new (stream.insert new).data := by
  rw [Stream.insert]
  cases listed : stream.data.reverse with
  | nil =>
    have settled := base_settled pending.sentFits fits
    have order := Segment.start_lt_stop fits
    dsimp only
    rw [Stream.insertFirst]
    split
    · next isLinked =>
      have remains := settled_remains settled isLinked (by omega)
      obtain ⟨kept, same, place⟩ := settled_place settled fits remains (times_only_mark stream _)
      apply @settles_insert stream stream.data new _ [] []
      · exact List.Pairwise.nil
      · exact fun seg member => absurd member List.not_mem_nil
      · exact fun seg member => absurd member List.not_mem_nil
      · exact kept
      · exact same
      · exact fun seg member => absurd member List.not_mem_nil
      · exact fun seg member => absurd member List.not_mem_nil
      · exact place
    · exact settles_same List.Pairwise.nil (fun seg member => absurd member List.not_mem_nil)
        fun seg member => absurd member List.not_mem_nil
  | cons last before =>
    have ring : before.reverse ++ [last] = stream.data := by
      rw [← List.reverse_cons, ← listed, List.reverse_reverse]
    have settles := (settles_rule pending.sentFits).run before last [] new (pending.ready listed fits)
      (Stream.Pending.room pending listed)
    rw [ring] at settles
    exact settles

theorem insert_held (pending : stream.Pending) (live : 0 < stream.sent)
    (fits : new.info.Fits stream.uiBase) (x : Nat) :
    Held stream (stream.insert new).data x ↔ Held stream stream.data x ∨ Unsent stream new x := by
  rw [Stream.insert]
  cases listed : stream.data.reverse with
  | nil =>
    have empty : stream.data = [] := List.reverse_eq_nil_iff.mp listed
    dsimp only
    rw [empty, Stream.insertFirst]
    cases base_settled pending.sentFits fits with
    | fresh isLinked placed remains first amount =>
      obtain ⟨kept, placedStart, placedStop⟩ := placed _ (times_only_mark stream _)
      rw [if_pos isLinked]
      simp only [Held, Unsent, covers_cons, placedStart, placedStop]
      grind
    | known notLinked same covered amount =>
      rw [if_neg (by simp [notLinked])]
      simp only [Held, Unsent]
      grind
    | extended isLinked nothing above placed amount => omega
    | lost notLinked same nothing above far amount => omega
  | cons last before =>
    have ring : before.reverse ++ [last] = stream.data := by
      rw [← List.reverse_cons, ← listed, List.reverse_reverse]
    have held := (held_rule pending.sentFits live).run before last [] new (pending.ready listed fits)
      (Stream.Pending.room pending listed) x
    rw [ring] at held
    exact held

theorem insert_nodes (pending : stream.Pending) (fits : new.info.Fits stream.uiBase) :
    (nodes (stream.insert new).data ++ (stream.insert new).freed).Perm
      (new.node :: nodes stream.data) := by
  rw [Stream.insert]
  cases listed : stream.data.reverse with
  | nil =>
    have empty : stream.data = [] := List.reverse_eq_nil_iff.mp listed
    dsimp only
    rw [empty, Stream.insertFirst]
    split
    · exact List.Perm.refl _
    · exact List.Perm.refl _
  | cons last before =>
    have ring : before.reverse ++ [last] = stream.data := by
      rw [← List.reverse_cons, ← listed, List.reverse_reverse]
    have perm := nodes_rule.run before last [] new (pending.ready listed fits)
    rw [ring] at perm
    exact perm

theorem insert_pending (pending : stream.Pending) (fits : new.info.Fits stream.uiBase) :
    { stream with data := (stream.insert new).data }.Pending where
  sentFits := ⟨pending.sentFits.short, pending.sentFits.inside⟩
  fits := by
    intro seg member
    rcases (insert_settles pending fits).known seg member with old | ⟨part, _⟩
    · exact pending.fits seg old
    · exact part.fits
  ordered := (insert_settles pending fits).ordered
  unsent := (insert_settles pending fits).unsent

/-- The insertion of a segment on the ring of its direction, where some bytes were sent. -/
theorem insertion_keeps_ring (sess : Streams) (packet : Arrival) (pending : (sess.side packet).Pending)
    (someSent : 0 < ((sess.side packet).uiNextSeq - (sess.side packet).uiLastSeq).toNat)
    (data : 0 < packet.wDataLen.toNat)
    (inside : packet.segment.stop (sess.side packet).uiBase ≤ 2 ^ 32) :
    ((dInsertTCPData sess packet).1.side packet).Pending ∧
    (∀ x, Held (sess.side packet) ((dInsertTCPData sess packet).1.side packet).data x ↔
      Held (sess.side packet) (sess.side packet).data x ∨
        Unsent (sess.side packet) packet.segment x) ∧
    (∀ seg ∈ ((dInsertTCPData sess packet).1.side packet).data, seg ∈ (sess.side packet).data ∨
      seg.node = packet.node ∧ seg.info.uiSOffset - packet.offset =
        (seg.start (sess.side packet).uiBase : Int) - packet.segment.start (sess.side packet).uiBase) ∧
    (nodes ((dInsertTCPData sess packet).1.side packet).data ++ (dInsertTCPData sess packet).2.freed).Perm
      (packet.node :: nodes (sess.side packet).data) := by
  rw [side_insert, insert_side]
  generalize sess.side packet = stream at *
  have live : 0 < stream.sent := by
    rw [Stream.sent]
    omega
  have small := packet.wDataLen.toNat_lt
  have size : packet.segment.info.uiDataSize.toNat = packet.wDataLen.toNat := rfl
  have fits : packet.segment.info.Fits stream.uiBase := ⟨by omega, by omega, inside⟩
  refine ⟨insert_pending pending fits, insert_held pending live fits, ?_, insert_nodes pending fits⟩
  intro seg member
  rcases (insert_settles pending fits).known seg member with old | ⟨part, _⟩
  · exact Or.inl old
  · exact Or.inr ⟨part.node, part.offset⟩

theorem insertion_keeps_ring_first :
    ∃ sess packet, (Streams.side sess packet).Pending ∧
      ((dInsertTCPData sess packet).1.side packet).data ≠ [] ∧
      ((dInsertTCPData sess packet).1.side packet).Pending := by
  refine ⟨⟨.client, ⟨1000, 1000, 1001, 0, 0, 0, [⟨7, 1101, 100, ⟨1101, 100, 54, 0, 0⟩⟩,
      ⟨8, 1301, 100, ⟨1301, 100, 54, 0, 0⟩⟩]⟩, ⟨0, 0, 0, 0, 0, 0, []⟩⟩,
    ⟨9, .client, 1001, 5000, 400, 54, 7, 0⟩, by decide +kernel, by decide +kernel, ?_⟩
  exact (insertion_keeps_ring _ _ (by decide +kernel) (by decide +kernel) (by decide +kernel)
    (by decide +kernel)).1

end Insertion

end Upst.TcpRing
