import Upst.AssoRecords
import Upst.SctpDeliver
import Mathlib.Data.Finset.Card

/-!
Which packets are taken for one association. A packet is tied to the two registered ends that the
filter finds for it; its identity is their groups and their ports, those of the client first. A run
without closing chunks has one record for each identity where no two packets of the two directions
use the same two ports the same way round, and the table is large enough.
-/

namespace Upst.Sctp

open Asso
open PreaFilter (LpreaSctp sctpFind filterPktSCTP)

set_option autoImplicit false

section Captured

variable {LPREASCTP : List LpreaSctp}

/-- What the filter makes of the information of a packet between two ends. -/
def sentInfo (source dest : LpreaSctp) (info : InfoEth) : InfoEth :=
  { info with
    seq := source.GroupID
    ack := dest.GroupID
    codes := { info.codes with usSysType := source.SysType }
    bRtxType := if source.direction = .down then .client else .server }

/-- A packet that passes the filter, with what it carries. -/
structure Captured (LPREASCTP : List LpreaSctp) where
  cap : CaptureHeaderMsg
  info : InfoEth
  pBuf : Nat → UInt8
  gdOffset : Nat
  supply : Nat → Supply
  message : Message
  source : LpreaSctp
  dest : LpreaSctp
  source_found : sctpFind LPREASCTP info.dwSrcIP = some source
  dest_found : sctpFind LPREASCTP info.dwDestIP = some dest
  opposite : source.direction ≠ dest.direction
  carries : Carries pBuf (sentInfo source dest info) message

def Captured.sent (packet : Captured LPREASCTP) : InfoEth :=
  sentInfo packet.source packet.dest packet.info

def Captured.key (packet : Captured LPREASCTP) : AssoKey := assoKey packet.pBuf packet.sent

theorem captured_passes (packet : Captured LPREASCTP) :
    filterPktSCTP LPREASCTP packet.info.toInfoEth = .ok packet.sent.toInfoEth := by
  rw [filterPktSCTP, packet.source_found, packet.dest_found]
  exact if_neg packet.opposite

structure Identity where
  clientGroup : Nat
  serverGroup : Nat
  clientPort : Nat
  serverPort : Nat
  deriving DecidableEq, Repr

/-- Packets to the client go down. -/
def Captured.identity (packet : Captured LPREASCTP) : Identity :=
  if packet.source.direction = .down then
    { clientGroup := packet.source.GroupID
      serverGroup := packet.dest.GroupID
      clientPort := packet.message.usSrcPort
      serverPort := packet.message.usDestPort }
  else
    { clientGroup := packet.dest.GroupID
      serverGroup := packet.source.GroupID
      clientPort := packet.message.usDestPort
      serverPort := packet.message.usSrcPort }

/-- Two packets of the two directions between the same groups that use the same two ports. -/
structure Crossed (packet other : Captured LPREASCTP) : Prop where
  directions : packet.source.direction ≠ other.source.direction
  clients : packet.identity.clientGroup = other.identity.clientGroup
  servers : packet.identity.serverGroup = other.identity.serverGroup
  apart : packet.message.usSrcPort ≠ packet.message.usDestPort
  ports : packet.message.usSrcPort = other.message.usSrcPort ∧
      packet.message.usDestPort = other.message.usDestPort ∨
    packet.message.usSrcPort = other.message.usDestPort ∧
      packet.message.usDestPort = other.message.usSrcPort

def SmallGroups (LPREASCTP : List LpreaSctp) : Prop := ∀ conf ∈ LPREASCTP, conf.GroupID < 2 ^ 16

theorem find_small (small : SmallGroups LPREASCTP) {SIP : Nat} {conf : LpreaSctp}
    (found : sctpFind LPREASCTP SIP = some conf) : conf.GroupID < 2 ^ 16 :=
  small conf (List.mem_of_find?_eq_some found)

theorem sys_info_groups (small : SmallGroups LPREASCTP) (packet : Captured LPREASCTP) :
    uiSysInfo packet.sent =
      packet.identity.clientGroup + 2 ^ 16 * packet.identity.serverGroup := by
  have source : u16 packet.source.GroupID = packet.source.GroupID :=
    Nat.mod_eq_of_lt (find_small small packet.source_found)
  have dest : u16 packet.dest.GroupID = packet.dest.GroupID :=
    Nat.mod_eq_of_lt (find_small small packet.dest_found)
  unfold uiSysInfo Captured.identity Captured.sent sentInfo
  by_cases down : packet.source.direction = .down
  · simp only [if_pos down, if_true, source, dest]
  · have server : ¬ Tcp.Rtx.server = .client := Tcp.Rtx.noConfusion
    simp only [if_neg down, if_neg server, source, dest]

theorem groups_small (small : SmallGroups LPREASCTP) (packet : Captured LPREASCTP) :
    packet.identity.clientGroup < 2 ^ 16 ∧ packet.identity.serverGroup < 2 ^ 16 := by
  have source := find_small small packet.source_found
  have dest := find_small small packet.dest_found
  unfold Captured.identity
  split_ifs
  · exact ⟨source, dest⟩
  · exact ⟨dest, source⟩

/-- The same key is the same groups and the same ports in the same places of the packet. -/
theorem key_eq_iff (small : SmallGroups LPREASCTP) (packet other : Captured LPREASCTP) :
    packet.key = other.key ↔
      (packet.identity.clientGroup = other.identity.clientGroup ∧
        packet.identity.serverGroup = other.identity.serverGroup) ∧
      packet.message.usSrcPort = other.message.usSrcPort ∧
        packet.message.usDestPort = other.message.usDestPort := by
  have own := groups_small small packet
  have theirs := groups_small small other
  rw [Captured.key, Captured.key, Captured.sent, Captured.sent, asso_key_carries packet.carries,
    asso_key_carries other.carries]
  have groups := sys_info_groups small packet
  have groups' := sys_info_groups small other
  rw [Captured.sent] at groups groups'
  rw [groups, groups', AssoKey.mk.injEq]
  constructor
  · rintro ⟨src, dest, sys⟩
    exact ⟨by omega, src, dest⟩
  · rintro ⟨⟨client, server⟩, src, dest⟩
    exact ⟨src, dest, by rw [client, server]⟩

/-- The same identity is the same groups and the same port at either end. -/
theorem identity_eq_iff (packet other : Captured LPREASCTP) :
    packet.identity = other.identity ↔
      (packet.identity.clientGroup = other.identity.clientGroup ∧
        packet.identity.serverGroup = other.identity.serverGroup) ∧
      if packet.source.direction = other.source.direction then
        packet.message.usSrcPort = other.message.usSrcPort ∧
          packet.message.usDestPort = other.message.usDestPort
      else
        packet.message.usSrcPort = other.message.usDestPort ∧
          packet.message.usDestPort = other.message.usSrcPort := by
  unfold Captured.identity
  cases packet.source.direction <;> cases other.source.direction <;>
    simp [and_assoc, and_comm, and_left_comm]

theorem key_identity_iff (small : SmallGroups LPREASCTP) (packet other : Captured LPREASCTP) :
    (packet.key = other.key ↔ packet.identity = other.identity) ↔ ¬ Crossed packet other := by
  rw [key_eq_iff small, identity_eq_iff]
  constructor
  · intro agree crossed
    have groups := And.intro crossed.clients crossed.servers
    have apart := crossed.apart
    rw [if_neg crossed.directions] at agree
    rcases crossed.ports with same | swapped
    · have both := (agree.mp ⟨groups, same⟩).2
      exact apart (same.1.trans both.2.symm)
    · have both := (agree.mpr ⟨groups, swapped⟩).2
      exact apart (both.1.trans swapped.2.symm)
  · intro straight
    by_cases directions : packet.source.direction = other.source.direction
    · rw [if_pos directions]
    · rw [if_neg directions]
      constructor
      · rintro ⟨groups, same⟩
        by_contra different
        have apart : packet.message.usSrcPort ≠ packet.message.usDestPort := by
          intro equal
          exact different ⟨groups, equal.trans same.2, equal.symm.trans same.1⟩
        exact straight ⟨directions, groups.1, groups.2, apart, Or.inl same⟩
      · rintro ⟨groups, swapped⟩
        by_contra different
        have apart : packet.message.usSrcPort ≠ packet.message.usDestPort := by
          intro equal
          exact different ⟨groups, equal.trans swapped.2, equal.symm.trans swapped.1⟩
        exact straight ⟨directions, groups.1, groups.2, apart, Or.inr swapped⟩

end Captured

section Turn

variable {LPREASCTP : List LpreaSctp}

/-- From the filter in `PRE_A` through one turn of `A_SCTP`. A packet that is filtered out is not
passed on. -/
def captureTurn (LPREASCTP : List LpreaSctp) (fuel : Nat) (table : AssoTable) (cap : CaptureHeaderMsg)
    (info : InfoEth) (pBuf : Nat → UInt8) (gdOffset : Nat) (supply : Nat → Supply) :
    Option AssoTable :=
  match filterPktSCTP LPREASCTP info.toInfoEth with
  | .error _ => some table
  | .ok sent =>
      (mainTurn pBuf fuel gdOffset cap (some { info with toInfoEth := sent }) supply table).map
        Prod.fst

def Captured.turn (packet : Captured LPREASCTP) (fuel : Nat) (table : AssoTable) :
    Option AssoTable :=
  captureTurn LPREASCTP fuel table packet.cap packet.info packet.pBuf packet.gdOffset packet.supply

def run (fuel : Nat) (table : AssoTable) (packets : List (Captured LPREASCTP)) : Option AssoTable :=
  packets.foldlM (fun table packet => packet.turn fuel table) table

/-- The loop over the chunks of the packet comes to an end. -/
def Captured.ChunksEnd (packet : Captured LPREASCTP) : Prop :=
  Finishes (clearSum packet.pBuf packet.sent.sctpPlace) packet.supply 0
    (packet.sent.sctpPlace + DEF_SCTPHEADER_SIZE) packet.message.chunks

theorem turn_returns {packet : Captured LPREASCTP} (ends : packet.ChunksEnd) (table : AssoTable) :
    ∃ fuel after, packet.turn fuel table = some after := by
  have carries : Carries packet.pBuf packet.sent packet.message := packet.carries
  obtain ⟨fuel, returned⟩ := (analyze_returns_iff packet.cap packet.supply carries packet.gdOffset
    table).mpr fun _ => ends
  refine ⟨fuel, Option.isSome_iff_exists.mp ?_⟩
  rw [Captured.turn, captureTurn, captured_passes packet]
  change (Option.map Prod.fst (mainTurn packet.pBuf fuel packet.gdOffset packet.cap (some packet.sent)
    packet.supply table)).isSome = true
  rwa [mainTurn, Option.isSome_map, Option.isSome_map]

theorem turn_mono {packet : Captured LPREASCTP} {fuel more : Nat} (le : fuel ≤ more)
    {table after : AssoTable} (done : packet.turn fuel table = some after) :
    packet.turn more table = some after := by
  rw [Captured.turn, captureTurn, captured_passes packet] at done ⊢
  obtain ⟨sent, turn, rfl⟩ := Option.map_eq_some_iff.mp done
  obtain ⟨returned, analyzed, rfl⟩ := Option.map_eq_some_iff.mp turn
  dsimp only
  rw [mainTurn, analyze_mono le analyzed]
  rfl

theorem run_mono {fuel more : Nat} (le : fuel ≤ more) {packets : List (Captured LPREASCTP)}
    {table final : AssoTable} (done : run fuel table packets = some final) :
    run more table packets = some final := by
  induction packets generalizing table with
  | nil => exact done
  | cons packet packets ih =>
      rw [run, List.foldlM_cons] at done ⊢
      obtain ⟨mid, turn, rest⟩ := Option.bind_eq_some_iff.mp done
      exact Option.bind_eq_some_iff.mpr ⟨mid, turn_mono le turn, ih rest⟩

/-- Turns enough for each packet are enough for the run. -/
theorem run_returns {packets : List (Captured LPREASCTP)}
    (ends : ∀ packet ∈ packets, packet.ChunksEnd) (table : AssoTable) :
    ∃ fuel final, run fuel table packets = some final := by
  induction packets generalizing table with
  | nil => exact ⟨0, table, rfl⟩
  | cons packet packets ih =>
      obtain ⟨first, mid, turn⟩ := turn_returns (ends packet List.mem_cons_self) table
      obtain ⟨others, final, rest⟩ :=
        ih (fun other member => ends other (List.mem_cons_of_mem packet member)) mid
      refine ⟨max first others, final, ?_⟩
      rw [run, List.foldlM_cons]
      exact Option.bind_eq_some_iff.mpr ⟨mid, turn_mono (Nat.le_max_left first others) turn,
        run_mono (Nat.le_max_right first others) rest⟩

def Captured.StaysOpen (packet : Captured LPREASCTP) : Prop :=
  ∀ chunk ∈ packet.message.chunks, chunk.closes = false

theorem walk_keeps {pBuf : Nat → UInt8} {slot usSCTPDataLen : Nat} {cap : CaptureHeaderMsg}
    {supply : Nat → Supply} {chunks : List Chunk} {count usPosition place : Nat} {work sent : Work}
    (wf : ∀ chunk ∈ chunks, chunk.WellFormed) (stays : ∀ chunk ∈ chunks, chunk.closes = false)
    (stands : Network.Stands pBuf place (chunkBytes chunks))
    (whole : usPosition + (chunkBytes chunks).length = usSCTPDataLen)
    (short : usSCTPDataLen < 2 ^ 16)
    (done : ∃ fuel, chunkLoop pBuf slot usSCTPDataLen cap supply fuel count usPosition place work =
      some sent) : SameKeys work.table sent.table := by
  induction chunks generalizing count usPosition place work with
  | nil =>
      obtain rfl : usPosition = usSCTPDataLen := whole
      obtain rfl := (walk_nil _ _ _ _).mp done
      exact same_keys_refl _
  | cons chunk chunks ih =>
      have own := wf chunk List.mem_cons_self
      obtain ⟨mid, ⟨fuel, step⟩, rest⟩ := (walk_cons own stands whole short work sent).mp done
      obtain ⟨front, behind, whole⟩ := chunks_split stands whole
      have keys := (chunk_step_some own front step).keys
      rw [Chunk.leaves, stays chunk List.mem_cons_self] at keys
      exact keys.trans (ih (fun other member => wf other (List.mem_cons_of_mem _ member))
        (fun other member => stays other (List.mem_cons_of_mem _ member)) behind whole rest)

theorem set_addresses_key (info : InfoEth) (data : AssoData) :
    (setAddresses info data).stKey = data.stKey := by
  unfold setAddresses
  split_ifs <;> rfl

/-- A packet without a closing chunk takes a record for its key where there is one to take. -/
theorem turn_keys {packet : Captured LPREASCTP} (stays : packet.StaysOpen) {fuel : Nat}
    {table table' : AssoTable} (done : packet.turn fuel table = some table') :
    match table.associate packet.key with
    | some (_, own) => SameKeys own table'
    | none => table' = table := by
  rw [Captured.turn, captureTurn, captured_passes packet] at done
  obtain ⟨⟨sent, events⟩, turn, rfl⟩ := Option.map_eq_some_iff.mp done
  have carries : Carries packet.pBuf packet.sent packet.message := packet.carries
  change mainTurn packet.pBuf fuel packet.gdOffset packet.cap (some packet.sent) packet.supply table =
    some (sent, events) at turn
  cases found : table.associate packet.key with
  | none =>
      rw [turn_refused carries found] at turn
      exact (Prod.mk.inj (Option.some.inj turn)).1.symm
  | some place =>
      obtain ⟨slot, own⟩ := place
      obtain ⟨located, keys, looped⟩ := turn_found packet.cap packet.supply carries found
      rw [looped] at turn
      obtain ⟨work, walked, ended⟩ := Option.map_eq_some_iff.mp turn
      have whole : DEF_SCTPHEADER_SIZE + (chunkBytes packet.message.chunks).length =
          packet.sent.sctpDataLen := by
        rw [data_len carries, bytes_length]
      have kept : SameKeys located work.table := walk_keeps carries.chunks stays (chunks_stand carries)
        whole (Nat.mod_lt _ (by decide)) ⟨fuel, walked⟩
      have last := set_data_same_keys work.table slot
        (set_addresses_key work.info (work.table.tuple slot))
      rw [(Prod.mk.inj ended).1] at last
      exact (keys.trans kept).trans last

end Turn

section Run

variable {LPREASCTP : List LpreaSctp}

/-- The records are those of the packets seen, one for a key, and a packet without a record has met
a full table. -/
structure Recorded (seen : List (Captured LPREASCTP)) (table : AssoTable) : Prop where
  slots : (table.used ++ table.free :: table.rest).Nodup
  count : table.used.length + table.rest.length = MAX_ASSO_RECORD - 1
  unique : ∀ slot ∈ table.used, ∀ other ∈ table.used,
    (table.tuple slot).stKey = (table.tuple other).stKey → slot = other
  sound : ∀ slot ∈ table.used, ∃ packet ∈ seen, packet.key = (table.tuple slot).stKey
  taken : ∀ packet ∈ seen,
    (∃ slot ∈ table.used, (table.tuple slot).stKey = packet.key) ∨ table.rest = []

theorem recorded_start (tuple : Nat → AssoData) :
    Recorded ([] : List (Captured LPREASCTP)) (initSessDB tuple) where
  slots := (slots_wf.mpr (init_table_wf tuple)).nodup
  count := by
    change 0 + (List.range' 1 (MAX_ASSO_RECORD - 1)).length = _
    rw [List.length_range', Nat.zero_add]
  unique := (init_table_wf tuple).keys
  sound slot used := absurd used List.not_mem_nil
  taken packet seen := absurd seen List.not_mem_nil

theorem recorded_same {seen : List (Captured LPREASCTP)} {table table' : AssoTable}
    (same : SameKeys table table') (recorded : Recorded seen table) : Recorded seen table' where
  slots := by
    rw [same.used, same.free, same.rest]
    exact recorded.slots
  count := by
    rw [same.used, same.rest]
    exact recorded.count
  unique := by
    intro slot used other used' keys
    rw [same.used] at used used'
    rw [same.keys, same.keys] at keys
    exact recorded.unique slot used other used' keys
  sound := by
    intro slot used
    rw [same.used] at used
    rw [same.keys]
    exact recorded.sound slot used
  taken := by
    intro packet member
    rw [same.used, same.rest]
    simp only [same.keys]
    exact recorded.taken packet member

theorem recorded_known {seen : List (Captured LPREASCTP)} {table : AssoTable}
    (recorded : Recorded seen table) {packet : Captured LPREASCTP}
    (known : (∃ slot ∈ table.used, (table.tuple slot).stKey = packet.key) ∨ table.rest = []) :
    Recorded (packet :: seen) table where
  slots := recorded.slots
  count := recorded.count
  unique := recorded.unique
  sound slot used := by
    obtain ⟨other, member, key⟩ := recorded.sound slot used
    exact ⟨other, List.mem_cons_of_mem packet member, key⟩
  taken other member := by
    rcases List.mem_cons.mp member with rfl | member
    · exact known
    · exact recorded.taken other member

theorem recorded_new {seen : List (Captured LPREASCTP)} {table : AssoTable}
    (recorded : Recorded seen table) {packet : Captured LPREASCTP}
    (unknown : table.avlSearch packet.key = none) {next : Nat} {rest : List Nat}
    (free : table.rest = next :: rest) :
    Recorded (packet :: seen)
      { tuple := Function.update table.tuple table.free (initASSODATA packet.key)
        used := table.free :: table.used
        free := next
        rest := rest } := by
  have slots := recorded.slots
  rw [free] at slots
  have outside : table.free ∉ table.used := by
    intro used
    exact (List.nodup_append.mp slots).2.2 table.free used table.free List.mem_cons_self rfl
  have own : (Function.update table.tuple table.free (initASSODATA packet.key) table.free).stKey =
      packet.key := by
    rw [Function.update_self]
    rfl
  have others : ∀ slot ∈ table.used,
      (Function.update table.tuple table.free (initASSODATA packet.key) slot).stKey =
        (table.tuple slot).stKey := by
    intro slot used
    have apart : slot ≠ table.free := by
      rintro rfl
      exact outside used
    rw [Function.update_of_ne apart]
  refine ⟨?_, ?_, ?_, ?_, ?_⟩
  · have moved : (table.used ++ table.free :: next :: rest).Perm
        (table.free :: table.used ++ next :: rest) := List.perm_middle
    exact moved.nodup_iff.mp slots
  · have count := recorded.count
    rw [free, List.length_cons] at count
    change (table.free :: table.used).length + rest.length = _
    rw [List.length_cons, ← count]
    omega
  · intro slot used other used' keys
    rcases List.mem_cons.mp used with rfl | used
    · rcases List.mem_cons.mp used' with rfl | used'
      · rfl
      · dsimp only at keys
        rw [own, others other used'] at keys
        exact absurd keys.symm (search_none unknown used')
    · rcases List.mem_cons.mp used' with rfl | used'
      · dsimp only at keys
        rw [own, others slot used] at keys
        exact absurd keys (search_none unknown used)
      · dsimp only at keys
        rw [others slot used, others other used'] at keys
        exact recorded.unique slot used other used' keys
  · intro slot used
    rcases List.mem_cons.mp used with rfl | used
    · exact ⟨packet, List.mem_cons_self, own.symm⟩
    · obtain ⟨other, member, key⟩ := recorded.sound slot used
      exact ⟨other, List.mem_cons_of_mem packet member, key.trans (others slot used).symm⟩
  · intro other member
    rcases List.mem_cons.mp member with rfl | member
    · exact Or.inl ⟨table.free, List.mem_cons_self, own⟩
    · rcases recorded.taken other member with ⟨slot, used, key⟩ | full
      · exact Or.inl ⟨slot, List.mem_cons_of_mem _ used, (others slot used).trans key⟩
      · rw [free] at full
        exact nomatch full

theorem recorded_turn {seen : List (Captured LPREASCTP)} {table table' : AssoTable}
    (recorded : Recorded seen table) {packet : Captured LPREASCTP} (stays : packet.StaysOpen)
    {fuel : Nat} (done : packet.turn fuel table = some table') :
    Recorded (packet :: seen) table' := by
  have keys := turn_keys stays done
  cases found : table.associate packet.key with
  | none =>
      rw [found] at keys
      obtain rfl : table' = table := keys
      exact recorded_known recorded (Or.inr (associate_none found))
  | some place =>
      obtain ⟨slot, own⟩ := place
      rw [found] at keys
      apply recorded_same keys
      rcases associate_some found with ⟨known, rfl⟩ | ⟨unknown, next, rest, free, rfl, rfl⟩
      · obtain ⟨used, key⟩ := search_key known
        exact recorded_known recorded (Or.inl ⟨slot, used, key⟩)
      · exact recorded_new recorded unknown free

theorem recorded_run {fuel : Nat} {packets seen : List (Captured LPREASCTP)} {table final : AssoTable}
    (recorded : Recorded seen table) (stays : ∀ packet ∈ packets, packet.StaysOpen)
    (done : run fuel table packets = some final) : Recorded (packets.reverse ++ seen) final := by
  induction packets generalizing seen table with
  | nil =>
      obtain rfl := Option.some.inj done
      exact recorded
  | cons packet packets ih =>
      rw [run, List.foldlM_cons] at done
      obtain ⟨mid, turn, rest⟩ := Option.bind_eq_some_iff.mp done
      rw [List.reverse_cons, List.append_assoc]
      exact ih (recorded_turn recorded (stays packet List.mem_cons_self) turn)
        (fun other member => stays other (List.mem_cons_of_mem packet member)) rest

end Run

section Records

variable {LPREASCTP : List LpreaSctp} {packets : List (Captured LPREASCTP)} {table : AssoTable}

/-- Each identity seen has one record, that of the key of its packets, and there is no other. -/
def OnePerIdentity (packets : List (Captured LPREASCTP)) (table : AssoTable) : Prop :=
  ∃ slot : Identity → Nat,
    (∀ packet ∈ packets, ∀ other ∈ packets,
      slot packet.identity = slot other.identity → packet.identity = other.identity) ∧
    (∀ packet ∈ packets, slot packet.identity ∈ table.used ∧
      (table.tuple (slot packet.identity)).stKey = packet.key) ∧
    ∀ place ∈ table.used, ∃ packet ∈ packets, slot packet.identity = place

def identities (packets : List (Captured LPREASCTP)) : Finset Identity :=
  (packets.map Captured.identity).toFinset

theorem mem_identities {identity : Identity} :
    identity ∈ identities packets ↔ ∃ packet ∈ packets, packet.identity = identity := by
  rw [identities, List.mem_toFinset, List.mem_map]

theorem recorded_size (recorded : Recorded packets table) :
    table.used.toFinset.card = table.used.length :=
  List.toFinset_card_of_nodup (List.nodup_append.mp recorded.slots).1

theorem one_per_identity_straight (small : SmallGroups LPREASCTP)
    (recorded : Recorded packets table) (one : OnePerIdentity packets table) :
    (∀ packet ∈ packets, ∀ other ∈ packets, ¬ Crossed packet other) ∧
      (identities packets).card ≤ MAX_ASSO_RECORD - 1 := by
  obtain ⟨slot, apart, held, -⟩ := one
  constructor
  · intro packet member other member'
    apply (key_identity_iff small packet other).mp
    constructor
    · intro keys
      apply apart packet member other member'
      apply recorded.unique _ (held packet member).1 _ (held other member').1
      rw [(held packet member).2, (held other member').2, keys]
    · intro same
      rw [← (held packet member).2, ← (held other member').2, same]
  · have placed : (identities packets).card ≤ table.used.toFinset.card := by
      apply Finset.card_le_card_of_injOn slot
      · intro identity seen
        obtain ⟨packet, member, rfl⟩ := mem_identities.mp seen
        exact List.mem_toFinset.mpr (held packet member).1
      · intro identity seen identity' seen' same
        obtain ⟨packet, member, rfl⟩ := mem_identities.mp seen
        obtain ⟨other, member', rfl⟩ := mem_identities.mp seen'
        exact apart packet member other member' same
    have count := recorded.count
    rw [recorded_size recorded] at placed
    omega

/-- A table that is full holds as many keys as it has records, so no further identity was seen. -/
theorem all_taken (small : SmallGroups LPREASCTP) (recorded : Recorded packets table)
    (straight : ∀ packet ∈ packets, ∀ other ∈ packets, ¬ Crossed packet other)
    (enough : (identities packets).card ≤ MAX_ASSO_RECORD - 1) {packet : Captured LPREASCTP}
    (member : packet ∈ packets) :
    ∃ slot ∈ table.used, (table.tuple slot).stKey = packet.key := by
  rcases recorded.taken packet member with found | full
  · exact found
  · by_contra missing
    have source : ∀ slot, ∃ other, slot ∈ table.used →
        other ∈ packets ∧ other.key = (table.tuple slot).stKey := by
      intro slot
      by_cases used : slot ∈ table.used
      · obtain ⟨other, seen, key⟩ := recorded.sound slot used
        exact ⟨other, fun _ => ⟨seen, key⟩⟩
      · exact ⟨packet, fun inside => absurd inside used⟩
    choose other holds using source
    have fewer : table.used.toFinset.card ≤ ((identities packets).erase packet.identity).card := by
      apply Finset.card_le_card_of_injOn fun slot => (other slot).identity
      · intro slot used
        obtain ⟨seen, key⟩ := holds slot (List.mem_toFinset.mp used)
        apply Finset.mem_erase.mpr
        refine ⟨?_, mem_identities.mpr ⟨other slot, seen, rfl⟩⟩
        intro same
        have agree := (key_identity_iff small (other slot) packet).mpr
          (straight (other slot) seen packet member)
        exact missing ⟨slot, List.mem_toFinset.mp used, key.symm.trans (agree.mpr same)⟩
      · intro slot used slot' used' same
        obtain ⟨seen, key⟩ := holds slot (List.mem_toFinset.mp used)
        obtain ⟨seen', key'⟩ := holds slot' (List.mem_toFinset.mp used')
        have agree := (key_identity_iff small (other slot) (other slot')).mpr
          (straight (other slot) seen (other slot') seen')
        apply recorded.unique slot (List.mem_toFinset.mp used) slot' (List.mem_toFinset.mp used')
        rw [← key, ← key', agree.mpr same]
    have own : packet.identity ∈ identities packets := mem_identities.mpr ⟨packet, member, rfl⟩
    have positive := Finset.card_pos.mpr ⟨_, own⟩
    have count := recorded.count
    rw [full, List.length_nil, Nat.add_zero] at count
    rw [recorded_size recorded, Finset.card_erase_of_mem own] at fewer
    omega

theorem straight_one_per_identity (small : SmallGroups LPREASCTP)
    (recorded : Recorded packets table)
    (straight : ∀ packet ∈ packets, ∀ other ∈ packets, ¬ Crossed packet other)
    (enough : (identities packets).card ≤ MAX_ASSO_RECORD - 1) : OnePerIdentity packets table := by
  have agree : ∀ packet ∈ packets, ∀ other ∈ packets,
      (packet.key = other.key ↔ packet.identity = other.identity) :=
    fun packet member other member' =>
      (key_identity_iff small packet other).mpr (straight packet member other member')
  have place : ∀ identity, ∃ slot, ∀ packet ∈ packets, packet.identity = identity →
      slot ∈ table.used ∧ (table.tuple slot).stKey = packet.key := by
    intro identity
    by_cases seen : ∃ packet ∈ packets, packet.identity = identity
    · obtain ⟨packet, member, rfl⟩ := seen
      obtain ⟨slot, used, key⟩ := all_taken small recorded straight enough member
      refine ⟨slot, ?_⟩
      intro other member' same
      exact ⟨used, key.trans ((agree packet member other member').mpr same.symm)⟩
    · exact ⟨0, fun packet member same => absurd ⟨packet, member, same⟩ seen⟩
  choose slot held using place
  refine ⟨slot, ?_, fun packet member => held _ packet member rfl, ?_⟩
  · intro packet member other member' same
    apply (agree packet member other member').mp
    rw [← (held _ packet member rfl).2, ← (held _ other member' rfl).2, same]
  · intro other used
    obtain ⟨packet, member, key⟩ := recorded.sound other used
    obtain ⟨inside, own⟩ := held _ packet member rfl
    exact ⟨packet, member, recorded.unique _ inside other used (own.trans key)⟩

end Records

section Reverse

def twoPeers : List LpreaSctp :=
  [{ SIP := 0x0A000001
     SysType := 1
     direction := .down
     GroupID := 1 },
   { SIP := 0x0A000002
     SysType := 1
     direction := .up
     GroupID := 2 }]

theorem two_peers_small : SmallGroups twoPeers := by
  unfold SmallGroups
  decide

def peerMessage (usSrcPort usDestPort : Nat) (chunks : List Chunk) : Message where
  usSrcPort := usSrcPort
  usDestPort := usDestPort
  uiVerifTag := 0
  chunks := chunks

def peerInfo (dwSrcIP dwDestIP : Nat) (message : Message) : InfoEth :=
  { fromClient (20 + (message.bytes 0).length) with
    dwSrcIP := dwSrcIP
    dwDestIP := dwDestIP }

/-- A packet of the lower peer, which is taken for the client. -/
def upPacket (supply : Supply) (message : Message) (short : 20 + (message.bytes 0).length < 2 ^ 16)
    (ports : message.usSrcPort < 2 ^ 16 ∧ message.usDestPort < 2 ^ 16)
    (chunks : ∀ chunk ∈ message.chunks, chunk.WellFormed) : Captured twoPeers where
  cap := ⟨0, 0, 0⟩
  info := peerInfo 0x0A000001 0x0A000002 message
  pBuf := frameOf message
  gdOffset := 200
  supply := fun _ => supply
  message := message
  source := ⟨0x0A000001, 1, .down, 1⟩
  dest := ⟨0x0A000002, 1, .up, 2⟩
  source_found := rfl
  dest_found := rfl
  opposite := PreaFilter.Dir.noConfusion
  carries := frame_carries rfl Tcp.Rtx.noConfusion rfl rfl short ports chunks

/-- An INIT with one parameter. -/
def openingInit : Chunk where
  ucType := 1
  ucFlag := 0
  value := List.replicate 20 0
  padding := []

theorem opening_init_wf : openingInit.WellFormed :=
  ⟨by decide, rfl, by decide⟩

def smallData : Chunk where
  ucType := 0
  ucFlag := 3
  value := List.replicate 16 0
  padding := []

theorem small_data_wf : smallData.WellFormed :=
  ⟨by decide, rfl, by decide⟩

theorem small_data_only : ∀ chunk ∈ [smallData], chunk.WellFormed :=
  List.forall_mem_singleton.mpr small_data_wf

def initPacket : Captured twoPeers :=
  upPacket everyCall (peerMessage 1000 3868 [openingInit]) (by decide) (by decide)
    (List.forall_mem_singleton.mpr opening_init_wf)

def dataPacket : Captured twoPeers :=
  upPacket everyCall (peerMessage 1000 3868 [smallData]) (by decide) (by decide)
    small_data_only

/-- The packet of the other direction. -/
def downPacket : Captured twoPeers where
  cap := ⟨0, 0, 0⟩
  info := peerInfo 0x0A000002 0x0A000001 (peerMessage 3868 1000 [smallData])
  pBuf := frameOf (peerMessage 3868 1000 [smallData])
  gdOffset := 200
  supply := fun _ => everyCall
  message := peerMessage 3868 1000 [smallData]
  source := ⟨0x0A000002, 1, .up, 2⟩
  dest := ⟨0x0A000001, 1, .down, 1⟩
  source_found := rfl
  dest_found := rfl
  opposite := PreaFilter.Dir.noConfusion
  carries := frame_carries rfl Tcp.Rtx.noConfusion rfl rfl (by decide) (by decide)
    small_data_only

/-- The walk over the INIT ends before its first turn, and the data fit. -/
theorem init_then_data_end : ∀ packet ∈ [initPacket, dataPacket], packet.ChunksEnd := by
  intro packet member
  rcases List.mem_cons.mp member with rfl | last
  · exact ⟨⟨by decide, ⟨fun _ => ⟨0, by decide⟩, fun kind => absurd kind (by decide)⟩, nofun⟩, trivial⟩
  · obtain rfl := List.mem_singleton.mp last
    exact ⟨⟨by decide, ends_apart (by decide) (by decide), fun _ _ => by decide⟩, trivial⟩

/-- Keys and identities agree for two packets that are not crossed. A run of packets whose chunks end
returns, and one without closing chunks has one record for each identity exactly where no two of its
packets are crossed and the identities fit the table. -/
theorem association_per_identity_iff (LPREASCTP : List LpreaSctp) (small : SmallGroups LPREASCTP) :
    (∀ packet other : Captured LPREASCTP,
      (packet.key = other.key ↔ packet.identity = other.identity) ↔ ¬ Crossed packet other) ∧
    (∀ (tuple : Nat → AssoData) (packets : List (Captured LPREASCTP)),
      (∀ packet ∈ packets, packet.ChunksEnd) →
      ∃ fuel final, run fuel (initSessDB tuple) packets = some final) ∧
    ∀ (tuple : Nat → AssoData) (fuel : Nat) (packets : List (Captured LPREASCTP))
      (final : AssoTable), (∀ packet ∈ packets, packet.StaysOpen) →
      run fuel (initSessDB tuple) packets = some final →
      (OnePerIdentity packets final ↔
        (∀ packet ∈ packets, ∀ other ∈ packets, ¬ Crossed packet other) ∧
          (identities packets).card ≤ MAX_ASSO_RECORD - 1) := by
  refine ⟨key_identity_iff small, fun tuple packets ends => run_returns ends _, ?_⟩
  intro tuple fuel packets final stays done
  have reversed := recorded_run (recorded_start tuple) stays done
  rw [List.append_nil] at reversed
  have recorded : Recorded packets final :=
    ⟨reversed.slots, reversed.count, reversed.unique,
      fun slot used => by simpa only [List.mem_reverse] using reversed.sound slot used,
      fun packet member => reversed.taken packet (List.mem_reverse.mpr member)⟩
  constructor
  · exact one_per_identity_straight small recorded
  · rintro ⟨straight, enough⟩
    exact straight_one_per_identity small recorded straight enough

/-- An association is opened and sends its first data. -/
theorem init_then_data_one_record :
    ((initPacket.key = downPacket.key ↔ initPacket.identity = downPacket.identity) ↔
        ¬ Crossed initPacket downPacket) ∧
      ∃ fuel final, run fuel (initSessDB fun _ => initASSODATA .zero) [initPacket, dataPacket] =
          some final ∧
        (OnePerIdentity [initPacket, dataPacket] final ↔
          (∀ packet ∈ [initPacket, dataPacket], ∀ other ∈ [initPacket, dataPacket],
              ¬ Crossed packet other) ∧
            (identities [initPacket, dataPacket]).card ≤ MAX_ASSO_RECORD - 1) := by
  obtain ⟨keys, returns, runs⟩ := association_per_identity_iff twoPeers two_peers_small
  obtain ⟨fuel, final, done⟩ := returns (fun _ => initASSODATA .zero) _ init_then_data_end
  refine ⟨keys initPacket downPacket, fuel, final, done, runs _ fuel _ final ?_ done⟩
  intro packet member chunk carried
  rcases List.mem_cons.mp member with rfl | last
  · obtain rfl := List.mem_singleton.mp carried
    rfl
  · obtain rfl := List.mem_singleton.mp last
    obtain rfl := List.mem_singleton.mp carried
    rfl

/-- The packet of the other direction: addresses and ports are exchanged. -/
structure Reversed {LPREASCTP : List LpreaSctp} (packet other : Captured LPREASCTP) : Prop where
  source : other.info.dwSrcIP = packet.info.dwDestIP
  dest : other.info.dwDestIP = packet.info.dwSrcIP
  src : other.message.usSrcPort = packet.message.usDestPort
  dst : other.message.usDestPort = packet.message.usSrcPort

theorem reversed_other_key :
    ¬ ∀ (LPREASCTP : List LpreaSctp), SmallGroups LPREASCTP → ∀ packet other : Captured LPREASCTP,
        Reversed packet other → packet.key = other.key := by
  intro every
  have same := every twoPeers two_peers_small initPacket downPacket ⟨rfl, rfl, rfl, rfl⟩
  have ports := ((key_eq_iff two_peers_small initPacket downPacket).mp same).2.1
  exact absurd ports (by decide)

end Reverse

end Upst.Sctp
