import Upst.SctpChunks

/-!
Packets as lists of chunks behind the common header, and which of them have each DATA chunk passed
on in a node of its own with the received node freed once.
-/

namespace Upst.Sctp

open Asso Bytes Network

set_option autoImplicit false

section Message

structure Message where
  usSrcPort : Nat
  usDestPort : Nat
  uiVerifTag : Nat
  chunks : List Chunk

def Message.bytes (message : Message) (uiCheckSum : Nat) : List UInt8 :=
  toBe 2 message.usSrcPort ++ (toBe 2 message.usDestPort ++ (toBe 4 message.uiVerifTag ++
    (toBe 4 uiCheckSum ++ chunkBytes message.chunks)))

def Message.checkSum (message : Message) : Nat := uiCrc32 (message.bytes 0)

/-- The frame holds the message with its checksum, and the IP header gives its length. -/
structure Carries (pBuf : Nat → UInt8) (info : InfoEth) (message : Message) : Prop where
  protocol : info.ucProtocol = 0x84
  directed : info.bRtxType ≠ .none
  length : info.wTotalLength = info.wIPHeaderLen + (message.bytes 0).length
  short : info.wTotalLength < 2 ^ 16
  ports : message.usSrcPort < 2 ^ 16 ∧ message.usDestPort < 2 ^ 16
  chunks : ∀ chunk ∈ message.chunks, chunk.WellFormed
  stands : Stands pBuf info.sctpPlace (message.bytes message.checkSum)

variable {pBuf : Nat → UInt8} {info : InfoEth} {message : Message}

theorem bytes_length (message : Message) (uiCheckSum : Nat) :
    (message.bytes uiCheckSum).length = DEF_SCTPHEADER_SIZE + (chunkBytes message.chunks).length := by
  simp only [Message.bytes, List.length_append, to_be_length, DEF_SCTPHEADER_SIZE]
  omega

theorem check_sum_lt (message : Message) : message.checkSum < 256 ^ 4 := by
  have bound := from_be_lt (le32 (~~~ crcLoop 0xFFFFFFFF (message.bytes 0)).toNat)
  rw [le32_length] at bound
  rw [Message.checkSum, uiCrc32]
  exact bound

theorem data_len (carries : Carries pBuf info message) :
    info.sctpDataLen = (message.bytes 0).length := by
  have length := carries.length
  have short := carries.short
  rw [InfoEth.sctpDataLen, u16]
  omega

theorem ports_read (carries : Carries pBuf info message) :
    ntohs pBuf info.sctpPlace = message.usSrcPort ∧
      ntohs pBuf (info.sctpPlace + 2) = message.usDestPort := by
  obtain ⟨src, behind⟩ := stands_append carries.stands
  exact ⟨ntohs_number carries.ports.1 src, ntohs_number carries.ports.2 (stands_append behind).1⟩

/-- The two exchanges of the ports cancel: the key has them as the packet has them. -/
theorem asso_key_ports (pBuf : Nat → UInt8) (info : InfoEth) :
    assoKey pBuf info =
      { usSrcPort := ntohs pBuf info.sctpPlace
        usDestPort := ntohs pBuf (info.sctpPlace + 2)
        uiSysInfo := uiSysInfo info } := by
  unfold assoKey headerPorts
  split_ifs <;> rfl

theorem asso_key_carries (carries : Carries pBuf info message) :
    assoKey pBuf info =
      { usSrcPort := message.usSrcPort
        usDestPort := message.usDestPort
        uiSysInfo := uiSysInfo info } := by
  rw [asso_key_ports, (ports_read carries).1, (ports_read carries).2]

theorem sum_read (carries : Carries pBuf info message) :
    ntohl pBuf (info.sctpPlace + 8) = message.checkSum := by
  obtain ⟨-, dest⟩ := stands_append carries.stands
  obtain ⟨-, tag⟩ := stands_append dest
  obtain ⟨-, sum⟩ := stands_append tag
  exact ntohl_number (check_sum_lt message) (stands_append sum).1

/-- Clearing the checksum leaves the rest of the packet as it stands. -/
theorem cleared_stands (carries : Carries pBuf info message) :
    Stands (clearSum pBuf info.sctpPlace) info.sctpPlace (message.bytes 0) := by
  have split : ∀ sum, message.bytes sum = (toBe 2 message.usSrcPort ++ (toBe 2 message.usDestPort ++
      toBe 4 message.uiVerifTag)) ++ (toBe 4 sum ++ chunkBytes message.chunks) := by
    intro sum
    simp only [Message.bytes, List.append_assoc]
  have stands := carries.stands
  rw [split] at stands
  obtain ⟨front, behind⟩ := stands_append stands
  obtain ⟨-, chunks⟩ := stands_append behind
  have width : (toBe 2 message.usSrcPort ++ (toBe 2 message.usDestPort ++
      toBe 4 message.uiVerifTag)).length = 8 := by
    simp only [List.length_append, to_be_length]
  rw [width, to_be_length] at chunks
  have zero : Stands (clearSum pBuf info.sctpPlace) (info.sctpPlace + 8) (toBe 4 0) :=
    stands_written pBuf (info.sctpPlace + 8) [0, 0, 0, 0]
  have header : Stands (clearSum pBuf info.sctpPlace) info.sctpPlace _ :=
    stands_apart front (Or.inl (by rw [width]))
  have rest : Stands (clearSum pBuf info.sctpPlace) (info.sctpPlace + 8 + 4) _ :=
    stands_apart chunks (Or.inr (Nat.le_refl _))
  rw [split, Stands, List.length_append, read_bytes_append, header, width, List.length_append,
    read_bytes_append, zero, to_be_length, rest]

theorem sum_valid (carries : Carries pBuf info message) :
    uiCrc32 (readBytes (clearSum pBuf info.sctpPlace) info.sctpPlace info.sctpDataLen) =
      ntohl pBuf (info.sctpPlace + 8) := by
  rw [data_len carries, cleared_stands carries, sum_read carries]
  rfl

theorem chunks_stand (carries : Carries pBuf info message) :
    Stands (clearSum pBuf info.sctpPlace) (info.sctpPlace + DEF_SCTPHEADER_SIZE)
      (chunkBytes message.chunks) := by
  obtain ⟨-, dest⟩ := stands_append (cleared_stands carries)
  obtain ⟨-, tag⟩ := stands_append dest
  obtain ⟨-, sum⟩ := stands_append tag
  exact (stands_append sum).2

end Message

section Lookup

variable {pBuf : Nat → UInt8} {info : InfoEth}

theorem lookup_none {cap : CaptureHeaderMsg} {table : AssoTable}
    (full : table.associate (assoKey pBuf info) = none) :
    lookup pBuf cap info table = .error (-4) := by
  have free := associate_none full
  rw [AssoTable.associate] at full
  rw [lookup]
  cases known : table.avlSearch (assoKey pBuf info) with
  | some slot =>
      rw [known] at full
      cases full
  | none =>
      have new : table.avlSearch (newAsso cap (assoKey pBuf info)).stKey = none := known
      dsimp only
      rw [insert_spec new, free]

/-- The association is found, up to its tags and times. -/
theorem lookup_some (directed : info.bRtxType ≠ .none) {cap : CaptureHeaderMsg} {table : AssoTable}
    {slot : Nat} {own : AssoTable} (found : table.associate (assoKey pBuf info) = some (slot, own)) :
    ∃ table', lookup pBuf cap info table = .ok (slot, table') ∧ SameKeys own table' := by
  rw [lookup]
  rcases associate_some found with ⟨known, rfl⟩ | ⟨known, next, rest, free, rfl, rfl⟩
  · rw [known]
    cases direction : info.bRtxType with
    | none => exact absurd direction directed
    | client => exact ⟨_, rfl, set_data_same_keys _ _ rfl⟩
    | server => exact ⟨_, rfl, set_data_same_keys _ _ rfl⟩
  · have new : table.avlSearch (newAsso cap (assoKey pBuf info)).stKey = none := known
    rw [known]
    dsimp only
    rw [insert_spec new, free]
    exact ⟨_, rfl, update_keys (fun _ => rfl) rfl, rfl, rfl, rfl⟩

end Lookup

section Deliver

variable {pBuf : Nat → UInt8} {slot usSCTPDataLen : Nat} {cap : CaptureHeaderMsg}
  {supply : Nat → Supply}

/-- The nodes of the DATA chunks in their order, each written where its calls succeed. -/
def expected (pBuf : Nat → UInt8) (cap : CaptureHeaderMsg) (info : InfoEth)
    (supply : Nat → Supply) : Nat → List Chunk → List NodeEvent
  | _, [] => []
  | count, chunk :: chunks =>
      chunk.events pBuf cap info true (supply count).data ++
        expected pBuf cap info supply (count + 1) chunks

/-- What the chunks ask of the memory behind them, of the calls, and of the records that take the
place of a closed association. -/
def Accepts (pBuf : Nat → UInt8) (slot : Nat) (supply : Nat → Supply) :
    Nat → Nat → AssoTable → List Chunk → Prop
  | _, _, _, [] => True
  | count, place, table, chunk :: chunks =>
      chunk.kind < 15 ∧ chunk.Ends pBuf place (supply count) ∧ chunk.Fits (supply count).data ∧
        (chunk.kind = 0 → (supply count).data.nodeAlloc.isSome → (supply count).data.accepts →
          hasDiameterPort (table.tuple slot).stKey) ∧
        Accepts pBuf slot supply (count + 1) (place + chunk.bytes.length)
          (chunk.leaves slot (supply count) table) chunks

theorem leaves_same_keys (chunk : Chunk) (slot : Nat) (supply : Supply) {table table' : AssoTable}
    (same : SameKeys table table') :
    SameKeys (chunk.leaves slot supply table) (chunk.leaves slot supply table') := by
  unfold Chunk.leaves
  split_ifs
  · exact same.freeMMDB slot supply.moved
  · exact same

/-- The information of the packet up to the length of the last user data. -/
def Measured (info info' : InfoEth) : Prop :=
  ∃ wDataLen, info' = { info with wDataLen := wDataLen }

theorem measures_measured (chunk : Chunk) {info info' : InfoEth} (supply : DataSupply)
    (measured : Measured info info') : Measured info (chunk.measures info' supply) := by
  obtain ⟨wDataLen, rfl⟩ := measured
  unfold Chunk.measures InfoEth.measured
  split_ifs
  · exact ⟨_, rfl⟩
  · exact ⟨_, rfl⟩
  · exact ⟨_, rfl⟩

theorem events_measured (chunk : Chunk) {info info' : InfoEth} (measured : Measured info info')
    (port : Bool) (supply : DataSupply) :
    chunk.events pBuf cap info' port supply = chunk.events pBuf cap info port supply := by
  obtain ⟨wDataLen, rfl⟩ := measured
  rfl

theorem events_length (chunk : Chunk) (info info' : InfoEth) (port port' : Bool)
    (supply : DataSupply) : (chunk.events pBuf cap info port supply).length =
      (chunk.events pBuf cap info' port' supply).length := by
  unfold Chunk.events
  split_ifs
  · exact data_events_length _ _ _ _ _
  · rfl

theorem events_port_iff (chunk : Chunk) (info : InfoEth) (port : Bool) (supply : DataSupply) :
    chunk.events pBuf cap info port supply = chunk.events pBuf cap info true supply ↔
      (chunk.kind = 0 → supply.nodeAlloc.isSome → supply.accepts → port) := by
  unfold Chunk.events
  split_ifs with data
  · constructor
    · intro same _ made accepted
      have sent := data_events_eq same made
      rw [accepted, Bool.true_and, Bool.true_and] at sent
      exact sent
    · intro open_
      cases made : supply.nodeAlloc with
      | none => rfl
      | some offset =>
          cases accepted : supply.accepts with
          | false => rfl
          | true => rw [open_ data (by rw [made]; rfl) accepted]
  · exact iff_of_true rfl fun kind => absurd kind data

theorem walk_appends (info : InfoEth) {chunks : List Chunk} {count usPosition place : Nat}
    {work sent : Work} (wf : ∀ chunk ∈ chunks, chunk.WellFormed)
    (stands : Stands pBuf place (chunkBytes chunks))
    (whole : usPosition + (chunkBytes chunks).length = usSCTPDataLen)
    (short : usSCTPDataLen < 2 ^ 16)
    (done : ∃ fuel, chunkLoop pBuf slot usSCTPDataLen cap supply fuel count usPosition place work =
      some sent) :
    ∃ later, sent.events = work.events ++ later ∧
      later.length = (expected pBuf cap info supply count chunks).length := by
  induction chunks generalizing count usPosition place work with
  | nil =>
      obtain rfl : usPosition = usSCTPDataLen := whole
      obtain rfl := (walk_nil _ _ _ _).mp done
      exact ⟨[], (List.append_nil _).symm, rfl⟩
  | cons chunk chunks ih =>
      obtain ⟨mid, ⟨fuel, step⟩, rest⟩ :=
        (walk_cons (wf chunk List.mem_cons_self) stands whole short work sent).mp done
      obtain ⟨front, behind, whole⟩ := chunks_split stands whole
      have handled := chunk_step_some (wf chunk List.mem_cons_self) front step
      obtain ⟨later, appended, size⟩ :=
        ih (fun other member => wf other (List.mem_cons_of_mem _ member)) behind whole rest
      refine ⟨chunk.events pBuf cap work.info (hasDiameterPort (work.table.tuple slot).stKey)
        (supply count).data ++ later, by rw [appended, handled.events, List.append_assoc], ?_⟩
      rw [expected, List.length_append, List.length_append, size,
        events_length chunk work.info info _ true]

theorem walk_delivers {chunks : List Chunk} {count usPosition place : Nat} {work : Work}
    {table : AssoTable} {info : InfoEth} (wf : ∀ chunk ∈ chunks, chunk.WellFormed)
    (stands : Stands pBuf place (chunkBytes chunks))
    (whole : usPosition + (chunkBytes chunks).length = usSCTPDataLen)
    (short : usSCTPDataLen < 2 ^ 16) (keys : SameKeys table work.table)
    (measured : Measured info work.info) :
    (∃ sent, (∃ fuel, chunkLoop pBuf slot usSCTPDataLen cap supply fuel count usPosition place work =
        some sent) ∧ sent.events = work.events ++ expected pBuf cap info supply count chunks) ↔
      Accepts pBuf slot supply count place table chunks := by
  induction chunks generalizing count usPosition place work table with
  | nil =>
      obtain rfl : usPosition = usSCTPDataLen := whole
      refine iff_of_true ⟨work, (walk_nil _ _ _ _).mpr rfl, ?_⟩ trivial
      rw [expected, List.append_nil]
  | cons chunk chunks ih =>
      have own := wf chunk List.mem_cons_self
      have others := fun other member => wf other (List.mem_cons_of_mem chunk member)
      obtain ⟨front, behind, left⟩ := chunks_split stands whole
      have port : (table.tuple slot).stKey = (work.table.tuple slot).stKey := (keys.keys slot).symm
      constructor
      · rintro ⟨sent, done, events⟩
        obtain ⟨mid, ⟨fuel, step⟩, rest⟩ := (walk_cons own stands whole short work sent).mp done
        have handled := chunk_step_some own front step
        obtain ⟨later, appended, size⟩ := walk_appends info others behind left short rest
        rw [appended, handled.events, expected, List.append_assoc] at events
        obtain ⟨same, same_later⟩ :=
          List.append_inj (List.append_cancel_left events) (events_length _ _ _ _ _ _)
        rw [events_measured chunk measured] at same
        refine ⟨handled.named, handled.ends, handled.fits, ?_, ?_⟩
        · rw [port]
          exact (events_port_iff chunk info _ _).mp same
        · have further := (leaves_same_keys chunk slot (supply count) keys).trans handled.keys
          have info' : Measured info mid.info := by
            rw [handled.info]
            exact measures_measured chunk _ measured
          exact (ih others behind left further info').mp ⟨sent, rest, by rw [appended, same_later]⟩
      · rintro ⟨named, ends, fits, open_, accepts⟩
        obtain ⟨fuel, mid, step⟩ := chunk_step_ends own front slot cap work named ends fits
        have handled := chunk_step_some own front step
        have further := (leaves_same_keys chunk slot (supply count) keys).trans handled.keys
        have info' : Measured info mid.info := by
          rw [handled.info]
          exact measures_measured chunk _ measured
        obtain ⟨sent, rest, events⟩ := (ih others behind left further info').mpr accepts
        refine ⟨sent, (walk_cons own stands whole short work sent).mpr ⟨mid, ⟨fuel, step⟩, rest⟩, ?_⟩
        rw [port] at open_
        rw [events, handled.events, expected, List.append_assoc, events_measured chunk measured,
          (events_port_iff chunk info _ _).mpr open_]

/-- Each DATA chunk has its node written where the calls for it succeed, a node that is made and
not written is freed, and the received node is freed once. -/
def Delivered (pBuf : Nat → UInt8) (gdOffset : Nat) (cap : CaptureHeaderMsg) (info : InfoEth)
    (supply : Nat → Supply) (table : AssoTable) (message : Message) : Prop :=
  ∃ fuel sent, mainTurn pBuf fuel gdOffset cap (some info) supply table = some (sent,
    expected (clearSum pBuf info.sctpPlace) cap (info.withPorts pBuf) supply 0 message.chunks ++
      [.delete gdOffset])

/-- What the table, the chunks and the calls must be for the packet to be delivered. -/
def Deliverable (pBuf : Nat → UInt8) (info : InfoEth) (supply : Nat → Supply) (table : AssoTable)
    (message : Message) : Prop :=
  match table.associate (assoKey pBuf info) with
  | some (slot, own) =>
      Accepts (clearSum pBuf info.sctpPlace) slot supply 0 (info.sctpPlace + DEF_SCTPHEADER_SIZE) own
        message.chunks
  | none =>
      ∀ index chunk, message.chunks[index]? = some chunk → chunk.kind = 0 →
        (supply index).data.nodeAlloc = none

theorem expected_nil (info : InfoEth) (chunks : List Chunk) (count : Nat) :
    expected pBuf cap info supply count chunks = [] ↔
      ∀ index chunk, chunks[index]? = some chunk → chunk.kind = 0 →
        (supply (count + index)).data.nodeAlloc = none := by
  induction chunks generalizing count with
  | nil => simp [expected]
  | cons chunk chunks ih =>
      have own : chunk.events pBuf cap info true (supply count).data = [] ↔
          (chunk.kind = 0 → (supply count).data.nodeAlloc = none) := by
        unfold Chunk.events
        split_ifs with data
        · cases (supply count).data.nodeAlloc <;> simp [dataEvents, data]
        · simp [data]
      rw [expected, List.append_eq_nil_iff, own, ih]
      constructor
      · rintro ⟨first, others⟩ index found member
        cases index with
        | zero =>
            obtain rfl := Option.some.inj member
            exact first
        | succ index =>
            rw [Nat.add_comm index, ← Nat.add_assoc]
            exact others index found member
      · intro every
        refine ⟨every 0 chunk rfl, ?_⟩
        intro index found member
        rw [Nat.add_assoc, Nat.add_comm 1]
        exact every (index + 1) found member

theorem analyzed {info : InfoEth} {message : Message} (carries : Carries pBuf info message)
    (fuel gdOffset : Nat) (table : AssoTable) :
    dAnalyzeSCTP pBuf fuel gdOffset cap info supply table =
      match lookup pBuf cap info table with
      | .error dRet => some (dRet, table, [])
      | .ok (slot, table) =>
          (chunkLoop (clearSum pBuf info.sctpPlace) slot info.sctpDataLen cap supply fuel 0
              DEF_SCTPHEADER_SIZE (info.sctpPlace + DEF_SCTPHEADER_SIZE)
              { table := table
                info := info.withPorts pBuf
                events := [] }).map fun work =>
            (1, work.table.setData slot (setAddresses work.info (work.table.tuple slot)),
              work.events ++ [.delete gdOffset]) := by
  unfold dAnalyzeSCTP
  refine (if_neg (not_not_intro carries.protocol)).trans ?_
  refine (if_neg (not_not_intro (sum_valid carries))).trans ?_
  cases lookup pBuf cap info table <;> rfl

theorem turn_refused {info : InfoEth} {message : Message} (carries : Carries pBuf info message)
    {table : AssoTable} (full : table.associate (assoKey pBuf info) = none) (fuel gdOffset : Nat) :
    mainTurn pBuf fuel gdOffset cap (some info) supply table =
      some (table, [.delete gdOffset]) := by
  rw [mainTurn, analyzed carries, lookup_none full]
  rfl

theorem turn_found (cap : CaptureHeaderMsg) (supply : Nat → Supply) {info : InfoEth}
    {message : Message} (carries : Carries pBuf info message) {table own : AssoTable}
    (found : table.associate (assoKey pBuf info) = some (slot, own)) :
    ∃ located, SameKeys own located ∧ ∀ fuel gdOffset,
      mainTurn pBuf fuel gdOffset cap (some info) supply table =
        (chunkLoop (clearSum pBuf info.sctpPlace) slot info.sctpDataLen cap supply fuel 0
          DEF_SCTPHEADER_SIZE (info.sctpPlace + DEF_SCTPHEADER_SIZE)
          { table := located
            info := info.withPorts pBuf
            events := [] }).map fun work =>
          (work.table.setData slot (setAddresses work.info (work.table.tuple slot)),
            work.events ++ [.delete gdOffset]) := by
  obtain ⟨located, ok, keys⟩ := lookup_some carries.directed found
  refine ⟨located, keys, ?_⟩
  intro fuel gdOffset
  rw [mainTurn, analyzed carries, ok]
  dsimp only
  rw [Option.map_map]
  rfl

/-- The loop over the chunks comes to an end: each has a name, the loops over its parameters and
causes end, and its data fit in the node. -/
def Finishes (pBuf : Nat → UInt8) (supply : Nat → Supply) : Nat → Nat → List Chunk → Prop
  | _, _, [] => True
  | count, place, chunk :: chunks =>
      (chunk.kind < 15 ∧ chunk.Ends pBuf place (supply count) ∧ chunk.Fits (supply count).data) ∧
        Finishes pBuf supply (count + 1) (place + chunk.bytes.length) chunks

theorem walk_finishes {chunks : List Chunk} {count usPosition place : Nat} {work : Work}
    (wf : ∀ chunk ∈ chunks, chunk.WellFormed) (stands : Stands pBuf place (chunkBytes chunks))
    (whole : usPosition + (chunkBytes chunks).length = usSCTPDataLen)
    (short : usSCTPDataLen < 2 ^ 16) :
    (∃ sent fuel, chunkLoop pBuf slot usSCTPDataLen cap supply fuel count usPosition place work =
        some sent) ↔ Finishes pBuf supply count place chunks := by
  induction chunks generalizing count usPosition place work with
  | nil =>
      obtain rfl : usPosition = usSCTPDataLen := whole
      exact iff_of_true ⟨work, (walk_nil _ _ _ _).mpr rfl⟩ trivial
  | cons chunk chunks ih =>
      have own := wf chunk List.mem_cons_self
      have others := fun other member => wf other (List.mem_cons_of_mem chunk member)
      obtain ⟨front, behind, left⟩ := chunks_split stands whole
      constructor
      · rintro ⟨sent, done⟩
        obtain ⟨mid, ⟨fuel, step⟩, rest⟩ := (walk_cons own stands whole short work sent).mp done
        have handled := chunk_step_some own front step
        exact ⟨⟨handled.named, handled.ends, handled.fits⟩, (ih others behind left).mp ⟨sent, rest⟩⟩
      · rintro ⟨⟨named, ends, fits⟩, finishes⟩
        obtain ⟨fuel, mid, step⟩ := chunk_step_ends own front slot cap work named ends fits
        obtain ⟨sent, rest⟩ := (ih others behind left).mpr finishes
        exact ⟨sent, (walk_cons own stands whole short work sent).mpr ⟨mid, ⟨fuel, step⟩, rest⟩⟩

/-- The chunks of a packet whose association is found, or has room, come to an end. -/
def PacketFinishes (pBuf : Nat → UInt8) (info : InfoEth) (supply : Nat → Supply) (table : AssoTable)
    (message : Message) : Prop :=
  (table.associate (assoKey pBuf info)).isSome →
    Finishes (clearSum pBuf info.sctpPlace) supply 0 (info.sctpPlace + DEF_SCTPHEADER_SIZE)
      message.chunks

theorem analyze_returns_iff (cap : CaptureHeaderMsg) (supply : Nat → Supply) {info : InfoEth}
    {message : Message} (carries : Carries pBuf info message) (gdOffset : Nat) (table : AssoTable) :
    (∃ fuel, (dAnalyzeSCTP pBuf fuel gdOffset cap info supply table).isSome) ↔
      PacketFinishes pBuf info supply table message := by
  have whole : DEF_SCTPHEADER_SIZE + (chunkBytes message.chunks).length = info.sctpDataLen := by
    rw [data_len carries, bytes_length]
  have short : info.sctpDataLen < 2 ^ 16 := Nat.mod_lt _ (by decide)
  rw [PacketFinishes]
  cases found : table.associate (assoKey pBuf info) with
  | none =>
      refine iff_of_true ⟨0, ?_⟩ nofun
      rw [analyzed carries, lookup_none found]
      rfl
  | some place =>
      obtain ⟨slot, own⟩ := place
      obtain ⟨located, ok, -⟩ := @lookup_some _ _ carries.directed cap _ _ _ found
      have walk := @walk_finishes _ slot _ cap supply _ 0 _ _ ⟨located, info.withPorts pBuf, []⟩
        carries.chunks (chunks_stand carries) whole short
      rw [← walk]
      simp only [analyzed carries, ok, Option.isSome_map, Option.isSome_some, true_implies]
      constructor
      · rintro ⟨fuel, done⟩
        obtain ⟨sent, walked⟩ := Option.isSome_iff_exists.mp done
        exact ⟨sent, fuel, walked⟩
      · rintro ⟨sent, fuel, walked⟩
        exact ⟨fuel, Option.isSome_iff_exists.mpr ⟨sent, walked⟩⟩

theorem analyze_mono {fuel more gdOffset : Nat} (le : fuel ≤ more) {info : InfoEth} {table : AssoTable}
    {done : Int × AssoTable × List NodeEvent}
    (returned : dAnalyzeSCTP pBuf fuel gdOffset cap info supply table = some done) :
    dAnalyzeSCTP pBuf more gdOffset cap info supply table = some done := by
  unfold dAnalyzeSCTP at returned ⊢
  split_ifs at returned ⊢ with protocol sum
  · exact returned
  · exact returned
  · split at returned
    · exact returned
    · obtain ⟨work, walked, sent⟩ := Option.map_eq_some_iff.mp returned
      rw [chunk_loop_mono le walked]
      exact congrArg some sent

theorem delivered_full {gdOffset : Nat} {info : InfoEth} {table : AssoTable} {message : Message}
    (carries : Carries pBuf info message) (full : table.associate (assoKey pBuf info) = none) :
    Delivered pBuf gdOffset cap info supply table message ↔
      ∀ index chunk, message.chunks[index]? = some chunk → chunk.kind = 0 →
        (supply index).data.nodeAlloc = none := by
  have nothing : expected (clearSum pBuf info.sctpPlace) cap (info.withPorts pBuf) supply 0
      message.chunks = [] ↔ _ := expected_nil _ _ _
  simp only [Nat.zero_add] at nothing
  rw [← nothing]
  constructor
  · rintro ⟨fuel, sent, same⟩
    rw [turn_refused carries full] at same
    exact List.self_eq_append_left.mp (Prod.mk.inj (Option.some.inj same)).2
  · intro empty
    refine ⟨0, table, ?_⟩
    rw [turn_refused carries full, empty, List.nil_append]

theorem delivered_found {gdOffset : Nat} {info : InfoEth} {table own : AssoTable}
    {message : Message} (carries : Carries pBuf info message)
    (found : table.associate (assoKey pBuf info) = some (slot, own)) :
    Delivered pBuf gdOffset cap info supply table message ↔
      Accepts (clearSum pBuf info.sctpPlace) slot supply 0 (info.sctpPlace + DEF_SCTPHEADER_SIZE) own
        message.chunks := by
  obtain ⟨located, keys, turn⟩ := turn_found cap supply carries found
  have whole : DEF_SCTPHEADER_SIZE + (chunkBytes message.chunks).length = info.sctpDataLen := by
    rw [data_len carries, bytes_length]
  have short : info.sctpDataLen < 2 ^ 16 := Nat.mod_lt _ (by decide)
  have walk : (∃ sent, (∃ fuel, chunkLoop (clearSum pBuf info.sctpPlace) slot info.sctpDataLen
        cap supply fuel 0 DEF_SCTPHEADER_SIZE (info.sctpPlace + DEF_SCTPHEADER_SIZE)
        ⟨located, info.withPorts pBuf, []⟩ = some sent) ∧
      sent.events = [] ++ expected (clearSum pBuf info.sctpPlace) cap (info.withPorts pBuf) supply
        0 message.chunks) ↔ _ :=
    walk_delivers carries.chunks (chunks_stand carries) whole short keys ⟨_, rfl⟩
  rw [← walk]
  constructor
  · rintro ⟨fuel, sent, same⟩
    rw [turn] at same
    obtain ⟨work, done, ended⟩ := Option.map_eq_some_iff.mp same
    exact ⟨work, ⟨fuel, done⟩, List.append_cancel_right (Prod.mk.inj ended).2⟩
  · rintro ⟨work, ⟨fuel, done⟩, events⟩
    refine ⟨fuel, work.table.setData slot (setAddresses work.info (work.table.tuple slot)), ?_⟩
    rw [turn, done, Option.map_some, events]
    rfl

end Deliver

section Closing

def Message.diameter (message : Message) : Prop :=
  message.usSrcPort = DEF_DIAMETER_PORT ∨ message.usDestPort = DEF_DIAMETER_PORT

def fromClient (wTotalLength : Nat) : InfoEth where
  bRtxType := .client
  dwSrcIP := 0x0A000001
  dwDestIP := 0x0A000002
  wSrcPort := 0
  wDestPort := 0
  nControlType := 0
  seq := 1
  ack := 2
  wDataLen := 0
  codes := .zero
  ucProtocol := 0x84
  wIPHeaderLen := 20
  wTotalLength := wTotalLength

def frameOf (message : Message) : Nat → UInt8 :=
  writeBytes (fun _ => 0) 34 (message.bytes message.checkSum)

/-- A frame that holds a message behind an IP header without options. -/
theorem frame_carries {info : InfoEth} {message : Message} (protocol : info.ucProtocol = 0x84)
    (directed : info.bRtxType ≠ .none) (header : info.wIPHeaderLen = 20)
    (length : info.wTotalLength = 20 + (message.bytes 0).length)
    (short : 20 + (message.bytes 0).length < 2 ^ 16)
    (ports : message.usSrcPort < 2 ^ 16 ∧ message.usDestPort < 2 ^ 16)
    (chunks : ∀ chunk ∈ message.chunks, chunk.WellFormed) :
    Carries (frameOf message) info message where
  protocol := protocol
  directed := directed
  length := by rw [length, header]
  short := by
    rw [length]
    exact short
  ports := ports
  chunks := chunks
  stands := by
    rw [InfoEth.sctpPlace, header]
    exact stands_written _ _ _

def completeThenData : Message where
  usSrcPort := 1000
  usDestPort := DEF_DIAMETER_PORT
  uiVerifTag := 0
  chunks :=
    [{ ucType := 14
       ucFlag := 0
       value := []
       padding := [] },
     { ucType := 0
       ucFlag := 3
       value := List.replicate 16 0
       padding := [] }]

def everyCall : Supply where
  data :=
    { nodeAlloc := some 100
      capHeader := true
      infoEth := true
      sctpData := true
      ethData := true
      gifoWrite := true }
  usDataOffset := 0
  moved := none

theorem complete_then_data_carries :
    Carries (frameOf completeThenData) (fromClient (20 + (completeThenData.bytes 0).length))
      completeThenData := by
  apply frame_carries rfl Tcp.Rtx.noConfusion rfl rfl
  · decide
  · decide
  · intro chunk member
    simp only [completeThenData, List.mem_cons, List.not_mem_nil, or_false] at member
    rcases member with rfl | rfl
    · exact ⟨by decide, rfl, by decide⟩
    · exact ⟨by decide, rfl, by decide⟩

theorem chunks_delivered_iff (pBuf : Nat → UInt8) (gdOffset : Nat) (cap : CaptureHeaderMsg)
    (info : InfoEth) (supply : Nat → Supply) (table : AssoTable) (message : Message)
    (carries : Carries pBuf info message) :
    Delivered pBuf gdOffset cap info supply table message ↔
      Deliverable pBuf info supply table message := by
  rw [Deliverable]
  cases found : table.associate (assoKey pBuf info) with
  | none => exact delivered_full carries found
  | some place => exact delivered_found carries found

theorem complete_then_data_iff :
    Delivered (frameOf completeThenData) 200 ⟨0, 0, 0⟩
        (fromClient (20 + (completeThenData.bytes 0).length)) (fun _ => everyCall)
        (initSessDB fun _ => initASSODATA .zero) completeThenData ↔
      Deliverable (frameOf completeThenData) (fromClient (20 + (completeThenData.bytes 0).length))
        (fun _ => everyCall) (initSessDB fun _ => initASSODATA .zero) completeThenData :=
  chunks_delivered_iff _ 200 ⟨0, 0, 0⟩ _ (fun _ => everyCall) _ _ complete_then_data_carries

/-- Data behind a SHUTDOWN COMPLETE in one packet is not passed on. -/
theorem data_after_complete_lost :
    ¬ ∀ (pBuf : Nat → UInt8) (gdOffset : Nat) (cap : CaptureHeaderMsg) (info : InfoEth)
        (supply : Nat → Supply) (table : AssoTable) (message : Message),
        Carries pBuf info message → message.diameter →
          Delivered pBuf gdOffset cap info supply table message := by
  intro every
  have carries := complete_then_data_carries
  have delivered := every _ 200 ⟨0, 0, 0⟩ _ (fun _ => everyCall)
    (initSessDB fun _ => initASSODATA .zero) _ carries (Or.inr rfl)
  have key : assoKey (frameOf completeThenData)
      (fromClient (20 + (completeThenData.bytes 0).length)) = ⟨1000, 3868, 131073⟩ :=
    asso_key_carries carries
  cases found : (initSessDB fun _ => initASSODATA .zero).associate ⟨1000, 3868, 131073⟩ with
  | none => exact nomatch found
  | some place =>
      obtain ⟨slot, own⟩ := place
      obtain ⟨searched, held⟩ := associate_key found
      rw [← key] at found
      obtain ⟨-, -, -, -, -, -, -, port, -⟩ := (delivered_found carries found).mp delivered
      have left : hasDiameterPort ((own.freeMMDB slot none).tuple slot).stKey = true :=
        port rfl rfl rfl
      rw [← held] at searched
      rw [freed_key (by rw [held]; decide) (by rw [held]; decide) searched] at left
      exact absurd left (by decide)

end Closing

end Upst.Sctp
