import Upst.SctpIdentity

/-!
Which records of the association table a packet changes. The handlers of its chunks write through a
pointer to the record of its association. Behind a chunk that closes the association the slot is free,
or the tree has moved another record there, which the chunks behind then change or delete.
-/

namespace Upst.Sctp

open Asso Bytes Network

set_option autoImplicit false

section Source

/-- What the handler of a chunk leaves of the record that it finds. -/
def chunkData (pBuf : Nat → UInt8) (fuel : Nat) (info : InfoEth) (place : Nat) (chunk : Chunk)
    (data : AssoData) : Option AssoData :=
  match chunk.kind with
  | 1 | 2 => initChunk pBuf fuel (place + DEF_SCTPCHUNKHEADER_SIZE) chunk.header info data
  | 7 => some (setStatus data (data.ucCloseStatus ||| 0x01))
  | 8 => some (setStatus data (data.ucCloseStatus ||| 0x02))
  | 10 => some (setStatus data (data.ucSetupStatus ||| 0x04))
  | 11 => some (setStatus data (data.ucSetupStatus ||| 0x08))
  | 14 => some (setStatus data (data.ucCloseStatus ||| 0x04))
  | _ => some data

/-- The record that several chunks leave, each given turns enough. -/
def Becomes (pBuf : Nat → UInt8) (info : InfoEth) : Nat → List Chunk → AssoData → AssoData → Prop
  | _, [], data, after => after = data
  | place, chunk :: chunks, data, after =>
      ∃ mid, (∃ fuel, chunkData pBuf fuel info place chunk data = some mid) ∧
        Becomes pBuf info (place + chunk.bytes.length) chunks mid after

end Source

section Claim

/-- The chunks do not delete the record, and leave it as it is, with what is done behind the loop. -/
def Leaves (pBuf : Nat → UInt8) (info : InfoEth) (place : Nat) (chunks : List Chunk)
    (data : AssoData) : Prop :=
  (∀ chunk ∈ chunks, chunk.closes = true → ¬data.stKey.Named) ∧
    ∃ after, Becomes pBuf info place chunks data after ∧ setAddresses info after = data

/-- A record that the tree moves to the slot of the closed association is left as it is by the chunks
behind the one that closes it. -/
def MovedLeft (pBuf : Nat → UInt8) (info : InfoEth) (slot : Nat) (supply : Nat → Supply)
    (own : AssoTable) : Nat → Nat → List Chunk → Prop
  | _, _, [] => True
  | count, place, chunk :: chunks =>
      if chunk.closes then
        ∀ other ∈ own.moves slot (supply count).moved,
          Leaves pBuf info (place + chunk.bytes.length) chunks (own.tuple other)
      else MovedLeft pBuf info slot supply own (count + 1) (place + chunk.bytes.length) chunks

/-- Every other record is as it was, and that of the packet's association is gone if a chunk closes it. -/
structure Framed (key : AssoKey) (chunks : List Chunk) (table after : AssoTable) : Prop where
  others : ∀ other, other ≠ key → after.record other = table.record other
  closed : (∃ chunk ∈ chunks, chunk.closes = true) → after.record key = none

/-- The association can be closed, where a chunk closes it, and a record that moves is left. -/
def Contained (pBuf : Nat → UInt8) (info : InfoEth) (supply : Nat → Supply) (table : AssoTable)
    (message : Message) : Prop :=
  ∀ slot own, table.associate (assoKey pBuf info) = some (slot, own) →
    ((∃ chunk ∈ message.chunks, chunk.closes = true) → (assoKey pBuf info).Named) ∧
      ((assoKey pBuf info).Named →
        MovedLeft (clearSum pBuf info.sctpPlace) info slot supply own 0
          (info.sctpPlace + DEF_SCTPHEADER_SIZE) message.chunks)

end Claim

variable {pBuf : Nat → UInt8} {info : InfoEth}

section Step

variable {place : Nat} {chunk : Chunk}

def SameIps (info info' : InfoEth) : Prop :=
  info'.dwSrcIP = info.dwSrcIP ∧ info'.dwDestIP = info.dwDestIP

theorem init_chunk_ips {info' : InfoEth} (same : SameIps info info') (fuel pucData : Nat)
    (header : ChunkHeader) (data : AssoData) :
    initChunk pBuf fuel pucData header info' data = initChunk pBuf fuel pucData header info data := by
  rw [initChunk, initChunk, same.1, same.2]

theorem set_addresses_ips {info' : InfoEth} (same : SameIps info info') (data : AssoData) :
    setAddresses info' data = setAddresses info data := by
  rw [setAddresses, setAddresses, same.1, same.2]

theorem measures_ips {info' : InfoEth} (same : SameIps info info') (supply : DataSupply) :
    SameIps info (chunk.measures info' supply) := by
  rw [Chunk.measures, InfoEth.measured]
  split
  · split
    · exact same
    · exact same
  · exact same

theorem set_data_self (table : AssoTable) (slot : Nat) : table.setData slot (table.tuple slot) = table := by
  rw [AssoTable.setData, Function.update_eq_self]

theorem chunk_data_key (wf : chunk.WellFormed) {fuel : Nat} {data after : AssoData}
    (done : chunkData pBuf fuel info place chunk data = some after) : after.stKey = data.stKey := by
  unfold chunkData at done
  split at done
  case h_1 | h_2 => exact (init_chunk_some wf done).1
  all_goals
    cases done
    rfl

theorem chunk_data_mono {fuel more : Nat} (le : fuel ≤ more) {data after : AssoData}
    (done : chunkData pBuf fuel info place chunk data = some after) :
    chunkData pBuf more info place chunk data = some after := by
  unfold chunkData at done ⊢
  split at done
  case h_1 | h_2 => exact init_chunk_mono le done
  all_goals exact done

theorem chunk_data_kept (kept : chunk.kind ∉ [1, 2, 7, 8, 10, 11, 14]) (fuel : Nat) (data : AssoData) :
    chunkData pBuf fuel info place chunk data = some data := by
  unfold chunkData
  split
  case h_8 => rfl
  all_goals
    next kind =>
      rw [kind] at kept
      exact absurd (by decide) kept

/-- What a chunk does to the table: a write to the slot, and a deletion behind it where the chunk closes
the association. -/
theorem step_table (wf : chunk.WellFormed) (stands : Stands pBuf place chunk.bytes) {fuel slot : Nat}
    {cap : CaptureHeaderMsg} {supply : Supply} {work sent : Work} (same : SameIps info work.info)
    (done : chunkStep pBuf fuel slot cap place supply work = some sent) :
    ∃ data, chunkData pBuf fuel info place chunk (work.table.tuple slot) = some data ∧
      sent.table = (if chunk.closes then (work.table.setData slot data).freeMMDB slot supply.moved
        else work.table.setData slot data) ∧ SameIps info sent.info := by
  have handled := chunk_step_some wf stands done
  have ips : SameIps info sent.info := by
    rw [handled.info]
    exact measures_ips same supply.data
  rw [chunk_step_eq wf stands handled.named] at done
  have open_of {kind : Nat} (here : chunk.kind = kind) (stays : kind ≠ 6 ∧ kind ≠ 14) :
      ¬chunk.closes = true := by
    rw [Chunk.closes, decide_eq_true_eq]
    omega
  have closed_of {kind : Nat} (here : chunk.kind = kind) (closing : kind = 6 ∨ kind = 14) :
      chunk.closes = true := by
    rw [Chunk.closes, decide_eq_true_eq]
    omega
  unfold chunkCase at done
  split at done
  case h_1 kind =>
    replace kind : chunk.kind = 0 := kind
    obtain ⟨found, -, rfl⟩ := Option.map_eq_some_iff.mp done
    refine ⟨_, chunk_data_kept (by rw [kind]; decide) fuel _, ?_, ips⟩
    rw [if_neg (open_of kind (by decide)), set_data_self]
  case h_2 kind | h_3 kind =>
    replace kind : chunk.kind = _ := kind
    obtain ⟨data, found, rfl⟩ := Option.map_eq_some_iff.mp done
    rw [init_chunk_ips same] at found
    refine ⟨data, by rw [chunkData, kind]; exact found, ?_, ips⟩
    rw [if_neg (open_of kind (by decide))]
    rfl
  case h_4 kind =>
    replace kind : chunk.kind = 6 := kind
    obtain ⟨found, -, rfl⟩ := Option.map_eq_some_iff.mp done
    refine ⟨_, chunk_data_kept (by rw [kind]; decide) fuel _, ?_, ips⟩
    rw [if_pos (closed_of kind (by decide)), set_data_self]
  case h_7 kind =>
    replace kind : chunk.kind = 9 := kind
    obtain ⟨found, -, rfl⟩ := Option.map_eq_some_iff.mp done
    refine ⟨_, chunk_data_kept (by rw [kind]; decide) fuel _, ?_, ips⟩
    rw [if_neg (open_of kind (by decide)), set_data_self]
  case h_5 kind =>
    replace kind : chunk.kind = 7 := kind
    cases done
    refine ⟨setStatus (work.table.tuple slot) ((work.table.tuple slot).ucCloseStatus ||| 0x01),
      by rw [chunkData, kind]; rfl, ?_, ips⟩
    rw [if_neg (open_of kind (by decide))]
    rfl
  case h_6 kind =>
    replace kind : chunk.kind = 8 := kind
    cases done
    refine ⟨setStatus (work.table.tuple slot) ((work.table.tuple slot).ucCloseStatus ||| 0x02),
      by rw [chunkData, kind]; rfl, ?_, ips⟩
    rw [if_neg (open_of kind (by decide))]
    rfl
  case h_8 kind =>
    replace kind : chunk.kind = 10 := kind
    cases done
    refine ⟨setStatus (work.table.tuple slot) ((work.table.tuple slot).ucSetupStatus ||| 0x04),
      by rw [chunkData, kind]; rfl, ?_, ips⟩
    rw [if_neg (open_of kind (by decide))]
    rfl
  case h_9 kind =>
    replace kind : chunk.kind = 11 := kind
    cases done
    refine ⟨setStatus (work.table.tuple slot) ((work.table.tuple slot).ucSetupStatus ||| 0x08),
      by rw [chunkData, kind]; rfl, ?_, ips⟩
    rw [if_neg (open_of kind (by decide))]
    rfl
  case h_10 kind =>
    replace kind : chunk.kind = 14 := kind
    cases done
    refine ⟨setStatus (work.table.tuple slot) ((work.table.tuple slot).ucCloseStatus ||| 0x04),
      by rw [chunkData, kind]; rfl, ?_, ips⟩
    rw [if_pos (closed_of kind (by decide))]
    rfl
  case h_11 data init initAck abort down downAck error echo ack complete =>
    cases done
    have kept : chunk.kind ∉ [1, 2, 7, 8, 10, 11, 14] := by
      intro member
      simp only [List.mem_cons, List.not_mem_nil, or_false] at member
      rcases member with kind | kind | kind | kind | kind | kind | kind
      · exact init kind
      · exact initAck kind
      · exact down kind
      · exact downAck kind
      · exact echo kind
      · exact ack kind
      · exact complete kind
    refine ⟨_, chunk_data_kept kept fuel _, ?_, ips⟩
    have stays : ¬chunk.closes = true := by
      rw [Chunk.closes, decide_eq_true_eq]
      exact fun either => either.elim abort complete
    rw [if_neg stays, set_data_self]

end Step

section Lookup

variable {cap : CaptureHeaderMsg} {table : AssoTable}

/-- The record of the packet's association is in the slot, and the others are as they were. -/
structure Located (key : AssoKey) (slot : Nat) (table own located : AssoTable) : Prop where
  wf : TableWf located
  holds : located.Holds slot (some key)
  used : located.used = own.used
  tuples : ∀ other, other ≠ slot → located.tuple other = own.tuple other
  others : ∀ other, other ≠ key → located.record other = table.record other

theorem located_known (wf : TableWf table) {key : AssoKey} {slot : Nat}
    (known : table.avlSearch key = some slot) {data : AssoData}
    (same : data.stKey = (table.tuple slot).stKey) :
    Located key slot table table (table.setData slot data) := by
  have holds : table.Holds slot (some key) := search_key known
  refine ⟨set_data_wf wf same, set_data_holds holds same, rfl, ?_, ?_⟩
  · intro other apart
    exact Function.update_of_ne apart data table.tuple
  · intro other apart
    rw [set_data_record wf holds same]
    exact if_neg fun own => apart (Option.some.inj own).symm

theorem located_new (wf : TableWf table) {data : AssoData} {next : Nat} {rest : List Nat}
    (free : table.rest = next :: rest) (unknown : table.avlSearch data.stKey = none) :
    Located data.stKey table.free table
      (table.inserted (initASSODATA data.stKey) next rest) (table.inserted data next rest) := by
  refine ⟨inserted_wf wf free unknown, ⟨List.mem_cons_self, ?_⟩, rfl, ?_, ?_⟩
  · rw [inserted_head]
  · intro other apart
    exact (Function.update_of_ne apart _ _).trans (Function.update_of_ne apart _ _).symm
  · intro other apart
    rw [inserted_record wf free unknown]
    exact if_neg apart

theorem lookup_located (wf : TableWf table) (directed : info.bRtxType ≠ .none) {slot : Nat}
    {own : AssoTable} (found : table.associate (assoKey pBuf info) = some (slot, own)) :
    ∃ located, lookup pBuf cap info table = .ok (slot, located) ∧
      Located (assoKey pBuf info) slot table own located := by
  rw [lookup]
  rcases associate_some found with ⟨known, rfl⟩ | ⟨known, next, rest, free, rfl, rfl⟩
  · rw [known]
    cases direction : info.bRtxType with
    | none => exact absurd direction directed
    | client => exact ⟨_, rfl, located_known wf known rfl⟩
    | server => exact ⟨_, rfl, located_known wf known rfl⟩
  · have new : table.avlSearch (newAsso cap (assoKey pBuf info)).stKey = none := known
    rw [known]
    dsimp only
    rw [insert_spec new, free]
    exact ⟨_, rfl, located_new wf free new⟩

end Lookup

section Passes

variable {slot : Nat} {supply : Nat → Supply}

/-- The table behind a chunk that leaves the record so. -/
def turned (slot : Nat) (moved : Option Nat) (chunk : Chunk) (data : AssoData) (table : AssoTable) :
    AssoTable :=
  if chunk.closes then (table.setData slot data).freeMMDB slot moved else table.setData slot data

/-- The tables that the chunks leave one from another. -/
def Passes (pBuf : Nat → UInt8) (info : InfoEth) (slot : Nat) (supply : Nat → Supply) :
    Nat → Nat → List Chunk → AssoTable → AssoTable → Prop
  | _, _, [], table, after => after = table
  | count, place, chunk :: chunks, table, after =>
      ∃ data, data.stKey = (table.tuple slot).stKey ∧
        (∃ fuel, chunkData pBuf fuel info place chunk (table.tuple slot) = some data) ∧
          Passes pBuf info slot supply (count + 1) (place + chunk.bytes.length) chunks
            (turned slot (supply count).moved chunk data table) after

theorem walk_passes {usSCTPDataLen : Nat} {cap : CaptureHeaderMsg} {chunks : List Chunk}
    {count usPosition place : Nat} {work sent : Work} (wf : ∀ chunk ∈ chunks, chunk.WellFormed)
    (stands : Stands pBuf place (chunkBytes chunks))
    (whole : usPosition + (chunkBytes chunks).length = usSCTPDataLen)
    (short : usSCTPDataLen < 2 ^ 16) (same : SameIps info work.info)
    (done : ∃ fuel, chunkLoop pBuf slot usSCTPDataLen cap supply fuel count usPosition place work =
      some sent) :
    Passes pBuf info slot supply count place chunks work.table sent.table ∧ SameIps info sent.info := by
  induction chunks generalizing count usPosition place work with
  | nil =>
      obtain rfl : usPosition = usSCTPDataLen := whole
      obtain rfl := (walk_nil _ _ _ _).mp done
      exact ⟨rfl, same⟩
  | cons chunk chunks ih =>
      have own := wf chunk List.mem_cons_self
      obtain ⟨mid, ⟨fuel, step⟩, rest⟩ := (walk_cons own stands whole short work sent).mp done
      obtain ⟨front, behind, whole⟩ := chunks_split stands whole
      obtain ⟨data, left, table, ips⟩ := step_table own front same step
      have others := fun other member => wf other (List.mem_cons_of_mem chunk member)
      obtain ⟨passes, last⟩ := ih others behind whole ips rest
      refine ⟨⟨data, chunk_data_key own left, ⟨fuel, left⟩, ?_⟩, last⟩
      rw [table] at passes
      exact passes

end Passes

section Turn

variable {table : AssoTable} {slot : Nat} {moved : Option Nat} {chunk : Chunk} {data : AssoData}
  {held : Option AssoKey} {key : AssoKey}

/-- A table of which the slot holds this record, or is free. -/
structure Placed (table : AssoTable) (slot : Nat) (held : Option AssoKey) : Prop where
  wf : TableWf table
  holds : table.Holds slot held

theorem Placed.setData (placed : Placed table slot held)
    (same : data.stKey = (table.tuple slot).stKey) : Placed (table.setData slot data) slot held :=
  ⟨set_data_wf placed.wf same, set_data_holds placed.holds same⟩

theorem turned_stays (stays : chunk.closes = true → ¬(table.tuple slot).stKey.Named)
    (same : data.stKey = (table.tuple slot).stKey) :
    turned slot moved chunk data table = table.setData slot data := by
  rw [turned]
  split
  · next closing =>
      apply free_unnamed
      rw [set_data_tuple, Function.update_self, same]
      exact stays closing
  · rfl

theorem turned_closed (placed : Placed table slot (some key)) (named : key.Named)
    (closing : chunk.closes = true) (same : data.stKey = (table.tuple slot).stKey) :
    turned slot moved chunk data table = (table.setData slot data).avlDelete slot moved := by
  rw [turned, if_pos closing]
  exact free_named (placed.setData same).wf (placed.setData same).holds named moved

/-- A write through the pointer brings no record. -/
theorem set_data_absent (placed : Placed table slot held)
    (same : data.stKey = (table.tuple slot).stKey) {name : AssoKey} (absent : table.record name = none) :
    (table.setData slot data).record name = none := by
  rw [set_data_record placed.wf placed.holds same]
  split
  · next own =>
      subst own
      rw [record_slot placed.wf placed.holds] at absent
      exact nomatch absent
  · exact absent

/-- The slot is in the tree under one key, or free, behind each chunk. -/
theorem turned_placed (placed : Placed table slot held)
    (same : data.stKey = (table.tuple slot).stKey) :
    (∃ held', Placed (turned slot moved chunk data table) slot held') ∧
      ∀ name, table.record name = none → (turned slot moved chunk data table).record name = none := by
  have written := placed.setData same
  by_cases deleted : chunk.closes = true ∧ (table.tuple slot).stKey.Named
  · obtain ⟨closing, named⟩ := deleted
    cases held with
    | none => exact absurd placed.holds.2 named.1
    | some key =>
        rw [placed.holds.2] at named
        rw [turned_closed placed named closing same]
        refine ⟨⟨_, delete_wf written.wf written.holds.1 moved,
          (deleted_holds written.wf written.holds moved).1⟩, ?_⟩
        intro name absent
        rw [deleted_record written.wf written.holds]
        split
        · rfl
        · exact set_data_absent placed same absent
  · rw [turned_stays (fun closing named => deleted ⟨closing, named⟩) same]
    exact ⟨⟨held, written⟩, fun name absent => set_data_absent placed same absent⟩

end Turn

section Run

variable {slot : Nat} {supply : Nat → Supply} {count place : Nat} {chunks : List Chunk}
  {table after : AssoTable} {held : Option AssoKey} {key : AssoKey}

/-- The table stays one, and what is not in it stays away. -/
theorem passes_placed (placed : Placed table slot held)
    (passes : Passes pBuf info slot supply count place chunks table after) :
    (∃ held', Placed after slot held') ∧
      ∀ name, table.record name = none → after.record name = none := by
  induction chunks generalizing count place table held with
  | nil =>
      cases passes
      exact ⟨⟨held, placed⟩, fun _ absent => absent⟩
  | cons chunk chunks ih =>
      obtain ⟨data, same, -, rest⟩ := passes
      obtain ⟨⟨held', placed'⟩, absent⟩ := turned_placed placed same
      obtain ⟨last, gone⟩ := ih placed' rest
      exact ⟨last, fun name none => gone name (absent name none)⟩

/-- Where the slot is free, the chunks change no record. -/
theorem passes_free (placed : Placed table slot none)
    (passes : Passes pBuf info slot supply count place chunks table after) :
    Placed after slot none ∧ ∀ name, after.record name = table.record name := by
  induction chunks generalizing count place table with
  | nil =>
      cases passes
      exact ⟨placed, fun _ => rfl⟩
  | cons chunk chunks ih =>
      obtain ⟨data, same, -, rest⟩ := passes
      rw [turned_stays (fun _ named => named.1 placed.holds.2) same] at rest
      obtain ⟨last, kept⟩ := ih (placed.setData same) rest
      refine ⟨last, fun name => ?_⟩
      rw [kept, set_data_record placed.wf placed.holds same]
      exact if_neg nofun

/-- Where no chunk deletes the record, it is what the chunks make of it, and the others are left. -/
theorem passes_kept (placed : Placed table slot (some key))
    (stays : ∀ chunk ∈ chunks, chunk.closes = true → ¬key.Named)
    (passes : Passes pBuf info slot supply count place chunks table after) :
    Placed after slot (some key) ∧ Becomes pBuf info place chunks (table.tuple slot) (after.tuple slot) ∧
      ∀ name, name ≠ key → after.record name = table.record name := by
  induction chunks generalizing count place table with
  | nil =>
      cases passes
      exact ⟨placed, rfl, fun _ _ => rfl⟩
  | cons chunk chunks ih =>
      obtain ⟨data, same, left, rest⟩ := passes
      have open_ : chunk.closes = true → ¬(table.tuple slot).stKey.Named := by
        rw [placed.holds.2]
        exact stays chunk List.mem_cons_self
      rw [turned_stays open_ same] at rest
      have others := fun other member => stays other (List.mem_cons_of_mem chunk member)
      obtain ⟨last, becomes, kept⟩ := ih (placed.setData same) others rest
      rw [set_data_tuple, Function.update_self] at becomes
      refine ⟨last, ⟨data, left, becomes⟩, fun name apart => ?_⟩
      rw [kept name apart, set_data_record placed.wf placed.holds same]
      exact if_neg fun own => apart (Option.some.inj own).symm

/-- A record that a chunk deletes is gone. -/
theorem passes_closed (placed : Placed table slot (some key)) (named : key.Named)
    (closing : ∃ chunk ∈ chunks, chunk.closes = true)
    (passes : Passes pBuf info slot supply count place chunks table after) :
    after.record key = none := by
  induction chunks generalizing count place table with
  | nil =>
      obtain ⟨chunk, member, -⟩ := closing
      exact nomatch member
  | cons chunk chunks ih =>
      obtain ⟨data, same, -, rest⟩ := passes
      by_cases here : chunk.closes = true
      · obtain ⟨⟨held', placed'⟩, -⟩ := turned_placed placed same
        apply (passes_placed placed' rest).2
        rw [turned_closed placed named here same,
          deleted_record (placed.setData same).wf (placed.setData same).holds]
        exact if_pos rfl
      · rw [turned_stays (fun closed => absurd closed here) same] at rest
        obtain ⟨other, member, closed⟩ := closing
        rcases List.mem_cons.mp member with rfl | behind
        · exact absurd closed here
        · exact ih (placed.setData same) ⟨other, behind, closed⟩ rest

theorem becomes_same {data last other : AssoData} (becomes : Becomes pBuf info place chunks data last)
    (again : Becomes pBuf info place chunks data other) : last = other := by
  induction chunks generalizing place data with
  | nil => exact becomes.trans again.symm
  | cons chunk chunks ih =>
      obtain ⟨mid, ⟨fuel, left⟩, rest⟩ := becomes
      obtain ⟨mid', ⟨more, right⟩, rest'⟩ := again
      have first := chunk_data_mono (le_max_left fuel more) left
      have second := chunk_data_mono (le_max_right fuel more) right
      obtain rfl : mid = mid' := Option.some.inj (first.symm.trans second)
      exact ih rest rest'

/-- The table that is left behind the loop. -/
def finished (info : InfoEth) (slot : Nat) (table : AssoTable) : AssoTable :=
  table.setData slot (setAddresses info (table.tuple slot))

theorem addresses_key (data : AssoData) : (setAddresses info data).stKey = data.stKey := by
  rw [setAddresses]
  split
  · rfl
  · rfl

theorem finished_absent (placed : Placed table slot held) {name : AssoKey}
    (absent : table.record name = none) : (finished info slot table).record name = none :=
  set_data_absent placed (addresses_key _) absent

/-- The record that comes into the slot is left by the chunks behind. -/
theorem leaves_iff (placed : Placed table slot (some key))
    (passes : Passes pBuf info slot supply count place chunks table after) :
    (∀ name, (finished info slot after).record name = table.record name) ↔
      Leaves pBuf info place chunks (table.tuple slot) := by
  have held := record_slot placed.wf placed.holds
  constructor
  · intro kept
    have stays : ∀ chunk ∈ chunks, chunk.closes = true → ¬key.Named := by
      intro chunk member closing named
      obtain ⟨⟨held', last⟩, -⟩ := passes_placed placed passes
      have gone := passes_closed placed named ⟨chunk, member, closing⟩ passes
      have absent : (finished info slot after).record key = none := finished_absent last gone
      rw [kept, held] at absent
      exact nomatch absent
    obtain ⟨last, becomes, -⟩ := passes_kept placed stays passes
    rw [Leaves, placed.holds.2]
    refine ⟨stays, after.tuple slot, becomes, ?_⟩
    have own := kept key
    rw [finished, set_data_record last.wf last.holds (addresses_key _), if_pos rfl, held] at own
    exact Option.some.inj own
  · intro leaves
    rw [Leaves, placed.holds.2] at leaves
    obtain ⟨stays, data, becomes, same⟩ := leaves
    obtain ⟨last, left, others⟩ := passes_kept placed stays passes
    intro name
    rw [finished, set_data_record last.wf last.holds (addresses_key _)]
    split
    · next own =>
        obtain rfl := Option.some.inj own
        rw [becomes_same left becomes, same, held]
    · next apart => exact others name fun own => apart (own ▸ rfl)

/-- The records of the others, where a named record is in the slot. -/
theorem moved_left_iff {own : AssoTable} (placed : Placed table slot (some key)) (named : key.Named)
    (used : table.used = own.used) (tuples : ∀ other, other ≠ slot → table.tuple other = own.tuple other)
    (passes : Passes pBuf info slot supply count place chunks table after) :
    (∀ name, name ≠ key → (finished info slot after).record name = table.record name) ↔
      MovedLeft pBuf info slot supply own count place chunks := by
  induction chunks generalizing count place table with
  | nil =>
      cases passes
      refine iff_of_true (fun name apart => ?_) trivial
      rw [finished, set_data_record placed.wf placed.holds (addresses_key _)]
      exact if_neg fun own => apart (Option.some.inj own).symm
  | cons chunk chunks ih =>
      obtain ⟨data, same, -, rest⟩ := passes
      have written := placed.setData same
      have others : ∀ name, name ≠ key →
          (table.setData slot data).record name = table.record name := by
        intro name apart
        rw [set_data_record placed.wf placed.holds same]
        exact if_neg fun own => apart (Option.some.inj own).symm
      rw [MovedLeft]
      split
      · next closing =>
          rw [turned_closed placed named closing same] at rest
          have left : ∀ name, name ≠ key → ((table.setData slot data).avlDelete slot
              (supply count).moved).record name = table.record name := by
            intro name apart
            rw [deleted_record written.wf written.holds, if_neg apart, others name apart]
          have gone : ((table.setData slot data).avlDelete slot
              (supply count).moved).record key = none := by
            rw [deleted_record written.wf written.holds]
            exact if_pos rfl
          have moves : (table.setData slot data).moves slot (supply count).moved =
              own.moves slot (supply count).moved := by
            rw [AssoTable.moves, AssoTable.moves, ← used]
            rfl
          have wf := delete_wf written.wf written.holds.1 (supply count).moved
          obtain ⟨holds, came⟩ := deleted_holds written.wf written.holds (supply count).moved
          rw [moves] at holds came
          cases found : own.moves slot (supply count).moved with
          | none =>
              rw [found] at holds
              obtain ⟨last, kept⟩ := passes_free ⟨wf, holds⟩ rest
              refine iff_of_true (fun name apart => ?_) (fun other member => by cases member)
              rw [finished, set_data_record last.wf last.holds (addresses_key _), kept, left name apart]
              exact if_neg fun absurd => by cases absurd
          | some other =>
              rw [found] at holds came
              have tuple := came other rfl
              have there : (table.setData slot data).tuple other = own.tuple other := by
                rw [set_data_tuple, Function.update_of_ne (moves_some found).2]
                exact tuples other (moves_some found).2
              have placed' : Placed _ slot (some ((table.setData slot data).tuple other).stKey) := ⟨wf, holds⟩
              have leaves := leaves_iff placed' rest
              rw [tuple, there] at leaves
              constructor
              · intro kept moving member
                obtain rfl := Option.some.inj member
                apply leaves.mp
                intro name
                by_cases apart : name = key
                · rw [apart, gone]
                  obtain ⟨⟨held', last⟩, absent⟩ := passes_placed placed' rest
                  exact finished_absent last (absent key gone)
                · rw [kept name apart, left name apart]
              · intro moving name apart
                rw [leaves.mpr (moving other rfl), left name apart]
      · next stays =>
          rw [turned_stays (fun closed => absurd closed stays) same] at rest
          have tuples' : ∀ other, other ≠ slot → (table.setData slot data).tuple other = own.tuple other := by
            intro other apart
            rw [set_data_tuple, Function.update_of_ne apart]
            exact tuples other apart
          rw [← ih written used tuples' rest]
          constructor
          · intro kept name apart
            rw [kept name apart, others name apart]
          · intro kept name apart
            rw [kept name apart, others name apart]

end Run

section Frame

variable {fuel gdOffset : Nat} {cap : CaptureHeaderMsg} {supply : Nat → Supply}
  {table after : AssoTable} {message : Message} {dRet : Int} {events : List NodeEvent}

theorem lookup_refused (full : table.associate (assoKey pBuf info) = none) :
    table.record (assoKey pBuf info) = none := by
  rw [AssoTable.associate] at full
  cases known : table.avlSearch (assoKey pBuf info) with
  | some slot =>
      rw [known] at full
      cases full
  | none =>
      rw [AssoTable.record, known]
      rfl

/-- The walk over the chunks of a packet whose association is found. -/
theorem analyzed_passes (wf : TableWf table) (carries : Carries pBuf info message)
    (returned : dAnalyzeSCTP pBuf fuel gdOffset cap info supply table = some (dRet, after, events))
    {slot : Nat} {own : AssoTable}
    (found : table.associate (assoKey pBuf info) = some (slot, own)) :
    ∃ located last, Located (assoKey pBuf info) slot table own located ∧
      Passes (clearSum pBuf info.sctpPlace) info slot supply 0 (info.sctpPlace + DEF_SCTPHEADER_SIZE)
        message.chunks located last ∧ after = finished info slot last := by
  obtain ⟨located, ok, place⟩ := lookup_located wf carries.directed found
  rw [analyzed carries, ok] at returned
  obtain ⟨work, done, sent⟩ := Option.map_eq_some_iff.mp returned
  have whole : DEF_SCTPHEADER_SIZE + (chunkBytes message.chunks).length = info.sctpDataLen := by
    rw [data_len carries, bytes_length]
  have short : info.sctpDataLen < 2 ^ 16 := Nat.mod_lt _ (by decide)
  have ips : SameIps info (info.withPorts pBuf) := ⟨rfl, rfl⟩
  obtain ⟨passes, last⟩ := walk_passes carries.chunks (chunks_stand carries) whole short ips ⟨fuel, done⟩
  refine ⟨located, work.table, place, passes, ?_⟩
  rw [finished, ← set_addresses_ips last, ← (Prod.mk.inj (Prod.mk.inj sent).2).1]

/-- A packet leaves a table, with no record more than its own. -/
theorem packet_wf (wf : TableWf table) (carries : Carries pBuf info message)
    (returned : dAnalyzeSCTP pBuf fuel gdOffset cap info supply table = some (dRet, after, events)) :
    TableWf after ∧ ∀ name, name ≠ assoKey pBuf info → table.record name = none →
      after.record name = none := by
  cases found : table.associate (assoKey pBuf info) with
  | none =>
      rw [analyzed carries, lookup_none found] at returned
      cases returned
      exact ⟨wf, fun _ _ absent => absent⟩
  | some place =>
      obtain ⟨located, last, own, passes, rfl⟩ := analyzed_passes wf carries returned found
      obtain ⟨⟨held, placed⟩, absent⟩ := passes_placed ⟨own.wf, own.holds⟩ passes
      refine ⟨(placed.setData (addresses_key _)).wf, fun name apart none => ?_⟩
      apply finished_absent placed
      apply absent
      rw [own.others name apart, none]

theorem framed_iff_contained (wf : TableWf table) (carries : Carries pBuf info message)
    (returned : dAnalyzeSCTP pBuf fuel gdOffset cap info supply table = some (dRet, after, events)) :
    Framed (assoKey pBuf info) message.chunks table after ↔
      Contained pBuf info supply table message := by
  cases found : table.associate (assoKey pBuf info) with
  | none =>
      rw [analyzed carries, lookup_none found] at returned
      cases returned
      refine iff_of_true ⟨fun _ _ => rfl, fun _ => lookup_refused found⟩ ?_
      intro slot own other
      rw [found] at other
      exact nomatch other
  | some place =>
      obtain ⟨slot, own⟩ := place
      obtain ⟨located, last, place, passes, rfl⟩ := analyzed_passes wf carries returned found
      have placed : Placed located slot (some (assoKey pBuf info)) := ⟨place.wf, place.holds⟩
      have condition : Contained pBuf info supply table message ↔
          ((∃ chunk ∈ message.chunks, chunk.closes = true) → (assoKey pBuf info).Named) ∧
            ((assoKey pBuf info).Named → MovedLeft (clearSum pBuf info.sctpPlace) info slot supply own 0
              (info.sctpPlace + DEF_SCTPHEADER_SIZE) message.chunks) := by
        constructor
        · intro contained
          exact contained slot own found
        · intro contained slot' own' found'
          obtain ⟨rfl, rfl⟩ := Prod.mk.inj (Option.some.inj (found.symm.trans found'))
          exact contained
      have others : (∀ name, name ≠ assoKey pBuf info →
            (finished info slot last).record name = located.record name) ↔
          ∀ name, name ≠ assoKey pBuf info → (finished info slot last).record name = table.record name := by
        apply forall₂_congr
        intro name apart
        rw [place.others name apart]
      rw [condition]
      by_cases named : (assoKey pBuf info).Named
      · have moved := moved_left_iff placed named place.used place.tuples passes
        rw [others] at moved
        constructor
        · intro framed
          exact ⟨fun _ => named, fun _ => moved.mp framed.others⟩
        · intro contained
          refine ⟨moved.mpr (contained.2 named), fun closing => ?_⟩
          obtain ⟨⟨held, behind⟩, -⟩ := passes_placed placed passes
          exact finished_absent behind (passes_closed placed named closing passes)
      · obtain ⟨behind, -, kept⟩ := passes_kept placed (fun _ _ _ => named) passes
        have record (name : AssoKey) : (finished info slot last).record name =
            if some (assoKey pBuf info) = some name then some (setAddresses info (last.tuple slot))
            else last.record name := set_data_record behind.wf behind.holds (addresses_key _) name
        constructor
        · intro framed
          refine ⟨fun closing => ?_, fun other => absurd other named⟩
          have gone := framed.closed closing
          rw [record, if_pos rfl] at gone
          exact nomatch gone
        · intro contained
          refine ⟨others.mp fun name apart => ?_, fun closing => absurd (contained.1 closing) named⟩
          rw [record, if_neg fun own => apart (Option.some.inj own).symm, kept name apart]

end Frame

section Moved

/-- An association is closed, and a COOKIE ACK stands behind. -/
def completeThenAck : Message where
  usSrcPort := 1000
  usDestPort := DEF_DIAMETER_PORT
  uiVerifTag := 0
  chunks :=
    [{ ucType := 14
       ucFlag := 0
       value := []
       padding := [] },
     { ucType := 11
       ucFlag := 0
       value := []
       padding := [] }]

/-- The record of the lower key comes into the place of the root. -/
def lowerMoves : Supply := { everyCall with moved := some 1 }

/-- Three associations, that of the message in slot 0 between the two others. -/
def threeAssociations : AssoTable where
  tuple slot :=
    { initASSODATA ⟨[1000, 488, 1512].getD slot 0, DEF_DIAMETER_PORT, 131073⟩ with
      uiSrcIPFst := 0x0A000001
      uiDestIPFst := 0x0A000002 }
  used := [2, 1, 0]
  free := 3
  rest := List.range' 4 (MAX_ASSO_RECORD - 4)

theorem three_associations_wf : TableWf threeAssociations where
  nodup := by decide
  keys := by
    have apart : ∀ slot ∈ [2, 1, 0], ∀ other ∈ [2, 1, 0],
        [1000, 488, 1512].getD slot 0 = [1000, 488, 1512].getD other 0 → slot = other := by decide
    intro slot used other used' same
    exact apart slot used other used' (congrArg AssoKey.usSrcPort same)
  free := by
    refine List.nodup_cons.mpr ⟨fun member => ?_, List.nodup_range' 1⟩
    exact absurd (List.mem_range'_1.mp member).1 (by decide)
  apart := by
    intro slot used member
    have low : slot < 3 := by
      have every : ∀ slot ∈ [2, 1, 0], slot < 3 := by decide
      exact every slot used
    rcases List.mem_cons.mp member with same | behind
    · exact low.ne same
    · exact absurd (List.mem_range'_1.mp behind).1 (by omega)

def ackInfo : InfoEth := fromClient (20 + (completeThenAck.bytes 0).length)

theorem complete_then_ack_carries :
    Carries (frameOf completeThenAck) ackInfo completeThenAck := by
  apply frame_carries rfl Tcp.Rtx.noConfusion rfl rfl
  · decide
  · decide
  · intro chunk member
    simp only [completeThenAck, List.mem_cons, List.not_mem_nil, or_false] at member
    rcases member with rfl | rfl
    · exact ⟨by decide, rfl, by decide⟩
    · exact ⟨by decide, rfl, by decide⟩

theorem complete_then_ack_key :
    assoKey (frameOf completeThenAck) ackInfo =
      ⟨1000, DEF_DIAMETER_PORT, 131073⟩ := asso_key_carries complete_then_ack_carries

theorem complete_then_ack_found :
    threeAssociations.associate (assoKey (frameOf completeThenAck) ackInfo) =
      some (0, threeAssociations) := by
  rw [complete_then_ack_key]
  rfl

theorem complete_then_ack_finishes :
    PacketFinishes (frameOf completeThenAck) ackInfo (fun _ => lowerMoves) threeAssociations
      completeThenAck :=
  fun _ => ⟨⟨by decide, ends_apart (by decide) (by decide), nofun⟩,
    ⟨by decide, ends_apart (by decide) (by decide), nofun⟩, trivial⟩

/-- The COOKIE ACK goes to the record that moved. -/
theorem complete_then_ack_moves :
    ¬Contained (frameOf completeThenAck) ackInfo (fun _ => lowerMoves) threeAssociations
      completeThenAck := by
  intro contained
  have left := (contained 0 threeAssociations complete_then_ack_found).2
  rw [complete_then_ack_key] at left
  have moved := left (by decide)
  obtain ⟨-, after, ⟨mid, ⟨fuel, done⟩, rfl⟩, same⟩ := moved 1 rfl
  cases done
  have status := congrArg AssoData.ucSetupStatus same
  exact absurd status (by decide)

/-- A packet is processed to its end and changes no record but its own just when its chunks come to
an end, its association can be closed where a chunk closes it, and a record that moves is left. -/
theorem association_frame_iff (pBuf : Nat → UInt8) (gdOffset : Nat) (cap : CaptureHeaderMsg)
    (info : InfoEth) (supply : Nat → Supply) (table : AssoTable) (message : Message)
    (wf : TableWf table) (carries : Carries pBuf info message) :
    (∃ fuel dRet after events,
        dAnalyzeSCTP pBuf fuel gdOffset cap info supply table = some (dRet, after, events) ∧
          Framed (assoKey pBuf info) message.chunks table after) ↔
      PacketFinishes pBuf info supply table message ∧ Contained pBuf info supply table message := by
  constructor
  · rintro ⟨fuel, dRet, after, events, returned, framed⟩
    refine ⟨(analyze_returns_iff cap supply carries gdOffset table).mp ⟨fuel, ?_⟩,
      (framed_iff_contained wf carries returned).mp framed⟩
    rw [returned]
    rfl
  · rintro ⟨finishes, contained⟩
    obtain ⟨fuel, some⟩ := (analyze_returns_iff cap supply carries gdOffset table).mpr finishes
    obtain ⟨⟨dRet, after, events⟩, returned⟩ := Option.isSome_iff_exists.mp some
    exact ⟨fuel, dRet, after, events, returned, (framed_iff_contained wf carries returned).mpr contained⟩

theorem complete_then_ack_frame_iff :
    (∃ fuel dRet after events, dAnalyzeSCTP (frameOf completeThenAck) fuel 200 ⟨0, 0, 0⟩ ackInfo
        (fun _ => lowerMoves) threeAssociations = some (dRet, after, events) ∧
          Framed (assoKey (frameOf completeThenAck) ackInfo) completeThenAck.chunks
            threeAssociations after) ↔
      PacketFinishes (frameOf completeThenAck) ackInfo (fun _ => lowerMoves) threeAssociations
        completeThenAck ∧
      Contained (frameOf completeThenAck) ackInfo (fun _ => lowerMoves) threeAssociations
        completeThenAck :=
  association_frame_iff _ 200 ⟨0, 0, 0⟩ ackInfo (fun _ => lowerMoves) _ _ three_associations_wf
    complete_then_ack_carries

/-- Behind the chunk that closes its association, a packet changes the record of another. -/
theorem moved_record_changed :
    ¬ ∀ (pBuf : Nat → UInt8) (fuel gdOffset : Nat) (cap : CaptureHeaderMsg) (info : InfoEth)
        (supply : Nat → Supply) (table after : AssoTable) (message : Message) (dRet : Int)
        (events : List NodeEvent), TableWf table → Carries pBuf info message →
        dAnalyzeSCTP pBuf fuel gdOffset cap info supply table = some (dRet, after, events) →
          Framed (assoKey pBuf info) message.chunks table after := by
  intro every
  obtain ⟨fuel, some⟩ := (analyze_returns_iff ⟨0, 0, 0⟩ _ complete_then_ack_carries 200 _).mpr
    complete_then_ack_finishes
  obtain ⟨⟨dRet, after, events⟩, returned⟩ := Option.isSome_iff_exists.mp some
  apply complete_then_ack_moves
  apply (framed_iff_contained three_associations_wf complete_then_ack_carries returned).mp
  exact every _ _ _ _ _ _ _ _ _ _ _ three_associations_wf complete_then_ack_carries returned

end Moved

section Runs

open PreaFilter (LpreaSctp)

variable {LPREASCTP : List LpreaSctp}

/-- Each packet of a run leaves the other associations of the table that it finds. -/
def ContainedRun : AssoTable → List (Captured LPREASCTP) → Prop
  | _, [] => True
  | table, packet :: packets =>
      Contained packet.pBuf packet.sent packet.supply table packet.message ∧
        ∀ fuel after, packet.turn fuel table = some after → ContainedRun after packets

theorem turn_analyzed {packet : Captured LPREASCTP} {fuel : Nat} {table after : AssoTable}
    (done : packet.turn fuel table = some after) :
    ∃ dRet events, dAnalyzeSCTP packet.pBuf fuel packet.gdOffset packet.cap packet.sent packet.supply
      table = some (dRet, after, events) := by
  rw [Captured.turn, captureTurn, captured_passes packet] at done
  obtain ⟨⟨sent, events⟩, turn, rfl⟩ := Option.map_eq_some_iff.mp done
  obtain ⟨⟨dRet, left, events'⟩, analyzed, same⟩ := Option.map_eq_some_iff.mp turn
  have reached : left = sent := by
    dsimp only at same
    split at same
    · exact (Prod.mk.inj same).1
    · exact (Prod.mk.inj same).1
  exact ⟨dRet, events', reached ▸ analyzed⟩

theorem run_keeps {fuel : Nat} {packets : List (Captured LPREASCTP)} {table final : AssoTable}
    (wf : TableWf table) (done : run fuel table packets = some final) :
    TableWf final ∧ ∀ name, (∀ packet ∈ packets, packet.key ≠ name) →
      (table.record name = none → final.record name = none) ∧
        (ContainedRun table packets → final.record name = table.record name) := by
  induction packets generalizing table with
  | nil =>
      obtain rfl := Option.some.inj done
      exact ⟨wf, fun _ _ => ⟨id, fun _ => rfl⟩⟩
  | cons packet packets ih =>
      rw [run, List.foldlM_cons] at done
      obtain ⟨mid, turn, rest⟩ := Option.bind_eq_some_iff.mp done
      obtain ⟨dRet, events, analyzed⟩ := turn_analyzed turn
      obtain ⟨kept, absent⟩ := packet_wf wf packet.carries analyzed
      obtain ⟨last, later⟩ := ih kept rest
      refine ⟨last, fun name others => ?_⟩
      have apart : name ≠ packet.key := (others packet List.mem_cons_self).symm
      obtain ⟨none, same⟩ := later name fun other member => others other (List.mem_cons_of_mem _ member)
      refine ⟨fun unknown => none (absent name apart unknown), ?_⟩
      intro contained
      have framed := (framed_iff_contained wf packet.carries analyzed).mpr contained.1
      exact (same (contained.2 fuel mid turn)).trans (framed.others name apart)

/-- Over any packets whose chunks end, also those that close, the run returns, the table keeps its
form, no record is made for an association without a packet, and one that has a record keeps it if the
others are contained. -/
theorem associations_run {packets : List (Captured LPREASCTP)} {table : AssoTable} (wf : TableWf table)
    (ends : ∀ packet ∈ packets, packet.ChunksEnd) :
    ∃ final, (∃ fuel, run fuel table packets = some final) ∧ TableWf final ∧
      ∀ name, (∀ packet ∈ packets, packet.key ≠ name) →
        (table.record name = none → final.record name = none) ∧
          (ContainedRun table packets → final.record name = table.record name) := by
  obtain ⟨fuel, final, done⟩ := run_returns ends table
  obtain ⟨kept, names⟩ := run_keeps wf done
  exact ⟨final, ⟨fuel, done⟩, kept, names⟩

/-- Data, and the end of the association: the record of port 488 comes into its slot. -/
def closingPacket : Captured twoPeers :=
  upPacket lowerMoves (peerMessage 1000 DEF_DIAMETER_PORT
      [smallData, { ucType := 14, ucFlag := 0, value := [], padding := [] }]) (by decide) (by decide) (by
    intro chunk member
    rcases List.mem_cons.mp member with rfl | last
    · exact small_data_wf
    · obtain rfl := List.mem_singleton.mp last
      exact ⟨by decide, rfl, by decide⟩)

/-- Data of the association whose record has moved. -/
def movedPacket : Captured twoPeers :=
  upPacket everyCall (peerMessage 488 DEF_DIAMETER_PORT [smallData]) (by decide) (by decide)
    small_data_only

theorem closing_then_moved_end : ∀ packet ∈ [closingPacket, movedPacket], packet.ChunksEnd := by
  intro packet member
  rcases List.mem_cons.mp member with rfl | last
  · exact ⟨⟨by decide, ends_apart (by decide) (by decide), fun _ _ => by decide⟩,
      ⟨by decide, ends_apart (by decide) (by decide), nofun⟩, trivial⟩
  · obtain rfl := List.mem_singleton.mp last
    exact ⟨⟨by decide, ends_apart (by decide) (by decide), fun _ _ => by decide⟩, trivial⟩

/-- Nothing stands behind the chunk that closes, and the record that moves has its addresses. -/
theorem closing_then_moved_contained : ContainedRun threeAssociations [closingPacket, movedPacket] := by
  have key : closingPacket.key = ⟨1000, DEF_DIAMETER_PORT, 131073⟩ :=
    asso_key_carries closingPacket.carries
  refine ⟨?_, fun fuel after _ => ⟨?_, fun _ _ _ => trivial⟩⟩
  · intro slot own found
    have here : threeAssociations.associate closingPacket.key = some (0, threeAssociations) := by
      rw [key]
      rfl
    obtain ⟨rfl, rfl⟩ := Prod.mk.inj (Option.some.inj (here.symm.trans found))
    refine ⟨fun _ => ?_, fun _ other moved => ?_⟩
    · have named : closingPacket.key.Named := by
        rw [key]
        decide
      exact named
    · obtain rfl : other = 1 := (Option.some.inj moved).symm
      exact ⟨fun _ member => absurd member List.not_mem_nil, _, rfl, rfl⟩
  · intro slot own _
    refine ⟨fun closing => ?_, fun _ => trivial⟩
    obtain ⟨chunk, member, closes⟩ := closing
    obtain rfl := List.mem_singleton.mp member
    exact absurd closes (by decide)

/-- The third association is as it was, and no other has come. -/
theorem closing_then_moved_run : ∃ final,
    (∃ fuel, run fuel threeAssociations [closingPacket, movedPacket] = some final) ∧ TableWf final ∧
      final.record ⟨1512, DEF_DIAMETER_PORT, 131073⟩ = some (threeAssociations.tuple 2) ∧
        final.record ⟨5, 6, 7⟩ = none := by
  obtain ⟨final, done, wf, names⟩ := associations_run three_associations_wf closing_then_moved_end
  have port (packet : Captured twoPeers) : packet.key.usSrcPort = packet.message.usSrcPort :=
    congrArg AssoKey.usSrcPort (asso_key_carries packet.carries)
  have keys (name : AssoKey) (apart : name.usSrcPort ≠ 1000 ∧ name.usSrcPort ≠ 488) :
      ∀ packet ∈ [closingPacket, movedPacket], packet.key ≠ name := by
    intro packet member same
    have ports := port packet
    rw [same] at ports
    rcases List.mem_cons.mp member with rfl | last
    · exact apart.1 ports
    · obtain rfl := List.mem_singleton.mp last
      exact apart.2 ports
  refine ⟨final, done, wf, ?_, ?_⟩
  · exact (names _ (keys _ (by decide))).2 closing_then_moved_contained
  · exact (names _ (keys _ (by decide))).1 rfl

end Runs

end Upst.Sctp
