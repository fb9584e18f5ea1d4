import Upst.HashoRun

/-!
A node taken out of its chain and put back, perhaps under another key. Its links are those
that it had when it was taken out, and `hasho_link_node` writes them only where the bucket
has a node already.
-/

namespace Upst.Hasho

open Bytes Word NextFit Chain Entries Refine

set_option autoImplicit false

variable {hash : List UInt8 → Nat} {sizes : HashoSizes} {table : HashoInfo} {map : Contents}
  {live away : List Nat} {p : Nat} {pKey : List UInt8}

section Between

theorem SameNode.trans {first second third : HashoInfo} (one : SameNode first second p)
    (two : SameNode second third p) : SameNode first third p :=
  ⟨two.node.trans one.node, two.key.trans one.key, two.data.trans one.data⟩

/-- Every call but a reset treats the chains as a table with less room, and leaves the nodes
that are in none. -/
theorem step_holding (inv : Holding hash sizes away table map) {op : Op} (fits : sizes.Fits op)
    (keeps : op ≠ .reset) :
    ∃ after, table.step hash op =
        some ((specStep (5 * sizes.uiHashSize - away.length) map op).1, after) ∧
      Holding hash sizes away after
        (specStep (5 * sizes.uiHashSize - away.length) map op).2 ∧
      ∀ q ∈ away, SameNode table after q := by
  cases op with
  | add pKey pData =>
      obtain ⟨after, stepped, holding, -, frame⟩ := add_holding inv fits.1 fits.2
      exact ⟨after, stepped, holding, frame⟩
  | find pKey =>
      obtain ⟨inRange, rfl, live, parts, same⟩ := inv
      refine ⟨table, ?_, ⟨inRange, rfl, live, parts, same⟩, fun _ _ => ⟨rfl, rfl, rfl⟩⟩
      simp only [HashoInfo.step, parts.find inRange fits, Option.bind_eq_bind,
        Option.bind_some, specStep, lookup_find same]
  | del pKey =>
      obtain ⟨after, deleted, holding, frame⟩ := del_holding inv fits
      exact ⟨after, by simp [HashoInfo.step, deleted, specStep], holding, frame⟩
  | reset => exact absurd rfl keeps

theorem run_holding (inv : Holding hash sizes [p] table map) {ops : List Op}
    (fits : ∀ op ∈ ops, sizes.Fits op) (noReset : Op.reset ∉ ops) :
    ∃ between, replay (HashoInfo.step hash) table ops =
        some ((specReplay (specStep (5 * sizes.uiHashSize - 1)) map ops).1, between) ∧
      Holding hash sizes [p] between
        (specReplay (specStep (5 * sizes.uiHashSize - 1)) map ops).2 ∧
      SameNode table between p := by
  have simulates : Simulates (HashoInfo.step hash) (specStep (5 * sizes.uiHashSize - 1))
      (fun _ op => sizes.Fits op ∧ op ≠ .reset)
      (fun state map => Holding hash sizes [p] state map ∧ SameNode table state p) := by
    rintro state map op ⟨holding, same⟩ ⟨fits, keeps⟩
    obtain ⟨after, stepped, kept, frame⟩ := step_holding holding fits keeps
    exact ⟨after, stepped, kept, same.trans (frame p List.mem_cons_self)⟩
  refine simulates.replay ⟨inv, rfl, rfl, rfl⟩ (along_all ?_ map)
  intro op member
  exact ⟨fits op member, fun same => noReset (same ▸ member)⟩

end Between

section Rekey

/-- The caller's write of a key into a node. -/
def HashoInfo.withKey (table : HashoInfo) (p : Nat) (pKey : List UInt8) : HashoInfo :=
  { table with byteAt := writeBytes table.byteAt (table.node p).offset_Key pKey }

theorem with_key_own (keyLen : pKey.length = table.usKeyLen)
    (filled : (table.node p).offset_Key = p + stHASHONODE_SIZE ∧
      (table.node p).offset_Data = p + stHASHONODE_SIZE + table.usKeyLen) :
    (table.withKey p pKey).keyAt p = pKey ∧
      (table.withKey p pKey).dataAt p = table.dataAt p := by
  constructor
  · show readBytes (writeBytes table.byteAt (table.node p).offset_Key pKey)
      (table.node p).offset_Key table.usKeyLen = pKey
    rw [← keyLen, read_write_same]
  · show readBytes (writeBytes table.byteAt (table.node p).offset_Key pKey)
      (table.node p).offset_Data table.usDataLen = _
    rw [read_write_apart]
    · rfl
    · rw [filled.1, filled.2]
      omega

theorem with_key_other {q : Nat} (parts : Parts hash table live away)
    (keyLen : pKey.length = table.usKeyLen) (inside : p ∈ live ++ away)
    (member : q ∈ live ++ away) (distinct : q ≠ p) :
    (table.withKey p pKey).keyAt q = table.keyAt q ∧
      (table.withKey p pKey).dataAt q = table.dataAt q := by
  obtain ⟨ownKey, ownData⟩ := parts.filled p inside
  obtain ⟨otherKey, otherData⟩ := parts.filled q member
  obtain ⟨first, -, rfl⟩ := parts.pool.inPool p inside
  obtain ⟨second, -, rfl⟩ := parts.pool.inPool q member
  have apart := @body_apart table.memg parts.pool.start first second
    fun same => distinct (congrArg _ same.symm)
  have stride : table.memg.stride = stMEMGNODEHDR_SIZE +
      (stHASHONODE_SIZE + table.usKeyLen + table.usDataLen) := by
    rw [MemgInfo.stride, parts.size]
  rw [stride] at apart
  constructor
  · show readBytes (writeBytes table.byteAt _ pKey) (table.node _).offset_Key table.usKeyLen = _
    rw [read_write_apart]
    · rfl
    · rw [ownKey, otherKey]
      omega
  · show readBytes (writeBytes table.byteAt _ pKey) (table.node _).offset_Data table.usDataLen = _
    rw [read_write_apart]
    · rfl
    · rw [ownKey, otherData]
      omega

/-- A key written into a node outside the chains changes nothing in them. -/
theorem rekey_holding (inv : Holding hash sizes [p] table map)
    (keyLen : pKey.length = sizes.usKeyLen) :
    Holding hash sizes [p] (table.withKey p pKey) map ∧
      (table.withKey p pKey).keyAt p = pKey ∧
      (table.withKey p pKey).dataAt p = table.dataAt p := by
  obtain ⟨inRange, rfl, live, parts, same⟩ := inv
  have inside : p ∈ live ++ [p] := by simp
  have outside := parts.distinct.2 p List.mem_cons_self
  have others : ∀ q ∈ live, (table.withKey p pKey).keyAt q = table.keyAt q ∧
      (table.withKey p pKey).dataAt q = table.dataAt q := by
    intro q member
    refine with_key_other parts keyLen inside (List.mem_append_left _ member) ?_
    rintro rfl
    exact outside member
  refine ⟨⟨inRange, rfl, live, ?_, ?_⟩, with_key_own keyLen (parts.filled p inside)⟩
  · refine ⟨parts.pool, parts.size, parts.total, parts.room, parts.filled, ?_, ?_⟩
    · rw [List.map_congr_left fun q member => (others q member).1]
      exact parts.keys
    · intro index bound
      rw [bucket_congr fun q member => (others q member).1]
      exact parts.chains index bound
  · have entries : (table.withKey p pKey).entries live = table.entries live :=
      List.map_congr_left fun q member => Prod.ext (others q member).1 (others q member).2
    rw [entries]
    exact same

end Rekey

section Link

/-- A pool has one set of nodes in use. -/
theorem pool_unique {memg : MemgInfo} {live live' : List Nat} (ok : PoolOk memg live)
    (ok' : PoolOk memg live') : live'.Perm live := by
  rw [List.perm_ext_iff_of_nodup ok'.distinct ok.distinct]
  intro q
  have within {used used' : List Nat} (one : PoolOk memg used) (two : PoolOk memg used')
      (member : q ∈ used) : q ∈ used' := by
    obtain ⟨index, bound, rfl⟩ := one.inPool q member
    have marked := one.header index bound
    rw [if_pos member, two.header index bound] at marked
    by_contra missing
    rw [if_neg missing] at marked
    cases marked
  exact ⟨within ok' ok, within ok ok'⟩

theorem link_outside (parts : Parts hash table live [p]) (inRange : InRange hash table) :
    hashoLinkNode hash table p = some (linked table p (hash (table.keyAt p))) := by
  have inBound : hash (table.keyAt p) < table.uiHashSize := inRange _ (key_length table p)
  obtain ⟨index, -, place⟩ := parts.pool.inPool p (by simp)
  have positive : p ≠ 0 := by
    rw [place]
    exact Nat.ne_of_gt (body_positive parts.pool.start index)
  refine link_linked (parts.head_inside inBound) ?_
  intro same
  have first := first_of_chain (parts.chains _ inBound)
  rw [same] at first
  exact parts.distinct.2 p List.mem_cons_self (bucket_subset (first positive).1).1

/-- Back in a chain: the node's links are written, or were empty. -/
theorem link_stores (parts : Parts hash table live [p]) (inRange : InRange hash table)
    (absent : table.keyAt p ∉ live.map table.keyAt)
    (loose : table.head (hash (table.keyAt p)) = 0 →
      (table.node p).offset_next = 0 ∧ (table.node p).offset_prev = 0) :
    Stores hash (linked table p (hash (table.keyAt p))) (p :: live) := by
  have inBound : hash (table.keyAt p) < table.uiHashSize := inRange _ (key_length table p)
  have moved : (p :: live).Perm (live ++ [p]) := (List.perm_append_singleton p live).symm
  have content := linked_content table p (hash (table.keyAt p))
  obtain ⟨index, -, place⟩ := parts.pool.inPool p (by simp)
  have positive : p ≠ 0 := by
    rw [place]
    exact Nat.ne_of_gt (body_positive parts.pool.start index)
  refine ⟨pool_perm parts.pool moved, parts.size, parts.total, parts.room,
    fun q member => parts.filled q (moved.mem_iff.mp member), ?_, fun index bound =>
      linked_chains parts.distinct.1 (parts.distinct.2 p List.mem_cons_self) positive loose
        inBound parts.chains bound⟩
  rw [List.map_congr_left fun q _ => (content q).1, List.map_cons, List.nodup_cons]
  exact ⟨absent, parts.keys⟩

/-- No node of the chains refers back to one that is in none. -/
theorem back_inside (parts : Parts hash table live away) (inRange : InRange hash table) {q : Nat}
    (member : q ∈ live) (outside : p ∉ live) : table.links.back q ≠ some p := by
  intro refers
  have chain := parts.chains _ (inRange _ (key_length table q))
  have inBucket : q ∈ table.bucket hash live (hash (table.keyAt q)) := by
    simp [HashoInfo.bucket, member]
  obtain ⟨front, rest, split⟩ := List.append_of_mem inBucket
  rw [split] at chain
  obtain ⟨back, -, -, -⟩ := chained_around chain
  rw [refers, Option.or_none] at back
  have before : p ∈ table.bucket hash live (hash (table.keyAt q)) := by
    rw [split]
    exact List.mem_append_left _ (List.mem_of_getLast? back.symm)
  exact outside (bucket_subset before).1

/-- In an empty bucket the links of the node stay, and lead out of the chain. -/
theorem link_stale (parts : Parts hash table live [p]) (inRange : InRange hash table)
    {live' : List Nat} (stores : Stores hash (linked table p (hash (table.keyAt p))) live') :
    table.keyAt p ∉ live.map table.keyAt ∧
      (table.head (hash (table.keyAt p)) = 0 →
        (table.node p).offset_next = 0 ∧ (table.node p).offset_prev = 0) := by
  have inBound : hash (table.keyAt p) < table.uiHashSize := inRange _ (key_length table p)
  have outside := parts.distinct.2 p List.mem_cons_self
  have content := linked_content table p (hash (table.keyAt p))
  have used : live'.Perm (live ++ [p]) := pool_unique parts.pool stores.pool
  refine ⟨?_, ?_⟩
  · have keys := stores.keys
    rw [List.map_congr_left fun q _ => (content q).1,
      ((used.trans (List.perm_append_singleton p live)).map table.keyAt).nodup_iff,
      List.map_cons] at keys
    exact (List.nodup_cons.mp keys).1
  · intro empty
    obtain ⟨index, -, place⟩ := parts.pool.inPool p (by simp)
    have positive : p ≠ 0 := by
      rw [place]
      exact Nat.ne_of_gt (body_positive parts.pool.start index)
    have chain := stores.chains _ inBound
    have headEq : (linked table p (hash (table.keyAt p))).head (hash (table.keyAt p)) = p :=
      Function.update_self ..
    have node (q : Nat) (other : q ≠ p) :
        (linked table p (hash (table.keyAt p))).node q = table.node q :=
      linked_node other fun filled => absurd empty filled
    have own : (linked table p (hash (table.keyAt p))).node p = table.node p := by
      simp [linked, empty]
    rw [headEq, pointed_pos positive] at chain
    cases bucket : (linked table p (hash (table.keyAt p))).bucket hash live'
        (hash (table.keyAt p)) with
    | nil =>
        rw [bucket] at chain
        cases chain
    | cons first rest =>
        rw [bucket] at chain
        obtain ⟨same, back, later⟩ := chain
        obtain rfl := Option.some.inj same
        have prev : (table.node p).offset_prev = 0 := by
          rw [← own]
          exact pointed_none back
        refine ⟨?_, prev⟩
        cases rest with
        | nil =>
            rw [← own]
            exact pointed_none later
        | cons q rest =>
            obtain ⟨-, backRef, -⟩ := later
            have spread : (p :: q :: rest).Nodup := by
              rw [← bucket]
              exact stores.pool.distinct.filter _
            have other : q ≠ p := by
              rintro rfl
              simp at spread
            have inBucket : q ∈ (linked table p (hash (table.keyAt p))).bucket hash live'
                (hash (table.keyAt p)) := by
              rw [bucket]
              simp
            have member : q ∈ live := by
              have inPool := used.mem_iff.mp (bucket_subset inBucket).1
              rcases List.mem_append.mp inPool with inLive | same
              · exact inLive
              · exact absurd (List.mem_singleton.mp same) other
            have refers : table.links.back q = some p := by
              have kept := backRef
              simp only [HashoInfo.links, node q other] at kept
              exact kept
            exact absurd refers (back_inside parts inRange member outside)

/-- The table after the link matches the map with the node's entry exactly where the links
of the node are written or were empty, and no other node has its key. -/
theorem link_holding (inv : Holding hash sizes [p] table map) :
    ∃ after, hashoLinkNode hash table p = some after ∧
      (Matches hash sizes after (map.insert (table.keyAt p) (table.dataAt p)) ↔
        table.keyAt p ∉ map ∧
          ((table.node p).offset_next = 0 ∧ (table.node p).offset_prev = 0 ∨
            table.head (hash (table.keyAt p)) ≠ 0)) := by
  obtain ⟨inRange, rfl, live, parts, same⟩ := inv
  have member : table.keyAt p ∈ map ↔ table.keyAt p ∈ live.map table.keyAt := by
    rw [same_mem same, entries_keys]
  have content := linked_content table p (hash (table.keyAt p))
  have entries (nodes : List Nat) :
      (linked table p (hash (table.keyAt p))).entries nodes = table.entries nodes :=
    List.map_congr_left fun q _ => Prod.ext (content q).1 (content q).2
  refine ⟨_, link_outside parts inRange, ?_⟩
  constructor
  · rintro ⟨-, -, live', stores, -⟩
    obtain ⟨absent, loose⟩ := link_stale parts inRange stores
    refine ⟨fun inMap => absent (member.mp inMap), ?_⟩
    by_cases empty : table.head (hash (table.keyAt p)) = 0
    · exact Or.inl (loose empty)
    · exact Or.inr empty
  · rintro ⟨absent, loose⟩
    have fresh : table.keyAt p ∉ live.map table.keyAt := fun inLive => absent (member.mpr inLive)
    have stores := link_stores parts inRange fresh fun empty =>
      loose.resolve_right (not_not.mpr empty)
    refine ⟨inRange, rfl, p :: live, stores, ?_⟩
    rw [entries]
    exact same_insert same absent (table.dataAt p)

end Link

/-- The node found under a key is taken out, other calls follow, and the node is put back with
the key it then has: the table holds the other entries and that of the node exactly where no
other node has the key, and the node was alone in its bucket or comes to one with a node. -/
theorem relink_iff {hash : List UInt8 → Nat} {sizes : HashoSizes} {table : HashoInfo}
    {map : Contents} (inv : Matches hash sizes table map) {oldKey : List UInt8} {p : Nat}
    (oldLen : oldKey.length = sizes.usKeyLen)
    (found : hashoFind hash table oldKey = some (some p)) {ops : List Op}
    (fits : ∀ op ∈ ops, sizes.Fits op) (noReset : Op.reset ∉ ops) {pKey : List UInt8}
    (keyLen : pKey.length = sizes.usKeyLen) :
    ∃ cut between after, hashoUnlinkNode hash table p = some cut ∧
      replay (HashoInfo.step hash) cut ops =
        some ((specReplay (specStep (5 * sizes.uiHashSize - 1)) (map.erase oldKey) ops).1,
          between) ∧
      hashoLinkNode hash (between.withKey p pKey) p = some after ∧
      map.lookup oldKey = some (table.dataAt p) ∧
      (Matches hash sizes after
          ((specReplay (specStep (5 * sizes.uiHashSize - 1)) (map.erase oldKey) ops).2.insert pKey
            (table.dataAt p)) ↔
        pKey ∉ (specReplay (specStep (5 * sizes.uiHashSize - 1)) (map.erase oldKey) ops).2 ∧
          ((table.node p).offset_next = 0 ∧ (table.node p).offset_prev = 0 ∨
            between.head (hash pKey) ≠ 0)) := by
  obtain ⟨inRange, rfl, live, stores, same⟩ := inv
  rw [find_spec stores inRange oldLen, Option.some.injEq] at found
  have member := List.mem_of_find?_eq_some found
  have ownKey : table.keyAt p = oldKey := by simpa using List.find?_some found
  have parts := stores_parts.mp stores
  obtain ⟨cut, unlinked, cutParts, sizesEq, -, content, frame⟩ := parts.unlink inRange member
  have cutHolding : Holding hash table.sizes [p] cut (map.erase oldKey) := by
    refine ⟨in_range_congr sizesEq inRange, sizesEq, live.erase p, cutParts, ?_⟩
    have entries : cut.entries (live.erase p) = table.entries (live.erase p) :=
      List.map_congr_left fun q _ => Prod.ext (content q).1 (content q).2
    rw [entries, entries_erase parts member, ownKey]
    exact same_erase same oldKey
  obtain ⟨between, ran, holding, kept⟩ := run_holding cutHolding fits noReset
  have whole := (frame p List.mem_cons_self).trans kept
  obtain ⟨rekeyed, newKey, newData⟩ := rekey_holding holding keyLen
  obtain ⟨after, linked, outcome⟩ := link_holding rekeyed
  have node : (between.withKey p pKey).node p = table.node p := whole.node
  have head : (between.withKey p pKey).head = between.head := rfl
  rw [newKey, newData, node, head, whole.data] at outcome
  refine ⟨cut, between, after, unlinked, ran, linked, ?_, outcome⟩
  rw [lookup_find same, found]
  rfl

section Instances

/-- Two entries in one bucket of two. -/
def twoEntries : HashoInfo :=
  ((replay (HashoInfo.step fun key => (key.headD 0).toNat % 2) (hashoInit blankTable 1 1 2)
    [.add [0] [7], .add [2] [8]]).map Prod.snd).getD blankTable

theorem two_entries_matches : Matches (fun key => (key.headD 0).toNat % 2) ⟨1, 1, 2⟩ twoEntries
    (specReplay (specStep 10) ∅ [.add [0] [7], .add [2] [8]]).2 := by
  have simulates : Simulates (HashoInfo.step fun key => (key.headD 0).toNat % 2) (specStep 10)
      (fun _ op => (⟨1, 1, 2⟩ : HashoSizes).Fits op)
      (Matches (fun key => (key.headD 0).toNat % 2) ⟨1, 1, 2⟩) := by
    intro table map op inv fits
    obtain ⟨after, stepped, matched, -⟩ := step_matches inv fits
    exact ⟨after, stepped, matched⟩
  have start := @init_matches (fun key => (key.headD 0).toNat % 2) blankTable ⟨1, 1, 2⟩
    (fun _ _ => Nat.mod_lt _ (by decide)) (by decide)
  have fits : ∀ op ∈ [Op.add [0] [7], Op.add [2] [8]], (⟨1, 1, 2⟩ : HashoSizes).Fits op := by
    simp [HashoSizes.Fits]
  obtain ⟨table, ran, matched⟩ := simulates.replay start (along_all fits ∅)
  rw [twoEntries, ran]
  exact matched

theorem relink_two : ∃ cut between after,
    hashoUnlinkNode (fun key => (key.headD 0).toNat % 2) twoEntries 122 = some cut ∧
    replay (HashoInfo.step fun key => (key.headD 0).toNat % 2) cut [.add [4] [9]] =
      some ([.added true], between) ∧
    hashoLinkNode (fun key => (key.headD 0).toNat % 2) (between.withKey 122 [1]) 122 =
      some after := by
  obtain ⟨cut, between, after, unlinked, ran, linked, -, -⟩ :=
    @relink_iff _ _ _ _ two_entries_matches [2] 122 (by decide) (by decide +kernel)
      [.add [4] [9]] (by simp [HashoSizes.Fits]) (by decide) [1] (by decide)
  refine ⟨cut, between, after, unlinked, ?_, linked⟩
  rw [ran]
  have answers : (specReplay (specStep (5 * 2 - 1))
      ((specReplay (specStep 10) ∅ [.add [0] [7], .add [2] [8]]).2.erase [2])
      [.add [4] [9]]).1 = [.added true] := by decide +kernel
  rw [answers]

/-- The entry of `[2]` is taken out, that of `[0]` deleted, and the first put back under its own
key: its old link leads to the freed node. -/
theorem deleted_entry_found : ∃ after,
    (do
      let cut ← hashoUnlinkNode (fun key => (key.headD 0).toNat % 2) twoEntries 122
      let between ← hashoDel (fun key => (key.headD 0).toNat % 2) cut [0]
      hashoLinkNode (fun key => (key.headD 0).toNat % 2) between 122) = some after ∧
    hashoFind (fun key => (key.headD 0).toNat % 2) after [0] = some (some 68) ∧
    ¬Matches (fun key => (key.headD 0).toNat % 2) ⟨1, 1, 2⟩ after
      (((((specReplay (specStep 10) ∅ [.add [0] [7], .add [2] [8]]).2).erase [2]).erase [0]).insert
        [2] [8]) := by
  generalize runEq : (do
      let cut ← hashoUnlinkNode (fun key => (key.headD 0).toNat % 2) twoEntries 122
      let between ← hashoDel (fun key => (key.headD 0).toNat % 2) cut [0]
      hashoLinkNode (fun key => (key.headD 0).toNat % 2) between 122) = result
  have finds : (result.bind fun after =>
      hashoFind (fun key => (key.headD 0).toNat % 2) after [0]) = some (some 68) := by
    rw [← runEq]
    decide +kernel
  cases result with
  | none => cases finds
  | some after =>
      rw [Option.bind_some] at finds
      refine ⟨after, rfl, finds, ?_⟩
      rintro ⟨inRange, sizesEq, live, stores, same⟩
      have keyLen : ([0] : List UInt8).length = after.usKeyLen :=
        (congrArg HashoSizes.usKeyLen sizesEq).symm
      have lookup := lookup_find same [0]
      rw [find_spec stores inRange keyLen, Option.some.injEq] at finds
      rw [finds, Finmap.lookup_insert_of_ne _ (by decide), Finmap.lookup_erase] at lookup
      cases lookup

end Instances

end Upst.Hasho
