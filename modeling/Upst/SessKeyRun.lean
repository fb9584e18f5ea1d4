import Upst.SessKeyLists
import Upst.HashoRun
import Upst.Interleave

/-!
Every sequence of calls that the process makes of its lists of session keys. The free nodes and
the nodes in use part the table, the nodes in use and the sessions of every client are linked
both ways, and the table of clients names the first session of each.
-/

namespace Upst.SessKey

open Bytes Word Tcp Chain Hasho Interleave

set_option autoImplicit false

/-- A client's chain of sessions, as its entry in the table of clients names it. -/
structure Client (tbl : SesskeyTbl) (used : List Nat) (key : List UInt8) (copy : SesskeyList)
    (nodes : List Nat) : Prop where
  own : ChainOf tbl used nodes
  named : nodes.head? = some copy.uiIndex
  ofClient : ∀ i ∈ nodes, callKey (tbl.stNode i).stSessKey.uiSIP = key

/-- What holds between two calls: `live` are the entries of the table of clients, and `chain` gives
the sessions of each. -/
structure SessKeys.Sound (hash : List UInt8 → Nat) (state : SessKeys) (live : List Nat)
    (chain : Nat → List Nat) (free used : List Nat) : Prop where
  inRange : InRange hash state.pSESSKEYINFO
  keyLen : state.pSESSKEYINFO.usKeyLen = STOP_CALL_KEY_SIZE
  stores : Stores hash state.pSESSKEYINFO live
  lists : Lists state.pstSESSKEYTBL free used
  clients : ∀ p ∈ live,
    Client state.pstSESSKEYTBL used (state.pSESSKEYINFO.keyAt p) (state.stack p) (chain p)

/-- The number of nodes in chains. -/
def filed (live : List Nat) (chain : Nat → List Nat) : Nat := (live.map fun p => (chain p).length).sum

/-- A session comes into its client's chain, behind the head, unless it is refused or the table of
clients is full. -/
inductive Entered (after : SessKeys) (session : TcpSessKey × Nat) (live : List Nat)
    (chain : Nat → List Nat) (used : List Nat) :
    Int → List Nat → (Nat → List Nat) → List Nat → Prop where
  | refused {dRet : Int} (failed : dRet < 0) : Entered after session live chain used dRet live chain used
  | stray {i : Nat} (own : (after.pstSESSKEYTBL.stNode i).content = session)
      (absent : callKey session.1.uiSIP ∉ live.map after.pSESSKEYINFO.keyAt)
      (full : live.length = 5 * after.pSESSKEYINFO.uiHashSize) :
      Entered after session live chain used 0 live chain (i :: used)
  | first {i p : Nat} (own : (after.pstSESSKEYTBL.stNode i).content = session) (fresh : p ∉ live) :
      Entered after session live chain used 0 (p :: live) (Function.update chain p [i]) (i :: used)
  | behind {i p head : Nat} {later : List Nat}
      (own : (after.pstSESSKEYTBL.stNode i).content = session) (member : p ∈ live)
      (nodes : chain p = head :: later) :
      Entered after session live chain used 0 live (Function.update chain p (head :: i :: later))
        (i :: used)

/-- What `dCheckSessKeyList` does with any session. -/
def SessKeys.Enters (hash : List UInt8 → Nat) (state : SessKeys) (live : List Nat)
    (chain : Nat → List Nat) (used : List Nat) : Prop :=
  ∀ key uiSessCreateTime, ∃ dRet after live' chain' free' used',
    dCheckSessKeyList hash state key uiSessCreateTime = some (dRet, after) ∧
      after.Sound hash live' chain' free' used' ∧
      Entered after (key, uiSessCreateTime) live chain used dRet live' chain' used'

/-- A check that returns 0 and leaves its client unknown. -/
def SessKeys.stray (hash : List UInt8 → Nat) (state : SessKeys) : Call → Bool
  | .check key uiSessCreateTime =>
      (dCheckSessKeyList hash state key uiSessCreateTime).any fun checked =>
        checked.1 = 0 ∧ hashoFind hash checked.2.pSESSKEYINFO (callKey key.uiSIP) = some none
  | _ => false

def SessKeys.strays (hash : List UInt8 → Nat) : SessKeys → List Call → Nat
  | _, [] => 0
  | state, call :: calls =>
      (state.stray hash call).toNat + (state.step hash call).elim 0 fun after => after.strays hash calls

/-- All nodes in use but `strays` are in chains. -/
def SessKeys.Linked (hash : List UInt8 → Nat) (state : SessKeys) (strays : Nat) : Prop :=
  ∃ live chain free used, state.Sound hash live chain free used ∧
    used.length = filed live chain + strays

section Filed

variable {live : List Nat} {chain : Nat → List Nat} {p : Nat}

theorem filed_erase (member : p ∈ live) : filed live chain = (chain p).length + filed (live.erase p) chain :=
  ((List.perm_cons_erase member).map _).sum_eq

theorem filed_update (distinct : live.Nodup) (member : p ∈ live) (nodes : List Nat) :
    filed live (Function.update chain p nodes) = nodes.length + filed (live.erase p) chain := by
  rw [filed_erase member, Function.update_self, filed, filed, List.map_congr_left]
  intro q inside
  rw [Function.update_of_ne (ne_of_mem_of_not_mem inside distinct.not_mem_erase)]

end Filed

section Client

variable {tbl tbl' : SesskeyTbl} {used used' nodes : List Nat} {key : List UInt8}
  {copy : SesskeyList}

theorem client_congr (client : Client tbl used key copy nodes)
    (same : ∀ i ∈ nodes, (tbl'.stNode i).session = (tbl.stNode i).session)
    (inUse : ∀ i ∈ nodes, i ∈ used') : Client tbl' used' key copy nodes := by
  refine ⟨chain_of_congr client.own same inUse, client.named, ?_⟩
  intro i member
  rw [(Prod.mk.inj (same i member)).1]
  exact client.ofClient i member

theorem call_key_length (uiSrcIP : Nat) : (callKey uiSrcIP).length = STOP_CALL_KEY_SIZE := by
  rw [callKey, List.length_append, le32_length, le32_length]
  rfl

variable {hash : List UInt8 → Nat} {state : SessKeys} {live free : List Nat}
  {chain : Nat → List Nat}

/-- No node is in the chains of two clients. -/
theorem chains_apart (sound : state.Sound hash live chain free used) {p q i : Nat} (first : p ∈ live)
    (second : q ∈ live) (inFirst : i ∈ chain p) (inSecond : i ∈ chain q) : p = q := by
  apply List.inj_on_of_nodup_map sound.stores.keys first second
  exact ((sound.clients p first).ofClient i inFirst).symm.trans
    ((sound.clients q second).ofClient i inSecond)

end Client

variable {hash : List UInt8 → Nat} {state : SessKeys} {live free used : List Nat}
  {chain : Nat → List Nat}

section Check

variable {key : TcpSessKey} {uiSessCreateTime : Nat}

/-- A node that is taken for a session is alone, and no other node is changed for the chains. -/
theorem new_spec {tbl : SesskeyTbl} {i j : Nat} {rest : List Nat}
    (lists : Lists tbl (i :: j :: rest) used) (key : TcpSessKey) (uiSessCreateTime : Nat) :
    Lists (newNode (taken tbl i) i key uiSessCreateTime) (j :: rest) (i :: used) ∧
      (∀ k, k ≠ i →
        ((newNode (taken tbl i) i key uiSessCreateTime).stNode k).session = (tbl.stNode k).session) ∧
      ((newNode (taken tbl i) i key uiSessCreateTime).stNode i).session =
        (key, uiSessCreateTime, 0, 0) := by
  have lists' := (get_spec lists).2
  have other {k : Nat} (apart : k ≠ i) : (newNode (taken tbl i) i key uiSessCreateTime).stNode k =
      (taken tbl i).stNode k := Function.update_of_ne apart ..
  have own : (newNode (taken tbl i) i key uiSessCreateTime).stNode i =
      { (taken tbl i).stNode i with stSessKey := key, SessStartTime := uiSessCreateTime } :=
    Function.update_self ..
  have cleared := lists.cleared i List.mem_cons_self
  refine ⟨lists_congr lists' ⟨rfl, rfl, rfl, rfl⟩ ?_ ?_, ?_, ?_⟩
  · intro k
    by_cases same : k = i
    · rw [same, own]
      exact ⟨rfl, rfl, rfl⟩
    · rw [other same]
      exact ⟨rfl, rfl, rfl⟩
  · intro k _
    by_cases same : k = i
    · rw [same, own]
      exact ⟨rfl, rfl⟩
    · rw [other same]
      exact ⟨rfl, rfl⟩
  · intro k apart
    rw [other apart]
    rfl
  · rw [own]
    exact Prod.ext rfl (Prod.ext rfl (Prod.ext cleared.1 cleared.2))

/-- A node outside every chain changes, and the nodes in use are more. -/
theorem sound_congr (sound : state.Sound hash live chain free used) {tbl : SesskeyTbl}
    {free' used' : List Nat} (lists : Lists tbl free' used')
    (same : ∀ i ∈ used, (tbl.stNode i).session = (state.pstSESSKEYTBL.stNode i).session)
    (more : ∀ i ∈ used, i ∈ used') :
    SessKeys.Sound hash { state with pstSESSKEYTBL := tbl } live chain free' used' := by
  refine ⟨sound.inRange, sound.keyLen, sound.stores, lists, ?_⟩
  intro p member
  have client := sound.clients p member
  apply client_congr client
  · exact fun i inside => same i (client.own.inUse i inside)
  · exact fun i inside => more i (client.own.inUse i inside)

/-- The first session of a client. -/
theorem alone_client {tbl : SesskeyTbl} {used : List Nat} {i : Nat} (lists : Lists tbl free used)
    (inside : i ∈ used) (own : (tbl.stNode i).session = (key, uiSessCreateTime, 0, 0)) :
    Client tbl used (callKey key.uiSIP) (tbl.stNode i) [i] := by
  obtain ⟨positive, bound⟩ := lists.used_within inside
  obtain ⟨keyEq, rest⟩ := Prod.mk.inj own
  obtain ⟨-, links⟩ := Prod.mk.inj rest
  obtain ⟨next, prev⟩ := Prod.mk.inj links
  refine ⟨⟨⟨i, pointed_pos (Nat.ne_of_gt positive), congrArg pointed prev, congrArg pointed next⟩,
    List.nodup_singleton i, ?_⟩, ?_, ?_⟩
  · rintro k member
    rw [List.mem_singleton.mp member]
    exact inside
  · rw [lists.index i bound]
    rfl
  · rintro k member
    rw [List.mem_singleton.mp member, keyEq]

/-- The free node that a session is given. -/
theorem given_sound {i j : Nat} {rest : List Nat}
    (sound : state.Sound hash live chain (i :: j :: rest) used) (key : TcpSessKey)
    (uiSessCreateTime : Nat) :
    i ∉ used ∧
      SessKeys.Sound hash { state with
          pstSESSKEYTBL := newNode (taken state.pstSESSKEYTBL i) i key uiSessCreateTime }
        live chain (j :: rest) (i :: used) := by
  obtain ⟨lists', others, -⟩ := new_spec sound.lists key uiSessCreateTime
  have apart : i ∉ used := fun inside => sound.lists.not_free inside List.mem_cons_self
  refine ⟨apart, sound_congr sound lists' ?_ fun k inside => List.mem_cons_of_mem i inside⟩
  exact fun k inside => others k (ne_of_mem_of_not_mem inside apart)

theorem check_new (sound : state.Sound hash live chain free used)
    (absent : callKey key.uiSIP ∉ live.map state.pSESSKEYINFO.keyAt) :
    ∃ dRet after live' chain' free' used',
      dCheckSessKeyList hash state key uiSessCreateTime = some (dRet, after) ∧
        after.Sound hash live' chain' free' used' ∧
        Entered after (key, uiSessCreateTime) live chain used dRet live' chain' used' := by
  have length := (call_key_length key.uiSIP).trans sound.keyLen.symm
  rw [dCheckSessKeyList, find_spec sound.stores sound.inRange length, absent_find absent]
  simp only [Option.bind_eq_bind, Option.bind_some]
  have lists := sound.lists
  obtain ⟨i, spare, rfl⟩ := List.exists_cons_of_ne_nil lists.spare
  cases spare with
  | nil =>
      rw [get_none lists]
      exact ⟨-1, state, live, chain, [i], used, rfl, sound, .refused (by decide)⟩
  | cons j rest =>
      rw [(get_spec lists).1]
      dsimp only
      obtain ⟨lists', -, own⟩ := new_spec lists key uiSessCreateTime
      obtain ⟨-, sound'⟩ := given_sound sound key uiSessCreateTime
      have content := congrArg (fun session => (session.1, session.2.1)) own
      by_cases full : live.length = 5 * state.pSESSKEYINFO.uiHashSize
      · rw [add_full sound.stores sound.inRange length absent full]
        exact ⟨0, _, live, chain, j :: rest, i :: used, rfl, sound', .stray content absent full⟩
      · have room : live.length < 5 * state.pSESSKEYINFO.uiHashSize := by
          have within := live_length_le sound.stores.pool
          rw [sound.stores.total] at within
          exact Nat.lt_of_le_of_ne within full
        obtain ⟨p, table, added, stores, sizes, entries⟩ := add_room sound.stores sound.inRange
          length List.length_replicate absent room
        have fresh := (List.nodup_cons.mp stores.pool.distinct).1
        rw [added]
        refine ⟨0, _, p :: live, Function.update chain p [i], j :: rest, i :: used, rfl,
          ⟨in_range_congr sizes sound.inRange, ?_, stores, lists', ?_⟩, .first content fresh⟩
        · exact (congrArg HashoSizes.usKeyLen sizes).trans sound.keyLen
        · obtain ⟨ownKey, oldKeys⟩ := List.cons.inj entries
          intro q member
          dsimp only [SessKeys.setStack]
          by_cases new : q = p
          · subst new
            rw [Function.update_self, Function.update_self, (Prod.mk.inj ownKey).1]
            exact alone_client lists' List.mem_cons_self own
          · have old : q ∈ live := (List.mem_cons.mp member).resolve_left new
            rw [Function.update_of_ne new, Function.update_of_ne new, entries_same oldKeys q old]
            exact sound'.clients q old

theorem check_known (sound : state.Sound hash live chain free used) {p : Nat} (member : p ∈ live)
    (found : live.find? (fun p => state.pSESSKEYINFO.keyAt p = callKey key.uiSIP) = some p) :
    ∃ dRet after live' chain' free' used',
      dCheckSessKeyList hash state key uiSessCreateTime = some (dRet, after) ∧
        after.Sound hash live' chain' free' used' ∧
        Entered after (key, uiSessCreateTime) live chain used dRet live' chain' used' := by
  have length := (call_key_length key.uiSIP).trans sound.keyLen.symm
  have keyEq : state.pSESSKEYINFO.keyAt p = callKey key.uiSIP := by
    simpa using List.find?_some found
  rw [dCheckSessKeyList, find_spec sound.stores sound.inRange length, found]
  simp only [Option.bind_eq_bind, Option.bind_some]
  have lists := sound.lists
  have client := sound.clients p member
  obtain ⟨i, spare, rfl⟩ := List.exists_cons_of_ne_nil lists.spare
  cases spare with
  | nil =>
      rw [get_none lists]
      exact ⟨-2, state, live, chain, [i], used, rfl, sound, .refused (by decide)⟩
  | cons j rest =>
      rw [(get_spec lists).1]
      dsimp only
      obtain ⟨lists', others, own⟩ := new_spec lists key uiSessCreateTime
      obtain ⟨outside, sound'⟩ := given_sound sound key uiSessCreateTime
      have apart : ∀ k ∈ used, k ≠ i := fun k inside => ne_of_mem_of_not_mem inside outside
      have content := congrArg (fun session => (session.1, session.2.1)) own
      have client' := sound'.clients p member
      obtain ⟨head, later, chainEq⟩ : ∃ head later, chain p = head :: later := by
        cases nodes : chain p with
        | nil =>
            have named := client.named
            rw [nodes] at named
            cases named
        | cons head later => exact ⟨head, later, rfl⟩
      have named : (state.stack p).uiIndex = head := by
        have first := client.named
        rw [chainEq] at first
        exact (Option.some.inj first).symm
      have bound := lists'.used_within (List.mem_cons_self (a := i))
      have ownKey : ((newNode (taken state.pstSESSKEYTBL i) i key uiSessCreateTime).stNode
          i).stSessKey = key := (Prod.mk.inj own).1
      by_cases same : ((newNode (taken state.pstSESSKEYTBL i) i key uiSessCreateTime).stNode
          head).stSessKey = key
      · have freeing := free_spec lists' (List.mem_cons_self (a := i))
        rw [List.erase_cons_head] at freeing
        rw [← named] at same
        have refused : (-2 : Int) < 0 := by decide
        rw [add_same bound (lists'.index i bound.2) (same.trans ownKey.symm), if_pos refused,
          freeing.1]
        refine ⟨-3, _, live, chain, i :: j :: rest, used, rfl, ?_, .refused (by decide)⟩
        apply sound_congr sound freeing.2 _ fun k inside => inside
        intro k inside
        exact (freed_other (apart k inside)).trans (others k (apart k inside))
      · have fresh : i ∉ head :: later := by
          intro inside
          rw [← chainEq] at inside
          exact apart i (client.own.inUse i inside) rfl
        obtain ⟨added, lists'', own'', others''⟩ := add_spec lists' (chainEq ▸ client'.own) named
          List.mem_cons_self fresh fun equal => same (equal.trans ownKey)
        rw [added, if_neg (Int.lt_irrefl 0)]
        refine ⟨0, _, live, Function.update chain p (head :: i :: later), j :: rest, i :: used, rfl,
          ⟨sound.inRange, sound.keyLen, sound.stores, lists'', ?_⟩,
          .behind ((inserted_content _ head i i).trans content) member chainEq⟩
        intro q other
        dsimp only
        by_cases mine : q = p
        · subst mine
          rw [Function.update_self]
          refine ⟨own'', congrArg some named.symm, ?_⟩
          intro k inside
          rw [(Prod.mk.inj (inserted_content _ head i k)).1]
          rcases List.mem_cons.mp inside with rfl | inside
          · exact client'.ofClient k (chainEq ▸ List.mem_cons_self)
          · rcases List.mem_cons.mp inside with rfl | inside
            · rw [ownKey]
              exact keyEq.symm
            · exact client'.ofClient k (chainEq ▸ List.mem_cons_of_mem head inside)
        · rw [Function.update_of_ne mine]
          have theirs := sound'.clients q other
          apply client_congr theirs
          · intro k inside
            have inUsed := (sound.clients q other).own.inUse k inside
            apply others''
            rw [List.mem_cons, List.mem_cons]
            rintro (rfl | rfl | behind)
            · exact mine (chains_apart sound other member inside (chainEq ▸ List.mem_cons_self))
            · exact apart k inUsed rfl
            · exact mine (chains_apart sound other member inside
                (chainEq ▸ List.mem_cons_of_mem head behind))
          · exact theirs.own.inUse

theorem check_enters (sound : state.Sound hash live chain free used) :
    state.Enters hash live chain used := by
  intro key uiSessCreateTime
  cases found : live.find? fun p => state.pSESSKEYINFO.keyAt p = callKey key.uiSIP with
  | none =>
      apply check_new sound
      intro present
      obtain ⟨p, member, same⟩ := List.mem_map.mp present
      exact List.find?_eq_none.mp found p member (by simpa using same)
  | some p => exact check_known sound (List.mem_of_find?_eq_some found) found

end Check

section Delete

variable {doomed : SesskeyList → Bool}

theorem find_client (sound : state.Sound hash live chain free used) {pKey : List UInt8}
    (length : pKey.length = STOP_CALL_KEY_SIZE) :
    hashoFind hash state.pSESSKEYINFO pKey =
        some (live.find? fun p => state.pSESSKEYINFO.keyAt p = pKey) ∧
      ∀ p, (live.find? fun p => state.pSESSKEYINFO.keyAt p = pKey) = some p →
        p ∈ live ∧ state.pSESSKEYINFO.keyAt p = pKey := by
  refine ⟨find_spec sound.stores sound.inRange (length.trans sound.keyLen.symm), ?_⟩
  intro p found
  exact ⟨List.mem_of_find?_eq_some found, by simpa using List.find?_some found⟩

/-- A client whose sessions are not those of the chain keeps them. -/
theorem Deleted.others_keep {tbl : SesskeyTbl} {used' left : List Nat} {p q : Nat}
    (sound : state.Sound hash live chain free used) (member : p ∈ live) (other : q ∈ live)
    (distinct : q ≠ p) (deleted : Deleted state.pstSESSKEYTBL tbl used used' (chain p) left) :
    Client tbl used' (state.pSESSKEYINFO.keyAt q) (state.stack q) (chain q) := by
  have client := sound.clients q other
  have outside : ∀ i ∈ chain q, i ∉ chain p := fun i inside inside' =>
    distinct (chains_apart sound other member inside inside')
  apply client_congr client
  · exact fun i inside => deleted.others i (outside i inside)
  · intro i inside
    rw [deleted.gone]
    exact ⟨client.own.inUse i inside, fun both => outside i inside both.1⟩

/-- The nodes that leave a chain are those that are not in use any more. -/
theorem Deleted.count {tbl tbl' : SesskeyTbl} {free used' nodes : List Nat} (lists : Lists tbl free used)
    (own : ChainOf tbl used nodes)
    (deleted : Deleted tbl tbl' used used' nodes (survivors tbl doomed nodes)) :
    used'.length + nodes.length = used.length + (survivors tbl doomed nodes).length := by
  obtain ⟨free', lists'⟩ := deleted.lists
  have parts : used.Perm (used' ++ nodes.filter fun i => doomed (tbl.stNode i)) := by
    rw [List.perm_ext_iff_of_nodup lists.used_distinct]
    · intro i
      rw [List.mem_append, deleted.gone, survivors, List.mem_filter, List.mem_filter]
      have inUse := own.inUse i
      grind
    · rw [List.nodup_append']
      refine ⟨lists'.used_distinct, own.distinct.filter _, ?_⟩
      intro i inside gone
      obtain ⟨member, doom⟩ := List.mem_filter.mp gone
      refine ((deleted.gone i).mp inside).2 ⟨member, fun left => ?_⟩
      have stays := List.of_mem_filter left
      rw [doom] at stays
      cases stays
  have whole := parts.length_eq
  have split := (List.filter_append_perm (fun i => doomed (tbl.stNode i)) nodes).length_eq
  rw [List.length_append] at whole split
  rw [survivors]
  omega

theorem del_sess_list {strays : Nat} (sound : state.Sound hash live chain free used)
    (counts : used.length = filed live chain + strays) {pCALLKey : List UInt8}
    (length : pCALLKey.length = STOP_CALL_KEY_SIZE)
    (reads : ∀ node node', node.content = node'.content → doomed node = doomed node') :
    ∃ after, delSessList hash state pCALLKey (delSessKeys doomed) = some after ∧
      after.Linked hash strays := by
  obtain ⟨search, finds⟩ := find_client sound length
  rw [delSessList, search]
  simp only [Option.bind_eq_bind, Option.bind_some]
  cases found : live.find? fun p => state.pSESSKEYINFO.keyAt p = pCALLKey with
  | none => exact ⟨state, rfl, live, chain, free, used, sound, counts⟩
  | some p =>
      obtain ⟨member, keyEq⟩ := finds p found
      have client := sound.clients p member
      obtain ⟨tbl, copy, used', ran, deleted, names⟩ :=
        del_spec sound.lists client.own reads client.named
      obtain ⟨free', lists⟩ := deleted.lists
      have fewer := Deleted.count sound.lists client.own deleted
      have whole := @filed_erase live chain p member
      simp only [ran, Option.bind_some]
      cases left : survivors state.pstSESSKEYTBL doomed (chain p) with
      | nil =>
          subst keyEq
          obtain ⟨table, removed, stores, sizes, keys⟩ :=
            del_own sound.stores sound.inRange member
          have noneLeft : (([] : List Nat).length : Int) = 0 := rfl
          rw [if_pos noneLeft]
          simp only [SessKeys.setStack, removed, Option.bind_some]
          rw [left, List.length_nil] at fewer
          refine ⟨_, rfl, live.erase p, chain, free', used', ⟨in_range_congr sizes sound.inRange,
            (congrArg HashoSizes.usKeyLen sizes).trans sound.keyLen, stores, lists, ?_⟩, by omega⟩
          intro r kept
          obtain ⟨distinct, other⟩ := sound.stores.pool.distinct.mem_erase_iff.mp kept
          dsimp only
          rw [Function.update_of_ne distinct, keys r kept]
          exact deleted.others_keep sound member other distinct
      | cons first rest =>
          have someLeft : ¬((first :: rest).length : Int) = 0 := by
            rw [List.length_cons]
            omega
          rw [if_neg someLeft]
          have fewerFiled := @filed_update live chain p sound.stores.pool.distinct member (first :: rest)
          rw [left] at fewer
          refine ⟨_, rfl, live, Function.update chain p (first :: rest), free', used', ⟨sound.inRange,
            sound.keyLen, sound.stores, lists, ?_⟩, by omega⟩
          intro q other
          dsimp only [SessKeys.setStack]
          by_cases mine : q = p
          · subst mine
            rw [Function.update_self, Function.update_self]
            rw [left] at deleted names
            refine ⟨deleted.own, congrArg some (names first rfl).symm, ?_⟩
            intro i inside
            rw [(Prod.mk.inj (deleted.kept i inside)).1]
            apply client.ofClient
            rw [← left] at inside
            exact List.mem_of_mem_filter inside
          · rw [Function.update_of_ne mine, Function.update_of_ne mine]
            exact deleted.others_keep sound member other mine

end Delete

section Run

theorem check_linked {strays : Nat} {live free used : List Nat} {chain : Nat → List Nat}
    (sound : state.Sound hash live chain free used) (counts : used.length = filed live chain + strays)
    (key : TcpSessKey) (uiSessCreateTime : Nat) :
    ∃ after, state.step hash (.check key uiSessCreateTime) = some after ∧
      after.Linked hash (strays + (state.stray hash (.check key uiSessCreateTime)).toNat) := by
  obtain ⟨dRet, after, live', chain', free', used', ran, sound', entered⟩ :=
    check_enters sound key uiSessCreateTime
  refine ⟨after, by rw [SessKeys.step, ran]; rfl, live', chain', free', used', sound', ?_⟩
  have search := find_spec sound'.stores sound'.inRange
    ((call_key_length key.uiSIP).trans sound'.keyLen.symm)
  rw [SessKeys.stray, ran, Option.any_some, search]
  have known {q i : Nat} (member : q ∈ live') (inside : i ∈ chain' q)
      (own : (after.pstSESSKEYTBL.stNode i).content = (key, uiSessCreateTime)) :
      live'.find? (fun q => after.pSESSKEYINFO.keyAt q = callKey key.uiSIP) ≠ none := by
    intro none
    have named := (sound'.clients q member).ofClient i inside
    rw [(Prod.mk.inj own).1] at named
    exact List.find?_eq_none.mp none q member (decide_eq_true named.symm)
  cases entered with
  | refused failed =>
      rw [decide_eq_false fun both => absurd both.1 (Int.ne_of_lt failed)]
      exact counts
  | stray own absent =>
      rw [absent_find absent, decide_eq_true ⟨rfl, rfl⟩, List.length_cons, counts]
      rfl
  | @first i p own fresh =>
      have found := known List.mem_cons_self (by rw [Function.update_self]; exact List.mem_cons_self) own
      rw [decide_eq_false fun both => found (Option.some.inj both.2), List.length_cons, counts,
        filed_update sound'.stores.pool.distinct List.mem_cons_self, List.erase_cons_head]
      simp only [List.length_singleton, Bool.toNat_false]
      omega
  | @behind i p head later own member nodes =>
      have found := known member
        (by rw [Function.update_self]; exact List.mem_cons_of_mem head List.mem_cons_self) own
      have before := @filed_erase live chain p member
      rw [nodes] at before
      rw [decide_eq_false fun both => found (Option.some.inj both.2), List.length_cons, counts, before,
        filed_update sound.stores.pool.distinct member]
      simp only [List.length_cons, Bool.toNat_false]
      omega

theorem step_linked {strays : Nat} (call : Call) (linked : state.Linked hash strays) :
    ∃ after, state.step hash call = some after ∧
      after.Linked hash (strays + (state.stray hash call).toNat) := by
  obtain ⟨live, chain, free, used, sound, counts⟩ := linked
  cases call with
  | check key uiSessCreateTime => exact check_linked sound counts key uiSessCreateTime
  | delete key =>
      apply del_sess_list sound counts (call_key_length key.uiSIP)
      intro node node' same
      rw [(Prod.mk.inj same).1]
  | clear uiSrcIP uiLastLogTime =>
      apply del_sess_list sound counts (call_key_length uiSrcIP)
      intro node node' same
      rw [(Prod.mk.inj same).2]

theorem run_linked (calls : List Call) {strays : Nat} (linked : state.Linked hash strays) :
    ∃ final, calls.foldlM (SessKeys.step hash) state = some final ∧
      final.Linked hash (strays + state.strays hash calls) := by
  induction calls generalizing state strays with
  | nil => exact ⟨state, rfl, linked⟩
  | cons call calls ih =>
      obtain ⟨after, stepped, linked'⟩ := step_linked call linked
      obtain ⟨final, ran, kept⟩ := ih linked'
      refine ⟨final, ?_, ?_⟩
      · rw [List.foldlM_cons, stepped]
        exact ran
      · rw [SessKeys.strays, stepped, Option.elim_some, ← Nat.add_assoc]
        exact kept

theorem init_linked (rawNode : Nat → SesskeyList) (rawHash : HashoInfo)
    (rawStack : Nat → SesskeyList) (SESSKEY_LIST_SIZE : Nat) {CALL_SESS_CNT : Nat}
    (inRange : ∀ key : List UInt8, key.length = STOP_CALL_KEY_SIZE → hash key < CALL_SESS_CNT)
    (uncut : stHASHOINFO_SIZE + OFFSET_SIZE * CALL_SESS_CNT < 2 ^ 32) :
    (initSessKeys rawNode rawHash rawStack SESSKEY_LIST_SIZE CALL_SESS_CNT).Linked hash 0 :=
  ⟨[], fun _ => [], _, [], ⟨inRange, rfl, init_stores hash rawHash _ _ uncut, init_lists rawNode,
    fun _ => nofun⟩, rfl⟩

/-- `dDelSessKeyNext` takes the nodes with the key out of a client's chain and counts the others. -/
def SessKeys.Deletes (state : SessKeys) (live : List Nat) (chain : Nat → List Nat) (used : List Nat) :
    Prop :=
  ∀ p ∈ live, ∀ key, ∃ tbl copy used',
    let left := (chain p).filter fun i => (state.pstSESSKEYTBL.stNode i).stSessKey ≠ key
    dDelSessKeyNext state.pstSESSKEYTBL (state.stack p) key = some ((left.length : Int), tbl, copy) ∧
      Deleted state.pstSESSKEYTBL tbl used used' (chain p) left ∧ Names copy left

/-- In every state that calls lead to, the lists part the table and are linked both ways, the nodes in
use are in the chains but for the sessions that came when the table of clients was full, and a session
that is checked or deleted comes into its client's chain or goes out of it. -/
theorem lists_linked (rawNode : Nat → SesskeyList) (rawHash : HashoInfo)
    (rawStack : Nat → SesskeyList) {SESSKEY_LIST_SIZE CALL_SESS_CNT : Nat}
    (inRange : ∀ key : List UInt8, key.length = STOP_CALL_KEY_SIZE → hash key < CALL_SESS_CNT)
    (uncut : stHASHOINFO_SIZE + OFFSET_SIZE * CALL_SESS_CNT < 2 ^ 32) (calls : List Call) :
    let start := initSessKeys rawNode rawHash rawStack SESSKEY_LIST_SIZE CALL_SESS_CNT
    ∃ state live chain free used, calls.foldlM (SessKeys.step hash) start = some state ∧
      state.Sound hash live chain free used ∧
      used.length = filed live chain + start.strays hash calls ∧
      state.Enters hash live chain used ∧ state.Deletes live chain used := by
  intro start
  obtain ⟨state, run, live, chain, free, used, sound, counts⟩ := run_linked calls
    (init_linked rawNode rawHash rawStack SESSKEY_LIST_SIZE inRange uncut)
  rw [Nat.zero_add] at counts
  refine ⟨state, live, chain, free, used, run, sound, counts, check_enters sound, ?_⟩
  intro p member key
  have client := sound.clients p member
  have left : survivors state.pstSESSKEYTBL (fun node => node.stSessKey = key) (chain p) =
      (chain p).filter fun i => (state.pstSESSKEYTBL.stNode i).stSessKey ≠ key := by
    apply List.filter_congr
    intro i _
    simp
  rw [← left]
  apply del_spec sound.lists client.own _ client.named
  intro node node' same
  rw [(Prod.mk.inj same).1]

def blankNode (_ : Nat) : SesskeyList := ⟨zeroKey, 0, 0, 0, 0, 0, 0⟩

/-- A session that is cleared, and two sessions of its client. -/
def twoSessions : List Call :=
  [.check ⟨1, 2, 1000, 80⟩ 100, .clear 1 0, .check ⟨1, 2, 1000, 80⟩ 102, .check ⟨1, 3, 1001, 80⟩ 103]

theorem lists_linked_two :
    let start := initSessKeys blankNode blankTable blankNode 36 2
    ∃ state live chain free used, twoSessions.foldlM (SessKeys.step fun _ => 0) start = some state ∧
      state.Sound (fun _ => 0) live chain free used ∧
      used.length = filed live chain + start.strays (fun _ => 0) twoSessions ∧
      state.Enters (fun _ => 0) live chain used ∧ state.Deletes live chain used :=
  lists_linked blankNode blankTable blankNode (fun _ _ => by decide) (by decide) twoSessions

end Run

end Upst.SessKey
