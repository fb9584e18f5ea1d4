import Upst.HashgRun
import Upst.Timern
import Upst.Interleave
import Mathlib.Algebra.Order.BigOperators.Group.List
import Mathlib.Algebra.Order.Group.Nat

/-!
The timer wheel keeps its agenda. Between two calls, and also while a callback runs, the
linked nodes are the timers that wait, each in the bucket of its deadline, and no deadline is
a day or more ahead; so the bucket of the current second holds just the timers that are due.
-/

namespace Upst.Timern

open Word Chain Hashg Deadlines Refine Interleave

set_option autoImplicit false

variable {info : TimernInfo} {agenda : Agenda Nat TimernData} {live : List Nat}

section Invariant

def deadlineAt (hash : HashgInfo TimernKey TimernData) (p : Nat) : Int := (hash.node p).pstKey.sTimeKey

/-- The wheel whose linked nodes are `live` and whose agenda is `agenda`. -/
structure Keeps (info : TimernInfo) (agenda : Agenda Nat TimernData) (live : List Nat) : Prop where
  linked : Linked info.pstHASHGINFO live
  func : info.pstHASHGINFO.func = timernTimeoutFunc
  size : info.pstHASHGINFO.uiHashSize = N_DAY
  max : info.pstHASHGINFO.maxNodeCnt = 10 * N_DAY
  count : info.uiNodeCnt = live.length
  now : agenda.now = info.uiCurrentTime
  early : 0 ≤ info.uiCurrentTime
  late : info.uiCurrentTime + N_DAY < 2 ^ 31
  window : ∀ p ∈ live, info.uiCurrentTime ≤ deadlineAt info.pstHASHGINFO p ∧
    deadlineAt info.pstHASHGINFO p < info.uiCurrentTime + N_DAY
  pending : ∀ p, agenda.pending p =
    if p ∈ live then some (deadlineAt info.pstHASHGINFO p, (info.pstHASHGINFO.node p).pstData)
    else none

/-- The nodes that are due. -/
def dueCount (info : TimernInfo) (live : List Nat) : Nat :=
  live.countP fun p => deadlineAt info.pstHASHGINFO p = info.uiCurrentTime

/-- Within a second no timer becomes due, and a block that is in use stays so. -/
structure SameSecond (info info' : TimernInfo) (live live' : List Nat) : Prop where
  time : info'.uiCurrentTime = info.uiCurrentTime
  due : dueCount info' live' ≤ dueCount info live
  loose : ∀ q ∈ info.pstHASHGINFO.alloced, q ∉ live →
    q ∈ info'.pstHASHGINFO.alloced ∧ q ∉ live'

theorem SameSecond.refl (info : TimernInfo) (live : List Nat) : SameSecond info info live live :=
  ⟨rfl, Nat.le_refl _, fun _ inside outside => ⟨inside, outside⟩⟩

theorem SameSecond.trans {first second third : TimernInfo} {live live' live'' : List Nat}
    (before : SameSecond first second live live') (later : SameSecond second third live' live'') :
    SameSecond first third live live'' := by
  refine ⟨later.time.trans before.time, later.due.trans before.due, ?_⟩
  intro q inside outside
  obtain ⟨kept, away⟩ := before.loose q inside outside
  exact later.loose q kept away

/-- The result is a wheel that keeps the agenda its events lead to. -/
def Reaches (info : TimernInfo) (agenda : Agenda Nat TimernData) (live : List Nat)
    (result : Option (TimernInfo × List TimerEvent)) : Prop :=
  ∃ info' events live', result = some (info', events) ∧ Timely agenda events ∧
    Keeps info' (agenda.afterAll events) live' ∧ SameSecond info info' live live'

theorem timeout_in_range (key : TimernKey) : timernTimeoutFunc key < N_DAY :=
  Nat.mod_lt _ (by decide)

theorem Keeps.inRange (keeps : Keeps info agenda live) (key : TimernKey) :
    info.pstHASHGINFO.func key < info.pstHASHGINFO.uiHashSize := by
  rw [keeps.func, keeps.size]
  exact timeout_in_range key

/-- The bucket of the current second holds the nodes that are due. -/
theorem current_bucket (keeps : Keeps info agenda live) :
    info.pstHASHGINFO.bucket live (info.uiCurrentTime.toNat % N_DAY) =
      live.filter fun p => deadlineAt info.pstHASHGINFO p = info.uiCurrentTime := by
  apply List.filter_congr
  intro p member
  obtain ⟨after, before⟩ := keeps.window p member
  have early := keeps.early
  have late := keeps.late
  rw [keeps.func]
  refine decide_eq_decide.mpr ?_
  show (deadlineAt info.pstHASHGINFO p % 2 ^ 32).toNat % N_DAY = info.uiCurrentTime.toNat % N_DAY ↔
    deadlineAt info.pstHASHGINFO p = info.uiCurrentTime
  generalize deadlineAt info.pstHASHGINFO p = deadline at after before ⊢
  simp only [N_DAY] at before late ⊢
  have word : deadline % 2 ^ 32 = deadline := Int.emod_eq_of_lt (by omega) (by omega)
  rw [word]
  omega

/-- Nodes with the deadlines they had, in the second it was, are as due as they were. -/
theorem due_count_congr {info' : TimernInfo} {nodes : List Nat}
    (time : info'.uiCurrentTime = info.uiCurrentTime)
    (same : ∀ p ∈ nodes, deadlineAt info'.pstHASHGINFO p = deadlineAt info.pstHASHGINFO p) :
    dueCount info' nodes = dueCount info nodes := by
  apply List.countP_congr
  intro p member
  rw [same p member, time]

/-- A timer with a later deadline is not due. -/
theorem due_count_later {p : Nat} (later : info.uiCurrentTime < deadlineAt info.pstHASHGINFO p)
    (nodes : List Nat) : dueCount info (p :: nodes) = dueCount info nodes := by
  rw [dueCount, List.countP_cons_of_neg]
  · rfl
  · simpa using Int.ne_of_gt later

/-- `malloc` never returns a block that is in use. -/
def Fresh (malloc : List Nat → Option Nat) : Prop :=
  ∀ blocks, ∀ p ∈ malloc blocks, p ≠ 0 ∧ p ∉ blocks

/-- No deadline is later than a minute before the same second of the next day. -/
def Script.Ok (now : Int) : Script → Prop
  | .done => True
  | .add _ timeout malloc callback rest =>
      timeout ≤ now + N_DAY - ONE_MINUTE ∧ Fresh malloc ∧ callback.Ok now ∧ rest.Ok now
  | .del _ rest => rest.Ok now
  | .update _ timeout callback rest =>
      timeout ≤ now + N_DAY - ONE_MINUTE ∧ callback.Ok now ∧ rest.Ok now

/-- No timer is updated to a deadline beyond the window; one that is added there is refused. The
callback of a call counts where the call runs it. -/
def Script.Orderly (now : Int) : Script → Prop
  | .done => True
  | .add _ timeout malloc callback rest =>
      Fresh malloc ∧ (timeout ≤ now → callback.Orderly now) ∧ rest.Orderly now
  | .del _ rest => rest.Orderly now
  | .update _ timeout callback rest =>
      timeout ≤ now + N_DAY - ONE_MINUTE ∧ (timeout ≤ now → callback.Orderly now) ∧ rest.Orderly now

theorem ok_orderly {now : Int} {script : Script} (ok : script.Ok now) : script.Orderly now := by
  induction script with
  | done => trivial
  | add data timeout malloc callback rest callbackOrderly restOrderly =>
      obtain ⟨-, fresh, callbackOk, restOk⟩ := ok
      exact ⟨fresh, fun _ => callbackOrderly callbackOk, restOrderly restOk⟩
  | del timerNid rest restOrderly => exact restOrderly ok
  | update timerNid timeout callback rest callbackOrderly restOrderly =>
      obtain ⟨bound, callbackOk, restOk⟩ := ok
      exact ⟨bound, fun _ => callbackOrderly callbackOk, restOrderly restOk⟩

end Invariant

section Calls

theorem accepted_keeps (keeps : Keeps info agenda live) {p : Nat} {key : TimernKey} {timeout : Int}
    (fresh : p ∉ info.pstHASHGINFO.alloced) (positive : p ≠ 0) (room : live.length < 10 * N_DAY)
    (later : info.uiCurrentTime < timeout)
    (bound : timeout ≤ info.uiCurrentTime + N_DAY - ONE_MINUTE) (time : key.sTimeKey = timeout)
    (data : TimernData) :
    let info' := { info with
      pstHASHGINFO := added info.pstHASHGINFO p key data
      uiNodeCnt := u32 (info.uiNodeCnt + 1) }
    Keeps info' (agenda.after (.accepted p timeout data)) (p :: live) ∧
      SameSecond info info' live (p :: live) := by
  intro info'
  have loose : p ∉ live := fun member => fresh (keeps.linked.alloced p member)
  have room' : live.length + 1 < 2 ^ 32 := by
    simp only [N_DAY] at room
    omega
  have own := added_own info.pstHASHGINFO p key data
  have others : ∀ q ∈ live, deadlineAt info'.pstHASHGINFO q = deadlineAt info.pstHASHGINFO q ∧
      (info'.pstHASHGINFO.node q).pstData = (info.pstHASHGINFO.node q).pstData := by
    intro q member
    have other : q ≠ p := by
      rintro rfl
      exact loose member
    have same := @added_other _ _ info.pstHASHGINFO p key data q other
    exact ⟨congrArg TimernKey.sTimeKey same.1, same.2⟩
  have deadline : deadlineAt info'.pstHASHGINFO p = timeout :=
    (congrArg TimernKey.sTimeKey own.1).trans time
  have linked := (added_linked keeps.linked fresh positive (keeps.inRange key) room' data).2
  refine ⟨⟨linked, keeps.func, keeps.size, keeps.max, ?_, keeps.now, keeps.early, keeps.late, ?_, ?_⟩,
    rfl, ?_, ?_⟩
  · show u32 (info.uiNodeCnt + 1) = (p :: live).length
    rw [keeps.count, List.length_cons, u32_small room']
  · intro q member
    rcases List.mem_cons.mp member with rfl | old
    · rw [deadline]
      show info.uiCurrentTime ≤ timeout ∧ timeout < info.uiCurrentTime + N_DAY
      simp only [ONE_MINUTE] at bound
      omega
    · rw [(others q old).1]
      exact keeps.window q old
  · intro q
    by_cases same : q = p
    · rw [same, if_pos List.mem_cons_self, deadline, own.2]
      exact Function.update_self ..
    · have before := keeps.pending q
      have after : (agenda.after (.accepted p timeout data)).pending q = agenda.pending q :=
        Function.update_of_ne same ..
      rw [after, before]
      by_cases member : q ∈ live
      · rw [if_pos member, if_pos (List.mem_cons_of_mem _ member), (others q member).1,
          (others q member).2]
      · rw [if_neg member, if_neg fun inside => (List.mem_cons.mp inside).elim same member]
  · have kept : dueCount info' live = dueCount info live :=
      due_count_congr rfl fun q member => (others q member).1
    rw [due_count_later (by rw [deadline]; exact later), kept]
  · intro q inside outside
    refine ⟨List.mem_cons_of_mem _ inside, ?_⟩
    intro member
    rcases List.mem_cons.mp member with rfl | old
    · exact fresh inside
    · exact outside old

/-- A timer that does not run at once is added to the table of the wheel. -/
theorem add_asks (keeps : Keeps info agenda live) {timeout : Int}
    (later : info.uiCurrentTime < timeout)
    (bound : timeout ≤ info.uiCurrentTime + N_DAY - ONE_MINUTE) (data : TimernData)
    (malloc : List Nat → Option Nat) (invoke : TimernInfo → Option (TimernInfo × List TimerEvent)) :
    timernAdd info data timeout malloc invoke = (do
      let (p, hash) ← hashgAdd info.pstHASHGINFO ⟨u32 (info.uiTimerNIdIndex + 1), s32 timeout⟩ data
        (malloc info.pstHASHGINFO.alloced)
      let info := { info with uiTimerNIdIndex := u32 (info.uiTimerNIdIndex + 1) }
      match p with
      | none => some (none, { info with pstHASHGINFO := hash }, [.refused data])
      | some p =>
          some (some ⟨info.uiTimerNIdIndex, s32 timeout⟩,
            { info with pstHASHGINFO := hash, uiNodeCnt := u32 (info.uiNodeCnt + 1) },
            [.accepted p timeout data])) := by
  have latest : TimernInfo.latest { info with uiTimerNIdIndex := u32 (info.uiTimerNIdIndex + 1) } =
      some (info.uiCurrentTime + N_DAY - ONE_MINUTE) := if_pos keeps.late
  rw [timernAdd, if_neg (Int.not_le.mpr later)]
  dsimp only
  rw [latest]
  simp only [Option.bind_eq_bind, Option.bind_some]
  exact if_pos bound

/-- Beyond the window a timer is refused. -/
theorem add_beyond (keeps : Keeps info agenda live) {timeout : Int}
    (beyond : info.uiCurrentTime + N_DAY - ONE_MINUTE < timeout) (data : TimernData)
    (malloc : List Nat → Option Nat) (invoke : TimernInfo → Option (TimernInfo × List TimerEvent)) :
    timernAdd info data timeout malloc invoke =
      some (none, { info with uiTimerNIdIndex := u32 (info.uiTimerNIdIndex + 1) },
        [.refused data]) := by
  have latest : TimernInfo.latest { info with uiTimerNIdIndex := u32 (info.uiTimerNIdIndex + 1) } =
      some (info.uiCurrentTime + N_DAY - ONE_MINUTE) := if_pos keeps.late
  have later : ¬timeout ≤ info.uiCurrentTime := by
    simp only [N_DAY, ONE_MINUTE] at beyond
    omega
  rw [timernAdd, if_neg later]
  dsimp only
  rw [latest]
  simp only [Option.bind_eq_bind, Option.bind_some]
  exact if_neg (Int.not_le.mpr beyond)

theorem add_reaches (keeps : Keeps info agenda live) {data : TimernData} {timeout : Int}
    {malloc : List Nat → Option Nat} {invoke : TimernInfo → Option (TimernInfo × List TimerEvent)}
    (fresh : Fresh malloc)
    (callback : timeout ≤ info.uiCurrentTime → Reaches info agenda live (invoke info)) :
    Reaches info agenda live ((timernAdd info data timeout malloc invoke).map Prod.snd) := by
  by_cases passed : timeout ≤ info.uiCurrentTime
  · obtain ⟨info', events, live', ran, timely, after, same⟩ := callback passed
    refine ⟨info', .ranAtOnce timeout data :: events, live', ?_, ⟨?_, timely⟩, after, same⟩
    · rw [timernAdd, if_pos passed, ran]
      rfl
    · show timeout ≤ agenda.now
      rw [keeps.now]
      exact passed
  · let counted := { info with uiTimerNIdIndex := u32 (info.uiTimerNIdIndex + 1) }
    let key : TimernKey := ⟨u32 (info.uiTimerNIdIndex + 1), s32 timeout⟩
    have keeps' : Keeps counted agenda live := ⟨keeps.linked, keeps.func, keeps.size, keeps.max,
      keeps.count, keeps.now, keeps.early, keeps.late, keeps.window, keeps.pending⟩
    have later : info.uiCurrentTime < timeout := Int.lt_of_not_ge passed
    by_cases beyond : info.uiCurrentTime + N_DAY - ONE_MINUTE < timeout
    · rw [add_beyond keeps beyond]
      exact ⟨counted, [.refused data], live, rfl, ⟨trivial, trivial⟩, keeps', rfl, Nat.le_refl _,
        fun _ inside outside => ⟨inside, outside⟩⟩
    have bound : timeout ≤ info.uiCurrentTime + N_DAY - ONE_MINUTE := Int.not_lt.mp beyond
    rw [add_asks keeps later bound]
    have word : info.pstHASHGINFO.maxNodeCnt < 2 ^ 32 := by
      rw [keeps.max]
      decide
    rcases add_cases keeps.linked (keeps.inRange key) word data (fresh _) with
      refused | ⟨p, given, room, adds⟩
    · rw [refused]
      exact ⟨counted, [.refused data], live, rfl, ⟨trivial, trivial⟩, keeps', rfl, Nat.le_refl _,
        fun _ inside outside => ⟨inside, outside⟩⟩
    · obtain ⟨positive, unused⟩ := fresh _ p given
      rw [adds]
      rw [keeps.max] at room
      have small : key.sTimeKey = timeout := by
        have early := keeps.early
        have late := keeps.late
        simp only [ONE_MINUTE] at bound
        exact s32_small (by omega) (by omega)
      obtain ⟨after, same⟩ := accepted_keeps keeps' unused positive room later bound small data
      refine ⟨_, [.accepted p timeout data], p :: live, rfl, ⟨⟨?_, ?_⟩, trivial⟩, after,
        same.time, same.due, same.loose⟩
      · rw [keeps.pending p, if_neg fun member => unused (keeps.linked.alloced p member)]
      · rw [keeps.now]
        exact later

theorem removed_keeps (keeps : Keeps info agenda live) {p : Nat} (member : p ∈ live)
    {hash : HashgInfo TimernKey TimernData} (linked : Linked hash (live.erase p))
    (func : hash.func = info.pstHASHGINFO.func)
    (size : hash.uiHashSize = info.pstHASHGINFO.uiHashSize)
    (max : hash.maxNodeCnt = info.pstHASHGINFO.maxNodeCnt)
    (content : ∀ q ∈ live.erase p, deadlineAt hash q = deadlineAt info.pstHASHGINFO q ∧
      (hash.node q).pstData = (info.pstHASHGINFO.node q).pstData) :
    Keeps { info with pstHASHGINFO := hash, uiNodeCnt := u32Pred info.uiNodeCnt } (agenda.drop p)
      (live.erase p) := by
  refine ⟨linked, func.trans keeps.func, size.trans keeps.size, max.trans keeps.max, ?_, keeps.now,
    keeps.early, keeps.late, ?_, ?_⟩
  · show u32Pred info.uiNodeCnt = (live.erase p).length
    rw [keeps.count, List.length_erase_of_mem member,
      u32_pred_pos (List.length_pos_of_mem member)]
  · intro q inside
    show info.uiCurrentTime ≤ deadlineAt hash q ∧ deadlineAt hash q < info.uiCurrentTime + N_DAY
    rw [(content q inside).1]
    exact keeps.window q (List.mem_of_mem_erase inside)
  · intro q
    show Function.update agenda.pending p none q =
      if q ∈ live.erase p then some (deadlineAt hash q, (hash.node q).pstData) else none
    by_cases same : q = p
    · rw [same, Function.update_self,
        if_neg fun inside => (keeps.linked.distinct.mem_erase_iff.mp inside).1 rfl]
    · rw [Function.update_of_ne same, keeps.pending q]
      by_cases inside : q ∈ live
      · have kept : q ∈ live.erase p := (List.mem_erase_of_ne same).mpr inside
        rw [if_pos inside, if_pos kept, (content q kept).1, (content q kept).2]
      · rw [if_neg inside, if_neg fun kept => inside (List.mem_of_mem_erase kept)]

theorem pending_live (keeps : Keeps info agenda live) {p : Nat} (member : p ∈ live) :
    agenda.pending p =
      some (deadlineAt info.pstHASHGINFO p, (info.pstHASHGINFO.node p).pstData) := by
  rw [keeps.pending p, if_pos member]

theorem due_count_erase (info : TimernInfo) (live : List Nat) (p : Nat) :
    dueCount info (live.erase p) ≤ dueCount info live :=
  List.erase_sublist.countP_le

theorem del_reaches (keeps : Keeps info agenda live) (timerNid : TimernKey) :
    Reaches info agenda live (timernDel info timerNid) := by
  have search := find_spec keeps.linked (keeps.inRange timerNid)
  cases found : live.find? fun p => (info.pstHASHGINFO.node p).pstKey = timerNid with
  | none =>
      refine ⟨info, [], live, ?_, trivial, keeps, SameSecond.refl info live⟩
      rw [timernDel, search, found]
      rfl
  | some p =>
      have member := List.mem_of_find?_eq_some found
      obtain ⟨deletes, linked⟩ := deleted_linked keeps.linked member
      have after := removed_keeps keeps member linked rfl rfl rfl fun _ _ => ⟨rfl, rfl⟩
      refine ⟨_, [.deleted p], live.erase p, ?_, ⟨?_, trivial⟩, after, rfl, ?_, ?_⟩
      · rw [timernDel, search, found]
        simp only [Option.bind_eq_bind, Option.bind_some, deletes]
      · show agenda.pending p ≠ none
        rw [pending_live keeps member]
        exact Option.some_ne_none _
      · exact due_count_erase info live p
      · intro q inside outside
        have other : q ≠ p := by
          rintro rfl
          exact outside member
        exact ⟨(List.mem_erase_of_ne other).mpr inside, fun kept =>
          outside (List.mem_of_mem_erase kept)⟩

/-- A node taken out of the wheel stays allocated until its callback is done. -/
theorem run_node {invoke : TimernInfo → Option (TimernInfo × List TimerEvent)} {p : Nat}
    {hash : HashgInfo TimernKey TimernData}
    (unlink : hashgUnlinkNode info.pstHASHGINFO p = some hash) (inUse : p ∈ hash.alloced)
    (loose : p ∉ live)
    (callback : Reaches { info with pstHASHGINFO := hash, uiNodeCnt := u32Pred info.uiNodeCnt }
      agenda live
      (invoke { info with pstHASHGINFO := hash, uiNodeCnt := u32Pred info.uiNodeCnt })) :
    ∃ info' events live', info.runNode p invoke = some (info', events) ∧ Timely agenda events ∧
      Keeps info' (agenda.afterAll events) live' ∧ info'.uiCurrentTime = info.uiCurrentTime ∧
      dueCount info' live' ≤ dueCount { info with pstHASHGINFO := hash } live ∧
      ∀ q ∈ hash.alloced, q ≠ p → q ∉ live → q ∈ info'.pstHASHGINFO.alloced ∧ q ∉ live' := by
  obtain ⟨ran, events, live', result, timely, keeps, same⟩ := callback
  obtain ⟨still, away⟩ := same.loose p inUse loose
  have freed : ran.pstHASHGINFO.free p =
      some { ran.pstHASHGINFO with alloced := ran.pstHASHGINFO.alloced.erase p } := if_pos still
  refine ⟨{ ran with
    pstHASHGINFO := { ran.pstHASHGINFO with alloced := ran.pstHASHGINFO.alloced.erase p } },
    events, live', ?_, timely, ?_, same.time, same.due, ?_⟩
  · rw [TimernInfo.runNode, unlink]
    simp only [Option.bind_eq_bind, Option.bind_some, result, freed]
  · exact ⟨free_linked keeps.linked away, keeps.func, keeps.size, keeps.max, keeps.count, keeps.now,
      keeps.early, keeps.late, keeps.window, keeps.pending⟩
  · intro q inside other outside
    obtain ⟨kept, out⟩ := same.loose q inside outside
    exact ⟨(List.mem_erase_of_ne other).mpr kept, out⟩

theorem moved_keeps (keeps : Keeps info agenda live) {p : Nat} (member : p ∈ live)
    {key : TimernKey} {timeout : Int} (later : info.uiCurrentTime < timeout)
    (bound : timeout ≤ info.uiCurrentTime + N_DAY - ONE_MINUTE) (time : key.sTimeKey = timeout) :
    let info' := { info with pstHASHGINFO := rekeyed info.pstHASHGINFO p key }
    Keeps info' (agenda.after (.moved p timeout)) (p :: live.erase p) ∧
      SameSecond info info' live (p :: live.erase p) := by
  intro info'
  have own := rekeyed_own info.pstHASHGINFO p key
  have linked := (rekeyed_linked keeps.linked member (keeps.inRange key)).2
  have whole : (p :: live.erase p).Perm live := (List.perm_cons_erase member).symm
  have others : ∀ q, q ≠ p → deadlineAt info'.pstHASHGINFO q = deadlineAt info.pstHASHGINFO q ∧
      (info'.pstHASHGINFO.node q).pstData = (info.pstHASHGINFO.node q).pstData := by
    intro q other
    have same := @rekeyed_other _ _ info.pstHASHGINFO p key q other
    exact ⟨congrArg TimernKey.sTimeKey same.1, same.2⟩
  have deadline : deadlineAt info'.pstHASHGINFO p = timeout :=
    (congrArg TimernKey.sTimeKey own.1).trans time
  have apart : ∀ q ∈ live.erase p, q ≠ p := fun q inside =>
    (keeps.linked.distinct.mem_erase_iff.mp inside).1
  refine ⟨⟨linked, keeps.func, keeps.size, keeps.max, ?_, keeps.now, keeps.early, keeps.late, ?_, ?_⟩,
    rfl, ?_, ?_⟩
  · rw [whole.length_eq]
    exact keeps.count
  · intro q inside
    rcases List.mem_cons.mp inside with rfl | old
    · rw [deadline]
      show info.uiCurrentTime ≤ timeout ∧ timeout < info.uiCurrentTime + N_DAY
      simp only [ONE_MINUTE] at bound
      omega
    · rw [(others q (apart q old)).1]
      exact keeps.window q (List.mem_of_mem_erase old)
  · intro q
    by_cases same : q = p
    · rw [same, if_pos List.mem_cons_self, deadline, own.2]
      show Function.update agenda.pending p _ p = _
      rw [Function.update_self, pending_live keeps member]
      rfl
    · have before := keeps.pending q
      have after : (agenda.after (.moved p timeout)).pending q = agenda.pending q :=
        Function.update_of_ne same ..
      rw [after, before, (others q same).1, (others q same).2]
      simp only [whole.mem_iff]
  · have kept : dueCount info' (live.erase p) = dueCount info (live.erase p) :=
      due_count_congr rfl fun q inside => (others q (apart q inside)).1
    rw [due_count_later (by rw [deadline]; exact later), kept]
    exact due_count_erase info live p
  · intro q inside outside
    exact ⟨inside, fun kept => outside (whole.mem_iff.mp kept)⟩

/-- A timer whose deadline has passed is run as a node of the wheel, under its new key. -/
theorem update_late (keeps : Keeps info agenda live) {timerNid : TimernKey} {timeout : Int} {p : Nat}
    (found : (live.find? fun p => (info.pstHASHGINFO.node p).pstKey = timerNid) = some p)
    (passed : timeout ≤ info.uiCurrentTime)
    (invoke : TimernInfo → Option (TimernInfo × List TimerEvent)) :
    timernUpdate info timerNid timeout invoke =
      (TimernInfo.runNode { info with
        pstHASHGINFO := keyed info.pstHASHGINFO p { timerNid with sTimeKey := s32 timeout } } p
          invoke).map fun ran =>
            (none, ran.1, .ranLate p timeout (info.pstHASHGINFO.node p).pstData :: ran.2) := by
  obtain ⟨setKey, -, -⟩ := keyed_unlinked keeps.linked (List.mem_of_find?_eq_some found)
    { timerNid with sTimeKey := s32 timeout }
  rw [timernUpdate, find_spec keeps.linked (keeps.inRange timerNid), found]
  simp only [Option.bind_eq_bind, Option.bind_some, setKey, if_pos passed]
  cases TimernInfo.runNode { info with
    pstHASHGINFO := keyed info.pstHASHGINFO p { timerNid with sTimeKey := s32 timeout } } p invoke with
  | none => rfl
  | some ran => rfl

/-- A timer whose deadline lies ahead is linked again under its new key. -/
theorem update_moved (keeps : Keeps info agenda live) {timerNid : TimernKey} {timeout : Int} {p : Nat}
    (found : (live.find? fun p => (info.pstHASHGINFO.node p).pstKey = timerNid) = some p)
    (later : info.uiCurrentTime < timeout)
    (bound : timeout ≤ info.uiCurrentTime + N_DAY - ONE_MINUTE)
    (invoke : TimernInfo → Option (TimernInfo × List TimerEvent)) :
    timernUpdate info timerNid timeout invoke =
      some (some { timerNid with sTimeKey := s32 timeout },
        { info with
          pstHASHGINFO := rekeyed info.pstHASHGINFO p { timerNid with sTimeKey := s32 timeout } },
        [.moved p timeout]) := by
  let key : TimernKey := { timerNid with sTimeKey := s32 timeout }
  have member := List.mem_of_find?_eq_some found
  obtain ⟨setKey, unlink, -⟩ := keyed_unlinked keeps.linked member key
  obtain ⟨links, -⟩ := rekeyed_linked keeps.linked member (keeps.inRange key)
  have latest : TimernInfo.latest { info with
      pstHASHGINFO := keyed info.pstHASHGINFO p key } =
        some (info.uiCurrentTime + N_DAY - ONE_MINUTE) := if_pos keeps.late
  rw [timernUpdate, find_spec keeps.linked (keeps.inRange timerNid), found]
  simp only [Option.bind_eq_bind, Option.bind_some]
  rw [setKey]
  simp only [Option.bind_some]
  rw [if_neg (Int.not_le.mpr later), latest]
  simp only [Option.bind_some]
  rw [if_pos bound, unlink]
  simp only [Option.bind_some]
  rw [links]
  rfl

/-- A node that is taken out of the wheel under another key leaves the others as they are. -/
theorem keyed_removed (keeps : Keeps info agenda live) {p : Nat} (member : p ∈ live)
    (key : TimernKey) :
    hashgUnlinkNode (keyed info.pstHASHGINFO p key) p =
        some (unlinked (keyed info.pstHASHGINFO p key) p) ∧
      (∀ q ∈ live.erase p, deadlineAt (unlinked (keyed info.pstHASHGINFO p key) p) q =
        deadlineAt info.pstHASHGINFO q) ∧
      Keeps { info with
        pstHASHGINFO := unlinked (keyed info.pstHASHGINFO p key) p
        uiNodeCnt := u32Pred info.uiNodeCnt } (agenda.drop p) (live.erase p) := by
  obtain ⟨-, unlink, linked⟩ := keyed_unlinked keeps.linked member key
  have other : ∀ q ∈ live.erase p,
      (keyed info.pstHASHGINFO p key).node q = info.pstHASHGINFO.node q := by
    intro q inside
    exact Function.update_of_ne (keeps.linked.distinct.mem_erase_iff.mp inside).1 ..
  have deadlines : ∀ q ∈ live.erase p, deadlineAt (unlinked (keyed info.pstHASHGINFO p key) p) q =
      deadlineAt info.pstHASHGINFO q := fun q inside =>
    congrArg (fun node => node.pstKey.sTimeKey) (other q inside)
  refine ⟨unlink, deadlines, removed_keeps keeps member linked rfl rfl rfl ?_⟩
  intro q inside
  exact ⟨deadlines q inside, congrArg (fun node => node.pstData) (other q inside)⟩

theorem update_reaches (keeps : Keeps info agenda live) (timerNid : TimernKey) {timeout : Int}
    {invoke : TimernInfo → Option (TimernInfo × List TimerEvent)}
    (bound : timeout ≤ info.uiCurrentTime + N_DAY - ONE_MINUTE)
    (callback : timeout ≤ info.uiCurrentTime → ∀ info' agenda' live', Keeps info' agenda' live' →
      info'.uiCurrentTime = info.uiCurrentTime → Reaches info' agenda' live' (invoke info')) :
    Reaches info agenda live ((timernUpdate info timerNid timeout invoke).map Prod.snd) := by
  cases found : live.find? fun p => (info.pstHASHGINFO.node p).pstKey = timerNid with
  | none =>
      refine ⟨info, [], live, ?_, trivial, keeps, SameSecond.refl info live⟩
      rw [timernUpdate, find_spec keeps.linked (keeps.inRange timerNid), found]
      rfl
  | some p =>
      have member := List.mem_of_find?_eq_some found
      let key : TimernKey := { timerNid with sTimeKey := s32 timeout }
      have waits := pending_live keeps member
      have gone : p ∉ live.erase p := fun inside =>
        (keeps.linked.distinct.mem_erase_iff.mp inside).1 rfl
      by_cases passed : timeout ≤ info.uiCurrentTime
      · obtain ⟨unlink, deadlines, after⟩ := keyed_removed keeps member key
        have node := @run_node { info with pstHASHGINFO := keyed info.pstHASHGINFO p key } _ _ invoke p _
          unlink (keeps.linked.alloced p member) gone (callback passed _ _ _ after rfl)
        obtain ⟨info', events, live', ran, timely, kept, time, due, loose⟩ := node
        refine ⟨info', .ranLate p timeout (info.pstHASHGINFO.node p).pstData :: events, live', ?_,
          ⟨⟨?_, ?_⟩, timely⟩, kept, time, ?_, ?_⟩
        · rw [update_late keeps found passed, ran]
          rfl
        · rw [waits]
          rfl
        · rw [keeps.now]
          exact passed
        · refine due.trans ?_
          have same : dueCount { info with
              pstHASHGINFO := unlinked (keyed info.pstHASHGINFO p key) p } (live.erase p) =
                dueCount info (live.erase p) := due_count_congr rfl deadlines
          rw [same]
          exact due_count_erase info live p
        · intro q inside outside
          have apart : q ≠ p := by
            rintro rfl
            exact outside member
          exact loose q inside apart fun kept => outside (List.mem_of_mem_erase kept)
      · have later : info.uiCurrentTime < timeout := Int.lt_of_not_ge passed
        have small : key.sTimeKey = timeout := by
          have early := keeps.early
          have late := keeps.late
          simp only [ONE_MINUTE] at bound
          exact s32_small (by omega) (by omega)
        obtain ⟨after, same⟩ := moved_keeps keeps member later bound small
        refine ⟨_, [.moved p timeout], p :: live.erase p, ?_, ⟨⟨?_, ?_⟩, trivial⟩, after, same⟩
        · rw [update_moved keeps found later bound]
          rfl
        · rw [waits]
          exact Option.some_ne_none _
        · rw [keeps.now]
          exact later

/-- One call after the other. -/
theorem reaches_then {first : Option (TimernInfo × List TimerEvent)}
    {next : TimernInfo → Option (TimernInfo × List TimerEvent)} (before : Reaches info agenda live first)
    (later : ∀ info' agenda' live', Keeps info' agenda' live' →
      info'.uiCurrentTime = info.uiCurrentTime → Reaches info' agenda' live' (next info')) :
    Reaches info agenda live (do
      let (info, events) ← first
      let (info, later) ← next info
      some (info, events ++ later)) := by
  obtain ⟨info₁, events₁, live₁, ran₁, timely₁, keeps₁, same₁⟩ := before
  obtain ⟨info₂, events₂, live₂, ran₂, timely₂, keeps₂, same₂⟩ := later _ _ _ keeps₁ same₁.time
  refine ⟨info₂, events₁ ++ events₂, live₂, ?_, timely_append timely₁ timely₂, ?_, same₁.trans same₂⟩
  · rw [ran₁]
    simp only [Option.bind_eq_bind, Option.bind_some, ran₂]
  · rw [after_all_append]
    exact keeps₂

theorem script_reaches (script : Script) : ∀ {info : TimernInfo} {agenda : Agenda Nat TimernData}
    {live : List Nat}, Keeps info agenda live → script.Orderly info.uiCurrentTime →
      Reaches info agenda live (runScript script info) := by
  induction script with
  | done =>
      intro info agenda live keeps _
      exact ⟨info, [], live, rfl, trivial, keeps, SameSecond.refl info live⟩
  | add data timeout malloc callback rest callbackReaches restReaches =>
      intro info agenda live keeps ok
      obtain ⟨fresh, callbackOk, restOk⟩ := ok
      have call := @add_reaches _ _ _ keeps data timeout malloc _ fresh
        fun passed => callbackReaches keeps (callbackOk passed)
      have both := reaches_then call fun info' agenda' live' keeps' time =>
        @restReaches info' agenda' live' keeps' (by rw [time]; exact restOk)
      rw [runScript]
      cases result : timernAdd info data timeout malloc (runScript callback) with
      | none =>
          rw [result] at both
          exact both
      | some triple =>
          rw [result] at both
          exact both
  | del timerNid rest restReaches =>
      intro info agenda live keeps ok
      exact reaches_then (del_reaches keeps timerNid) fun info' agenda' live' keeps' time =>
        @restReaches info' agenda' live' keeps' (by rw [time]; exact ok)
  | update timerNid timeout callback rest callbackReaches restReaches =>
      intro info agenda live keeps ok
      obtain ⟨bound, callbackOk, restOk⟩ := ok
      have call := update_reaches keeps timerNid bound fun passed info' agenda' live' keeps' time =>
        @callbackReaches info' agenda' live' keeps' (by rw [time]; exact callbackOk passed)
      have both := reaches_then call fun info' agenda' live' keeps' time =>
        @restReaches info' agenda' live' keeps' (by rw [time]; exact restOk)
      rw [runScript]
      cases result : timernUpdate info timerNid timeout (runScript callback) with
      | none =>
          rw [result] at both
          exact both
      | some triple =>
          rw [result] at both
          exact both

end Calls

section Seconds

theorem current_head (keeps : Keeps info agenda live) :
    ∃ p, info.currentHead = some p ∧ (p = 0 → dueCount info live = 0) ∧
      (p ≠ 0 → p ∈ live ∧ deadlineAt info.pstHASHGINFO p = info.uiCurrentTime) := by
  have inside : info.uiCurrentTime.toNat % N_DAY < info.pstHASHGINFO.uiHashSize := by
    rw [keeps.size]
    exact Nat.mod_lt _ (by decide)
  refine ⟨_, if_pos keeps.early, ?_, ?_⟩
  · intro empty
    have chain := keeps.linked.chains _ inside
    rw [empty, current_bucket keeps] at chain
    have nobody := chained_head chain
    rw [pointed_zero, eq_comm, List.head?_eq_none_iff, List.filter_eq_nil_iff] at nobody
    exact List.countP_eq_zero.mpr nobody
  · intro filled
    have first := first_linked keeps.linked inside filled
    rw [current_bucket keeps, List.mem_filter] at first
    exact ⟨first.1, by simpa using first.2⟩

theorem due_count_remove (info : TimernInfo) {p : Nat} (member : p ∈ live)
    (due : deadlineAt info.pstHASHGINFO p = info.uiCurrentTime) :
    dueCount info live = dueCount info (live.erase p) + 1 := by
  rw [dueCount, (List.perm_cons_erase member).countP_eq, List.countP_cons_of_pos]
  · rfl
  · simpa using due

/-- The inner loop ends, with no timer left that is due. -/
theorem bucket_reaches {callbacks : Nat → Script} {now : Int} (ok : ∀ turn, (callbacks turn).Orderly now)
    (fuel : Nat) : ∀ {info : TimernInfo} {agenda : Agenda Nat TimernData} {live : List Nat} (turn : Nat),
      Keeps info agenda live → info.uiCurrentTime = now → dueCount info live < fuel →
      ∃ info' events live', invokeBucket callbacks fuel turn info = some (info', events) ∧
        Timely agenda events ∧ Keeps info' (agenda.afterAll events) live' ∧
        info'.uiCurrentTime = now ∧ dueCount info' live' = 0 := by
  induction fuel with
  | zero =>
      intro info agenda live turn _ _ enough
      omega
  | succ fuel ih =>
      intro info agenda live turn keeps time enough
      obtain ⟨p, head, empty, filled⟩ := current_head keeps
      rw [invokeBucket, head]
      simp only [Option.bind_eq_bind, Option.bind_some]
      by_cases nobody : p = 0
      · rw [if_pos nobody]
        exact ⟨info, [], live, rfl, trivial, keeps, time, empty nobody⟩
      · rw [if_neg nobody]
        obtain ⟨member, due⟩ := filled nobody
        obtain ⟨unlink, linked⟩ := unlink_stores keeps.linked member
        have gone : p ∉ live.erase p := fun inside =>
          (keeps.linked.distinct.mem_erase_iff.mp inside).1 rfl
        have after := removed_keeps keeps member linked rfl rfl rfl fun _ _ => ⟨rfl, rfl⟩
        have callback := script_reaches (callbacks turn) after (by rw [← time] at ok; exact ok turn)
        obtain ⟨info₁, events₁, live₁, ran₁, timely₁, keeps₁, time₁, due₁, -⟩ :=
          run_node unlink (keeps.linked.alloced p member) gone callback
        have fewer : dueCount info₁ live₁ < fuel := by
          have counted := due_count_remove info member due
          have rest : dueCount { info with pstHASHGINFO := unlinked info.pstHASHGINFO p }
              (live.erase p) = dueCount info (live.erase p) := rfl
          rw [rest] at due₁
          omega
        obtain ⟨info₂, events₂, live₂, ran₂, timely₂, keeps₂, time₂, due₂⟩ :=
          ih (turn + 1) keeps₁ (time₁.trans time) fewer
        rw [ran₁]
        simp only [Option.bind_some, ran₂]
        refine ⟨info₂, _, live₂, rfl, ⟨?_, timely_append timely₁ timely₂⟩, ?_, time₂, due₂⟩
        · show agenda.pending p = _
          rw [pending_live keeps member, due, keeps.now]
        · show Keeps info₂ ((agenda.drop p).afterAll (events₁ ++ events₂)) live₂
          rw [after_all_append]
          exact keeps₂

theorem second_keeps (keeps : Keeps info agenda live) (nobody : dueCount info live = 0)
    (late : info.uiCurrentTime + 1 + N_DAY < 2 ^ 31) :
    agenda.Allows .second ∧
      Keeps { info with uiCurrentTime := info.uiCurrentTime + 1 } (agenda.after .second) live := by
  have notDue : ∀ p ∈ live, info.uiCurrentTime < deadlineAt info.pstHASHGINFO p := by
    intro p member
    have apart := List.countP_eq_zero.mp nobody p member
    have window := (keeps.window p member).1
    simp only [decide_eq_true_eq] at apart
    omega
  constructor
  · intro p deadline data waiting
    rw [keeps.pending p] at waiting
    split at waiting
    next member =>
      obtain ⟨rfl, -⟩ := Prod.mk.inj (Option.some.inj waiting)
      rw [keeps.now]
      exact notDue p member
    next => cases waiting
  · have early := keeps.early
    refine ⟨keeps.linked, keeps.func, keeps.size, keeps.max, keeps.count, ?_, ?_, late, ?_,
      keeps.pending⟩
    · exact congrArg (· + 1) keeps.now
    · show 0 ≤ info.uiCurrentTime + 1
      omega
    · intro p member
      have after := notDue p member
      have before := (keeps.window p member).2
      show info.uiCurrentTime + 1 ≤ deadlineAt info.pstHASHGINFO p ∧
        deadlineAt info.pstHASHGINFO p < info.uiCurrentTime + 1 + N_DAY
      omega

/-- The outer loop goes on from second to second, also over more than a day. -/
theorem seconds_reaches {callbacks : Int → Nat → Script}
    (ok : ∀ time turn, (callbacks time turn).Orderly time) {tt : Nat} (late : tt + 1 + N_DAY < 2 ^ 31)
    (fuel : Nat) : ∀ {info : TimernInfo} {agenda : Agenda Nat TimernData} {live : List Nat},
      Keeps info agenda live → (tt + 1 - info.uiCurrentTime).toNat < fuel →
      ∃ info' events live', invokeSeconds callbacks tt fuel info = some (info', events) ∧
        Timely agenda events ∧ AllDue tt agenda events ∧
        Keeps info' (agenda.afterAll events) live' ∧ (tt : Int) < info'.uiCurrentTime := by
  induction fuel with
  | zero =>
      intro info agenda live _ enough
      exact absurd enough (Nat.not_lt_zero _)
  | succ fuel ih =>
      intro info agenda live keeps enough
      have early := keeps.early
      have word : (info.uiCurrentTime % 2 ^ 32).toNat = info.uiCurrentTime.toNat := by
        have keepsLate := keeps.late
        rw [Int.emod_eq_of_lt early (by omega)]
      rw [invokeSeconds, word]
      by_cases more : info.uiCurrentTime.toNat ≤ tt
      · rw [if_pos more]
        have enoughTurns : dueCount info live < info.pstHASHGINFO.uiLinkedCnt + 1 := by
          rw [keeps.linked.count]
          exact Nat.lt_succ_of_le List.countP_le_length
        obtain ⟨info₁, events₁, live₁, ran₁, timely₁, keeps₁, time₁, due₁⟩ :=
          bucket_reaches (ok info.uiCurrentTime) _ 0 keeps rfl enoughTurns
        have lateEnough : info₁.uiCurrentTime + 1 + N_DAY < 2 ^ 31 := by
          rw [time₁]
          omega
        obtain ⟨allowed, keeps₂⟩ := second_keeps keeps₁ due₁ lateEnough
        obtain ⟨info₃, events₃, live₃, ran₃, timely₃, due₃, keeps₃, done⟩ := ih keeps₂ (by
          show (tt + 1 - (info₁.uiCurrentTime + 1)).toNat < fuel
          rw [time₁]
          omega)
        rw [ran₁]
        simp only [Option.bind_eq_bind, Option.bind_some]
        rw [if_pos (by omega), ran₃]
        have reached : (agenda.afterAll events₁).now ≤ tt := by
          rw [keeps₁.now, time₁]
          omega
        refine ⟨info₃, _, live₃, rfl, timely_append timely₁ ⟨allowed, timely₃⟩,
          all_due_append (timely_due timely₁ reached) ⟨trivial, due₃⟩, ?_, done⟩
        rw [after_all_append]
        exact keeps₃
      · rw [if_neg more]
        exact ⟨info, [], live, rfl, trivial, trivial, keeps, by omega⟩

theorem invoke_reaches (keeps : Keeps info agenda live) {callbacks : Int → Nat → Script}
    (ok : ∀ time turn, (callbacks time turn).Orderly time) {clock : Int} (early : 0 ≤ clock)
    (late : clock + 1 + N_DAY < 2 ^ 31) :
    ∃ info' events live', timernInvoke clock callbacks info = some (info', events) ∧
      Timely agenda events ∧ AllDue clock agenda events ∧
      Keeps info' (agenda.afterAll events) live' ∧ clock < info'.uiCurrentTime := by
  have now := keeps.early
  have word : (clock % 2 ^ 32).toNat = clock.toNat := by
    rw [Int.emod_eq_of_lt early (by omega)]
  obtain ⟨info', events, live', ran, timely, due, kept, done⟩ :=
    @seconds_reaches _ ok clock.toNat (by omega) (clock.toNat + 2) _ _ _ keeps (by omega)
  rw [Int.toNat_of_nonneg early] at due
  refine ⟨info', events, live', ?_, timely, due, kept, by omega⟩
  rw [timernInvoke, word]
  exact ran

end Seconds

section Runs

theorem init_keeps {clock : Int} (early : 0 ≤ clock) (late : clock + N_DAY < 2 ^ 31)
    (heap : Nat → HashgNode TimernKey TimernData) :
    Keeps (timernInit clock heap) (start clock) [] := by
  have small : s32 clock = clock := s32_small (by omega) (by omega)
  have max : u32 (N_DAY * 10) = 10 * N_DAY := by decide
  refine ⟨init_linked timernTimeoutFunc N_DAY (u32 (N_DAY * 10)) heap, rfl, rfl, max, rfl, small.symm,
    ?_, ?_, ?_, ?_⟩
  · show 0 ≤ s32 clock
    rw [small]
    exact early
  · show s32 clock + N_DAY < 2 ^ 31
    rw [small]
    exact late
  · exact fun p member => absurd member List.not_mem_nil
  · exact fun p => rfl

/-- The deadlines are in the window of the second they are given in, and the clock of `int` is
more than a day away from its end. -/
def Call.Ok (now : Int) : Call → Prop
  | .script calls => calls.Ok now
  | .invoke clock callbacks =>
      0 ≤ clock ∧ clock + 1 + N_DAY < 2 ^ 31 ∧ ∀ time turn, (callbacks time turn).Ok time

theorem step_reaches {info : TimernInfo} {agenda : Agenda Nat TimernData} {live : List Nat}
    (keeps : Keeps info agenda live) {call : Call} (ok : call.Ok info.uiCurrentTime) :
    ∃ events info' live', info.step call = some (events, info') ∧ Timely agenda events ∧
      Keeps info' (agenda.afterAll events) live' ∧
      ∀ clock callbacks, call = .invoke clock callbacks → clock < info'.uiCurrentTime := by
  cases call with
  | script calls =>
      obtain ⟨info', events, live', ran, timely, kept, -⟩ :=
        script_reaches calls keeps (ok_orderly ok)
      refine ⟨events, info', live', ?_, timely, kept, by simp⟩
      rw [TimernInfo.step, ran]
      rfl
  | invoke clock callbacks =>
      obtain ⟨early, late, callbacksOk⟩ := ok
      obtain ⟨info', events, live', ran, timely, -, kept, done⟩ :=
        invoke_reaches keeps (fun time turn => ok_orderly (callbacksOk time turn)) early late
      refine ⟨events, info', live', ?_, timely, kept, ?_⟩
      · rw [TimernInfo.step, ran]
        rfl
      · rintro _ _ ⟨⟩
        exact done

/-- What the program does meets the condition before every call. -/
def RunOk : TimernInfo → List Call → Prop :=
  Meets (fun info call => (info.step call).map Prod.snd) fun info call => call.Ok info.uiCurrentTime

theorem replay_reaches {calls : List Call} : ∀ {info : TimernInfo} {agenda : Agenda Nat TimernData}
    {live : List Nat}, Keeps info agenda live → RunOk info calls →
    ∃ events info' live', replay TimernInfo.step info calls = some (events, info') ∧
      Timely agenda events.flatten ∧ Keeps info' (agenda.afterAll events.flatten) live' ∧
      ∀ clock callbacks, calls.getLast? = some (.invoke clock callbacks) →
        clock < info'.uiCurrentTime := by
  induction calls with
  | nil =>
      intro info agenda live keeps _
      exact ⟨[], info, live, rfl, trivial, keeps, by simp⟩
  | cons call rest ih =>
      intro info agenda live keeps ok
      obtain ⟨events₁, info₁, live₁, ran₁, timely₁, keeps₁, done₁⟩ := step_reaches keeps ok.1
      have later : RunOk info₁ rest := ok.2 info₁ (congrArg (Option.map Prod.snd) ran₁)
      obtain ⟨events₂, info₂, live₂, ran₂, timely₂, keeps₂, done₂⟩ := ih keeps₁ later
      refine ⟨events₁ :: events₂, info₂, live₂, ?_, timely_append timely₁ timely₂, ?_, ?_⟩
      · rw [replay, ran₁]
        simp only [Option.bind_eq_bind, Option.bind_some, ran₂]
      · rw [List.flatten_cons, after_all_append]
        exact keeps₂
      · intro clock callbacks last
        cases rest with
        | nil =>
            obtain ⟨-, rfl⟩ := Prod.mk.inj (Option.some.inj ran₂)
            exact done₁ clock callbacks (Option.some.inj last)
        | cons next others =>
            rw [List.getLast?_cons_cons] at last
            exact done₂ clock callbacks last

/-- The pending timers are the linked nodes, each in the bucket of its deadline. -/
structure Wheel (info : TimernInfo) (agenda : Agenda Nat TimernData) (live : List Nat) : Prop where
  now : agenda.now = info.uiCurrentTime
  distinct : live.Nodup
  pending : ∀ p deadline data, agenda.pending p = some (deadline, data) ↔ p ∈ live ∧
    deadlineAt info.pstHASHGINFO p = deadline ∧ (info.pstHASHGINFO.node p).pstData = data
  window : ∀ p ∈ live, info.uiCurrentTime ≤ deadlineAt info.pstHASHGINFO p ∧
    deadlineAt info.pstHASHGINFO p < info.uiCurrentTime + N_DAY
  count : info.uiNodeCnt = live.length
  buckets : ∀ index < N_DAY, Chained info.pstHASHGINFO.links Slot.next
    (pointed (info.pstHASHGINFO.psthashnode index)) (.bucket index)
    (live.filter fun p => (deadlineAt info.pstHASHGINFO p).toNat % N_DAY = index)

theorem keeps_wheel {info : TimernInfo} {agenda : Agenda Nat TimernData} {live : List Nat}
    (keeps : Keeps info agenda live) : Wheel info agenda live := by
  refine ⟨keeps.now, keeps.linked.distinct, ?_, keeps.window, keeps.count, ?_⟩
  · intro p deadline data
    rw [keeps.pending p]
    by_cases member : p ∈ live
    · simp [member]
    · simp [member]
  · intro index bound
    have chain := keeps.linked.chains index (by rw [keeps.size]; exact bound)
    have same : info.pstHASHGINFO.bucket live index =
        live.filter fun p => (deadlineAt info.pstHASHGINFO p).toNat % N_DAY = index := by
      apply List.filter_congr
      intro p member
      obtain ⟨after, before⟩ := keeps.window p member
      have early := keeps.early
      have late := keeps.late
      have word : deadlineAt info.pstHASHGINFO p % 2 ^ 32 = deadlineAt info.pstHASHGINFO p :=
        Int.emod_eq_of_lt (by omega) (by omega)
      rw [keeps.func]
      show decide ((deadlineAt info.pstHASHGINFO p % 2 ^ 32).toNat % N_DAY = index) = _
      rw [word]
    rw [← same]
    exact chain

/-- Every timer that was accepted has run in the second of its latest deadline or was deleted,
but for those that wait, and after a pass none of these has its deadline behind it. -/
theorem timers_run {clock : Int} (early : 0 ≤ clock) (late : clock + N_DAY < 2 ^ 31)
    (heap : Nat → HashgNode TimernKey TimernData) {calls : List Call}
    (ok : RunOk (timernInit clock heap) calls) :
    ∃ events info live, replay TimernInfo.step (timernInit clock heap) calls = some (events, info) ∧
      Timely (start clock) events.flatten ∧
      (∀ timer, events.flatten.countP (Event.begins timer) =
        events.flatten.countP (Event.ends timer) +
          ((start clock).afterAll events.flatten).waits timer) ∧
      Wheel info ((start clock).afterAll events.flatten) live ∧
      ∀ clock callbacks, calls.getLast? = some (.invoke clock callbacks) →
        clock < info.uiCurrentTime := by
  obtain ⟨events, info, live, ran, timely, keeps, done⟩ :=
    replay_reaches (init_keeps early late heap) ok
  refine ⟨events, info, live, ran, timely, ?_, keeps_wheel keeps, done⟩
  intro timer
  have counted := timely_count timely timer
  have nobody : (start clock : Agenda Nat TimernData).waits timer = 0 := rfl
  rw [nobody, Nat.zero_add] at counted
  exact counted

/-- The block after all blocks in use. -/
def nextBlock (blocks : List Nat) : Option Nat := some (blocks.sum + 1)

theorem next_block_fresh : Fresh nextBlock := by
  rintro blocks _ ⟨⟩
  refine ⟨Nat.succ_ne_zero _, ?_⟩
  intro member
  have bound := List.le_sum_of_mem member
  omega

def blankHeap (_ : Nat) : HashgNode TimernKey TimernData := ⟨0, .null, ⟨0, 0⟩, ⟨0, []⟩⟩

/-- A timer whose callback adds it again for the second after the next one. -/
def alternateSeconds (time : Int) (_turn : Nat) : Script :=
  .add ⟨7, []⟩ (time + 2) nextBlock .done .done

/-- The clock jumps by more than a day. -/
theorem timers_run_jump :
    ∃ events info live, replay TimernInfo.step (timernInit 100 blankHeap)
        [.script (.add ⟨7, []⟩ 101 nextBlock .done .done), .invoke 100000 alternateSeconds] =
          some (events, info) ∧
      Timely (start 100) events.flatten ∧
      (∀ timer, events.flatten.countP (Event.begins timer) =
        events.flatten.countP (Event.ends timer) +
          ((start 100).afterAll events.flatten).waits timer) ∧
      Wheel info ((start 100).afterAll events.flatten) live ∧
      ∀ clock callbacks,
        [.script (.add ⟨7, []⟩ 101 nextBlock .done .done), .invoke 100000 alternateSeconds].getLast? =
          some (Call.invoke clock callbacks) → clock < info.uiCurrentTime := by
  apply timers_run
  · decide
  · decide
  · refine ⟨⟨by decide, next_block_fresh, trivial, trivial⟩, ?_⟩
    intro info _
    refine ⟨⟨by decide, by decide, ?_⟩, fun _ _ => trivial⟩
    intro time turn
    refine ⟨?_, next_block_fresh, trivial, trivial⟩
    show time + 2 ≤ time + 86400 - 60
    omega

/-- Without a block for its node a timer is refused and never runs, and near the end of the
clock of `int` the last deadline of the window has no value. -/
theorem refused_timer_never_runs :
    (replay TimernInfo.step (timernInit 100 blankHeap)
        [.script (.add ⟨7, []⟩ 101 (fun _ => none) .done .done), .invoke 102 fun _ _ => .done]).map
          Prod.fst =
      some [[.refused ⟨7, []⟩], [.second, .second, .second]] ∧
    (replay TimernInfo.step (timernInit (2 ^ 31 - 100) blankHeap)
        [.script (.add ⟨7, []⟩ (2 ^ 31 - 50) nextBlock .done .done)]).isNone := by
  decide +kernel

end Runs

end Upst.Timern
