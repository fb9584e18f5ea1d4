import Upst.TimernRun

/-!
Timers by their ids. Where no two timers that wait have the same id, every call finds the timer
that it names, and says what becomes of it, of its id and of the others. The callbacks make no
calls here.
-/

namespace Upst.Timern

open Word Hashg Deadlines

set_option autoImplicit false

def idAt (info : TimernInfo) (t : Nat) : TimernKey := (info.pstHASHGINFO.node t).pstKey

/-- The wheel keeps its agenda, and the timers that wait have different ids. -/
structure Named (info : TimernInfo) (agenda : Agenda Nat TimernData) (timers : List Nat) : Prop where
  keeps : Keeps info agenda timers
  positive : 0 < info.uiCurrentTime
  distinct : ∀ t ∈ timers, ∀ other ∈ timers, idAt info t = idAt info other → t = other

/-- The second and the number of the last id. -/
def TimernInfo.clock (info : TimernInfo) : Int × Nat := (info.uiCurrentTime, info.uiTimerNIdIndex)

/-- The callback that makes no call. -/
def quiet (info : TimernInfo) : Option (TimernInfo × List TimerEvent) := some (info, [])

variable {info : TimernInfo} {agenda : Agenda Nat TimernData} {timers : List Nat} {t : Nat}
  {timeout : Int}

theorem find_named (named : Named info agenda timers) (member : t ∈ timers) :
    (timers.find? fun other => (info.pstHASHGINFO.node other).pstKey = idAt info t) = some t := by
  cases found : timers.find? fun other => (info.pstHASHGINFO.node other).pstKey = idAt info t with
  | none =>
      have missing := List.find?_eq_none.mp found t member
      simp [idAt] at missing
  | some other =>
      have same := List.find?_some found
      have inside := List.mem_of_find?_eq_some found
      exact congrArg some (named.distinct other inside t member (of_decide_eq_true same))

/-- No timer waits under the id 0. -/
theorem zero_unused (named : Named info agenda timers) :
    hashgFind info.pstHASHGINFO ⟨0, 0⟩ = some none := by
  rw [find_spec named.keeps.linked (named.keeps.inRange _), List.find?_eq_none.mpr]
  intro t member same
  have zero : deadlineAt info.pstHASHGINFO t = 0 := by
    rw [deadlineAt, of_decide_eq_true same]
  have window := (named.keeps.window t member).1
  have positive := named.positive
  omega

theorem waiting (named : Named info agenda timers) (t : Nat) :
    agenda.pending t ≠ none ↔ t ∈ timers := by
  rw [named.keeps.pending t]
  by_cases member : t ∈ timers
  · simp [member]
  · simp [member]

/-- One more timer, under an id that the others do not have. -/
theorem distinct_cons {ids ids' : Nat → TimernKey} {rest : List Nat}
    (others : ∀ other ∈ rest, other ≠ t ∧ ids' other = ids other)
    (unused : ∀ other ∈ rest, ids other ≠ ids' t)
    (distinct : ∀ first ∈ rest, ∀ second ∈ rest, ids first = ids second → first = second) :
    ∀ first ∈ t :: rest, ∀ second ∈ t :: rest, ids' first = ids' second → first = second := by
  intro first inside second inside' same
  rcases List.mem_cons.mp inside with rfl | waits
  · rcases List.mem_cons.mp inside' with rfl | waits'
    · rfl
    · rw [(others second waits').2] at same
      exact absurd same.symm (unused second waits')
  · rcases List.mem_cons.mp inside' with rfl | waits'
    · rw [(others first waits).2] at same
      exact absurd same (unused first waits)
    · rw [(others first waits).2, (others second waits').2] at same
      exact distinct first waits second waits' same

section Delete

theorem del_unknown {timerNid : TimernKey}
    (absent : hashgFind info.pstHASHGINFO timerNid = some none) :
    timernDel info timerNid = some (info, []) := by
  rw [timernDel, absent]
  rfl

theorem del_named (named : Named info agenda timers) (member : t ∈ timers) :
    ∃ info', timernDel info (idAt info t) = some (info', [.deleted t]) ∧
      Named info' (agenda.drop t) (timers.erase t) ∧ info'.clock = info.clock ∧
      ∀ other, idAt info' other = idAt info other := by
  have keeps := named.keeps
  obtain ⟨deletes, linked⟩ := deleted_linked keeps.linked member
  have after := removed_keeps keeps member linked rfl rfl rfl fun _ _ => ⟨rfl, rfl⟩
  refine ⟨_, ?_, ⟨after, named.positive, ?_⟩, rfl, fun _ => rfl⟩
  · rw [timernDel, find_spec keeps.linked (keeps.inRange _), find_named named member]
    simp only [Option.bind_eq_bind, Option.bind_some, deletes]
  · exact fun first inside second inside' =>
      named.distinct first (List.mem_of_mem_erase inside) second (List.mem_of_mem_erase inside')

end Delete

section Update

theorem update_unknown {timerNid : TimernKey}
    (absent : hashgFind info.pstHASHGINFO timerNid = some none) (timeout : Int)
    (invoke : TimernInfo → Option (TimernInfo × List TimerEvent)) :
    timernUpdate info timerNid timeout invoke = some (none, info, []) := by
  rw [timernUpdate, absent]
  rfl

/-- The id that an update gives a timer. -/
def movedId (info : TimernInfo) (t : Nat) (timeout : Int) : TimernKey :=
  { idAt info t with sTimeKey := s32 timeout }

/-- A timer whose deadline has passed runs at once. -/
theorem update_passed (named : Named info agenda timers) (member : t ∈ timers)
    (passed : timeout ≤ info.uiCurrentTime) :
    ∃ info', timernUpdate info (idAt info t) timeout quiet =
        some (none, info', [.ranLate t timeout (info.pstHASHGINFO.node t).pstData]) ∧
      Named info' (agenda.drop t) (timers.erase t) ∧ info'.clock = info.clock ∧
      ∀ other, other ≠ t → idAt info' other = idAt info other := by
  have keeps := named.keeps
  let key := movedId info t timeout
  let hash := unlinked (keyed info.pstHASHGINFO t key) t
  obtain ⟨unlink, -, after⟩ := keyed_removed keeps member key
  have gone : t ∉ timers.erase t := fun inside =>
    (keeps.linked.distinct.mem_erase_iff.mp inside).1 rfl
  have freed : hash.free t = some { hash with alloced := hash.alloced.erase t } :=
    if_pos (keeps.linked.alloced t member)
  have ids : ∀ other, other ≠ t → (hash.node other).pstKey = idAt info other := by
    intro other apart
    have same : (keyed info.pstHASHGINFO t key).node other = info.pstHASHGINFO.node other :=
      Function.update_of_ne apart ..
    exact congrArg (fun node => node.pstKey) same
  refine ⟨{ info with
    pstHASHGINFO := { hash with alloced := hash.alloced.erase t }
    uiNodeCnt := u32Pred info.uiNodeCnt }, ?_, ⟨?_, named.positive, ?_⟩, rfl, ids⟩
  · rw [update_late keeps (find_named named member) passed, TimernInfo.runNode]
    dsimp only
    rw [show ({ idAt info t with sTimeKey := s32 timeout } : TimernKey) = key from rfl, unlink]
    simp only [Option.bind_eq_bind, Option.bind_some, quiet]
    rw [freed]
    rfl
  · exact ⟨free_linked after.linked gone, after.func, after.size, after.max, after.count, after.now,
      after.early, after.late, after.window, after.pending⟩
  · intro first inside second inside' same
    have apart {other : Nat} (kept : other ∈ timers.erase t) : other ≠ t :=
      (keeps.linked.distinct.mem_erase_iff.mp kept).1
    apply named.distinct first (List.mem_of_mem_erase inside) second (List.mem_of_mem_erase inside')
    rw [← ids first (apart inside), ← ids second (apart inside')]
    exact same

/-- A timer whose deadline lies ahead waits for it, under another id. -/
theorem update_ahead (named : Named info agenda timers) (member : t ∈ timers)
    (later : info.uiCurrentTime < timeout)
    (bound : timeout ≤ info.uiCurrentTime + N_DAY - ONE_MINUTE)
    (unused : ∀ other ∈ timers, other ≠ t → idAt info other ≠ movedId info t timeout) :
    ∃ info', timernUpdate info (idAt info t) timeout quiet =
        some (some (movedId info t timeout), info', [.moved t timeout]) ∧
      Named info' (agenda.after (.moved t timeout)) (t :: timers.erase t) ∧
      info'.clock = info.clock ∧ idAt info' t = movedId info t timeout ∧
      ∀ other, other ≠ t → idAt info' other = idAt info other := by
  have keeps := named.keeps
  have small : (movedId info t timeout).sTimeKey = timeout := by
    have early := keeps.early
    have late := keeps.late
    simp only [ONE_MINUTE] at bound
    exact s32_small (by omega) (by omega)
  have own := (rekeyed_own info.pstHASHGINFO t (movedId info t timeout)).1
  have ids : ∀ other, other ≠ t →
      ((rekeyed info.pstHASHGINFO t (movedId info t timeout)).node other).pstKey =
        idAt info other := fun other apart => (rekeyed_other apart).1
  obtain ⟨after, -⟩ := moved_keeps keeps member later bound small
  refine ⟨_, update_moved keeps (find_named named member) later bound quiet,
    ⟨after, named.positive, ?_⟩, rfl, own, ids⟩
  apply distinct_cons
  · intro other inside
    have apart := (keeps.linked.distinct.mem_erase_iff.mp inside).1
    exact ⟨apart, ids other apart⟩
  · intro other inside same
    obtain ⟨apart, waits⟩ := keeps.linked.distinct.mem_erase_iff.mp inside
    exact unused other waits apart (same.trans own)
  · intro first inside second inside'
    exact named.distinct first (List.mem_of_mem_erase inside) second (List.mem_of_mem_erase inside')

end Update

section Add

/-- The id that the next timer gets. -/
def nextId (info : TimernInfo) (timeout : Int) : TimernKey :=
  ⟨u32 (info.uiTimerNIdIndex + 1), s32 timeout⟩

theorem add_passed (passed : timeout ≤ info.uiCurrentTime) (data : TimernData)
    (malloc : List Nat → Option Nat) :
    timernAdd info data timeout malloc quiet = some (none, info, [.ranAtOnce timeout data]) :=
  if_pos passed

/-- Where the table has room and `malloc` a block, a timer waits under an id that is not used. -/
theorem add_ahead (named : Named info agenda timers) (later : info.uiCurrentTime < timeout)
    (bound : timeout ≤ info.uiCurrentTime + N_DAY - ONE_MINUTE)
    (room : info.pstHASHGINFO.uiLinkedCnt < info.pstHASHGINFO.maxNodeCnt)
    (unused : ∀ other ∈ timers, idAt info other ≠ nextId info timeout)
    {malloc : List Nat → Option Nat} (granted : malloc info.pstHASHGINFO.alloced = some t)
    (fresh : t ≠ 0 ∧ t ∉ info.pstHASHGINFO.alloced) (data : TimernData) :
    ∃ info', timernAdd info data timeout malloc quiet =
        some (some (nextId info timeout), info', [.accepted t timeout data]) ∧
      Named info' (agenda.after (.accepted t timeout data)) (t :: timers) ∧
      info'.clock = (info.uiCurrentTime, u32 (info.uiTimerNIdIndex + 1)) ∧
      idAt info' t = nextId info timeout ∧ ∀ other, other ≠ t → idAt info' other = idAt info other := by
  have keeps := named.keeps
  have counted : Keeps { info with uiTimerNIdIndex := u32 (info.uiTimerNIdIndex + 1) } agenda timers :=
    ⟨keeps.linked, keeps.func, keeps.size, keeps.max, keeps.count, keeps.now, keeps.early, keeps.late,
      keeps.window, keeps.pending⟩
  have small : (nextId info timeout).sTimeKey = timeout := by
    have early := keeps.early
    have late := keeps.late
    simp only [ONE_MINUTE] at bound
    exact s32_small (by omega) (by omega)
  have word : info.pstHASHGINFO.maxNodeCnt < 2 ^ 32 := by
    rw [keeps.max]
    decide
  have absent : (timers.find? fun p => (info.pstHASHGINFO.node p).pstKey = nextId info timeout) =
      none := by
    rw [List.find?_eq_none]
    intro other member same
    exact unused other member (of_decide_eq_true same)
  have adds := add_absent keeps.linked (keeps.inRange (nextId info timeout)) word
    (Nat.not_le.mpr room) absent data (by rintro p ⟨⟩; exact fresh : ∀ p ∈ some t, _)
  have own := (added_own info.pstHASHGINFO t (nextId info timeout) data).1
  have ids : ∀ other, other ≠ t →
      ((added info.pstHASHGINFO t (nextId info timeout) data).node other).pstKey =
        idAt info other := fun other apart => (added_other apart).1
  have room' : timers.length < 10 * N_DAY := by
    rw [keeps.linked.count, keeps.max] at room
    exact room
  obtain ⟨after, -⟩ := accepted_keeps counted fresh.2 fresh.1 room' later bound small data
  refine ⟨_, ?_, ⟨after, named.positive, ?_⟩, rfl, own, ids⟩
  · rw [add_asks keeps later bound, granted]
    have adds' : hashgAdd info.pstHASHGINFO ⟨u32 (info.uiTimerNIdIndex + 1), s32 timeout⟩ data (some t) =
        some (some t, added info.pstHASHGINFO t (nextId info timeout) data) := adds
    rw [adds']
    rfl
  · apply distinct_cons _ _ named.distinct
    · intro other waits
      have apart : other ≠ t := fun same => fresh.2 (same ▸ keeps.linked.alloced other waits)
      exact ⟨apart, ids other apart⟩
    · exact fun other waits same => unused other waits (same.trans own)

end Add

section Invoke

theorem set_node_key {hash hash' : HashgInfo TimernKey TimernData} {p : Nat}
    {change : HashgNode TimernKey TimernData → HashgNode TimernKey TimernData}
    (ran : hash.setNode p change = some hash') (keeps : ∀ node, (change node).pstKey = node.pstKey)
    (q : Nat) : (hash'.node q).pstKey = (hash.node q).pstKey := by
  rw [HashgInfo.setNode] at ran
  split at ran
  next =>
    obtain rfl := Option.some.inj ran
    by_cases own : q = p
    · subst own
      show (Function.update hash.node q (change (hash.node q)) q).pstKey = _
      rw [Function.update_self, keeps]
    · exact congrArg HashgNode.pstKey (Function.update_of_ne own ..)
  next => cases ran

theorem unlink_keys {hash hash' : HashgInfo TimernKey TimernData} {p : Nat}
    (ran : hashgUnlinkNode hash p = some hash') (q : Nat) :
    (hash'.node q).pstKey = (hash.node q).pstKey := by
  rw [hashgUnlinkNode] at ran
  split at ran
  next =>
    dsimp only at ran
    split at ran
    next =>
      obtain rfl := Option.some.inj ran
      rfl
    next =>
      obtain ⟨first, slot, ran⟩ := Option.bind_eq_some_iff.mp ran
      obtain ⟨second, prev, ran⟩ := Option.bind_eq_some_iff.mp ran
      obtain ⟨third, own, ran⟩ := Option.bind_eq_some_iff.mp ran
      obtain rfl := Option.some.inj ran
      have slotKey : (first.node q).pstKey = (hash.node q).pstKey := by
        unfold HashgInfo.setSlot at slot
        split at slot
        · cases slot
        · split at slot
          · obtain rfl := Option.some.inj slot
            rfl
          · cases slot
        · exact set_node_key slot (fun _ => rfl) q
      have prevKey : (second.node q).pstKey = (first.node q).pstKey := by
        rw [HashgInfo.setPrev] at prev
        split at prev
        · obtain rfl := Option.some.inj prev
          rfl
        · exact set_node_key prev (fun _ => rfl) q
      have ownKey : (third.node q).pstKey = (second.node q).pstKey :=
        set_node_key own (fun _ => rfl) q
      exact ownKey.trans (prevKey.trans slotKey)
  next => cases ran

/-- What `timerN_invoke` reports where the callbacks make no calls. -/
def Event.Runs : TimerEvent → Prop
  | .ran _ _ => True
  | .second => True
  | _ => False

theorem bucket_quiet (fuel : Nat) : ∀ {info info' : TimernInfo} {turn : Nat}
    {events : List TimerEvent}, invokeBucket (fun _ => .done) fuel turn info = some (info', events) →
      (∀ event ∈ events, Event.Runs event) ∧ ∀ t, idAt info' t = idAt info t := by
  induction fuel with
  | zero => nofun
  | succ fuel ih =>
      intro info info' turn events ran
      obtain ⟨p, -, ran⟩ := Option.bind_eq_some_iff.mp ran
      split at ran
      next =>
        obtain ⟨rfl, rfl⟩ := Prod.mk.inj (Option.some.inj ran)
        exact ⟨by simp, fun _ => rfl⟩
      next =>
        obtain ⟨⟨info₁, events₁⟩, node, ran⟩ := Option.bind_eq_some_iff.mp ran
        obtain ⟨⟨info₂, events₂⟩, later, ran⟩ := Option.bind_eq_some_iff.mp ran
        obtain ⟨rfl, rfl⟩ := Prod.mk.inj (Option.some.inj ran)
        obtain ⟨hash, unlink, node⟩ := Option.bind_eq_some_iff.mp node
        obtain ⟨⟨info₃, events₃⟩, callback, node⟩ := Option.bind_eq_some_iff.mp node
        obtain ⟨rfl, rfl⟩ := Prod.mk.inj (Option.some.inj callback)
        obtain ⟨hash', free, node⟩ := Option.bind_eq_some_iff.mp node
        obtain ⟨rfl, rfl⟩ := Prod.mk.inj (Option.some.inj node)
        obtain ⟨runs, ids⟩ := ih later
        constructor
        · intro event member
          rcases List.mem_cons.mp member with rfl | member
          · trivial
          · exact runs event member
        · intro t
          rw [ids t]
          have freed : (hash'.node t).pstKey = (hash.node t).pstKey := by
            rw [HashgInfo.free] at free
            split at free
            · obtain rfl := Option.some.inj free
              rfl
            · cases free
          exact freed.trans (unlink_keys unlink t)

theorem seconds_quiet {tt : Nat} (fuel : Nat) : ∀ {info info' : TimernInfo}
    {events : List TimerEvent},
    invokeSeconds (fun _ _ => .done) tt fuel info = some (info', events) →
      (∀ event ∈ events, Event.Runs event) ∧ ∀ t, idAt info' t = idAt info t := by
  induction fuel with
  | zero => nofun
  | succ fuel ih =>
      intro info info' events ran
      rw [invokeSeconds] at ran
      split at ran
      next =>
        obtain ⟨⟨info₁, events₁⟩, bucket, ran⟩ := Option.bind_eq_some_iff.mp ran
        dsimp only at ran
        split at ran
        next =>
          obtain ⟨⟨info₂, events₂⟩, later, ran⟩ := Option.bind_eq_some_iff.mp ran
          obtain ⟨rfl, rfl⟩ := Prod.mk.inj (Option.some.inj ran)
          obtain ⟨runs₁, ids₁⟩ := bucket_quiet _ bucket
          obtain ⟨runs₂, ids₂⟩ := ih later
          constructor
          · intro event member
            rcases List.mem_append.mp member with before | member
            · exact runs₁ event before
            · rcases List.mem_cons.mp member with rfl | after
              · trivial
              · exact runs₂ event after
          · exact fun t => (ids₂ t).trans (ids₁ t)
        next => cases ran
      next =>
        obtain ⟨rfl, rfl⟩ := Prod.mk.inj (Option.some.inj ran)
        exact ⟨by simp, fun _ => rfl⟩

/-- A pass runs timers that are due, and leaves the others under their ids. -/
theorem invoke_named (named : Named info agenda timers) {clock : Int} (early : 0 ≤ clock)
    (late : clock + 1 + N_DAY < 2 ^ 31) :
    ∃ info' events timers', timernInvoke clock (fun _ _ => .done) info = some (info', events) ∧
      Timely agenda events ∧ (∀ event ∈ events, Event.Runs event) ∧
      Keeps info' (agenda.afterAll events) timers' ∧ 0 < info'.uiCurrentTime ∧
      ∀ t, idAt info' t = idAt info t := by
  obtain ⟨info', events, timers', ran, timely, -, keeps, done⟩ :=
    @invoke_reaches _ _ _ named.keeps (fun _ _ => .done) (fun _ _ => trivial) clock early late
  obtain ⟨runs, ids⟩ := seconds_quiet _ ran
  exact ⟨info', events, timers', ran, timely, runs, keeps, by omega, ids⟩

end Invoke

end Upst.Timern
