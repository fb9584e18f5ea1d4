import Upst.HashgPlaces
import Upst.TimernIds

/-!
The timer wheel when ids are written over. `timerN_update` changes the key of a timer before it
looks at the deadline, so a timer may wait in a bucket that its key does not lead to.
-/

namespace Upst.Timern

open Word Chain Hashg Deadlines Refine

set_option autoImplicit false

variable {info info' : TimernInfo} {live : List Nat} {events : List TimerEvent} {p : Nat}
  {timerNid : TimernKey} {timeout : Int}
  {invoke : TimernInfo → Option (TimernInfo × List TimerEvent)}

section Held

/-- A wheel whose timers are `live`, each in some bucket. -/
structure Held (info : TimernInfo) (live : List Nat) : Prop where
  func : info.pstHASHGINFO.func = timernTimeoutFunc
  size : info.pstHASHGINFO.uiHashSize = N_DAY
  max : info.pstHASHGINFO.maxNodeCnt < 2 ^ 32
  placed : ∃ place, Placed info.pstHASHGINFO live place

/-- The wheel is still one, and the blocks that are in use but not linked are left alone. -/
def Stays (info : TimernInfo) (live : List Nat) (info' : TimernInfo) : Prop :=
  ∃ live', Held info' live' ∧
    ∀ q ∈ info.pstHASHGINFO.alloced, q ∉ live → q ∈ info'.pstHASHGINFO.alloced ∧ q ∉ live'

/-- The callback leaves a wheel. -/
def KeepsWheel (invoke : TimernInfo → Option (TimernInfo × List TimerEvent)) : Prop :=
  ∀ info live info' events, Held info live → invoke info = some (info', events) →
    Stays info live info'

theorem stays_refl (held : Held info live) : Stays info live info :=
  ⟨live, held, fun _ inside outside => ⟨inside, outside⟩⟩

theorem stays_trans {info₁ info₂ : TimernInfo} (first : Stays info live info₁)
    (second : ∀ live₁, Held info₁ live₁ → Stays info₁ live₁ info₂) : Stays info live info₂ := by
  obtain ⟨live₁, held₁, loose₁⟩ := first
  obtain ⟨live₂, held₂, loose₂⟩ := second live₁ held₁
  refine ⟨live₂, held₂, ?_⟩
  intro q inside outside
  obtain ⟨inside₁, outside₁⟩ := loose₁ q inside outside
  exact loose₂ q inside₁ outside₁

theorem held_range (held : Held info live) (key : TimernKey) :
    info.pstHASHGINFO.func key < info.pstHASHGINFO.uiHashSize := by
  rw [held.func, held.size]
  exact timeout_in_range key

/-- What a search finds in the wheel. -/
theorem held_found (held : Held info live)
    (found : hashgFind info.pstHASHGINFO timerNid = some (some p)) :
    p ∈ live ∧ (info.pstHASHGINFO.node p).pstKey = timerNid := by
  obtain ⟨place, placed⟩ := held.placed
  obtain ⟨member, -, same⟩ := found_placed placed (held_range held timerNid) found
  exact ⟨member, same⟩

theorem held_search (held : Held info live) (key : TimernKey) :
    ∃ found, hashgFind info.pstHASHGINFO key = some found := by
  obtain ⟨place, placed⟩ := held.placed
  exact ⟨_, find_placed placed (held_range held key)⟩

/-- A timer that is found can be deleted. -/
theorem held_deletes (held : Held info live)
    (found : hashgFind info.pstHASHGINFO timerNid = some (some p)) :
    ∃ info', timernDel info timerNid = some (info', [.deleted p]) ∧ Stays info live info' := by
  obtain ⟨place, placed⟩ := held.placed
  obtain ⟨member, -⟩ := held_found held found
  obtain ⟨deletes, after⟩ := del_placed placed member
  have held' : Held { info with
      pstHASHGINFO := deleted info.pstHASHGINFO p
      uiNodeCnt := u32Pred info.uiNodeCnt } (live.erase p) :=
    ⟨held.func, held.size, held.max, place, after⟩
  refine ⟨_, ?_, live.erase p, held', ?_⟩
  · rw [timernDel, found]
    simp only [Option.bind_eq_bind, Option.bind_some, deletes]
  · intro q inside outside
    have other : q ≠ p := by
      rintro rfl
      exact outside member
    exact ⟨(List.mem_erase_of_ne other).mpr inside, fun kept =>
      outside (List.mem_of_mem_erase kept)⟩

theorem del_stays (held : Held info live) (ran : timernDel info timerNid = some (info', events)) :
    Stays info live info' := by
  obtain ⟨found, search⟩ := held_search held timerNid
  cases found with
  | none =>
      rw [timernDel, search] at ran
      cases ran
      exact stays_refl held
  | some p =>
      obtain ⟨after, deletes, stays⟩ := held_deletes held search
      rw [deletes] at ran
      cases ran
      exact stays

/-- The node of a timer is out of the wheel while its callback runs, and freed after it. -/
theorem run_node_stays (held : Held info live) (member : p ∈ live) (keeps : KeepsWheel invoke)
    (ran : info.runNode p invoke = some (info', events)) : Stays info live info' := by
  obtain ⟨place, placed⟩ := held.placed
  obtain ⟨unlink, after⟩ := unlink_placed placed member
  rw [TimernInfo.runNode, unlink] at ran
  simp only [Option.bind_eq_bind, Option.bind_some] at ran
  obtain ⟨⟨info₁, events₁⟩, callback, ran⟩ := Option.bind_eq_some_iff.mp ran
  obtain ⟨hash, free, ran⟩ := Option.bind_eq_some_iff.mp ran
  obtain ⟨rfl, rfl⟩ := Prod.mk.inj (Option.some.inj ran)
  have outside : p ∉ live.erase p := fun inside => (placed.distinct.mem_erase_iff.mp inside).1 rfl
  have before : Held { info with
      pstHASHGINFO := unlinked info.pstHASHGINFO p
      uiNodeCnt := u32Pred info.uiNodeCnt } (live.erase p) :=
    ⟨held.func, held.size, held.max, place, after⟩
  obtain ⟨live₁, held₁, loose⟩ := keeps _ _ _ _ before callback
  obtain ⟨place₁, placed₁⟩ := held₁.placed
  obtain ⟨inUse, away⟩ := loose p (placed.alloced p member) outside
  rw [HashgInfo.free, if_pos inUse] at free
  cases free
  refine ⟨live₁, ⟨held₁.func, held₁.size, held₁.max, place₁, free_placed placed₁ away⟩, ?_⟩
  intro q inside outside'
  have other : q ≠ p := by
    rintro rfl
    exact outside' member
  obtain ⟨still, away'⟩ := loose q inside fun kept => outside' (List.mem_of_mem_erase kept)
  exact ⟨(List.mem_erase_of_ne other).mpr still, away'⟩

/-- The table of the wheel takes a timer where there is room, and refuses it otherwise. -/
theorem hashg_add_stays (held : Held info live) {key : TimernKey} {data : TimernData}
    {place place' : Option Nat} {hash : HashgInfo TimernKey TimernData}
    (ran : hashgAdd info.pstHASHGINFO key data place = some (place', hash)) :
    Stays info live { info with pstHASHGINFO := hash } := by
  obtain ⟨found, search⟩ := held_search held key
  obtain ⟨at', placed⟩ := held.placed
  unfold hashgAdd at ran
  split at ran
  · cases ran
    exact stays_refl held
  · next room =>
      simp only [search, Option.bind_eq_bind, Option.bind_some] at ran
      split at ran
      · cases ran
        exact stays_refl held
      · cases place with
        | none =>
            cases ran
            exact stays_refl held
        | some p =>
            dsimp only at ran
            split at ran
            · cases ran
            · next fresh =>
                obtain ⟨positive, unused⟩ := not_or.mp fresh
                have small : live.length + 1 < 2 ^ 32 := by
                  have max := held.max
                  have count : info.pstHASHGINFO.uiLinkedCnt = live.length := placed.count
                  omega
                obtain ⟨link, after⟩ :=
                  added_placed placed unused positive (held_range held key) small data
                have linked : hashgLinkNode (allocated info.pstHASHGINFO p key data) p =
                    some hash := by
                  obtain ⟨other, ran, same⟩ := Option.bind_eq_some_iff.mp ran
                  cases same
                  exact ran
                rw [link] at linked
                cases linked
                refine ⟨p :: live, ⟨held.func, held.size, held.max, _, after⟩, ?_⟩
                intro q inside outside
                refine ⟨List.mem_cons_of_mem _ inside, ?_⟩
                intro member
                rcases List.mem_cons.mp member with rfl | old
                · exact unused inside
                · exact outside old

theorem add_stays (held : Held info live) {data : TimernData} {malloc : List Nat → Option Nat}
    {ret : Option TimernKey} (keeps : KeepsWheel invoke)
    (ran : timernAdd info data timeout malloc invoke = some (ret, info', events)) :
    Stays info live info' := by
  unfold timernAdd at ran
  split at ran
  · obtain ⟨⟨info₁, events₁⟩, callback, ran⟩ := Option.bind_eq_some_iff.mp ran
    cases ran
    exact keeps _ _ _ _ held callback
  · dsimp only at ran
    have counted : Held { info with uiTimerNIdIndex := u32 (info.uiTimerNIdIndex + 1) } live :=
      ⟨held.func, held.size, held.max, held.placed⟩
    obtain ⟨latest, -, ran⟩ := Option.bind_eq_some_iff.mp ran
    split at ran
    · obtain ⟨⟨place, hash⟩, adds, ran⟩ := Option.bind_eq_some_iff.mp ran
      obtain ⟨live', held', loose⟩ := hashg_add_stays counted adds
      cases place with
      | none =>
          cases ran
          exact ⟨live', held', loose⟩
      | some p =>
          cases ran
          exact ⟨live', ⟨held'.func, held'.size, held'.max, held'.placed⟩, loose⟩
    · cases ran
      exact stays_refl counted

/-- With another key for `p` the wheel is one as it was. -/
theorem keyed_held (held : Held info live) (p : Nat) (key : TimernKey) :
    Held { info with pstHASHGINFO := keyed info.pstHASHGINFO p key } live := by
  obtain ⟨place, placed⟩ := held.placed
  exact ⟨held.func, held.size, held.max, place, keyed_placed placed p key⟩

theorem rekeyed_held (held : Held info live) (member : p ∈ live) (key : TimernKey) :
    hashgUnlinkNode (keyed info.pstHASHGINFO p key) p =
        some (unlinked (keyed info.pstHASHGINFO p key) p) ∧
      hashgLinkNode (unlinked (keyed info.pstHASHGINFO p key) p) p =
        some (rekeyed info.pstHASHGINFO p key) ∧
      Held { info with pstHASHGINFO := rekeyed info.pstHASHGINFO p key } (p :: live.erase p) ∧
      hashgFind (rekeyed info.pstHASHGINFO p key) key = some (some p) := by
  obtain ⟨place, placed⟩ := held.placed
  have range := held_range held key
  obtain ⟨unlink, link, after⟩ := rekeyed_placed placed member range
  refine ⟨unlink, link, ⟨held.func, held.size, held.max, _, after⟩, ?_⟩
  rw [find_placed after range]
  have own := (rekeyed_own info.pstHASHGINFO p key).1
  have first : Function.update place p (info.pstHASHGINFO.func key) p =
      (rekeyed info.pstHASHGINFO p key).func key := Function.update_self ..
  rw [List.filter_cons_of_pos (by simpa using first), List.find?_cons_of_pos (by simpa using own)]

/-- What `timerN_update` does with a timer that it finds. -/
theorem update_cases (held : Held info live)
    (found : hashgFind info.pstHASHGINFO timerNid = some (some p)) (timeout : Int)
    (invoke : TimernInfo → Option (TimernInfo × List TimerEvent)) :
    let key : TimernKey := { timerNid with sTimeKey := s32 timeout }
    let written := { info with pstHASHGINFO := keyed info.pstHASHGINFO p key }
    timernUpdate info timerNid timeout invoke =
      if timeout ≤ info.uiCurrentTime then
        (written.runNode p invoke).map fun ran =>
          (none, ran.1, .ranLate p timeout (info.pstHASHGINFO.node p).pstData :: ran.2)
      else
        info.latest.map fun latest =>
          if timeout ≤ latest then
            (some key, { info with pstHASHGINFO := rekeyed info.pstHASHGINFO p key },
              [.moved p timeout])
          else (some key, written, []) := by
  intro key written
  obtain ⟨member, -⟩ := held_found held found
  obtain ⟨place, placed⟩ := held.placed
  obtain ⟨unlink, link, -⟩ := rekeyed_held held member key
  have setKey : info.pstHASHGINFO.setKey p key = some (keyed info.pstHASHGINFO p key) :=
    if_pos (placed.alloced p member)
  rw [timernUpdate, found]
  simp only [Option.bind_eq_bind, Option.bind_some]
  rw [setKey]
  simp only [Option.bind_some]
  by_cases passed : timeout ≤ info.uiCurrentTime
  · rw [if_pos passed, if_pos passed]
    cases TimernInfo.runNode written p invoke with
    | none => rfl
    | some ran => rfl
  · rw [if_neg passed, if_neg passed]
    have same : TimernInfo.latest { info with pstHASHGINFO := keyed info.pstHASHGINFO p key } =
        info.latest := rfl
    rw [same]
    cases info.latest with
    | none => rfl
    | some latest =>
        simp only [Option.bind_some, Option.map_some]
        by_cases window : timeout ≤ latest
        · rw [if_pos window, if_pos window, unlink]
          simp only [Option.bind_some]
          rw [link]
          rfl
        · rw [if_neg window, if_neg window]

theorem update_unknown_id (unknown : hashgFind info.pstHASHGINFO timerNid = some none)
    (timeout : Int) (invoke : TimernInfo → Option (TimernInfo × List TimerEvent)) :
    timernUpdate info timerNid timeout invoke = some (none, info, []) := by
  rw [timernUpdate, unknown]
  rfl

theorem update_stays (held : Held info live) {ret : Option TimernKey} (keeps : KeepsWheel invoke)
    (ran : timernUpdate info timerNid timeout invoke = some (ret, info', events)) :
    Stays info live info' := by
  obtain ⟨found, search⟩ := held_search held timerNid
  cases found with
  | none =>
      rw [update_unknown_id search] at ran
      cases ran
      exact stays_refl held
  | some p =>
      obtain ⟨member, -⟩ := held_found held search
      rw [update_cases held search] at ran
      split at ran
      · obtain ⟨⟨info₁, events₁⟩, node, same⟩ := Option.map_eq_some_iff.mp ran
        cases same
        have stays := run_node_stays (keyed_held held p _) member keeps node
        exact stays
      · obtain ⟨latest, -, same⟩ := Option.map_eq_some_iff.mp ran
        split at same
        · cases same
          obtain ⟨-, -, held', -⟩ :=
            rekeyed_held held member { timerNid with sTimeKey := s32 timeout }
          refine ⟨p :: live.erase p, held', ?_⟩
          intro q inside outside
          refine ⟨inside, ?_⟩
          intro kept
          rcases List.mem_cons.mp kept with rfl | old
          · exact outside member
          · exact outside (List.mem_of_mem_erase old)
        · cases same
          exact ⟨live, keyed_held held p _, fun _ inside outside => ⟨inside, outside⟩⟩

end Held

section Reached

theorem script_stays (script : Script) : KeepsWheel (runScript script) := by
  induction script with
  | done =>
      intro info live info' events held ran
      cases ran
      exact stays_refl held
  | add data timeout malloc callback rest callbackKeeps restKeeps =>
      intro info live info' events held ran
      obtain ⟨⟨ret, info₁, events₁⟩, call, ran⟩ := Option.bind_eq_some_iff.mp ran
      obtain ⟨⟨info₂, events₂⟩, later, ran⟩ := Option.bind_eq_some_iff.mp ran
      cases ran
      exact stays_trans (add_stays held callbackKeeps call) fun live₁ held₁ =>
        restKeeps _ _ _ _ held₁ later
  | del timerNid rest restKeeps =>
      intro info live info' events held ran
      obtain ⟨⟨info₁, events₁⟩, call, ran⟩ := Option.bind_eq_some_iff.mp ran
      obtain ⟨⟨info₂, events₂⟩, later, ran⟩ := Option.bind_eq_some_iff.mp ran
      cases ran
      exact stays_trans (del_stays held call) fun live₁ held₁ => restKeeps _ _ _ _ held₁ later
  | update timerNid timeout callback rest callbackKeeps restKeeps =>
      intro info live info' events held ran
      obtain ⟨⟨ret, info₁, events₁⟩, call, ran⟩ := Option.bind_eq_some_iff.mp ran
      obtain ⟨⟨info₂, events₂⟩, later, ran⟩ := Option.bind_eq_some_iff.mp ran
      cases ran
      exact stays_trans (update_stays held callbackKeeps call) fun live₁ held₁ =>
        restKeeps _ _ _ _ held₁ later

theorem bucket_stays {callbacks : Nat → Script} (fuel : Nat) : ∀ {info info' : TimernInfo}
    {live : List Nat} {turn : Nat} {events : List TimerEvent}, Held info live →
      invokeBucket callbacks fuel turn info = some (info', events) → Stays info live info' := by
  induction fuel with
  | zero =>
      intro info info' live turn events _ ran
      cases ran
  | succ fuel ih =>
      intro info info' live turn events held ran
      obtain ⟨p, head, ran⟩ := Option.bind_eq_some_iff.mp ran
      split at ran
      · cases ran
        exact stays_refl held
      · next filled =>
          obtain ⟨⟨info₁, events₁⟩, node, ran⟩ := Option.bind_eq_some_iff.mp ran
          obtain ⟨⟨info₂, events₂⟩, later, ran⟩ := Option.bind_eq_some_iff.mp ran
          cases ran
          obtain ⟨place, placed⟩ := held.placed
          have inside : info.uiCurrentTime.toNat % N_DAY < info.pstHASHGINFO.uiHashSize := by
            rw [held.size]
            exact Nat.mod_lt _ (by decide)
          unfold TimernInfo.currentHead at head
          split at head
          · cases head
            have first := first_linked placed inside filled
            have member := (bucket_subset first).1
            exact stays_trans (run_node_stays held member (script_stays _) node)
              fun live₁ held₁ => ih held₁ later
          · cases head

theorem seconds_stays {callbacks : Int → Nat → Script} {tt : Nat} (fuel : Nat) :
    ∀ {info info' : TimernInfo} {live : List Nat} {events : List TimerEvent}, Held info live →
      invokeSeconds callbacks tt fuel info = some (info', events) → Stays info live info' := by
  induction fuel with
  | zero =>
      intro info info' live events _ ran
      cases ran
  | succ fuel ih =>
      intro info info' live events held ran
      rw [invokeSeconds] at ran
      split at ran
      · obtain ⟨⟨info₁, events₁⟩, bucket, ran⟩ := Option.bind_eq_some_iff.mp ran
        dsimp only at ran
        split at ran
        · obtain ⟨⟨info₂, events₂⟩, later, ran⟩ := Option.bind_eq_some_iff.mp ran
          cases ran
          apply stays_trans (bucket_stays _ held bucket)
          intro live₁ held₁
          have next : Held { info₁ with uiCurrentTime := info₁.uiCurrentTime + 1 } live₁ :=
            ⟨held₁.func, held₁.size, held₁.max, held₁.placed⟩
          have stays := ih next later
          exact stays
        · cases ran
      · cases ran
        exact stays_refl held

theorem step_held {call : Call} (held : Held info live)
    (ran : info.step call = some (events, info')) : ∃ live', Held info' live' := by
  cases call with
  | script calls =>
      obtain ⟨⟨after, events'⟩, called, same⟩ := Option.map_eq_some_iff.mp ran
      cases same
      obtain ⟨live', held', -⟩ := script_stays calls _ _ _ _ held called
      exact ⟨live', held'⟩
  | invoke clock callbacks =>
      obtain ⟨⟨after, events'⟩, called, same⟩ := Option.map_eq_some_iff.mp ran
      cases same
      obtain ⟨live', held', -⟩ := seconds_stays _ held called
      exact ⟨live', held'⟩

/-- Whatever the calls and the callbacks are, the wheel stays one. -/
theorem run_held {clock : Int} {heap : Nat → HashgNode TimernKey TimernData} {calls : List Call}
    {answers : List (List TimerEvent)}
    (ran : replay TimernInfo.step (timernInit clock heap) calls = some (answers, info)) :
    ∃ live, Held info live := by
  have max : u32 (N_DAY * 10) < 2 ^ 32 := by decide
  have linked : Linked (timernInit clock heap).pstHASHGINFO [] :=
    init_linked timernTimeoutFunc N_DAY (u32 (N_DAY * 10)) heap
  have start : Held (timernInit clock heap) [] := ⟨rfl, rfl, max, _, linked_placed linked⟩
  have later : ∀ (calls : List Call) (before : TimernInfo) (live : List Nat)
      (answers : List (List TimerEvent)), Held before live →
        replay TimernInfo.step before calls = some (answers, info) → ∃ live', Held info live' := by
    intro calls
    induction calls with
    | nil =>
        intro before live answers held ran
        cases ran
        exact ⟨live, held⟩
    | cons call rest ih =>
        intro before live answers held ran
        obtain ⟨⟨events, next⟩, step, ran⟩ := Option.bind_eq_some_iff.mp ran
        obtain ⟨⟨others, final⟩, ran, same⟩ := Option.bind_eq_some_iff.mp ran
        cases same
        obtain ⟨live', held'⟩ := step_held held step
        exact ih next live' others held' ran
  exact later calls _ [] answers start ran

end Reached

section Far

/-- A deadline beyond the window leaves the wheel as it was, and an id that is returned names a
timer that `timerN_del` deletes. -/
structure UpdateSound (info : TimernInfo) (timerNid : TimernKey) (timeout : Int)
    (invoke : TimernInfo → Option (TimernInfo × List TimerEvent)) : Prop where
  refused : ∀ latest, info.latest = some latest → latest < timeout →
    ∃ ret, timernUpdate info timerNid timeout invoke = some (ret, info, [])
  removable : ∀ key info' events,
    timernUpdate info timerNid timeout invoke = some (some key, info', events) →
      ∃ p info'', hashgFind info'.pstHASHGINFO key = some (some p) ∧
        timernDel info' key = some (info'', [.deleted p])

/-- No timer has the id, or the id names the deadline already. -/
def WritesNothing (info : TimernInfo) (timerNid : TimernKey) (timeout : Int) : Prop :=
  hashgFind info.pstHASHGINFO timerNid = some none ∨ s32 timeout = timerNid.sTimeKey

/-- The window ends later than the current second. -/
theorem latest_ahead {latest : Int} (window : info.latest = some latest) :
    info.uiCurrentTime < latest := by
  unfold TimernInfo.latest at window
  split at window
  · cases window
    simp only [N_DAY, ONE_MINUTE]
    omega
  · cases window

theorem update_far (held : Held info live)
    (found : hashgFind info.pstHASHGINFO timerNid = some (some p)) {latest : Int}
    (window : info.latest = some latest) (far : latest < timeout) :
    timernUpdate info timerNid timeout invoke =
      some (some { timerNid with sTimeKey := s32 timeout },
        { info with
          pstHASHGINFO := keyed info.pstHASHGINFO p { timerNid with sTimeKey := s32 timeout } },
        []) := by
  have ahead := latest_ahead window
  rw [update_cases held found, if_neg (by omega), window, Option.map_some, if_neg (by omega)]

/-- A key that is written over with itself. -/
theorem keyed_same (held : Held info live)
    (found : hashgFind info.pstHASHGINFO timerNid = some (some p)) :
    keyed info.pstHASHGINFO p timerNid = info.pstHASHGINFO := by
  obtain ⟨-, same⟩ := held_found held found
  have node : { info.pstHASHGINFO.node p with pstKey := timerNid } = info.pstHASHGINFO.node p := by
    rw [← same]
  rw [keyed, node, Function.update_eq_self]

/-- In every table, an update is sound exactly where a deadline beyond the window writes nothing. -/
theorem update_sound_iff (held : Held info live) (timerNid : TimernKey) (timeout : Int)
    (invoke : TimernInfo → Option (TimernInfo × List TimerEvent)) :
    UpdateSound info timerNid timeout invoke ↔
      ∀ latest, info.latest = some latest → latest < timeout →
        WritesNothing info timerNid timeout := by
  obtain ⟨found, search⟩ := held_search held timerNid
  constructor
  · intro sound latest window far
    cases found with
    | none => exact Or.inl search
    | some p =>
        right
        obtain ⟨ret, updated⟩ := sound.refused latest window far
        rw [update_far held search window far, Option.some.injEq, Prod.mk.injEq,
          Prod.mk.injEq] at updated
        have key := congrArg (fun info => (info.pstHASHGINFO.node p).pstKey) updated.2.1
        have old := (held_found held search).2
        dsimp only at key
        rw [old] at key
        have written : ((keyed info.pstHASHGINFO p
            { timerNid with sTimeKey := s32 timeout }).node p).pstKey =
              { timerNid with sTimeKey := s32 timeout } := by
          simp [keyed]
        rw [written] at key
        exact congrArg TimernKey.sTimeKey key
  · intro nothing
    cases found with
    | none =>
        constructor
        · intro latest window far
          exact ⟨none, update_unknown_id search timeout invoke⟩
        · intro key info' events updated
          rw [update_unknown_id search] at updated
          cases updated
    | some p =>
        -- beyond the window the key that is written is the one that was found
        have same : ∀ latest, info.latest = some latest → latest < timeout →
            timernUpdate info timerNid timeout invoke = some (some timerNid, info, []) := by
          intro latest window far
          have key : { timerNid with sTimeKey := s32 timeout } = timerNid := by
            rcases nothing latest window far with absent | same
            · rw [search] at absent
              cases absent
            · rw [same]
          rw [update_far held search window far, key, keyed_same held search]
        constructor
        · intro latest window far
          exact ⟨some timerNid, same latest window far⟩
        · intro key info' events updated
          by_cases passed : timeout ≤ info.uiCurrentTime
          · rw [update_cases held search, if_pos passed] at updated
            obtain ⟨ran, -, kept⟩ := Option.map_eq_some_iff.mp updated
            cases kept
          · cases window : info.latest with
            | none =>
                rw [update_cases held search, if_neg passed, window] at updated
                cases updated
            | some latest =>
                by_cases inside : timeout ≤ latest
                · rw [update_cases held search, if_neg passed, window, Option.map_some,
                    if_pos inside] at updated
                  cases updated
                  obtain ⟨member, -⟩ := held_found held search
                  obtain ⟨-, -, held', found⟩ :=
                    rekeyed_held held member { timerNid with sTimeKey := s32 timeout }
                  obtain ⟨info'', deleted, -⟩ := held_deletes held' found
                  exact ⟨p, info'', found, deleted⟩
                · rw [same latest window (Int.not_le.mp inside)] at updated
                  cases updated
                  obtain ⟨info'', deleted, -⟩ := held_deletes held search
                  exact ⟨p, info'', search, deleted⟩

/-- A timer for the second 200, in a wheel that starts at 100. -/
def oneTimer : List Call := [.script (.add ⟨7, []⟩ 200 nextBlock .done .done)]

theorem update_sound_one_timer : ∃ answers info,
    replay TimernInfo.step (timernInit 100 blankHeap) oneTimer = some (answers, info) ∧
      (UpdateSound info ⟨2, 200⟩ 300 quiet ↔
        ∀ latest, info.latest = some latest → latest < 300 → WritesNothing info ⟨2, 200⟩ 300) := by
  have runs : (replay TimernInfo.step (timernInit 100 blankHeap) oneTimer).isSome = true := by
    decide +kernel
  obtain ⟨⟨answers, info⟩, ran⟩ := Option.isSome_iff_exists.mp runs
  obtain ⟨live, held⟩ := run_held ran
  exact ⟨answers, info, ran, update_sound_iff held ⟨2, 200⟩ 300 quiet⟩

/-- After an update beyond the window neither the old id nor the one returned is found. -/
theorem far_update_hides_timer : ∃ answers info info',
    replay TimernInfo.step (timernInit 100 blankHeap) oneTimer = some (answers, info) ∧
      timernUpdate info ⟨2, 200⟩ 90000 quiet = some (some ⟨2, 90000⟩, info', []) ∧
      hashgFind info'.pstHASHGINFO ⟨2, 90000⟩ = some none ∧
      hashgFind info'.pstHASHGINFO ⟨2, 200⟩ = some none ∧
      ¬UpdateSound info ⟨2, 200⟩ 90000 quiet := by
  have runs : (replay TimernInfo.step (timernInit 100 blankHeap) oneTimer).bind (fun ran =>
      (timernUpdate ran.2 ⟨2, 200⟩ 90000 quiet).map fun updated =>
        (updated.1, updated.2.2, hashgFind updated.2.1.pstHASHGINFO ⟨2, 90000⟩,
          hashgFind updated.2.1.pstHASHGINFO ⟨2, 200⟩)) =
            some (some ⟨2, 90000⟩, [], some none, some none) := by
    decide +kernel
  obtain ⟨⟨answers, info⟩, ran, runs⟩ := Option.bind_eq_some_iff.mp runs
  obtain ⟨⟨ret, info', events⟩, updated, same⟩ := Option.map_eq_some_iff.mp runs
  dsimp only at updated same
  rw [Prod.mk.injEq, Prod.mk.injEq, Prod.mk.injEq] at same
  obtain ⟨rfl, rfl, hidden, gone⟩ := same
  refine ⟨answers, info, info', ran, updated, hidden, gone, ?_⟩
  intro sound
  obtain ⟨p, info'', found, -⟩ := sound.removable _ _ _ updated
  rw [hidden] at found
  cases found

end Far

end Upst.Timern
