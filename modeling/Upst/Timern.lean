import Upst.Hashg
import Upst.Deadlines
import Mathlib.Data.Int.Init

/-!
The timer wheel: one bucket for every second of a day, and a current time that
`timerN_invoke` moves on second by second. What a callback does while it runs is given as a
script of calls, which may invoke further callbacks; each call reports what happens to the
timers as events. Signed overflow and a negative index have no result.
-/

namespace Upst.Timern

open Word Hashg Deadlines

set_option autoImplicit false

def N_DAY : Nat := 24 * 3600
def ONE_MINUTE : Nat := 60

/-- `TIMERNID` is the image of a key. -/
structure TimernKey where
  uiTimerNIdIndex : Nat
  sTimeKey : Int
  deriving DecidableEq, Repr

structure TimernData where
  invoke_func : Nat
  arg : List UInt8
  deriving DecidableEq, Repr

structure TimernInfo where
  pstHASHGINFO : HashgInfo TimernKey TimernData
  uiNodeCnt : Nat
  uiTimerNIdIndex : Nat
  uiCurrentTime : Int

/-- A timer is the node it is in. -/
abbrev TimerEvent := Event Nat TimernData

/-- The calls of a callback; `callback` are those of the callback that a call invokes. -/
inductive Script where
  | done
  | add (data : TimernData) (timeout : Int) (malloc : List Nat → Option Nat) (callback rest : Script)
  | del (timerNid : TimernKey) (rest : Script)
  | update (timerNid : TimernKey) (timeout : Int) (callback rest : Script)

/-- `(U32) sTimeKey % uiHashSize`. -/
def timernTimeoutFunc (key : TimernKey) : Nat := (key.sTimeKey % 2 ^ 32).toNat % N_DAY

/-- `clock` is `time(0)`, `heap` what the blocks of nodes hold before. -/
def timernInit (clock : Int) (heap : Nat → HashgNode TimernKey TimernData) : TimernInfo where
  pstHASHGINFO := hashgInit timernTimeoutFunc N_DAY heap
  uiNodeCnt := 0
  uiTimerNIdIndex := 1
  uiCurrentTime := s32 clock

/-- `uiCurrentTime + N_DAY - ONE_MINUTE`. -/
def TimernInfo.latest (info : TimernInfo) : Option Int :=
  if info.uiCurrentTime + N_DAY < 2 ^ 31 then some (info.uiCurrentTime + N_DAY - ONE_MINUTE)
  else none

/-- `invoke` runs the callback. The returned id is `none` for 0. -/
def timernAdd (info : TimernInfo) (data : TimernData) (timeout : Int) (malloc : List Nat → Option Nat)
    (invoke : TimernInfo → Option (TimernInfo × List TimerEvent)) :
    Option (Option TimernKey × TimernInfo × List TimerEvent) :=
  if timeout ≤ info.uiCurrentTime then do
    let (info, events) ← invoke info
    some (none, info, .ranAtOnce timeout data :: events)
  else do
    let info := { info with uiTimerNIdIndex := u32 (info.uiTimerNIdIndex + 1) }
    let key :=
      { uiTimerNIdIndex := info.uiTimerNIdIndex
        sTimeKey := s32 timeout }
    let latest ← info.latest
    if timeout ≤ latest then do
      let (p, hash) ← hashgAdd info.pstHASHGINFO key data (malloc info.pstHASHGINFO.alloced)
      match p with
      | none => some (none, { info with pstHASHGINFO := hash }, [.refused data])
      | some p =>
          some (some key,
            { info with pstHASHGINFO := hash, uiNodeCnt := u32 (info.uiNodeCnt + 1) },
            [.accepted p timeout data])
    else some (none, info, [.refused data])

def timernDel (info : TimernInfo) (timerNid : TimernKey) : Option (TimernInfo × List TimerEvent) := do
  match ← hashgFind info.pstHASHGINFO timerNid with
  | none => some (info, [])
  | some p => do
      let hash ← hashgDel info.pstHASHGINFO p
      some ({ info with pstHASHGINFO := hash, uiNodeCnt := u32Pred info.uiNodeCnt }, [.deleted p])

/-- A linked node is unlinked, its callback runs, and then its block is freed. -/
def TimernInfo.runNode (info : TimernInfo) (p : Nat)
    (invoke : TimernInfo → Option (TimernInfo × List TimerEvent)) : Option (TimernInfo × List TimerEvent) := do
  let hash ← hashgUnlinkNode info.pstHASHGINFO p
  let (info, events) ← invoke
    { info with pstHASHGINFO := hash, uiNodeCnt := u32Pred info.uiNodeCnt }
  let hash ← info.pstHASHGINFO.free p
  some ({ info with pstHASHGINFO := hash }, events)

/-- The key is changed before the deadline is looked at. -/
def timernUpdate (info : TimernInfo) (timerNid : TimernKey) (timeout : Int)
    (invoke : TimernInfo → Option (TimernInfo × List TimerEvent)) :
    Option (Option TimernKey × TimernInfo × List TimerEvent) := do
  match ← hashgFind info.pstHASHGINFO timerNid with
  | none => some (none, info, [])
  | some p => do
      let data := (info.pstHASHGINFO.node p).pstData
      let key := { timerNid with sTimeKey := s32 timeout }
      let hash ← info.pstHASHGINFO.setKey p key
      let info := { info with pstHASHGINFO := hash }
      if timeout ≤ info.uiCurrentTime then do
        let (info, events) ← info.runNode p invoke
        some (none, info, .ranLate p timeout data :: events)
      else do
        let latest ← info.latest
        if timeout ≤ latest then do
          let hash ← hashgUnlinkNode info.pstHASHGINFO p
          let hash ← hashgLinkNode hash p
          some (some key, { info with pstHASHGINFO := hash }, [.moved p timeout])
        else some (some key, info, [])

/-- The calls of a script in turn. -/
def runScript : Script → TimernInfo → Option (TimernInfo × List TimerEvent)
  | .done, info => some (info, [])
  | .add data timeout malloc callback rest, info => do
      let (_, info, events) ← timernAdd info data timeout malloc (runScript callback)
      let (info, later) ← runScript rest info
      some (info, events ++ later)
  | .del timerNid rest, info => do
      let (info, events) ← timernDel info timerNid
      let (info, later) ← runScript rest info
      some (info, events ++ later)
  | .update timerNid timeout callback rest, info => do
      let (_, info, events) ← timernUpdate info timerNid timeout (runScript callback)
      let (info, later) ← runScript rest info
      some (info, events ++ later)

/-- `psthashnode[uiCurrentTime % N_DAY]`. -/
def TimernInfo.currentHead (info : TimernInfo) : Option Nat :=
  if 0 ≤ info.uiCurrentTime then
    some (info.pstHASHGINFO.psthashnode (info.uiCurrentTime.toNat % N_DAY))
  else none

/-- The inner loop of `timerN_invoke`; `callbacks` are the calls of the callbacks it runs, in
turn. -/
def invokeBucket (callbacks : Nat → Script) : Nat → Nat → TimernInfo → Option (TimernInfo × List TimerEvent)
  | 0, _, _ => none
  | fuel + 1, turn, info => do
      let p ← info.currentHead
      if p = 0 then some (info, [])
      else do
        let data := (info.pstHASHGINFO.node p).pstData
        let (info, events) ← info.runNode p (runScript (callbacks turn))
        let (info, later) ← invokeBucket callbacks fuel (turn + 1) info
        some (info, .ran p data :: events ++ later)

/-- The outer loop. Its tests are on `U32`; as many turns as there are nodes empty a bucket. -/
def invokeSeconds (callbacks : Int → Nat → Script) (tt : Nat) :
    Nat → TimernInfo → Option (TimernInfo × List TimerEvent)
  | 0, _ => none
  | fuel + 1, info =>
      if (info.uiCurrentTime % 2 ^ 32).toNat ≤ tt then do
        let (info, events) ← invokeBucket (callbacks info.uiCurrentTime)
          (info.pstHASHGINFO.uiLinkedCnt + 1) 0 info
        if info.uiCurrentTime + 1 < 2 ^ 31 then do
          let (info, later) ← invokeSeconds callbacks tt fuel
            { info with uiCurrentTime := info.uiCurrentTime + 1 }
          some (info, events ++ .second :: later)
        else none
      else some (info, [])

/-- `clock` is `time(0)`; the calls of a callback go by the second and the turn it runs in. -/
def timernInvoke (clock : Int) (callbacks : Int → Nat → Script) (info : TimernInfo) :
    Option (TimernInfo × List TimerEvent) :=
  let tt := (clock % 2 ^ 32).toNat
  invokeSeconds callbacks tt (tt + 2) info

/-- What the program does between two calls of `timerN_invoke`, and such a call. -/
inductive Call where
  | script (calls : Script)
  | invoke (clock : Int) (callbacks : Int → Nat → Script)

def TimernInfo.step (info : TimernInfo) : Call → Option (List TimerEvent × TimernInfo)
  | .script calls => (runScript calls info).map Prod.swap
  | .invoke clock callbacks => (timernInvoke clock callbacks info).map Prod.swap

end Upst.Timern
