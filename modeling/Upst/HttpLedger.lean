import Upst.HttpRounds

/-!
The ledger of `A_HTTP`. The events of a run tell which requests were entered, answered, logged and
taken out of the table again; the counters of the session and the table of transactions are to
tell the same.
-/

namespace Upst.Http

set_option autoImplicit false

instance (key : TransKey) (client : TSessKey) : Decidable (key.ofClient client) :=
  inferInstanceAs (Decidable (_ ∧ _))

/-! ## What the events tell -/

/-- A transaction that was entered and has not left. -/
structure Entry where
  key : TransKey
  answered : Bool
  logged : Bool
  deriving DecidableEq, Repr

def Entry.enter (key : TransKey) : Entry where
  key := key
  answered := false
  logged := false

/-- A response is for the oldest request that is not answered yet. -/
def answer (key : TransKey) : List Entry → Option (List Entry)
  | [] => none
  | entry :: rest =>
      if entry.answered then (answer key rest).map (List.cons entry)
      else if entry.key = key then some ({ entry with answered := true } :: rest)
      else none

/-- One log is sent for a transaction. -/
def send (key : TransKey) : List Entry → Option (List Entry)
  | [] => none
  | entry :: rest =>
      if entry.key = key then
        if entry.logged then none else some ({ entry with logged := true } :: rest)
      else (send key rest).map (List.cons entry)

/-- A transaction leaves once its log is sent. -/
def leave (key : TransKey) : List Entry → Option (List Entry)
  | [] => none
  | entry :: rest =>
      if entry.key = key then
        if entry.logged then some rest else none
      else (leave key rest).map (List.cons entry)

def LogHttp.key (log : LogHttp) : TransKey where
  uiCliIP := log.uiClientIP
  usCliPort := log.usClientPort
  usHttpTransID := log.usTransID

def replayEvent (client : TSessKey) (entries : List Entry) : Event → Option (List Entry)
  | .entered key =>
      if key.ofClient client then some (entries ++ [.enter key]) else some entries
  | .attached key _ _ => if key.ofClient client then answer key entries else some entries
  | .written _ (.log _ record _) =>
      if record.key.ofClient client then send record.key entries else some entries
  | .left key => if key.ofClient client then leave key entries else some entries
  | _ => some entries

/-- The transactions of the client that are still there, oldest first; `none` when one of them was
not answered in its turn, or left without the one log. -/
def replay (client : TSessKey) (events : List Event) : Option (List Entry) :=
  events.foldlM (replayEvent client) []

/-- The transactions that the counters name. -/
def Books.pending (client : TSessKey) (books : Books) : List TransKey :=
  (List.range books.cur).map fun i => makeHttpHashKey client (books.first + i)

def pendingOf (client : TSessKey) (books : Option Books) : List TransKey :=
  books.elim [] (Books.pending client)

def World.books (world : World) (client : TSessKey) : Option Books :=
  (world.tcp.lookup client).map TSess.books

/-- The table holds the transactions that the counters of the sessions name, and no other. They
were all entered, none of them is answered yet, and every other one that was entered has left with
one log. -/
structure Ledgered (world : World) : Prop where
  entries : ∀ client : TSessKey, client.usReserved = 0 → ∀ key : TransKey, key.ofClient client →
    (key ∈ world.http ↔ key ∈ pendingOf client (world.books client))
  next : ∀ client : TSessKey, client.usReserved = 0 → ∀ books, world.books client = some books →
    0 < books.cur → books.next = (books.first + books.cur) % 2 ^ 16
  count : world.curSessCnt = world.http.keys.length
  history : ∀ client : TSessKey, client.usReserved = 0 → replay client world.events =
    some ((pendingOf client (world.books client)).map .enter)

theorem replay_plain {event : Event} (plain : event.plain = true) (client : TSessKey)
    (entries : List Entry) : replayEvent client entries event = some entries := by
  cases event with
  | written dest parcel =>
      cases parcel with
      | node name => rfl
      | log name record linked => cases plain
  | entered key => cases plain
  | attached key hdr body => cases plain
  | left key => cases plain
  | read node => rfl
  | alloc node => rfl
  | delete nodes => rfl
  | dropped parcel => rfl
  | status client line => rfl
  | refused key => rfl

theorem replay_all_plain {more : List Event} (plain : ∀ event ∈ more, event.plain = true)
    (client : TSessKey) (entries : List Entry) :
    more.foldlM (replayEvent client) entries = some entries := by
  induction more with
  | nil => rfl
  | cons event more ih =>
      rw [List.foldlM_cons, replay_plain (plain event List.mem_cons_self)]
      exact ih fun other member => plain other (List.mem_cons_of_mem _ member)

theorem replay_append (client : TSessKey) (events more : List Event) {entries : List Entry}
    (before : replay client events = some entries) :
    replay client (events ++ more) = more.foldlM (replayEvent client) entries := by
  rw [replay, List.foldlM_append, ← replay, before]
  rfl

/-! ## What a served session relies on -/

/-- Every call that `dProcStatus` makes is granted, and so is the sending of a log. -/
structure Supplied (env : Env) : Prop where
  node : ∀ isNotREQ body client number, env.grants (.node .status isNotREQ body) client number
  tlv : ∀ isNotREQ body client number, env.grants (.tlv .status isNotREQ body) client number
  logNode : ∀ client number, env.grants .logNode client number
  logTlv : ∀ client number, env.grants .logTlv client number
  addTrans : ∀ client number, env.grants .addTrans client number
  writeLog : ∀ client number, env.grants .writeLog client number

section Supplied

variable {env : Env} (supplied : Supplied env) (client : TSessKey)

include supplied

theorem pAllocDataNode_supplied (isNotREQ body : Bool) (world : World) : ∃ chain after,
    pAllocDataNode env client .status isNotREQ body world = (some chain, after) ∧
      Passes world after := by
  have passes := pAllocDataNode_passes env client .status isNotREQ body world
  have alloc : ∃ chain after,
      pAllocDataNode env client .status isNotREQ body world = (some chain, after) := by
    rw [pAllocDataNode, nifoNodeAlloc, granted, supplied.node]
    dsimp only
    rw [granted, supplied.tlv]
    exact ⟨_, _, rfl⟩
  obtain ⟨chain, after, eq⟩ := alloc
  rw [eq] at passes
  exact ⟨chain, after, eq, passes⟩

/-- The log of a transaction is handed over, or dropped for want of a destination. -/
def closedWorld (client : TSessKey) (key : TransKey) (trans : Trans) (sess : TSess)
    (world : World) : World :=
  { (if 0 < trans.dSndMsgQ then world.called client else world).emit
      (handOver trans.dSndMsgQ (.log trans.logNode (closeLog sess trans) trans.linked)) with
    curSessCnt := world.curSessCnt - 1
    http := world.http.erase key }.emit (.left key)

theorem dCloseHttpTrans_supplied (key : TransKey) (trans : Trans) (sess : TSess) (world : World) :
    dCloseHttpTrans env client key trans sess world =
      (sess.initCount.leaveTrans, closedWorld client key trans sess world) := by
  rw [dCloseHttpTrans, dSendHTTPData, closedWorld, handOver]
  by_cases served : 0 < trans.dSndMsgQ
  · rw [if_pos served, if_pos served, if_pos served, granted, supplied.writeLog]
    rfl
  · rw [if_neg served, if_neg served, if_neg served]
    rfl

/-- What `dProcStatus` does for a request whose nodes are allocated. -/
theorem dProcStatusReq_supplied (failCode : Nat) (sess : TSess) (world : World) :
    ∃ hdr body node middle, Passes world middle ∧ dProcStatusReq env client failCode sess world =
      match addTrans env client (makeHttpHashKey client sess.usNextTransID)
        (newTrans env client failCode sess node) middle with
      | (false, after) => ((-114, (sess.setChains false (some hdr) (some body)).initCount),
          after.emit (.delete [node]))
      | (true, after) =>
          ((0, ((sess.setChains false (some hdr) (some body)).initCount.enterTrans).clearMsg false),
            after) := by
  obtain ⟨hdr, world₁, hdrEq, hdrPasses⟩ :=
    pAllocDataNode_supplied supplied client false false world
  obtain ⟨body, world₂, bodyEq, bodyPasses⟩ :=
    pAllocDataNode_supplied supplied client false true world₁
  have passes := (hdrPasses.trans_passes bodyPasses).trans_passes
    (nifoNodeAlloc_passes env client .logNode world₂)
  have nodeEq : nifoNodeAlloc env client .logNode world₂ =
      (some (.alloc client (world₂.calls client)),
        (world₂.called client).emit (.alloc (.alloc client (world₂.calls client)))) := by
    rw [nifoNodeAlloc, granted, supplied.logNode]
  rw [nodeEq] at passes
  refine ⟨hdr, body, .alloc client (world₂.calls client), _,
    passes.trans_passes (passes_called client _), ?_⟩
  rw [dProcStatusReq, hdrEq]
  dsimp only
  rw [bodyEq]
  dsimp only
  rw [nodeEq]
  dsimp only
  have taken (world : World) : granted env client .logTlv world = (true, world.called client) := by
    rw [granted, supplied.logTlv]
  split
  · next refused =>
      rw [taken] at refused
      cases refused
  · next taking =>
      rw [taken] at taking
      cases taking
      rfl

/-- A request enters the table when the next identifier is free. -/
theorem dProcStatusReq_enters (failCode : Nat) (sess : TSess) (world : World)
    (free : world.http.lookup (makeHttpHashKey client sess.usNextTransID) = none) :
    ∃ hdr body node middle, dProcStatusReq env client failCode sess world =
      ((0, ((sess.setChains false (some hdr) (some body)).initCount.enterTrans).clearMsg false),
        { middle with
          http := middle.http.insert (makeHttpHashKey client sess.usNextTransID)
            (newTrans env client failCode sess node) }.emit
          (.entered (makeHttpHashKey client sess.usNextTransID))) ∧
      Passes world middle := by
  obtain ⟨hdr, body, node, middle, passes, done⟩ :=
    dProcStatusReq_supplied supplied client failCode sess world
  have freeNow := (congrArg (AList.lookup _) passes.http).trans free
  refine ⟨hdr, body, node, middle.called client, ?_, passes.trans_passes (passes_called client _)⟩
  rw [done, addTrans, freeNow]
  dsimp only
  rw [granted, supplied.addTrans]

/-- The next identifier is still in the table. -/
theorem dProcStatusReq_refused (failCode : Nat) (sess : TSess) (world : World) {taken : Trans}
    (found : world.http.lookup (makeHttpHashKey client sess.usNextTransID) = some taken) :
    ∃ hdr body node middle, dProcStatusReq env client failCode sess world =
      ((-114, (sess.setChains false (some hdr) (some body)).initCount),
        (middle.emit (.refused (makeHttpHashKey client sess.usNextTransID))).emit
          (.delete [node])) ∧
      Passes world middle := by
  obtain ⟨hdr, body, node, middle, passes, done⟩ :=
    dProcStatusReq_supplied supplied client failCode sess world
  have foundNow := (congrArg (AList.lookup _) passes.http).trans found
  refine ⟨hdr, body, node, middle, ?_, passes⟩
  rw [done, addTrans, foundNow]

/-- The transaction found takes the response, and is closed. -/
theorem dProcStatusRes_closes (failCode : Nat) (sess : TSess) (world : World) {trans : Trans}
    (found : world.http.lookup (makeHttpHashKey client sess.usFirstTransID) = some trans) :
    ∃ hdr body middle, dProcStatusRes env client failCode sess world =
      ((0, ((sess.setChains true (some hdr) (some body)).initCount.initCount.leaveTrans).clearMsg
        true),
        closedWorld client (makeHttpHashKey client sess.usFirstTransID)
          { trans.attach failCode sess with
            log := resLog sess (trans.attach failCode sess) trans.log }
          (sess.setChains true (some hdr) (some body)).initCount middle) ∧
      Passes
        ({ world with
          http := world.http.insert (makeHttpHashKey client sess.usFirstTransID)
            (trans.attach failCode sess) }.emit
          (.attached (makeHttpHashKey client sess.usFirstTransID) sess.res.hdr sess.res.body))
        middle := by
  obtain ⟨hdr, world₁, hdrEq, hdrPasses⟩ := pAllocDataNode_supplied supplied client true false
    ({ world with
      http := world.http.insert (makeHttpHashKey client sess.usFirstTransID)
        (trans.attach failCode sess) }.emit
      (.attached (makeHttpHashKey client sess.usFirstTransID) sess.res.hdr sess.res.body))
  obtain ⟨body, world₂, bodyEq, bodyPasses⟩ :=
    pAllocDataNode_supplied supplied client true true world₁
  refine ⟨hdr, body, world₂, ?_, hdrPasses.trans_passes bodyPasses⟩
  rw [dProcStatusRes, found]
  dsimp only
  rw [hdrEq]
  dsimp only
  rw [bodyEq]
  dsimp only
  rw [dCloseHttpTrans_supplied supplied]

end Supplied

/-! ## The counters -/

section Counters

/-- The counters when a transaction is entered. -/
def Books.enter (books : Books) : Books where
  first := if books.first = 0 then books.next else books.first
  next := (books.next + 1) % 2 ^ 16
  cur := (books.cur + 1) % 2 ^ 16
  app := books.app

/-- The counters when a transaction is closed. -/
def Books.leave (books : Books) : Books :=
  if (books.cur + 65535) % 2 ^ 16 = 0 then { books with first := 0, cur := 0 }
  else { books with
    first := (books.first + 1) % 2 ^ 16
    cur := (books.cur + 65535) % 2 ^ 16 }

/-- The next identifier follows those of the transactions. -/
structure Books.Kept (books : Books) : Prop where
  small : books.cur < 2 ^ 16
  first : books.cur = 0 → books.first = 0
  next : 0 < books.cur → books.next = (books.first + books.cur) % 2 ^ 16
  firstWord : books.first < 2 ^ 16
  nextWord : books.next < 2 ^ 16

/-- A request may be entered: 0 as first identifier tells that there is no transaction, and the
number of transactions can still be counted. -/
structure Books.Orderly (books : Books) : Prop where
  first : books.first = 0 → books.cur = 0
  room : books.cur ≠ 65535

variable (client : TSessKey) {books : Books}

theorem key_congr {i j : Nat} (same : i % 2 ^ 16 = j % 2 ^ 16) :
    makeHttpHashKey client i = makeHttpHashKey client j := by
  rw [makeHttpHashKey, same]
  rfl

theorem pending_nodup (small : books.cur < 2 ^ 16) : (books.pending client).Nodup := by
  apply List.Nodup.map_on _ List.nodup_range
  intro i low j low' same
  rw [List.mem_range] at low low'
  have ids := congrArg TransKey.usHttpTransID same
  simp only [makeHttpHashKey] at ids
  omega

theorem enter_kept (kept : books.Kept) (orderly : books.Orderly) : books.enter.Kept := by
  have small := kept.small
  have first := kept.first
  have next := kept.next
  have firstWord := kept.firstWord
  have nextWord := kept.nextWord
  have orderlyFirst := orderly.first
  have room := orderly.room
  constructor
  · simp only [Books.enter]
    omega
  · simp only [Books.enter]
    omega
  · simp only [Books.enter]
    intro _
    split <;> omega
  · simp only [Books.enter]
    split <;> omega
  · simp only [Books.enter]
    omega

theorem pending_enter (kept : books.Kept) (orderly : books.Orderly) :
    books.enter.pending client = books.pending client ++ [makeHttpHashKey client books.next] := by
  have small := kept.small
  have room := orderly.room
  have count : (books.cur + 1) % 2 ^ 16 = books.cur + 1 := by omega
  simp only [Books.pending, Books.enter, count, List.range_succ, List.map_append, List.map_cons,
    List.map_nil]
  rcases Nat.eq_zero_or_pos books.cur with none | some
  · rw [none, if_pos (kept.first none)]
    rfl
  · have notFirst : books.first ≠ 0 := by
      intro zero
      have none := orderly.first zero
      omega
    rw [if_neg notFirst, kept.next some]
    congr 2
    apply key_congr
    omega

theorem leave_kept (kept : books.Kept) (some : 0 < books.cur) : books.leave.Kept := by
  have small := kept.small
  have next := kept.next some
  have firstWord := kept.firstWord
  have nextWord := kept.nextWord
  rw [Books.leave]
  split
  · exact ⟨Nat.two_pow_pos 16, fun _ => rfl, fun impossible => absurd impossible (Nat.lt_irrefl 0),
      Nat.two_pow_pos 16, nextWord⟩
  · constructor
    · dsimp only
      omega
    · dsimp only
      omega
    · dsimp only
      omega
    · dsimp only
      omega
    · exact nextWord

theorem pending_leave (kept : books.Kept) (some : 0 < books.cur) :
    books.pending client =
      makeHttpHashKey client books.first :: books.leave.pending client := by
  have small := kept.small
  obtain ⟨count, countEq⟩ := Nat.exists_eq_add_of_lt some
  have turned : (books.cur + 65535) % 2 ^ 16 = count := by omega
  rw [Nat.zero_add] at countEq
  rw [Books.pending, countEq, List.range_succ_eq_map, List.map_cons, List.map_map, Books.leave,
    turned]
  refine congrArg₂ List.cons rfl ?_
  split
  · rename_i none
    rw [none]
    rfl
  · apply List.map_congr_left
    intro i _
    apply key_congr
    dsimp only
    omega

theorem leave_cur (books : Books) : books.leave.cur = (books.cur + 65535) % 2 ^ 16 := by
  rw [Books.leave]
  split
  · rename_i none
    exact none.symm
  · rfl

theorem leave_first {books : Books} (some : 0 < books.leave.cur) :
    books.leave.first = (books.first + 1) % 2 ^ 16 := by
  rw [Books.leave] at some ⊢
  split at some
  · cases some
  · rename_i more
    rw [if_neg more]

/-- `next` are the counters once the first of the transactions that `page` names is closed. -/
structure Turned (client : TSessKey) (page next : Books) : Prop where
  pending : page.pending client = makeHttpHashKey client page.first :: next.pending client
  kept : next.Kept
  app : next.app = page.app
  cur : next.cur + 1 = page.cur
  first : 0 < next.cur → next.first = (page.first + 1) % 2 ^ 16

theorem turned_leave (kept : books.Kept) (some : 0 < books.cur) :
    Turned client books books.leave where
  pending := pending_leave client kept some
  kept := leave_kept kept some
  app := by
    rw [Books.leave]
    split <;> rfl
  cur := by
    have small := kept.small
    have less := leave_cur books
    omega
  first := leave_first

end Counters

/-! ## The invariant -/

/-- What the closing of a transaction relies on: its log goes somewhere, under its own key. -/
structure Trans.Queued (trans : Trans) (key : TransKey) : Prop where
  dest : 0 < trans.dSndMsgQ
  own : trans.log.key = key

structure Account (env : Env) (client : TSessKey) (books : Option Books) (world : World) : Prop where
  entries : ∀ key : TransKey, key.ofClient client →
    (key ∈ world.http ↔ key ∈ pendingOf client books)
  history : replay client world.events = some ((pendingOf client books).map .enter)
  kept : ∀ page, books = some page → page.Kept
  served : ∀ page, books = some page → 0 < dGetSeqProcID env.gACALLCnt page.app client.uiCliIP
  queued : ∀ key trans, key.ofClient client → world.http.lookup key = some trans →
    trans.Queued key

/-- The ledger with the counters of the sessions given. -/
structure Balanced (env : Env) (books : TSessKey → Option Books) (world : World) : Prop where
  account : ∀ client : TSessKey, client.usReserved = 0 → Account env client (books client) world
  count : world.curSessCnt = world.http.keys.length

def StatusLine.books (line : StatusLine) : Books where
  first := line.usFirstTransID
  next := line.usNextTransID
  cur := line.usCurTransCnt
  app := 0

/-- A request was once to be entered when the counters did not allow it. -/
def Strayed (world : World) : Prop :=
  ∃ client line, Event.status client line ∈ world.events ∧ line.isNotREQ = false ∧
    ¬ line.books.Orderly

theorem Strayed.later {world after : World} {more : List Event} (strayed : Strayed world)
    (events : after.events = world.events ++ more) : Strayed after := by
  obtain ⟨client, line, member, request, disorder⟩ := strayed
  refine ⟨client, line, ?_, request, disorder⟩
  rw [events]
  exact List.mem_append_left more member

theorem ofClient_other {client other : TSessKey} {key : TransKey} (port : client.usReserved = 0)
    (port' : other.usReserved = 0) (different : other ≠ client) (own : key.ofClient client) :
    ¬ key.ofClient other := by
  intro own'
  apply different
  obtain ⟨ip, cliPort, reserved⟩ := client
  obtain ⟨ip', cliPort', reserved'⟩ := other
  obtain ⟨rfl, rfl⟩ := own
  obtain ⟨rfl, rfl⟩ := own'
  cases port
  cases port'
  rfl

section Balanced

variable {env : Env} {books : TSessKey → Option Books} {world after : World}

theorem Balanced.plain {more : List Event} (balanced : Balanced env books world)
    (http : after.http = world.http) (count : after.curSessCnt = world.curSessCnt)
    (events : after.events = world.events ++ more) (plain : ∀ event ∈ more, event.plain = true) :
    Balanced env books after where
  account other port := by
    have account := balanced.account other port
    refine ⟨?_, ?_, account.kept, account.served, ?_⟩
    · rw [http]
      exact account.entries
    · rw [events, replay_append other _ more account.history]
      exact replay_all_plain plain other _
    · rw [http]
      exact account.queued
  count := by
    rw [count, http]
    exact balanced.count

theorem Balanced.passes (balanced : Balanced env books world) (passes : Passes world after) :
    Balanced env books after := by
  obtain ⟨more, events, plain⟩ := passes.events
  exact balanced.plain passes.http passes.count events plain

theorem Strayed.passes (strayed : Strayed world) (passes : Passes world after) : Strayed after := by
  obtain ⟨more, events, -⟩ := passes.events
  exact strayed.later events

theorem Account.next_free {client : TSessKey} {page : Books}
    (account : Account env client (some page) world) (orderly : page.Orderly) :
    makeHttpHashKey client page.next ∉ world.http := by
  have kept := account.kept page rfl
  have nodup := pending_nodup client (enter_kept kept orderly).small
  rw [pending_enter client kept orderly] at nodup
  intro member
  have inside : makeHttpHashKey client page.next ∈ page.pending client :=
    (account.entries _ (makeHttpHashKey_of_client client page.next)).mp member
  exact (List.nodup_append.mp nodup).2.2 _ inside _ (List.mem_singleton.mpr rfl) rfl

theorem Account.positive {client : TSessKey} {page : Books} {key : TransKey}
    (account : Account env client (some page) world) (own : key.ofClient client)
    (present : key ∈ world.http) : 0 < page.cur := by
  have inside : key ∈ page.pending client := (account.entries key own).mp present
  rw [Books.pending] at inside
  obtain ⟨i, low, -⟩ := List.mem_map.mp inside
  exact Nat.lt_of_le_of_lt (Nat.zero_le i) (List.mem_range.mp low)

/-- Another client is not concerned by what happens under the keys of this one. -/
theorem Account.beside {other : TSessKey} {found : Option Books} {more : List Event}
    (account : Account env other found world)
    (http : ∀ key : TransKey, key.ofClient other →
      after.http.lookup key = world.http.lookup key)
    (events : after.events = world.events ++ more)
    (neutral : ∀ entries, more.foldlM (replayEvent other) entries = some entries) :
    Account env other found after where
  entries key own := by
    rw [← AList.lookup_isSome, http key own, AList.lookup_isSome]
    exact account.entries key own
  history := by
    rw [events, replay_append other _ more account.history]
    exact neutral _
  kept := account.kept
  served := account.served
  queued key trans own lookup := by
    rw [http key own] at lookup
    exact account.queued key trans own lookup

variable {client : TSessKey} (port : client.usReserved = 0)

include port

theorem neutral_other {other : TSessKey} (port' : other.usReserved = 0) (different : other ≠ client)
    {more : List Event} (own : ∀ event ∈ more, event.plain = true ∨
      (∃ key : TransKey, key.ofClient client ∧ (event = .entered key ∨ event = .left key ∨
        ∃ hdr body, event = .attached key hdr body)) ∨
      ∃ dest node record linked, record.key.ofClient client ∧
        event = .written dest (.log node record linked)) (entries : List Entry) :
    more.foldlM (replayEvent other) entries = some entries := by
  induction more with
  | nil => rfl
  | cons event more ih =>
      have single : replayEvent other entries event = some entries := by
        rcases own event List.mem_cons_self with plain | ⟨key, ofClient, about⟩ | ⟨_, _, _, _, ofClient, rfl⟩
        · exact replay_plain plain other entries
        · have foreign := ofClient_other port port' different ofClient
          rcases about with rfl | rfl | ⟨hdr, body, rfl⟩
          · exact if_neg foreign
          · exact if_neg foreign
          · exact if_neg foreign
        · exact if_neg (ofClient_other port port' different ofClient)
      rw [List.foldlM_cons, single]
      exact ih fun other member => own other (List.mem_cons_of_mem _ member)

/-- A transaction is entered under the next identifier. -/
theorem Balanced.enter {page : Books} {trans : Trans}
    (balanced : Balanced env (Function.update books client (some page)) world)
    (orderly : page.Orderly) (queued : trans.Queued (makeHttpHashKey client page.next))
    (http : after.http = world.http.insert (makeHttpHashKey client page.next) trans)
    (count : after.curSessCnt = world.curSessCnt + 1)
    (events : after.events = world.events ++ [.entered (makeHttpHashKey client page.next)]) :
    Balanced env (Function.update books client (some page.enter)) after := by
  have mine := balanced.account client port
  rw [Function.update_self] at mine
  have kept := mine.kept page rfl
  have own := makeHttpHashKey_of_client client page.next
  have split := pending_enter client kept orderly
  have free := mine.next_free orderly
  constructor
  · intro other port'
    by_cases same : other = client
    · subst same
      rw [Function.update_self]
      refine ⟨?_, ?_, ?_, ?_, ?_⟩
      · intro key keyOwn
        rw [http, AList.mem_insert, mine.entries key keyOwn]
        simp only [pendingOf, Option.elim_some, split, List.mem_append, List.mem_singleton]
        exact or_comm
      · rw [events, replay_append other _ _ mine.history]
        simp only [pendingOf, Option.elim_some, split, List.map_append, List.map_cons, List.map_nil]
        exact (congrArg (Option.bind · pure) (if_pos own)).trans rfl
      · intro found eq
        rw [← Option.some.inj eq]
        exact enter_kept kept orderly
      · intro found eq
        rw [← Option.some.inj eq]
        exact mine.served page rfl
      · intro key found keyOwn lookup
        rw [http] at lookup
        by_cases eq : key = makeHttpHashKey other page.next
        · subst eq
          rw [AList.lookup_insert] at lookup
          cases lookup
          exact queued
        · rw [AList.lookup_insert_ne eq] at lookup
          exact mine.queued key found keyOwn lookup
    · have theirs := balanced.account other port'
      rw [Function.update_of_ne same] at theirs ⊢
      refine theirs.beside ?_ events (neutral_other port port' same ?_)
      rotate_left
      · intro event member
        rw [List.mem_singleton] at member
        exact .inr (.inl ⟨_, own, .inl member⟩)
      · intro key keyOwn
        rw [http, AList.lookup_insert_ne]
        intro eq
        subst eq
        exact ofClient_other port port' same own keyOwn
  · have length : (world.http.keys.erase (makeHttpHashKey client page.next)).length =
        world.http.keys.length := by
      rw [List.erase_of_not_mem (fun member => free (AList.mem_keys.mpr member))]
    rw [count, http, AList.keys_insert, List.length_cons, length, balanced.count]
    rfl

/-- The oldest transaction is logged and leaves, perhaps answered just before. -/
theorem Balanced.leave {page next : Books} {key : TransKey} {before : List Event} {dest : Nat}
    {node : NodeId} {record : LogHttp} {linked : List Chain}
    (balanced : Balanced env (Function.update books client (some page)) world)
    (turned : Turned client page next) (keyEq : key = makeHttpHashKey client page.first)
    (present : key ∈ world.http)
    (http : ∀ other, after.http.lookup other = (world.http.erase key).lookup other)
    (size : after.http.keys.length = (world.http.erase key).keys.length)
    (count : after.curSessCnt = world.curSessCnt - 1)
    (events : after.events =
      world.events ++ (before ++ [.written dest (.log node record linked), .left key]))
    (recordKey : record.key = key)
    (own : ∀ event ∈ before, event.plain = true ∨ ∃ hdr body, event = .attached key hdr body)
    (answered : ∀ rest, ∃ flag, before.foldlM (replayEvent client) (.enter key :: rest) =
      some (⟨key, flag, false⟩ :: rest)) :
    Balanced env (Function.update books client (some next)) after := by
  have mine := balanced.account client port
  rw [Function.update_self] at mine
  have kept := mine.kept page rfl
  have keyOwn : key.ofClient client := by
    rw [keyEq]
    exact makeHttpHashKey_of_client client page.first
  have split := turned.pending
  rw [← keyEq] at split
  have nodup := pending_nodup client kept.small
  rw [split] at nodup
  have gone : key ∉ next.pending client := (List.nodup_cons.mp nodup).1
  constructor
  · intro other port'
    by_cases same : other = client
    · subst same
      rw [Function.update_self]
      refine ⟨?_, ?_, ?_, ?_, ?_⟩
      · intro wanted wantedOwn
        rw [← AList.lookup_isSome, http, AList.lookup_isSome, AList.mem_erase,
          mine.entries wanted wantedOwn]
        simp only [pendingOf, Option.elim_some, split, List.mem_cons]
        constructor
        · rintro ⟨different, rfl | later⟩
          · exact absurd rfl different
          · exact later
        · intro later
          exact ⟨fun eq => gone (eq ▸ later), .inr later⟩
      · have history := mine.history
        simp only [pendingOf, Option.elim_some, split, List.map_cons] at history
        obtain ⟨flag, marked⟩ := answered ((next.pending other).map .enter)
        have logged : replayEvent other (⟨key, flag, false⟩ :: (next.pending other).map .enter)
            (.written dest (.log node record linked)) =
            some (⟨key, flag, true⟩ :: (next.pending other).map .enter) := by
          rw [replayEvent, recordKey, if_pos keyOwn, send]
          simp
        have left : replayEvent other (⟨key, flag, true⟩ :: (next.pending other).map .enter)
            (.left key) = some ((next.pending other).map .enter) := by
          rw [replayEvent, if_pos keyOwn, Http.leave]
          simp
        rw [events, replay_append other _ _ history, List.foldlM_append, marked]
        simp only [Option.bind_eq_bind, Option.bind_some, List.foldlM_cons, List.foldlM_nil, logged,
          left, Option.pure_def, pendingOf, Option.elim_some]
      · intro found eq
        rw [← Option.some.inj eq]
        exact turned.kept
      · intro found eq
        rw [← Option.some.inj eq]
        rw [turned.app]
        exact mine.served page rfl
      · intro wanted trans wantedOwn lookup
        rw [http] at lookup
        have different : wanted ≠ key := by
          intro eq
          subst eq
          rw [AList.lookup_erase] at lookup
          cases lookup
        rw [AList.lookup_erase_ne different] at lookup
        exact mine.queued wanted trans wantedOwn lookup
    · have theirs := balanced.account other port'
      rw [Function.update_of_ne same] at theirs ⊢
      refine theirs.beside ?_ events (neutral_other port port' same ?_)
      rotate_left
      · intro event member
        rcases List.mem_append.mp member with early | late
        · rcases own event early with plain | ⟨hdr, body, attached⟩
          · exact .inl plain
          · exact .inr (.inl ⟨key, keyOwn, .inr (.inr ⟨hdr, body, attached⟩)⟩)
        · rw [List.mem_cons, List.mem_singleton] at late
          rcases late with rfl | rfl
          · exact .inr (.inr ⟨dest, node, record, linked, recordKey ▸ keyOwn, rfl⟩)
          · exact .inr (.inl ⟨key, keyOwn, .inr (.inl rfl)⟩)
      · intro wanted wantedOwn
        rw [http, AList.lookup_erase_ne]
        intro eq
        subst eq
        exact ofClient_other port port' same keyOwn wantedOwn
  · have member : key ∈ world.http.keys := AList.mem_keys.mp present
    rw [count, size, AList.keys_erase, List.length_erase_of_mem member, balanced.count]
    have some : 0 < world.http.keys.length := List.length_pos_of_mem member
    omega

end Balanced

/-! ## What `dProcStatus` does to the ledger -/

theorem erase_insert_lookup {table other : AList fun _ : TransKey => Trans} (key : TransKey)
    (trans : Trans) (same : other = table.insert key trans) (wanted : TransKey) :
    (other.erase key).lookup wanted = (table.erase key).lookup wanted := by
  rw [same]
  by_cases eq : wanted = key
  · rw [eq, AList.lookup_erase, AList.lookup_erase]
  · rw [AList.lookup_erase_ne eq, AList.lookup_insert_ne eq, AList.lookup_erase_ne eq]

/-- The sessions in the table stay, and the events go on. -/
structure Moves (world after : World) : Prop where
  tcp : after.tcp = world.tcp
  events : ∃ more, after.events = world.events ++ more

theorem Moves.trans_moves {world after final : World} (moves : Moves world after)
    (later : Moves after final) : Moves world final := by
  obtain ⟨more, events⟩ := moves.events
  obtain ⟨more', events'⟩ := later.events
  exact ⟨later.tcp.trans moves.tcp, more ++ more', by rw [events', events, List.append_assoc]⟩

theorem Passes.moves {world after : World} (passes : Passes world after) : Moves world after := by
  obtain ⟨more, events, -⟩ := passes.events
  exact ⟨passes.tcp, more, events⟩

theorem Strayed.moves {world after : World} (strayed : Strayed world) (moves : Moves world after) :
    Strayed after := by
  obtain ⟨more, events⟩ := moves.events
  exact strayed.later events

theorem moves_closedWorld (client : TSessKey) (key : TransKey) (trans : Trans) (sess : TSess)
    (world : World) : Moves world (closedWorld client key trans sess world) := by
  rw [closedWorld]
  split
  · exact ⟨rfl, [_, _], List.append_assoc _ _ _⟩
  · exact ⟨rfl, [_, _], List.append_assoc _ _ _⟩

theorem closedWorld_events (client : TSessKey) (key : TransKey) {trans : Trans} (sess : TSess)
    (world : World) (served : 0 < trans.dSndMsgQ) :
    (closedWorld client key trans sess world).events = world.events ++
      [.written trans.dSndMsgQ (.log trans.logNode (closeLog sess trans) trans.linked),
        .left key] := by
  rw [closedWorld, if_pos served, handOver, if_pos served]
  exact List.append_assoc _ _ _

theorem closedWorld_http (client : TSessKey) (key : TransKey) (trans : Trans) (sess : TSess)
    (world : World) : (closedWorld client key trans sess world).http = world.http.erase key :=
  rfl

theorem clearMsg_books (sess : TSess) (isNotREQ : Bool) :
    (sess.clearMsg isNotREQ).books = sess.books :=
  setMsg_books sess isNotREQ _

theorem setChains_books (sess : TSess) (isNotREQ : Bool) (hdr body : Option Chain) :
    (sess.setChains isNotREQ hdr body).books = sess.books :=
  setMsg_books sess isNotREQ _

theorem initCount_books (sess : TSess) : sess.initCount.books = sess.books :=
  rfl

theorem totTransCnt_books (sess : TSess) (count : Nat) :
    ({ sess with usTotTransCnt := count } : TSess).books = sess.books :=
  rfl

theorem leaveTrans_books (sess : TSess) : sess.initCount.leaveTrans.books = sess.books.leave := by
  have cur : sess.initCount.usCurTransCnt = sess.books.cur := rfl
  rw [TSess.leaveTrans, Books.leave, cur]
  generalize (sess.books.cur + 65535) % 2 ^ 16 = count
  split <;> rfl

theorem Turned.fewer {client : TSessKey} {sess next : TSess} {count : Nat}
    (turned : Turned client sess.books next.books)
    (all : sess.usCurTransCnt = count + 1) : next.usCurTransCnt = count := by
  have cur : next.usCurTransCnt + 1 = sess.usCurTransCnt := turned.cur
  exact Nat.succ.inj (cur.trans all)

theorem Turned.follows {client : TSessKey} {sess next : TSess} {i : Nat}
    (turned : Turned client sess.books next.books)
    (here : i % 2 ^ 16 = sess.usFirstTransID) (more : 0 < next.usCurTransCnt) :
    (i + 1) % 2 ^ 16 = next.usFirstTransID := by
  have first : next.usFirstTransID = (sess.usFirstTransID + 1) % 2 ^ 16 := turned.first more
  rw [first, ← here]
  exact (Nat.mod_add_mod i (2 ^ 16) 1).symm

section Status

variable {env : Env} (supplied : Supplied env) {client : TSessKey} {sess sess' : TSess}
  {world after : World} {dRet : Int} {failCode : Nat}

include supplied

theorem dProcStatusReq_moves
    (done : dProcStatusReq env client failCode sess world = ((dRet, sess'), after)) :
    Moves world after := by
  cases found : world.http.lookup (makeHttpHashKey client sess.usNextTransID) with
  | none =>
      obtain ⟨hdr, body, node, middle, eq, passes⟩ :=
        dProcStatusReq_enters supplied client failCode sess world found
      rw [eq] at done
      cases done
      exact passes.moves.trans_moves ⟨rfl, [_], rfl⟩
  | some taken =>
      obtain ⟨hdr, body, node, middle, eq, passes⟩ :=
        dProcStatusReq_refused supplied client failCode sess world found
      rw [eq] at done
      cases done
      exact passes.moves.trans_moves ⟨rfl, [_, _], List.append_assoc _ _ _⟩

theorem dProcStatusRes_moves
    (done : dProcStatusRes env client failCode sess world = ((dRet, sess'), after)) :
    Moves world after := by
  cases found : world.http.lookup (makeHttpHashKey client sess.usFirstTransID) with
  | none =>
      rw [dProcStatusRes, found] at done
      cases done
      exact (initBuffer_passes env client true sess.res world).moves
  | some trans =>
      obtain ⟨hdr, body, middle, eq, passes⟩ :=
        dProcStatusRes_closes supplied client failCode sess world found
      rw [eq] at done
      cases done
      have attached : Moves world ({ world with
          http := world.http.insert (makeHttpHashKey client sess.usFirstTransID)
            (trans.attach failCode sess) }.emit
          (.attached (makeHttpHashKey client sess.usFirstTransID) sess.res.hdr sess.res.body)) :=
        ⟨rfl, [_], rfl⟩
      exact (attached.trans_moves passes.moves).trans_moves
        (moves_closedWorld client _ _ _ middle)

theorem dProcStatus_moves {isNotREQ : Bool}
    (done : dProcStatus env client isNotREQ failCode sess world = ((dRet, sess'), after)) :
    Moves world after := by
  cases isNotREQ with
  | false =>
      apply Moves.trans_moves _ (dProcStatusReq_moves supplied done)
      exact ⟨rfl, [_], rfl⟩
  | true =>
      apply Moves.trans_moves _ (dProcStatusRes_moves supplied done)
      exact ⟨rfl, [_], rfl⟩

/-- The counters of the session when one more transaction is closed with it. -/
def closedSess (sess : TSess) : TSess :=
  { sess.initCount.leaveTrans with
    usTotTransCnt := (sess.initCount.leaveTrans.usTotTransCnt + 1) % 2 ^ 16 }

theorem closeTrans_step {count i : Nat} {trans : Trans}
    (found : world.http.lookup (makeHttpHashKey client i) = some trans) :
    closeTrans env client failCode (count + 1) i sess world =
      closeTrans env client failCode count (i + 1) (closedSess sess)
        (closedWorld client (makeHttpHashKey client i) { trans with usL7FailCode := failCode } sess
          world) := by
  rw [closeTrans, found]
  dsimp only
  rw [dCloseHttpTrans_supplied supplied]
  rfl

theorem closeTrans_moves {count i : Nat}
    (done : closeTrans env client failCode count i sess world = some (sess', after)) :
    Moves world after := by
  induction count generalizing i sess world with
  | zero =>
      cases done
      exact ⟨rfl, [], (List.append_nil _).symm⟩
  | succ count ih =>
      cases found : world.http.lookup (makeHttpHashKey client i) with
      | none =>
          rw [closeTrans, found] at done
          cases done
      | some trans =>
          rw [closeTrans_step supplied found] at done
          exact (moves_closedWorld client _ _ _ world).trans_moves (ih done)

variable {books : TSessKey → Option Books} (port : client.usReserved = 0)

include port

theorem request_balanced
    (balanced : Balanced env (Function.update books client (some sess.books)) world)
    (done : dProcStatus env client false failCode sess world = ((dRet, sess'), after)) :
    Strayed after ∨ Balanced env (Function.update books client (some sess'.books)) after := by
  have account := balanced.account client port
  rw [Function.update_self] at account
  rw [dProcStatus] at done
  dsimp only at done
  by_cases orderly : sess.books.Orderly
  · right
    have absent : world.http.lookup (makeHttpHashKey client sess.usNextTransID) = none :=
      AList.lookup_eq_none.mpr (account.next_free orderly)
    obtain ⟨hdr, body, node, middle, eq, passes⟩ :=
      dProcStatusReq_enters supplied client failCode sess
        { world.emit (.status client (sess.statusLine false)) with
          curSessCnt := world.curSessCnt + 1 } absent
    obtain ⟨more, events, later⟩ := passes.events
    rw [eq] at done
    cases done
    have eventsEq : middle.events =
        world.events ++ (.status client (sess.statusLine false) :: more) := by
      rw [events]
      exact List.append_assoc _ [_] _
    have plain : ∀ event ∈ Event.status client (sess.statusLine false) :: more,
        event.plain = true := by
      intro event member
      cases List.mem_cons.mp member with
      | inl first =>
          rw [first]
          rfl
      | inr behind => exact later event behind
    have before : Balanced env (Function.update books client (some sess.books))
        { middle with curSessCnt := world.curSessCnt } :=
      balanced.plain passes.http rfl eventsEq plain
    have queued : (newTrans env client failCode sess node).Queued
        (makeHttpHashKey client sess.books.next) :=
      ⟨account.served _ rfl, rfl⟩
    exact before.enter port orderly queued rfl passes.count rfl
  · left
    obtain ⟨more, events⟩ := (dProcStatusReq_moves supplied done).events
    refine ⟨client, sess.statusLine false, ?_, rfl, fun line => orderly ⟨line.first, line.room⟩⟩
    rw [events]
    exact List.mem_append_left more (List.mem_append_right world.events (List.mem_singleton.mpr rfl))

theorem response_balanced
    (balanced : Balanced env (Function.update books client (some sess.books)) world)
    (done : dProcStatus env client true failCode sess world = ((dRet, sess'), after)) :
    Balanced env (Function.update books client (some sess'.books)) after := by
  have account := balanced.account client port
  rw [Function.update_self] at account
  rw [dProcStatus] at done
  cases found : world.http.lookup (makeHttpHashKey client sess.usFirstTransID) with
  | none =>
      have begun : Balanced env (Function.update books client (some sess.books))
          (world.emit (.status client (sess.statusLine true))) :=
        balanced.plain rfl rfl rfl (by simp [Event.plain])
      have absent : (world.emit (.status client (sess.statusLine true))).http.lookup
          (makeHttpHashKey client sess.usFirstTransID) = none := found
      rw [dProcStatusRes, absent] at done
      cases done
      exact begun.passes (initBuffer_passes env client true sess.res _)
  | some trans =>
      have ofClient := makeHttpHashKey_of_client client sess.usFirstTransID
      have queued := account.queued _ trans ofClient found
      obtain ⟨hdr, body, middle, eq, passes⟩ :=
        dProcStatusRes_closes supplied client failCode sess
          (world.emit (.status client (sess.statusLine true))) found
      rw [eq] at done
      have sessEq := (Prod.mk.inj (Prod.mk.inj done).1).2
      have afterEq := (Prod.mk.inj done).2
      have present : makeHttpHashKey client sess.usFirstTransID ∈ world.http :=
        AList.lookup_isSome.mp (by rw [found]; rfl)
      have turned : Turned client sess.books sess'.books := by
        rw [← sessEq, clearMsg_books, leaveTrans_books, initCount_books, setChains_books]
        exact turned_leave client (account.kept _ rfl) (account.positive ofClient present)
      rw [← afterEq]
      have http := passes.http
      have count := passes.count
      obtain ⟨more, events, plain⟩ := passes.events
      generalize keyEq : makeHttpHashKey client sess.usFirstTransID = key at *
      generalize closingEq : ({ trans.attach failCode sess with
        log := resLog sess (trans.attach failCode sess) trans.log } : Trans) = closing
      have served : 0 < closing.dSndMsgQ := by
        rw [← closingEq]
        exact queued.dest
      have own : closing.log.key = key := by
        rw [← closingEq]
        exact queued.own
      have answered : ∀ rest,
          (Event.status client (sess.statusLine true) :: .attached key sess.res.hdr sess.res.body ::
            more).foldlM (replayEvent client) (.enter key :: rest) =
            some (⟨key, true, false⟩ :: rest) := by
        intro rest
        have first : replayEvent client (.enter key :: rest)
            (.attached key sess.res.hdr sess.res.body) = some (⟨key, true, false⟩ :: rest) := by
          rw [replayEvent, if_pos ofClient, answer]
          simp [Entry.enter]
        rw [List.foldlM_cons, replay_plain rfl, Option.bind_eq_bind, Option.bind_some,
          List.foldlM_cons, first]
        exact replay_all_plain plain client _
      have eventsAll : (closedWorld client key closing
          (sess.setChains true (some hdr) (some body)).initCount middle).events = world.events ++
          ((.status client (sess.statusLine true) :: .attached key sess.res.hdr sess.res.body ::
            more) ++ [.written closing.dSndMsgQ (.log closing.logNode
              (closeLog (sess.setChains true (some hdr) (some body)).initCount closing)
              closing.linked), .left key]) := by
        rw [closedWorld_events client key _ middle served, events]
        simp [World.emit]
      refine balanced.leave port turned keyEq.symm present ?_ ?_ ?_ eventsAll own ?_
        fun rest => ⟨true, answered rest⟩
      · exact fun wanted => erase_insert_lookup key _ http wanted
      · rw [closedWorld_http, http, AList.keys_erase, AList.keys_erase]
        refine congrArg List.length ?_
        exact (congrArg (List.erase · key) (AList.keys_insert _)).trans (List.erase_cons_head ..)
      · exact congrArg (· - 1) count
      · intro event member
        rw [List.mem_cons, List.mem_cons] at member
        rcases member with rfl | rfl | later
        · exact .inl rfl
        · exact .inr ⟨_, _, rfl⟩
        · exact .inl (plain event later)

/-- All transactions of the session are closed, from the first on. -/
theorem closeTrans_balanced {count i : Nat}
    (balanced : Balanced env (Function.update books client (some sess.books)) world)
    (all : sess.usCurTransCnt = count) (first : 0 < count → i % 2 ^ 16 = sess.usFirstTransID)
    (done : closeTrans env client failCode count i sess world = some (sess', after)) :
    Balanced env (Function.update books client (some sess'.books)) after ∧
      sess'.usCurTransCnt = 0 := by
  induction count generalizing i sess world with
  | zero =>
      cases done
      exact ⟨balanced, all⟩
  | succ count ih =>
      have account := balanced.account client port
      rw [Function.update_self] at account
      have kept := account.kept _ rfl
      have small : sess.usCurTransCnt < 2 ^ 16 := kept.small
      have here := first (Nat.succ_pos count)
      have keyEq : makeHttpHashKey client i = makeHttpHashKey client sess.books.first := by
        apply key_congr
        rw [here]
        exact (Nat.mod_eq_of_lt kept.firstWord).symm
      cases found : world.http.lookup (makeHttpHashKey client i) with
      | none =>
          rw [closeTrans, found] at done
          cases done
      | some trans =>
          have queued := account.queued _ trans (makeHttpHashKey_of_client client i) found
          rw [closeTrans_step supplied found] at done
          generalize closingEq : ({ trans with usL7FailCode := failCode } : Trans) = closing at done
          have served : 0 < closing.dSndMsgQ := by
            rw [← closingEq]
            exact queued.dest
          have own : closing.log.key = makeHttpHashKey client i := by
            rw [← closingEq]
            exact queued.own
          generalize nextEq : closedSess sess = next at done
          have present : makeHttpHashKey client i ∈ world.http :=
            AList.lookup_isSome.mp (by rw [found]; rfl)
          have turned : Turned client sess.books next.books := by
            have page : next.books = sess.books.leave := by
              rw [← nextEq, ← leaveTrans_books sess]
              exact totTransCnt_books sess.initCount.leaveTrans _
            rw [page]
            exact turned_leave client kept
              (account.positive (makeHttpHashKey_of_client client i) present)
          have later : Balanced env (Function.update books client (some next.books))
              (closedWorld client (makeHttpHashKey client i) closing sess world) := by
            have eventsAll : (closedWorld client (makeHttpHashKey client i) closing sess world).events =
                world.events ++ ([] ++ [.written closing.dSndMsgQ
                  (.log closing.logNode (closeLog sess closing) closing.linked),
                  .left (makeHttpHashKey client i)]) :=
              closedWorld_events client _ sess world served
            exact balanced.leave port turned keyEq present (fun _ => rfl) rfl rfl eventsAll own
              (by simp) fun rest => ⟨false, rfl⟩
          have left := turned.fewer all
          exact ih later left (fun more => turned.follows here (left ▸ more)) done

end Status

/-! ## Runs -/

theorem put_books (world : World) (client : TSessKey) (sess : TSess) :
    (world.put client sess).books = Function.update world.books client (some sess.books) := by
  funext other
  by_cases same : other = client
  · rw [same, Function.update_self, World.books, World.put, AList.lookup_insert]
    rfl
  · rw [Function.update_of_ne same, World.books, World.put, AList.lookup_insert_ne same]
    rfl

theorem remove_books (world : World) (client : TSessKey) :
    (world.remove client).books = Function.update world.books client none := by
  funext other
  by_cases same : other = client
  · rw [same, Function.update_self, World.books, World.remove, AList.lookup_erase]
    rfl
  · rw [Function.update_of_ne same, World.books, World.remove, AList.lookup_erase_ne same]
    rfl

theorem books_of_tcp {world after : World} (tcp : after.tcp = world.tcp) :
    after.books = world.books := by
  funext client
  rw [World.books, World.books, tcp]

/-- The logs of the session go somewhere. -/
def Served (env : Env) (client : TSessKey) (usAppCode : Nat) : Prop :=
  0 < dGetSeqProcID env.gACALLCnt usAppCode client.uiCliIP

instance (env : Env) (client : TSessKey) (usAppCode : Nat) :
    Decidable (Served env client usAppCode) :=
  inferInstanceAs (Decidable (_ < _))

/-- The counters are those of the sessions in the table, unless a request strayed. -/
def Kept (env : Env) (world : World) : Prop :=
  Strayed world ∨ Balanced env world.books world

section Kept

variable {env : Env} {client : TSessKey} {sess sess' : TSess} {world after : World}

theorem Kept.passes (kept : Kept env world) (passes : Passes world after) : Kept env after := by
  rcases kept with strayed | balanced
  · exact .inl (strayed.passes passes)
  · right
    rw [books_of_tcp passes.tcp]
    exact balanced.passes passes

/-- But for the counters, the ledger does not look at the table of sessions. -/
theorem balanced_tcp {books : TSessKey → Option Books}
    (tcp : AList fun _ : TSessKey => TSess) :
    Balanced env books { world with tcp := tcp } ↔ Balanced env books world :=
  ⟨fun balanced => ⟨fun client port => { balanced.account client port with }, balanced.count⟩,
    fun balanced => ⟨fun client port => { balanced.account client port with }, balanced.count⟩⟩

theorem kept_put : Kept env (world.put client sess) ↔
    Strayed world ∨ Balanced env (Function.update world.books client (some sess.books)) world := by
  rw [Kept, put_books]
  exact or_congr Iff.rfl (balanced_tcp _)

theorem kept_remove : Kept env (world.remove client) ↔
    Strayed world ∨ Balanced env (Function.update world.books client none) world := by
  rw [Kept, remove_books]
  exact or_congr Iff.rfl (balanced_tcp _)

theorem Kept.putPasses (books : sess'.books = sess.books) (kept : Kept env (world.put client sess))
    (passes : Passes world after) : Kept env (after.put client sess') := by
  rw [kept_put] at kept ⊢
  rw [books, books_of_tcp passes.tcp]
  exact kept.imp (Strayed.passes · passes) (Balanced.passes · passes)

theorem kept_serves (supplied : Supplied env) (port : client.usReserved = 0) :
    Serves env client fun sess world => Kept env (world.put client sess) where
  message isNotREQ holds passes := holds.putPasses (setMsg_books _ isNotREQ _) passes
  same holds books := holds.putPasses books (Passes.refl _)
  status isNotREQ failCode holds done := by
    have moves := dProcStatus_moves supplied done
    rw [kept_put] at holds ⊢
    rw [books_of_tcp moves.tcp]
    rcases holds with strayed | balanced
    · exact .inl (strayed.moves moves)
    · cases isNotREQ with
      | false => exact request_balanced supplied port balanced done
      | true => exact .inr (response_balanced supplied port balanced done)
  closeAll failCode holds done := by
    have moves := closeTrans_moves supplied done
    rw [kept_put] at holds ⊢
    rw [books_of_tcp moves.tcp]
    rcases holds with strayed | balanced
    · exact .inl (strayed.moves moves)
    · right
      have mine := balanced.account client port
      rw [Function.update_self] at mine
      have first := (mine.kept _ rfl).firstWord
      obtain ⟨closed, none⟩ := closeTrans_balanced supplied port balanced rfl
        (fun _ => Nat.mod_eq_of_lt first) done
      have account := closed.account client port
      rw [Function.update_self] at account
      have zero := (account.kept _ rfl).first none
      have same : ∀ closing : TSess, closing.usCurTransCnt = 0 → closing.usFirstTransID = 0 →
          ({ closing with usFirstTransID := 0, usLastTransID := 0, usCurTransCnt := 0 } :
            TSess).books = closing.books := by
        intro closing cur first
        rw [TSess.books, TSess.books, cur, first]
      rw [same _ none zero]
      exact closed

/-- The account of one client changes its counters, but not the transactions they name. -/
theorem Balanced.update {books : TSessKey → Option Books} {page : Option Books}
    (balanced : Balanced env books world) (port : client.usReserved = 0)
    (pending : pendingOf client page = pendingOf client (books client))
    (kept : ∀ new, page = some new → new.Kept)
    (served : ∀ new, page = some new → Served env client new.app) :
    Balanced env (Function.update books client page) world where
  account other port' := by
    by_cases same : other = client
    · have account := balanced.account client port
      rw [same, Function.update_self]
      refine ⟨?_, ?_, kept, served, account.queued⟩
      · rw [pending]
        exact account.entries
      · rw [pending]
        exact account.history
    · rw [Function.update_of_ne same]
      exact balanced.account other port'
  count := balanced.count

theorem kept_found (kept : Kept env world) (found : world.tcp.lookup client = some sess) :
    Kept env (world.put client sess) := by
  rw [kept_put]
  have same : Function.update world.books client (some sess.books) = world.books := by
    apply Function.update_eq_self_iff.mpr
    rw [World.books, found]
    rfl
  rw [same]
  exact kept

theorem kept_closed (port : client.usReserved = 0) (kept : Kept env (world.put client sess))
    (empty : sess.usCurTransCnt = 0) : Kept env (world.remove client) := by
  rw [kept_put] at kept
  rw [kept_remove]
  refine kept.imp_right fun balanced => ?_
  have left : pendingOf client (some sess.books) = [] := by
    rw [pendingOf, Option.elim_some, Books.pending]
    exact congrArg (List.map _) (congrArg List.range empty)
  have same : pendingOf client none =
      pendingOf client (Function.update world.books client (some sess.books) client) := by
    rw [Function.update_self, left]
    rfl
  have updated := balanced.update port same (by simp) (by simp)
  rw [Function.update_idem] at updated
  exact updated

theorem kept_created (port : client.usReserved = 0) (kept : Kept env world)
    (absent : world.tcp.lookup client = none) {app : Nat} (served : Served env client app)
    (page : sess.books = ⟨0, 1, 0, app⟩) : Kept env (world.put client sess) := by
  rw [kept_put, page]
  refine Or.imp_right (fun balanced => ?_) kept
  refine balanced.update port ?_ ?_ ?_
  · rw [World.books, absent]
    rfl
  · intro new eq
    rw [← Option.some.inj eq]
    exact ⟨Nat.two_pow_pos 16, fun _ => rfl,
      fun impossible => absurd impossible (Nat.lt_irrefl 0), Nat.two_pow_pos 16, by
        dsimp only
        decide⟩
  · intro new eq
    rw [← Option.some.inj eq]
    exact served

theorem ledger_rounds (supplied : Supplied env) :
    Rounds env (fun _ (account : Unit) => account)
      (fun info => Served env (makeTcpHashKey info) info.usAppCode) (fun _ _ => True)
      fun _ world => Kept env world where
  passes kept passes := kept.passes passes
  tends _ _ port := (kept_serves supplied port).tends
  found kept found := kept_found kept found
  adds kept := (kept_serves supplied rfl).same kept rfl
  created served kept absent := kept_created rfl kept absent served rfl
  closed port kept _ done :=
    kept_closed port ((kept_serves supplied port).dCloseAllHttpTrans kept done) (closed_empty done)
  emits plain kept := kept.imp (fun strayed => strayed.later rfl) fun balanced =>
    balanced.plain rfl rfl rfl (by simpa using plain)
  reads _ kept := kept.imp id fun balanced =>
    ⟨fun client port => { balanced.account client port with }, balanced.count⟩

theorem balanced_start : Balanced env World.start.books .start where
  account client _ := by
    have none : World.start.books client = none := by
      rw [World.books, World.start, AList.lookup_empty]
      rfl
    rw [none]
    refine ⟨?_, rfl, by simp, by simp, ?_⟩
    · intro key _
      exact iff_of_false (AList.notMem_empty key) List.not_mem_nil
    · intro key trans _ found
      rw [World.start, AList.lookup_empty] at found
      cases found
  count := rfl

theorem Balanced.ledgered (balanced : Balanced env world.books world) : Ledgered world where
  entries client port := (balanced.account client port).entries
  next client port books found := ((balanced.account client port).kept books found).next
  count := balanced.count
  history client port := (balanced.account client port).history

end Kept

/-- At every request that `dProcStatus` is called for, the counters allow it to be entered. -/
def OrderlyRequests (world : World) : Prop :=
  ∀ client line, Event.status client line ∈ world.events → line.isNotREQ = false →
    line.books.Orderly

/-- When all of that is granted, every session is of an application that has a destination for
logs, and no request comes when the counters have no room for it. -/
theorem transactions_ledgered {env : Env} (supplied : Supplied env)
    {inputs : List (Option TcpInfo)} {final : World}
    (served : ∀ info, some info ∈ inputs → info.cTcpFlag = .start →
      Served env (makeTcpHashKey info) info.usAppCode)
    (ran : run env .start inputs = some final) (orderly : OrderlyRequests final) :
    Ledgered final := by
  have start : Kept env .start := .inr balanced_start
  rcases @Rounds.run _ _ _ _ _ _ (ledger_rounds supplied) () _ _ _ served start (closes_any env _ _) ran
    with strayed | balanced
  · obtain ⟨client, line, member, request, disorder⟩ := strayed
    exact absurd (orderly client line member request) disorder
  · exact balanced.ledgered

def okHeader : HeaderLine where
  method := .response
  url := []
  urlType := none
  resCode := 200

/-- The scanner of the header tells a response by its first byte. -/
def talkEnv : Env :=
  { plainEnv with
    parsers := { plainEnv.parsers with
      httpheader := fun bytes => if bytes.head? = some 0x48 then some okHeader else some getHeader } }

/-- `"HTTP/1.1 200\r\n\r\n"` -/
def okLine : List UInt8 :=
  [0x48, 0x54, 0x54, 0x50, 0x2F, 0x31, 0x2E, 0x31, 0x20, 0x32, 0x30, 0x30, 0x0D, 0x0A, 0x0D, 0x0A]

/-- A request with its response, and one more request that is cut short. -/
def talkInputs : List (Option TcpInfo) :=
  [some (bareInfo ⟨10, 1000, 20, 80⟩ .start []),
    some (bareInfo ⟨10, 1000, 20, 80⟩ .data (getLine ++ [0x0D, 0x0A])),
    some { bareInfo ⟨10, 1000, 20, 80⟩ .data okLine with ucRtx := 2 },
    some (bareInfo ⟨10, 1000, 20, 80⟩ .data getLine), some (bareInfo ⟨10, 1000, 20, 80⟩ .finish [])]

def talkFinal : World := (run talkEnv .start talkInputs).get (by decide +kernel)

instance (books : Books) : Decidable books.Orderly :=
  decidable_of_iff ((books.first = 0 → books.cur = 0) ∧ books.cur ≠ 65535)
    ⟨fun both => ⟨both.1, both.2⟩, fun orderly => ⟨orderly.first, orderly.room⟩⟩

theorem talk_orderly : OrderlyRequests talkFinal := by
  have all : (talkFinal.events.all fun event =>
      match event with
      | .status _ line => decide line.books.Orderly
      | _ => true) = true := by
    decide +kernel
  intro client line member _
  exact of_decide_eq_true (List.all_eq_true.mp all _ member)

theorem talkEnv_supplied : Supplied talkEnv :=
  ⟨fun _ _ _ _ => rfl, fun _ _ _ _ => rfl, fun _ _ => rfl, fun _ _ => rfl, fun _ _ => rfl,
    fun _ _ => rfl⟩

theorem talk_served (info : TcpInfo) (member : some info ∈ talkInputs)
    (_ : info.cTcpFlag = .start) : Served talkEnv (makeTcpHashKey info) info.usAppCode := by
  simp only [talkInputs, List.mem_cons, Option.some.injEq, List.not_mem_nil, or_false] at member
  rcases member with rfl | rfl | rfl | rfl | rfl <;> decide

theorem transactions_ledgered_talk : Ledgered talkFinal :=
  transactions_ledgered talkEnv_supplied talk_served
    (show run talkEnv .start talkInputs = some talkFinal from (Option.some_get _).symm) talk_orderly

/-- A connection with one request that is cut short. -/
def briefInputs : List (Option TcpInfo) :=
  [some (bareInfo ⟨10, 1000, 20, 80⟩ .start []), some (bareInfo ⟨10, 1000, 20, 80⟩ .data getLine),
    some (bareInfo ⟨10, 1000, 20, 80⟩ .finish [])]

/-- No node is left for a log. -/
def noLogEnv : Env :=
  { plainEnv with grants := fun call _ _ => decide (call ≠ .logNode) }

/-- A session is counted that has no entry. -/
theorem unlogged_not_ledgered :
    ∃ final, run noLogEnv .start briefInputs = some final ∧ ¬ Ledgered final := by
  have counted : (run noLogEnv .start briefInputs).map
      (fun final => decide (final.curSessCnt = final.http.keys.length)) = some false := by
    decide +kernel
  cases ran : run noLogEnv .start briefInputs with
  | none =>
      rw [ran] at counted
      cases counted
  | some final =>
      rw [ran] at counted
      exact ⟨final, rfl, fun ledgered => of_decide_eq_false (Option.some.inj counted) ledgered.count⟩

end Upst.Http
