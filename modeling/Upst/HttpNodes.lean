import Upst.HttpConn

/-!
The calls of `A_HTTP` that collect a message. They allocate nodes and delete them, and nothing else of
the world changes.
-/

namespace Upst.Http

set_option autoImplicit false

/-- No transaction is concerned. -/
def Event.plain : Event → Bool
  | .read _ => true
  | .alloc _ => true
  | .delete _ => true
  | .written _ (.node _) => true
  | .dropped (.node _) => true
  | .status _ _ => true
  | .refused _ => true
  | _ => false

/-- Nothing of the world changed but its nodes and what the scanners keep. -/
structure Passes (world after : World) : Prop where
  tcp : after.tcp = world.tcp
  http : after.http = world.http
  count : after.curSessCnt = world.curSessCnt
  events : ∃ more, after.events = world.events ++ more ∧ ∀ event ∈ more, event.plain = true

theorem Passes.refl (world : World) : Passes world world :=
  ⟨rfl, rfl, rfl, [], (List.append_nil _).symm, fun _ member => nomatch member⟩

theorem Passes.trans_passes {world after final : World} (passes : Passes world after)
    (next : Passes after final) : Passes world final := by
  obtain ⟨more, events, plain⟩ := passes.events
  obtain ⟨more', events', plain'⟩ := next.events
  refine ⟨next.tcp.trans passes.tcp, next.http.trans passes.http, next.count.trans passes.count,
    more ++ more', ?_, ?_⟩
  · rw [events', events, List.append_assoc]
  · intro event member
    exact (List.mem_append.mp member).elim (plain event) (plain' event)

theorem passes_starts (world : World) (starts : Starts) : Passes world { world with starts := starts } :=
  { Passes.refl world with }

theorem passes_called (client : TSessKey) (world : World) : Passes world (world.called client) :=
  { Passes.refl world with }

theorem passes_emit (world : World) {event : Event} (plain : event.plain = true) :
    Passes world (world.emit event) :=
  ⟨rfl, rfl, rfl, [event], rfl, fun _ member => List.mem_singleton.mp member ▸ plain⟩

theorem passes_deleteChain (chain : Option Chain) (world : World) :
    Passes world (world.deleteChain chain) := by
  cases chain with
  | none => exact .refl world
  | some chain => exact passes_emit world rfl

theorem passes_deleteChains (sess : TSess) (world : World) : Passes world (world.deleteChains sess) :=
  (((passes_deleteChain sess.req.hdr _).trans_passes (passes_deleteChain sess.req.body _)).trans_passes
    (passes_deleteChain sess.res.hdr _)).trans_passes (passes_deleteChain sess.res.body _)

/-- A message is collected: the key of a multipart body is kept too. -/
structure Collects (msg : MsgInfo) (world : World) (msg' : MsgInfo) (after : World) : Prop where
  passes : Passes world after
  key : msg'.multiKey.key = msg.multiKey.key

theorem Collects.refl (msg : MsgInfo) (world : World) : Collects msg world msg world :=
  ⟨.refl world, rfl⟩

section Messages

variable (env : Env) (client : TSessKey)

theorem nifoNodeAlloc_passes (call : Call) (world : World) :
    Passes world (nifoNodeAlloc env client call world).2 := by
  rw [nifoNodeAlloc, granted]
  cases env.grants call client (world.calls client) with
  | false => exact passes_called client world
  | true => exact (passes_called client world).trans_passes (passes_emit _ rfl)

theorem pAllocDataNode_passes (caller : Caller) (isNotREQ body : Bool) (world : World) :
    Passes world (pAllocDataNode env client caller isNotREQ body world).2 := by
  have passes := nifoNodeAlloc_passes env client (.node caller isNotREQ body) world
  rw [pAllocDataNode]
  cases alloc : nifoNodeAlloc env client (.node caller isNotREQ body) world with
  | mk found after =>
      rw [alloc] at passes
      cases found with
      | none => exact passes
      | some node =>
          have called := passes.trans_passes (passes_called client after)
          dsimp only
          rw [granted]
          cases env.grants (.tlv caller isNotREQ body) client (after.calls client) with
          | false => exact called.trans_passes (passes_emit _ rfl)
          | true => exact called

theorem putByte_passes (isNotREQ body : Bool) (chain : Chain) (byte : UInt8) (world : World) :
    Passes world (putByte env client isNotREQ body chain byte world).2 := by
  rw [putByte]
  split
  · have passes := nifoNodeAlloc_passes env client (.node .cont isNotREQ body) world
    cases alloc : nifoNodeAlloc env client (.node .cont isNotREQ body) world with
    | mk found after =>
        rw [alloc] at passes
        cases found with
        | none => exact passes
        | some node => exact passes
  · exact .refl world

variable {env client} {isNotREQ limit : Bool}

theorem dGetData_collects {data : List UInt8} {msg : MsgInfo} {world after : World}
    {result : Got × List UInt8 × MsgInfo}
    (got : dGetData env client isNotREQ limit data msg world = some (result, after)) :
    Collects msg world result.2.2 after := by
  induction data generalizing msg world with
  | nil =>
      cases got
      exact .refl _ _
  | cons byte rest ih =>
      rw [dGetData] at got
      split at got
      · cases got
        exact .refl _ _
      · split at got
        · cases got
        · next chain _ =>
            have passes := putByte_passes env client isNotREQ false chain (toLower byte) world
            split at got
            · next put =>
                rw [put] at passes
                cases got
                exact ⟨passes, rfl⟩
            · next put =>
                rw [put] at passes
                split at got
                · cases got
                  exact ⟨passes, rfl⟩
                · have later := ih got
                  exact ⟨passes.trans_passes later.passes, later.key⟩

theorem putBody_collects {msg : MsgInfo} {byte : UInt8} {world after : World} {result : Option MsgInfo}
    (put : putBody env client isNotREQ msg byte world = some (result, after)) :
    Collects msg world (result.getD msg) after := by
  rw [putBody] at put
  split at put
  · cases put
  · next chain _ =>
      generalize (if 0 < msg.dZip then byte else toLower byte) = stored at put
      have passes := putByte_passes env client isNotREQ true chain stored world
      split at put
      all_goals
        next stored =>
          rw [stored] at passes
          cases put
          exact ⟨passes, rfl⟩

theorem stopBuffering_key (msg : MsgInfo) : msg.stopBuffering.multiKey = msg.multiKey := by
  rw [MsgInfo.stopBuffering]
  split <;> rfl

/-- The message may stop buffering before it goes on. -/
theorem Collects.stopped {msg msg' last : MsgInfo} {world middle after : World}
    (first : Collects msg world msg' middle)
    (later : Collects (msg'.countBody limit 1).stopBuffering middle last after) :
    Collects msg world last after := by
  have key := later.key
  rw [stopBuffering_key] at key
  exact ⟨first.passes.trans_passes later.passes, key.trans first.key⟩

theorem lengthLoop_collects {data : List UInt8} {msg : MsgInfo} {world after : World}
    {result : Got × MsgInfo}
    (got : lengthLoop env client isNotREQ limit data msg world = some (result, after)) :
    Collects msg world result.2 after := by
  induction data generalizing msg world with
  | nil =>
      cases got
      exact .refl _ _
  | cons byte rest ih =>
      rw [lengthLoop] at got
      split at got
      · cases got
      · next put =>
          cases got
          exact putBody_collects put
      · next put =>
          have first := putBody_collects put
          split at got
          · cases got
            exact ⟨first.passes, first.key⟩
          · exact first.stopped (ih got)

theorem endBody_key (msg : MsgInfo) (limit : Bool) (count : Nat) :
    ({ msg.countBody limit count with ucEndStatus := .s0D0A0D0A } : MsgInfo).multiKey = msg.multiKey :=
  rfl

theorem dGetLengthData_collects {data : List UInt8} {msg : MsgInfo} {world after : World}
    {result : Got × MsgInfo}
    (got : dGetLengthData env client isNotREQ limit data msg world = some (result, after)) :
    Collects msg world result.2 after := by
  rw [dGetLengthData] at got
  split at got
  · exact lengthLoop_collects got
  · split at got
    · cases got
      exact ⟨.refl _, congrArg MultiKey.key (endBody_key msg limit _)⟩
    · split at got
      · cases got
        exact ⟨.refl _, congrArg MultiKey.key (endBody_key msg limit _)⟩
      · cases got
        exact ⟨.refl _, rfl⟩

theorem putChunked_collects {msg : MsgInfo} {byte : UInt8} {world after : World}
    {result : Option MsgInfo}
    (put : putChunked env client isNotREQ msg byte world = some (result, after)) :
    Collects msg world (result.getD msg) after := by
  rw [putChunked] at put
  split at put
  · exact putBody_collects put
  · cases put
    exact .refl _ _

theorem dGetChunkedData_collects {data : List UInt8} {msg : MsgInfo} {world after : World}
    {result : Got × MsgInfo}
    (got : dGetChunkedData env client isNotREQ limit data msg world = some (result, after)) :
    Collects msg world result.2 after := by
  induction data generalizing msg world with
  | nil =>
      cases got
      exact .refl _ _
  | cons byte rest ih =>
      rw [dGetChunkedData] at got
      split at got
      · cases got
        exact .refl _ _
      · split at got
        · cases got
        · next put =>
            cases got
            have first := putChunked_collects put
            exact ⟨first.passes, first.key⟩
        · next put =>
            have first := putChunked_collects put
            split at got
            · cases got
              exact ⟨first.passes, first.key⟩
            · have whole := first.stopped (ih got)
              exact ⟨whole.passes, whole.key⟩

theorem putMulti_collects {msg : MsgInfo} {byte : UInt8} {world after : World}
    {result : Option MsgInfo}
    (put : putMulti env client isNotREQ msg byte world = some (result, after)) :
    Collects msg world (result.getD msg) after := by
  rw [putMulti] at put
  split at put
  · cases put
  · next chain _ =>
      have passes := putByte_passes env client isNotREQ true chain byte world
      split at put
      all_goals
        next stored =>
          rw [stored] at passes
          cases put
          exact ⟨passes, rfl⟩

theorem dGetMultiData_collects {data : List UInt8} {msg : MsgInfo} {world after : World}
    {result : Got × MsgInfo}
    (got : dGetMultiData env client isNotREQ limit data msg world = some (result, after)) :
    Collects msg world result.2 after := by
  induction data generalizing msg world with
  | nil =>
      cases got
      exact .refl _ _
  | cons byte rest ih =>
      rw [dGetMultiData] at got
      split at got
      · cases got
        exact ⟨.refl _, rfl⟩
      · split at got
        · cases got
        · next put =>
            cases got
            have first := putMulti_collects put
            exact ⟨first.passes, first.key⟩
        · next put =>
            have first := putMulti_collects put
            have later := ih got
            exact ⟨first.passes.trans_passes later.passes, later.key.trans first.key⟩

theorem getBody_collects {data : List UInt8} {msg : MsgInfo} {world after : World}
    {result : Got × MsgInfo}
    (got : getBody env client isNotREQ data msg world = some (result, after)) :
    Collects msg world result.2 after := by
  rw [getBody] at got
  split at got
  · exact dGetLengthData_collects got
  · exact dGetLengthData_collects got
  · have read := dGetChunkedData_collects got
    exact ⟨read.passes, read.key⟩
  · exact dGetMultiData_collects got
  · cases got
    exact .refl _ _

variable (env client)

theorem initBuffer_passes (isNotREQ : Bool) (msg : MsgInfo) (world : World) :
    Passes world (initBuffer env client isNotREQ msg world).2 := by
  have deleted := (passes_deleteChain msg.hdr world).trans_passes (passes_deleteChain msg.body _)
  have first := deleted.trans_passes (pAllocDataNode_passes env client .init isNotREQ false _)
  rw [initBuffer]
  cases hdrEq : pAllocDataNode env client .init isNotREQ false
    ((world.deleteChain msg.hdr).deleteChain msg.body) with
  | mk hdr middle =>
      rw [hdrEq] at first
      cases hdr with
      | none => exact first
      | some hdr =>
          have second := first.trans_passes (pAllocDataNode_passes env client .init isNotREQ true middle)
          dsimp only
          cases bodyEq : pAllocDataNode env client .init isNotREQ true middle with
          | mk body after =>
              rw [bodyEq] at second
              cases body with
              | none => exact second.trans_passes (passes_deleteChain (some hdr) after)
              | some body => exact second

end Messages

end Upst.Http
