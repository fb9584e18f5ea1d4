import Upst.HttpTends

/-!
What `dProcStatus` and `dCloseHttpTrans` can do. A request that finds its nodes gets a transaction with
the counters of the session, or loses them when the transaction is refused. A response goes to the first
transaction, which is closed then. Everything else leaves the transactions and the logs as they are.
-/

namespace Upst.Http

set_option autoImplicit false

/-- Neither a session in the table nor a transaction is concerned. -/
structure Still (world after : World) : Prop where
  tcp : after.tcp = world.tcp
  http : after.http = world.http
  events : ∃ more, after.events = world.events ++ more ∧ ∀ event ∈ more, event.plain = true

theorem Still.refl (world : World) : Still world world :=
  ⟨rfl, rfl, [], (List.append_nil _).symm, fun _ member => nomatch member⟩

theorem Still.trans_still {world after final : World} (still : Still world after)
    (later : Still after final) : Still world final := by
  obtain ⟨more, events, plain⟩ := still.events
  obtain ⟨more', events', plain'⟩ := later.events
  refine ⟨later.tcp.trans still.tcp, later.http.trans still.http, more ++ more', ?_, ?_⟩
  · rw [events', events, List.append_assoc]
  · intro event member
    exact (List.mem_append.mp member).elim (plain event) (plain' event)

theorem Passes.still {world after : World} (passes : Passes world after) : Still world after :=
  ⟨passes.tcp, passes.http, passes.events⟩

theorem still_emit (world : World) {event : Event} (plain : event.plain = true) :
    Still world (world.emit event) :=
  ⟨rfl, rfl, [event], rfl, fun _ member => List.mem_singleton.mp member ▸ plain⟩

section Calls

variable {env : Env} {client : TSessKey} {world after : World}

theorem alloc_still {caller : Caller} {isNotREQ body : Bool} {chain : Option Chain}
    (done : pAllocDataNode env client caller isNotREQ body world = (chain, after)) :
    Still world after := by
  have passes := pAllocDataNode_passes env client caller isNotREQ body world
  rw [done] at passes
  exact passes.still

theorem node_still {call : Call} {node : Option NodeId}
    (done : nifoNodeAlloc env client call world = (node, after)) : Still world after := by
  have passes := nifoNodeAlloc_passes env client call world
  rw [done] at passes
  exact passes.still

theorem granted_still {call : Call} {grant : Bool} (done : granted env client call world = (grant, after)) :
    Still world after := by
  cases done
  exact (passes_called client world).still

end Calls

section Status

variable {env : Env} {client : TSessKey} {sess sess' : TSess} {world after : World} {dRet : Int}
  {failCode : Nat} {key : TransKey} {trans : Trans}

/-- The transaction is in the table then, or `hasho_add` refused it. -/
theorem add_cases {added : Bool} (done : addTrans env client key trans world = (added, after)) :
    (added = true ∧ world.http.lookup key = none ∧ ∃ middle, Still world middle ∧
      after = { middle with http := middle.http.insert key trans }.emit (.entered key)) ∨
    (added = false ∧ Still world after ∧
      ((∃ number, env.grants .addTrans client number = false) ∨ Event.refused key ∈ after.events)) := by
  rw [addTrans] at done
  split at done
  · cases done
    exact Or.inr ⟨rfl, still_emit world rfl, Or.inr (List.mem_append_right _ (List.mem_singleton_self _))⟩
  · next free =>
      split at done
      · next refused =>
          have quiet := granted_still refused
          cases done
          exact Or.inr ⟨rfl, quiet, Or.inl ⟨_, (Prod.mk.inj refused).1⟩⟩
      · next middle allowed =>
          cases done
          exact Or.inl ⟨rfl, free, middle, granted_still allowed, rfl⟩

/-- The log is written, refused or dropped; the transaction is gone in any case. -/
theorem close_cases (done : dCloseHttpTrans env client key trans sess world = (sess', after)) :
    sess' = sess.initCount.leaveTrans ∧ after.tcp = world.tcp ∧ after.http = world.http.erase key ∧
      ∃ more, after.events = world.events ++ more ++ [.left key] ∧
        ((0 < trans.dSndMsgQ ∧ more =
            [.written trans.dSndMsgQ (.log trans.logNode (closeLog sess trans) trans.linked)]) ∨
          (more = [] ∧ ∃ number, env.grants .writeLog client number = false) ∨
          (¬0 < trans.dSndMsgQ ∧ more =
            [.dropped (.log trans.logNode (closeLog sess trans) trans.linked)])) := by
  rw [dCloseHttpTrans, dSendHTTPData] at done
  by_cases served : 0 < trans.dSndMsgQ
  · rw [if_pos served, granted] at done
    cases grant : env.grants .writeLog client (World.calls
      { world with curSessCnt := world.curSessCnt - 1 } client) with
    | false =>
        rw [grant] at done
        obtain ⟨rfl, rfl⟩ := Prod.mk.inj done
        exact ⟨rfl, rfl, rfl, [], by rw [List.append_nil]; rfl, Or.inr (Or.inl ⟨rfl, _, grant⟩)⟩
    | true =>
        rw [grant] at done
        obtain ⟨rfl, rfl⟩ := Prod.mk.inj done
        exact ⟨rfl, rfl, rfl, _, rfl, Or.inl ⟨served, rfl⟩⟩
  · rw [if_neg served] at done
    obtain ⟨rfl, rfl⟩ := Prod.mk.inj done
    exact ⟨rfl, rfl, rfl, _, rfl, Or.inr (Or.inr ⟨served, rfl⟩)⟩

/-- A request is given up for want of a node, refused when its transaction is to be entered, or entered. -/
theorem request_cases (done : dProcStatusReq env client failCode sess world = ((dRet, sess'), after)) :
    ∃ hdr body,
      (Still world after ∧ sess' = sess.setChains false hdr body) ∨
      (Still world after ∧ sess' = (sess.setChains false hdr body).initCount ∧
        ((∃ number, env.grants .addTrans client number = false) ∨
          Event.refused (makeHttpHashKey client sess.usNextTransID) ∈ after.events)) ∨
      ∃ middle node, Still world middle ∧
        middle.http.lookup (makeHttpHashKey client sess.usNextTransID) = none ∧
        sess' = ((sess.setChains false hdr body).initCount.enterTrans).clearMsg false ∧
        after = { middle with
          http := middle.http.insert (makeHttpHashKey client sess.usNextTransID)
            (newTrans env client failCode sess node) }.emit
          (.entered (makeHttpHashKey client sess.usNextTransID)) := by
  rw [dProcStatusReq] at done
  split at done
  · next hdr =>
      have first := alloc_still hdr
      obtain ⟨same, rfl⟩ := Prod.mk.inj done
      exact ⟨none, none, Or.inl ⟨first, (Prod.mk.inj same).2.symm⟩⟩
  · next chain _ hdr =>
      have first := alloc_still hdr
      split at done
      · next body =>
          have second := first.trans_still (alloc_still body)
          obtain ⟨same, rfl⟩ := Prod.mk.inj done
          exact ⟨some chain, none, Or.inl ⟨second, (Prod.mk.inj same).2.symm⟩⟩
      · next bodyChain _ body =>
          have second := first.trans_still (alloc_still body)
          refine ⟨some chain, some bodyChain, ?_⟩
          split at done
          · next node =>
              have third := second.trans_still (node_still node)
              obtain ⟨same, rfl⟩ := Prod.mk.inj done
              exact Or.inl ⟨third, (Prod.mk.inj same).2.symm⟩
          · next logNode _ node =>
              have third := second.trans_still (node_still node)
              split at done
              · next tlv =>
                  have fourth := third.trans_still (granted_still tlv)
                  obtain ⟨same, rfl⟩ := Prod.mk.inj done
                  exact Or.inl ⟨fourth.trans_still (still_emit _ rfl), (Prod.mk.inj same).2.symm⟩
              · next tlv =>
                  have fourth := third.trans_still (granted_still tlv)
                  right
                  split at done
                  · next added =>
                      obtain ⟨absurd, -⟩ | ⟨-, quiet, why⟩ := add_cases added
                      · cases absurd
                      · obtain ⟨same, rfl⟩ := Prod.mk.inj done
                        refine Or.inl ⟨(fourth.trans_still quiet).trans_still (still_emit _ rfl),
                          (Prod.mk.inj same).2.symm, why.imp_right ?_⟩
                        exact List.mem_append_left _
                  · next added =>
                      obtain ⟨-, free, middle, quiet, rfl⟩ | ⟨absurd, -⟩ := add_cases added
                      · obtain ⟨same, rfl⟩ := Prod.mk.inj done
                        refine Or.inr ⟨middle, logNode, fourth.trans_still quiet, ?_,
                          (Prod.mk.inj same).2.symm, rfl⟩
                        rw [quiet.http]
                        exact free
                      · cases absurd

/-- A response finds no transaction, is given up for want of a node, or closes the transaction. -/
theorem response_cases (done : dProcStatusRes env client failCode sess world = ((dRet, sess'), after)) :
    (Still world after ∧ ∃ msg, sess' = sess.setMsg true msg ∧
      (msg.multiKey.key = sess.res.multiKey.key ∨ msg.multiKey.key = [])) ∨
    ∃ found hdr body middle,
      world.http.lookup (makeHttpHashKey client sess.usFirstTransID) = some found ∧
      Still ({ world with
        http := world.http.insert (makeHttpHashKey client sess.usFirstTransID)
          (found.attach failCode sess) }.emit
        (.attached (makeHttpHashKey client sess.usFirstTransID) sess.res.hdr sess.res.body)) middle ∧
      ((after = middle ∧ sess' = sess.setChains true hdr body) ∨
        ∃ closed, dCloseHttpTrans env client (makeHttpHashKey client sess.usFirstTransID)
            { found.attach failCode sess with
              log := resLog sess (found.attach failCode sess) found.log }
            (sess.setChains true hdr body).initCount middle = (closed, after) ∧
          sess' = closed.clearMsg true) := by
  rw [dProcStatusRes] at done
  split at done
  · have key := @initBuffer_key env client true sess.res world
    have passes := initBuffer_passes env client true sess.res world
    split at done
    next msg _ initEq =>
      rw [initEq] at key passes
      obtain ⟨same, rfl⟩ := Prod.mk.inj done
      exact Or.inl ⟨passes.still, msg, (Prod.mk.inj same).2.symm, key⟩
  · next found held =>
      right
      split at done
      · next hdr =>
          have first := alloc_still hdr
          obtain ⟨same, rfl⟩ := Prod.mk.inj done
          exact ⟨found, none, none, _, held, first, Or.inl ⟨rfl, (Prod.mk.inj same).2.symm⟩⟩
      · next chain _ hdr =>
          have first := alloc_still hdr
          split at done
          · next body =>
              have second := first.trans_still (alloc_still body)
              obtain ⟨same, rfl⟩ := Prod.mk.inj done
              exact ⟨found, some chain, none, _, held, second, Or.inl ⟨rfl, (Prod.mk.inj same).2.symm⟩⟩
          · next bodyChain _ body =>
              have second := first.trans_still (alloc_still body)
              split at done
              next closed _ closing =>
                obtain ⟨same, rfl⟩ := Prod.mk.inj done
                exact ⟨found, some chain, some bodyChain, _, held, second,
                  Or.inr ⟨closed, closing, (Prod.mk.inj same).2.symm⟩⟩

end Status

end Upst.Http
