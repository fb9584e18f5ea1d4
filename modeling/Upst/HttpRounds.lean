import Upst.HttpTends

/-!
The main loop of `A_HTTP` for a property of the world that goes with an account of the nodes read: the
account takes in every node of a connection that has a session, from the node that makes the session on.
-/

namespace Upst.Http

set_option autoImplicit false

/-! ## The table of sessions -/

/-- The session is put back into the table. -/
def World.put (world : World) (client : TSessKey) (sess : TSess) : World :=
  { world with tcp := world.tcp.insert client sess }

def World.remove (world : World) (client : TSessKey) : World :=
  { world with tcp := world.tcp.erase client }

theorem remove_deleteChains (world : World) (client : TSessKey) (sess : TSess) :
    (world.remove client).deleteChains sess = (world.deleteChains sess).remove client := by
  have tcp : (world.deleteChains sess).tcp = world.tcp :=
    (passes_deleteChains sess world).tcp
  rw [World.remove, World.remove, tcp]
  simp only [World.deleteChains]
  cases sess.req.hdr <;> cases sess.req.body <;> cases sess.res.hdr <;> cases sess.res.body <;> rfl

/-! ## Accounts -/

section Account

variable {ι : Type} (env : Env) (told : TcpInfo → ι → ι)

/-- The account behind a node with its `TCP_INFO`. -/
def takenBy (world : World) (info : TcpInfo) (account : ι) : ι :=
  match info.cTcpFlag with
  | .start =>
      match pCreateTcpSess env (makeTcpHashKey info) info world with
      | some (true, _) => told info account
      | _ => account
  | .finish | .data =>
      match world.tcp.lookup (makeTcpHashKey info) with
      | some _ => told info account
      | none => account
  | .other => account

/-- The account behind any node, which is read first. -/
def takenIn (world : World) (input : Option TcpInfo) (account : ι) : ι :=
  match input with
  | none => account
  | some info =>
      takenBy env told { world.emit (.read (.read world.reads)) with reads := world.reads + 1 } info
        account

/-- The account behind a run. -/
def takenAll : World → List (Option TcpInfo) → ι → ι
  | _, [], account => account
  | world, input :: rest, account =>
      match step env world input with
      | none => account
      | some after => takenAll after rest (takenIn env told world input account)

/-- The session that a node closes: that of the connection at its end, or one that a new session replaces. -/
def closesSess (world : World) (input : Option TcpInfo) (client : TSessKey) (sess : TSess) : Prop :=
  ∃ info found, input = some info ∧ client = makeTcpHashKey info ∧ world.tcp.lookup client = some found ∧
    ((info.cTcpFlag = .finish ∧ sess = updateHttpTsess info found) ∨
      (info.cTcpFlag = .start ∧ sess = found))

/-- Every session that is closed in a run is one that `closes` holds of. -/
def ClosesAll (closes : TSessKey → TSess → Prop) : World → List (Option TcpInfo) → Prop
  | _, [] => True
  | world, input :: rest =>
      (∀ client sess, closesSess world input client sess → closes client sess) ∧
        ∀ after, step env world input = some after → ClosesAll closes after rest

theorem closes_any (env : Env) (world : World) (inputs : List (Option TcpInfo)) :
    ClosesAll env (fun _ _ => True) world inputs := by
  induction inputs generalizing world with
  | nil => trivial
  | cons input rest ih => exact ⟨fun _ _ _ => trivial, fun after _ => ih after⟩

theorem closed_empty {env : Env} {client : TSessKey} {failCode : Nat} {sess sess' : TSess}
    {world after : World}
    (done : dCloseAllHttpTrans env client failCode sess world = some (sess', after)) :
    sess'.usCurTransCnt = 0 := by
  rw [dCloseAllHttpTrans] at done
  dsimp only at done
  split at done
  · cases done
  · cases done
    rfl

end Account

/-- A property of the world and the account that every part of the main loop keeps, when the nodes that
make a session `opens` it and every session is closed as `closes` says. -/
structure Rounds (env : Env) {ι : Type} (told : TcpInfo → ι → ι) (opens : TcpInfo → Prop)
    (closes : TSessKey → TSess → Prop) (bound : ι → World → Prop) : Prop where
  passes : ∀ {account : ι} {world after : World},
    bound account world → Passes world after → bound account after
  tends : ∀ (account : ι) {client : TSessKey}, client.usReserved = 0 →
    Tends env client fun sess world => bound account (world.put client sess)
  found : ∀ {account : ι} {client : TSessKey} {sess : TSess} {world : World},
    bound account world → world.tcp.lookup client = some sess → bound account (world.put client sess)
  adds : ∀ {account : ι} {info : TcpInfo} {sess : TSess} {world : World},
    bound account (world.put (makeTcpHashKey info) sess) →
      bound (told info account) (world.put (makeTcpHashKey info) (updateHttpTsess info sess))
  created : ∀ {account : ι} {info : TcpInfo} {world : World} {uiNextSeq uiNextSeq' : Nat}
    {reqHdr reqBody resHdr resBody : Chain}, opens info → bound account world →
      world.tcp.lookup (makeTcpHashKey info) = none →
        bound (told info account) (world.put (makeTcpHashKey info)
          (newSess info (newMsg uiNextSeq reqHdr reqBody) (newMsg uiNextSeq' resHdr resBody)))
  closed : ∀ {account : ι} {client : TSessKey} {sess sess' : TSess} {world after : World},
    client.usReserved = 0 → bound account (world.put client sess) → closes client sess →
      dCloseAllHttpTrans env client HTTP_UERR_EMPTY sess world = some (sess', after) →
        bound account (after.remove client)
  emits : ∀ {account : ι} {world : World} {event : Event}, event.plain = true → bound account world →
    bound account (world.emit event)
  reads : ∀ {account : ι} {world : World} (count : Nat), bound account world →
    bound account { world with reads := count }

section Rounds

variable {env : Env} {ι : Type} {told : TcpInfo → ι → ι} {opens : TcpInfo → Prop}
  {closes : TSessKey → TSess → Prop} {bound : ι → World → Prop}
  (rounds : Rounds env told opens closes bound) {account : ι}

include rounds

theorem Rounds.sendNode {client : TSessKey} {call : Call} {dest : Nat} {node : NodeId} {sent : Bool}
    {world after : World} (holds : bound account world)
    (send : dSendHTTPData env client call dest (.node node) world = (sent, after)) :
    bound account after := by
  rw [dSendHTTPData, granted] at send
  have called : bound account (world.called client) := rounds.passes holds (passes_called client world)
  split at send
  · cases grant : env.grants call client (world.calls client) with
    | false =>
        rw [grant] at send
        cases send
        exact called
    | true =>
        rw [grant] at send
        cases send
        exact rounds.emits rfl called
  · cases send
    exact rounds.emits rfl holds

theorem Rounds.dCloseTcpSess {client : TSessKey} (port : client.usReserved = 0) {sess : TSess}
    {world after : World} (holds : bound account (world.put client sess)) (closing : closes client sess)
    (done : dCloseTcpSess env client sess world = some after) :
    bound account after ∧ after.tcp.lookup client = none := by
  rw [Http.dCloseTcpSess] at done
  cases allEq : dCloseAllHttpTrans env client HTTP_UERR_EMPTY sess world with
  | none =>
      rw [allEq] at done
      cases done
  | some pair =>
      obtain ⟨sess', middle⟩ := pair
      have removed := rounds.passes (rounds.closed port holds closing allEq)
        (passes_deleteChains sess' (middle.remove client))
      rw [allEq] at done
      cases done
      refine ⟨?_, AList.lookup_erase _ _⟩
      rw [remove_deleteChains] at removed
      exact removed

theorem Rounds.addSess {info : TcpInfo} {world after : World} {added : Bool} {uiNextSeq uiNextSeq' : Nat}
    {reqHdr reqBody resHdr resBody : Chain} (opening : opens info) (holds : bound account world)
    (done : addSess env (makeTcpHashKey info)
      (newSess info (newMsg uiNextSeq reqHdr reqBody) (newMsg uiNextSeq' resHdr resBody)) world =
        (added, after)) :
    (if added then bound (told info account) after else bound account after) ∧
      (added = false → after.tcp = world.tcp) := by
  rw [Http.addSess] at done
  cases found : world.tcp.lookup (makeTcpHashKey info) with
  | some old =>
      rw [found] at done
      cases done
      exact ⟨holds, fun _ => rfl⟩
  | none =>
      have called : bound account (world.called (makeTcpHashKey info)) :=
        rounds.passes holds (passes_called _ world)
      rw [found, granted] at done
      cases grant : env.grants .addSess (makeTcpHashKey info) (world.calls (makeTcpHashKey info)) with
      | false =>
          rw [grant] at done
          cases done
          exact ⟨called, fun _ => rfl⟩
      | true =>
          rw [grant] at done
          cases done
          exact ⟨rounds.created opening called found, fun absurd => by cases absurd⟩

theorem Rounds.replaceSess {info : TcpInfo} {world after : World} {added : Bool}
    {uiNextSeq uiNextSeq' : Nat} {reqHdr reqBody resHdr resBody : Chain} (opening : opens info)
    (holds : bound account world)
    (closing : ∀ old, world.tcp.lookup (makeTcpHashKey info) = some old → closes (makeTcpHashKey info) old)
    (done : replaceSess env (makeTcpHashKey info)
      (newSess info (newMsg uiNextSeq reqHdr reqBody) (newMsg uiNextSeq' resHdr resBody)) world =
        some (added, after)) :
    if added then bound (told info account) after else bound account after := by
  rw [Http.replaceSess] at done
  cases firstEq : Http.addSess env (makeTcpHashKey info)
    (newSess info (newMsg uiNextSeq reqHdr reqBody) (newMsg uiNextSeq' resHdr resBody)) world with
  | mk taken world₁ =>
      obtain ⟨first, same⟩ := rounds.addSess opening holds firstEq
      rw [firstEq] at done
      cases taken with
      | true =>
          cases done
          exact first
      | false =>
          dsimp only at done
          rw [if_neg Bool.false_ne_true] at first
          cases found : world₁.tcp.lookup (makeTcpHashKey info) with
          | none =>
              rw [found] at done
              cases done
          | some old =>
              have gone := closing old (same rfl ▸ found)
              rw [found] at done
              dsimp only at done
              cases closeEq : Http.dCloseTcpSess env (makeTcpHashKey info) old world₁ with
              | none =>
                  rw [closeEq] at done
                  cases done
              | some world₂ =>
                  have second := (rounds.dCloseTcpSess rfl (rounds.found first found) gone closeEq).1
                  rw [closeEq] at done
                  dsimp only at done
                  cases secondEq : Http.addSess env (makeTcpHashKey info)
                    (newSess info (newMsg uiNextSeq reqHdr reqBody) (newMsg uiNextSeq' resHdr resBody))
                    world₂ with
                  | mk taken world₃ =>
                      have third := (rounds.addSess opening second secondEq).1
                      rw [secondEq] at done
                      cases taken with
                      | true =>
                          cases done
                          exact third
                      | false =>
                          cases done
                          exact rounds.passes third (passes_deleteChains _ world₃)

theorem Rounds.pCreateTcpSess {info : TcpInfo} {world after : World} {created : Bool}
    (opening : opens info) (holds : bound account world)
    (closing : ∀ old, world.tcp.lookup (makeTcpHashKey info) = some old → closes (makeTcpHashKey info) old)
    (done : pCreateTcpSess env (makeTcpHashKey info) info world = some (created, after)) :
    if created then bound (told info account) after else bound account after := by
  have alloc {isNotREQ body : Bool} {world after : World} {chain : Option Chain}
      (holds : bound account world)
      (allocEq : pAllocDataNode env (makeTcpHashKey info) .create isNotREQ body world = (chain, after)) :
      bound account after ∧ after.tcp = world.tcp := by
    have passes := pAllocDataNode_passes env (makeTcpHashKey info) .create isNotREQ body world
    rw [allocEq] at passes
    exact ⟨rounds.passes holds passes, passes.tcp⟩
  rw [Http.pCreateTcpSess] at done
  cases firstEq : pAllocDataNode env (makeTcpHashKey info) .create false false world with
  | mk reqHdr world₁ =>
      obtain ⟨first, same₁⟩ := alloc holds firstEq
      rw [firstEq] at done
      cases reqHdr with
      | none =>
          cases done
          exact first
      | some reqHdr =>
          dsimp only at done
          cases secondEq : pAllocDataNode env (makeTcpHashKey info) .create false true world₁ with
          | mk reqBody world₂ =>
              obtain ⟨second, same₂⟩ := alloc first secondEq
              rw [secondEq] at done
              cases reqBody with
              | none =>
                  cases done
                  exact rounds.passes second (passes_deleteChain _ world₂)
              | some reqBody =>
                  dsimp only at done
                  cases thirdEq : pAllocDataNode env (makeTcpHashKey info) .create true false world₂ with
                  | mk resHdr world₃ =>
                      obtain ⟨third, same₃⟩ := alloc second thirdEq
                      rw [thirdEq] at done
                      cases resHdr with
                      | none =>
                          cases done
                          exact third
                      | some resHdr =>
                          dsimp only at done
                          cases fourthEq : pAllocDataNode env (makeTcpHashKey info) .create true true
                            world₃ with
                          | mk resBody world₄ =>
                              obtain ⟨fourth, same₄⟩ := alloc third fourthEq
                              rw [fourthEq] at done
                              cases resBody with
                              | none =>
                                  cases done
                                  exact rounds.passes fourth
                                    (passes_deleteChain _ world₄)
                              | some resBody =>
                                  have same : world₄.tcp = world.tcp := by
                                    rw [same₄, same₃, same₂, same₁]
                                  exact rounds.replaceSess opening fourth (same ▸ closing) done

theorem Rounds.dProcHttpTrans {info : TcpInfo} {node : NodeId} {world after : World} {dRet : Int}
    (opening : info.cTcpFlag = .start → opens info) (holds : bound account world)
    (closing : ∀ client sess, closesSess world (some info) client sess → closes client sess)
    (done : dProcHttpTrans env info node world = some (dRet, after)) :
    bound (takenBy env told world info account) after := by
  rw [Http.dProcHttpTrans] at done
  rw [takenBy]
  cases flag : info.cTcpFlag with
  | start =>
      rw [flag] at done
      dsimp only at done ⊢
      cases createEq : Http.pCreateTcpSess env (makeTcpHashKey info) info world with
      | none =>
          rw [createEq] at done
          cases done
      | some pair =>
          obtain ⟨created, middle⟩ := pair
          have later := rounds.pCreateTcpSess (opening flag) holds
            (fun old found => closing _ old ⟨info, old, rfl, rfl, found, Or.inr ⟨flag, rfl⟩⟩) createEq
          rw [createEq] at done
          cases created with
          | false =>
              cases done
              exact later
          | true =>
              dsimp only at done
              cases sendEq : dSendHTTPData env (makeTcpHashKey info) .writeTcp (tcpDest env info)
                (.node node) middle with
              | mk sent final =>
                  have gone := rounds.sendNode later sendEq
                  rw [sendEq] at done
                  cases sent <;> cases done <;> exact gone
  | finish =>
      rw [flag] at done
      dsimp only at done ⊢
      cases found : world.tcp.lookup (makeTcpHashKey info) with
      | none =>
          rw [found] at done
          cases done
          exact holds
      | some sess =>
          have added := rounds.adds (rounds.found holds found)
          have gone := closing _ _ ⟨info, sess, rfl, rfl, found, Or.inl ⟨flag, rfl⟩⟩
          rw [found] at done
          dsimp only at done
          cases closeEq : Http.dCloseTcpSess env (makeTcpHashKey info) (updateHttpTsess info sess)
            world with
          | none =>
              rw [closeEq] at done
              cases done
          | some middle =>
              have later := (rounds.dCloseTcpSess rfl added gone closeEq).1
              rw [closeEq] at done
              dsimp only at done
              cases sendEq : dSendHTTPData env (makeTcpHashKey info) .writeTcp (tcpDest env info)
                (.node node) middle with
              | mk sent final =>
                  have written := rounds.sendNode later sendEq
                  rw [sendEq] at done
                  cases sent <;> cases done <;> exact written
  | data =>
      rw [flag] at done
      dsimp only at done ⊢
      cases found : world.tcp.lookup (makeTcpHashKey info) with
      | none =>
          rw [found] at done
          cases done
          exact holds
      | some sess =>
          have added := rounds.adds (rounds.found holds found)
          rw [found] at done
          dsimp only at done
          cases dataEq : Http.dProcTcpData env (makeTcpHashKey info) info (updateHttpTsess info sess)
            world with
          | none =>
              rw [dataEq] at done
              cases done
          | some triple =>
              obtain ⟨⟨ret, sess'⟩, middle⟩ := triple
              have later := ((rounds.tends _ rfl).dProcTcpData added dataEq).1
              rw [dataEq] at done
              dsimp only at done
              split at done
              · cases done
                exact rounds.emits rfl later
              · cases done
                exact later
  | other =>
      rw [flag] at done
      cases done
      exact holds

theorem Rounds.step {input : Option TcpInfo} {world after : World}
    (opening : ∀ info, input = some info → info.cTcpFlag = .start → opens info)
    (holds : bound account world)
    (closing : ∀ client sess, closesSess world input client sess → closes client sess)
    (stepped : step env world input = some after) :
    bound (takenIn env told world input account) after := by
  have began : bound account { world.emit (.read (.read world.reads)) with reads := world.reads + 1 } :=
    rounds.reads _ (rounds.emits rfl holds)
  cases input with
  | none =>
      rw [Http.step] at stepped
      dsimp only at stepped
      split at stepped
      · cases stepped
        exact rounds.emits rfl began
      · cases stepped
        exact rounds.emits rfl began
  | some info =>
      rw [Http.step] at stepped
      rw [takenIn]
      dsimp only at stepped ⊢
      cases procEq : Http.dProcHttpTrans env info (.read world.reads)
        { world.emit (.read (.read world.reads)) with reads := world.reads + 1 } with
      | none =>
          rw [procEq] at stepped
          cases stepped
      | some pair =>
          obtain ⟨dRet, middle⟩ := pair
          have later := rounds.dProcHttpTrans (opening info rfl) began closing procEq
          rw [procEq] at stepped
          dsimp only at stepped
          split at stepped
          · cases stepped
            exact rounds.emits rfl later
          · cases stepped
            exact later

theorem Rounds.run {inputs : List (Option TcpInfo)} {world final : World}
    (opening : ∀ info, some info ∈ inputs → info.cTcpFlag = .start → opens info)
    (holds : bound account world) (closing : ClosesAll env closes world inputs) (ran : run env world inputs = some final) :
    bound (takenAll env told world inputs account) final := by
  induction inputs generalizing world account with
  | nil =>
      cases ran
      exact holds
  | cons input rest ih =>
      obtain ⟨after, stepped, ran⟩ := run_cons ran
      have first := rounds.step (fun info same => opening info (same ▸ List.mem_cons_self)) holds closing.1
        stepped
      have later := ih (fun info member => opening info (List.mem_cons_of_mem _ member)) first
        (closing.2 after stepped) ran
      rw [takenAll, stepped]
      exact later

end Rounds

end Upst.Http
