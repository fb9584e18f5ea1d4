import Upst.HttpNodes

/-!
What is kept for a session while a node of it is served: what its logs are made of, the numbers of its transactions, its counters and the texts that the scanners found.
A property that is kept by the calls that collect a message, by the scanners, by `dProcStatus` and by
the closing of all transactions is kept by everything that is done for the session.
-/

namespace Upst.Http

set_option autoImplicit false

/-- The counters of a session, and the code its logs are sent by. -/
structure Books where
  first : Nat
  next : Nat
  cur : Nat
  app : Nat
  deriving DecidableEq, Repr

def TSess.books (sess : TSess) : Books where
  first := sess.usFirstTransID
  next := sess.usNextTransID
  cur := sess.usCurTransCnt
  app := sess.usAppCode

theorem setMsg_books (sess : TSess) (isNotREQ : Bool) (msg : MsgInfo) :
    (sess.setMsg isNotREQ msg).books = sess.books := by
  cases isNotREQ <;> rfl

/-- What the calls that only collect a message leave as it is. -/
structure Core where
  books : Books
  counts : Counts
  szUrl : List UInt8
  urlType : Option UrlType
  szHostName : List UInt8
  reqKey : List UInt8
  resKey : List UInt8

def TSess.core (sess : TSess) : Core where
  books := sess.books
  counts := sess.counts
  szUrl := sess.szUrl
  urlType := sess.urlType
  szHostName := sess.szHostName
  reqKey := sess.req.multiKey.key
  resKey := sess.res.multiKey.key

theorem setMsg_core (sess : TSess) (isNotREQ : Bool) {msg : MsgInfo}
    (key : msg.multiKey.key = (sess.msg isNotREQ).multiKey.key) :
    (sess.setMsg isNotREQ msg).core = sess.core := by
  cases isNotREQ with
  | false =>
      rw [TSess.core, TSess.core]
      exact congrArg (fun reqKey => { sess.core with reqKey := reqKey }) key
  | true =>
      rw [TSess.core, TSess.core]
      exact congrArg (fun resKey => { sess.core with resKey := resKey }) key

/-! ## The key of a multipart body -/

section Key

variable {env : Env} {client : TSessKey} {isNotREQ : Bool}

theorem initBuffer_key (msg : MsgInfo) (world : World) :
    (initBuffer env client isNotREQ msg world).1.multiKey.key = msg.multiKey.key ∨
      (initBuffer env client isNotREQ msg world).1.multiKey.key = [] := by
  rw [initBuffer]
  split
  · exact Or.inl rfl
  · split
    · exact Or.inl rfl
    · exact Or.inr rfl

end Key

/-! ## Everything done for a session -/

/-- A property of the session and the world that the ends of messages and of transactions keep. -/
structure Settles (env : Env) (client : TSessKey) (kept : TSess → World → Prop) : Prop where
  status : ∀ {sess sess' : TSess} {world after : World} {dRet : Int} (isNotREQ : Bool)
    (failCode : Nat), kept sess world →
      dProcStatus env client isNotREQ failCode sess world = ((dRet, sess'), after) →
        kept sess' after
  closeAll : ∀ {sess sess' : TSess} {world after : World} (failCode : Nat), kept sess world →
    closeTrans env client failCode sess.usCurTransCnt sess.usFirstTransID sess world =
      some (sess', after) →
        kept { sess' with usFirstTransID := 0, usLastTransID := 0, usCurTransCnt := 0 } after

/-- A property of the session and the world that everything done for the session keeps. -/
structure Tends (env : Env) (client : TSessKey) (kept : TSess → World → Prop) : Prop
    extends Settles env client kept where
  message : ∀ {sess : TSess} {world after : World} {msg : MsgInfo} (isNotREQ : Bool),
    kept sess world → Passes world after →
      (msg.multiKey.key = (sess.msg isNotREQ).multiKey.key ∨ msg.multiKey.key = []) →
        kept (sess.setMsg isNotREQ msg) after
  same : ∀ {sess sess' : TSess} {world : World}, kept sess world → sess'.core = sess.core →
    kept sess' world
  checked : ∀ {sess sess' : TSess} {world : World} {payload : List UInt8} (isNotREQ : Bool),
    kept sess world → checkHeader env.parsers isNotREQ sess payload = some sess' → kept sess' world
  scanned : ∀ {sess : TSess} {world : World} (isNotREQ : Bool) (starts : Starts) (chain : Chain),
    kept sess world → kept (getHeaderInfo env.parsers isNotREQ starts env.headRoom sess chain).1 world

section Tends

variable {env : Env} {client : TSessKey} {kept : TSess → World → Prop} {isNotREQ : Bool}
  {sess sess' : TSess} {world after : World} {dRet : Int} {info : TcpInfo}
  (tends : Tends env client kept)

include tends

theorem Tends.restart (holds : kept sess world)
    (done : restart env client isNotREQ sess world = ((dRet, sess'), after)) :
    kept sess' after ∧ dRet ≤ 0 := by
  have passes := initBuffer_passes env client isNotREQ (sess.msg isNotREQ) world
  rw [Http.restart] at done
  cases initEq : initBuffer env client isNotREQ (sess.msg isNotREQ) world with
  | mk msg middle =>
      have key : msg.multiKey.key = (sess.msg isNotREQ).multiKey.key ∨ msg.multiKey.key = [] := by
        have started := @initBuffer_key env client isNotREQ (sess.msg isNotREQ) world
        rwa [initEq] at started
      rw [initEq] at passes done
      cases done
      exact ⟨tends.message isNotREQ holds passes key, Int.le_refl 0⟩

/-- A change of the message that keeps its key. -/
theorem Tends.setMsg {msg : MsgInfo}
    (holds : kept sess world) (key : msg.multiKey.key = (sess.msg isNotREQ).multiKey.key) :
    kept (sess.setMsg isNotREQ msg) world :=
  tends.same holds (setMsg_core sess isNotREQ key)

theorem Tends.endMessage (holds : kept sess world)
    (done : endMessage env client isNotREQ sess world = ((dRet, sess'), after)) :
    kept sess' after ∧ dRet ≤ 0 := by
  rw [Http.endMessage] at done
  cases statusEq : dProcStatus env client isNotREQ HTTP_UERR_EMPTY sess world with
  | mk result middle =>
      obtain ⟨ret, sess''⟩ := result
      have later := tends.status isNotREQ _ holds statusEq
      rw [statusEq] at done
      dsimp only at done
      split at done
      · cases done
        exact ⟨later, by decide⟩
      · cases done
        exact ⟨tends.setMsg later rfl, Int.le_refl 0⟩

theorem Tends.procBody {data : List UInt8} (holds : kept sess world)
    (done : procBody env client info isNotREQ data sess world = some ((dRet, sess'), after)) :
    kept sess' after ∧ dRet ≤ 0 := by
  rw [Http.procBody] at done
  cases bodyEq : getBody env client isNotREQ data ((sess.msg isNotREQ).touch info) world with
  | none =>
      rw [bodyEq] at done
      cases done
  | some triple =>
      obtain ⟨⟨got, msg⟩, middle⟩ := triple
      obtain ⟨passes, key⟩ := getBody_collects bodyEq
      rw [bodyEq] at done
      cases got with
      | more =>
          cases done
          exact ⟨tends.message isNotREQ holds passes (Or.inl key), Int.le_refl 0⟩
      | ended =>
          exact tends.endMessage (tends.message isNotREQ holds passes (Or.inl key)) (Option.some.inj done)
      | failed =>
          exact tends.restart (tends.message isNotREQ holds passes (Or.inl key)) (Option.some.inj done)

theorem Tends.afterHeader {rest : List UInt8} (holds : kept sess world)
    (done : afterHeader env client info isNotREQ rest sess world = some ((dRet, sess'), after)) :
    kept sess' after ∧ dRet ≤ 0 := by
  rw [Http.afterHeader] at done
  split at done
  · exact tends.endMessage holds (Option.some.inj done)
  · split at done
    · cases done
      exact ⟨tends.setMsg holds rfl, Int.le_refl 0⟩
    · refine tends.procBody ?_ done
      exact tends.setMsg holds rfl

theorem Tends.procHeader {data : List UInt8} (holds : kept sess world)
    (done : procHeader env client info isNotREQ data sess world = some ((dRet, sess'), after)) :
    kept sess' after ∧ dRet ≤ 0 := by
  rw [Http.procHeader] at done
  cases dataEq : dGetData env client isNotREQ ((sess.msg isNotREQ).touch info).limit data
    ((sess.msg isNotREQ).touch info) world with
  | none =>
      rw [dataEq] at done
      cases done
  | some triple =>
      obtain ⟨⟨got, rest, msg⟩, middle⟩ := triple
      obtain ⟨passes, key⟩ := dGetData_collects dataEq
      rw [dataEq] at done
      have collected := tends.message isNotREQ holds passes (Or.inl key)
      cases got with
      | more =>
          cases done
          exact ⟨tends.message isNotREQ holds passes (Or.inl key), Int.le_refl 0⟩
      | failed => exact tends.restart collected (Option.some.inj done)
      | ended =>
          dsimp only at done
          cases chainEq : msg.hdr with
          | none =>
              rw [chainEq] at done
              cases done
          | some chain =>
              rw [chainEq] at done
              dsimp only at done
              -- the scanners leave the start conditions changed and nothing else
              have ready := tends.message isNotREQ holds (passes.trans_passes (passes_starts middle
                (Http.getHeaderInfo env.parsers isNotREQ middle.starts env.headRoom
                  (sess.setMsg isNotREQ msg) chain).2)) (Or.inl key)
              exact tends.afterHeader (tends.scanned isNotREQ middle.starts chain ready) done

theorem Tends.procData (holds : kept sess world)
    (done : procData env client info isNotREQ sess world = some ((dRet, sess'), after)) :
    kept sess' after ∧ dRet ≤ 0 := by
  rw [Http.procData] at done
  split at done
  · cases done
    exact ⟨holds, Int.le_refl 0⟩
  · split at done
    · exact tends.procHeader holds done
    · exact tends.procHeader holds done
    · exact tends.procBody holds done
    · exact tends.procBody holds done

theorem Tends.dProcData (holds : kept sess world)
    (done : dProcData env client info isNotREQ sess world = some ((dRet, sess'), after)) :
    kept sess' after ∧ dRet ≤ 0 := by
  rw [Http.dProcData] at done
  split at done
  · cases done
    exact ⟨holds, by decide⟩
  · rename_i checked
    exact tends.procData (tends.checked isNotREQ holds checked) done
  · exact tends.procData holds done
  · rename_i sess'' checked _
    cases statusEq : dProcStatus env client isNotREQ (abnormalCode isNotREQ) sess'' world with
    | mk result middle =>
        obtain ⟨ret, closed⟩ := result
        have later := tends.status isNotREQ _ (tends.checked isNotREQ holds checked) statusEq
        rw [statusEq] at done
        refine tends.procData ?_ done
        exact tends.setMsg later rfl

theorem Tends.dProcTcpData (holds : kept sess world)
    (done : dProcTcpData env client info sess world = some ((dRet, sess'), after)) :
    kept sess' after ∧ dRet ≤ 0 := by
  rw [Http.dProcTcpData] at done
  split at done
  · refine tends.dProcData ?_ done
    exact tends.setMsg holds rfl
  · cases done
    exact ⟨holds, by decide⟩

theorem Tends.closeMsg {failCode : Nat} (holds : kept sess world)
    (done : closeMsg env client isNotREQ failCode sess world = (sess', after)) :
    kept sess' after := by
  rw [Http.closeMsg] at done
  split at done
  · cases done
    exact holds
  · cases statusEq : dProcStatus env client isNotREQ failCode sess world with
    | mk result middle =>
        obtain ⟨ret, closed⟩ := result
        have later := tends.status isNotREQ _ holds statusEq
        rw [statusEq] at done
        cases done
        exact tends.setMsg later rfl

theorem Tends.dCloseAllHttpTrans {failCode : Nat} (holds : kept sess world)
    (done : dCloseAllHttpTrans env client failCode sess world = some (sess', after)) :
    kept sess' after := by
  rw [Http.dCloseAllHttpTrans] at done
  cases reqEq : Http.closeMsg env client false failCode sess world with
  | mk sess₁ world₁ =>
      rw [reqEq] at done
      dsimp only at done
      cases resEq : Http.closeMsg env client true failCode sess₁ world₁ with
      | mk sess₂ world₂ =>
          rw [resEq] at done
          dsimp only at done
          have both := tends.closeMsg (tends.closeMsg holds reqEq) resEq
          cases closeEq : closeTrans env client failCode sess₂.usCurTransCnt sess₂.usFirstTransID
            sess₂ world₂ with
          | none =>
              rw [closeEq] at done
              cases done
          | some pair =>
              obtain ⟨sess₃, world₃⟩ := pair
              rw [closeEq] at done
              cases done
              exact tends.closeAll failCode both closeEq

end Tends

/-- The same for a property that the texts of the session do not matter to. -/
structure Serves (env : Env) (client : TSessKey) (kept : TSess → World → Prop) : Prop
    extends Settles env client kept where
  message : ∀ {sess : TSess} {world after : World} {msg : MsgInfo} (isNotREQ : Bool),
    kept sess world → Passes world after →
      kept (sess.setMsg isNotREQ msg) after
  same : ∀ {sess sess' : TSess} {world : World}, kept sess world → sess'.books = sess.books →
    kept sess' world

section Serves

variable {env : Env} {client : TSessKey} {kept : TSess → World → Prop}
  (serves : Serves env client kept)

include serves

theorem Serves.getHeaderInfo (isNotREQ : Bool) (starts : Starts) {sess : TSess} {world : World}
    (chain : Chain) (holds : kept sess world) :
    kept (getHeaderInfo env.parsers isNotREQ starts env.headRoom sess chain).1 world := by
  cases isNotREQ with
  | false => exact serves.same holds rfl
  | true => exact serves.same holds rfl

theorem Serves.checkHeader {isNotREQ : Bool} {sess sess' : TSess} {world : World}
    {payload : List UInt8} (holds : kept sess world)
    (checked : checkHeader env.parsers isNotREQ sess payload = some sess') : kept sess' world := by
  obtain ⟨line, -, -, rfl⟩ := checkHeader_iff.mp checked
  cases isNotREQ with
  | false => exact serves.same holds rfl
  | true => exact serves.same holds rfl

theorem Serves.tends : Tends env client kept where
  message isNotREQ holds passes _ := serves.message isNotREQ holds passes
  same holds core := serves.same holds (congrArg Core.books core)
  checked _ holds checked := serves.checkHeader holds checked
  scanned isNotREQ starts chain holds := serves.getHeaderInfo isNotREQ starts chain holds
  status isNotREQ failCode holds done := serves.status isNotREQ failCode holds done
  closeAll failCode holds done := serves.closeAll failCode holds done

theorem Serves.dCloseAllHttpTrans {failCode : Nat} {sess sess' : TSess} {world after : World}
    (holds : kept sess world)
    (done : dCloseAllHttpTrans env client failCode sess world = some (sess', after)) :
    kept sess' after :=
  serves.tends.dCloseAllHttpTrans holds done

end Serves

end Upst.Http
