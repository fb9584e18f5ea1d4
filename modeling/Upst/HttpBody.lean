import Upst.HttpConn

/-!
The readers of a body with the count that they add to `*pdLen`. A body arrives in the segments of the
connection, one call for each; the calls end with the first one that finds the end or fails.
-/

namespace Upst.Http

set_option autoImplicit false

section Readers

variable (env : Env) (client : TSessKey)

/-- A turn of a loop goes on with `more`; every other code is returned. -/
def readLoop (turn : UInt8 → MsgInfo → World → Option ((Got × Nat × MsgInfo) × World)) :
    List UInt8 → MsgInfo → World → Option ((Got × Nat × MsgInfo) × World)
  | [], msg, world => some ((.more, 0, msg), world)
  | byte :: rest, msg, world =>
      match turn byte msg world with
      | none => none
      | some ((.more, count, msg), world) =>
          (readLoop turn rest msg world).map fun result =>
            ((result.1.1, count + result.1.2.1, result.1.2.2), result.2)
      | some ((.ended, count, msg), world) => some ((.ended, count, msg), world)
      | some ((.failed, count, msg), world) => some ((.failed, count, msg), world)

def chunkedTurn (isNotREQ limit : Bool) (byte : UInt8) (msg : MsgInfo) (world : World) :
    Option ((Got × Nat × MsgInfo) × World) :=
  match msg.ucEndStatus.chunk byte with
  | none => some ((.failed, 0, msg), world)
  | some state =>
      match putChunked env client isNotREQ { msg with ucEndStatus := state } byte world with
      | none => none
      | some (none, world) => some ((.failed, 0, { msg with ucEndStatus := state }), world)
      | some (some msg, world) =>
          if state = .s0D0A0D0A then some ((.ended, 1, msg.countBody limit 1), world)
          else some ((.more, 1, (msg.countBody limit 1).stopBuffering), world)

def multiTurn (isNotREQ limit : Bool) (byte : UInt8) (msg : MsgInfo) (world : World) :
    Option ((Got × Nat × MsgInfo) × World) :=
  if msg.multiKey.key.length - 1 ≤ msg.multiKey.state then
    some ((.ended, 0, { msg with ucEndStatus := .s0D0A0D0A }), world)
  else
    match putMulti env client isNotREQ { msg with multiKey := msg.multiKey.next byte } byte world with
    | none => none
    | some (none, world) => some ((.failed, 0, { msg with multiKey := msg.multiKey.next byte }), world)
    | some (some msg, world) => some ((.more, 1, msg.countBody limit 1), world)

def lengthTurn (isNotREQ limit : Bool) (byte : UInt8) (msg : MsgInfo) (world : World) :
    Option ((Got × Nat × MsgInfo) × World) :=
  match putBody env client isNotREQ msg byte world with
  | none => none
  | some (none, world) => some ((.failed, 0, msg), world)
  | some (some msg, world) =>
      if msg.uiLen = (msg.countBody limit 1).uiBodyLen then
        some ((.ended, 1, { msg.countBody limit 1 with ucEndStatus := .s0D0A0D0A }), world)
      else some ((.more, 1, (msg.countBody limit 1).stopBuffering), world)

def chunkedRead (isNotREQ limit : Bool) := readLoop (chunkedTurn env client isNotREQ limit)

def multiRead (isNotREQ limit : Bool) := readLoop (multiTurn env client isNotREQ limit)

/-- `tmpLen` bytes lie behind the body. -/
def lengthRead (isNotREQ limit : Bool) (data : List UInt8) (msg : MsgInfo) (world : World) :
    Option ((Got × Nat × MsgInfo) × World) :=
  if msg.buffering then readLoop (lengthTurn env client isNotREQ limit) data msg world
  else if msg.uiLen = (msg.uiBodyLen + data.length) % 2 ^ 32 then
    some ((.ended, data.length, { msg.countBody limit data.length with ucEndStatus := .s0D0A0D0A }),
      world)
  else if msg.uiLen < (msg.uiBodyLen + data.length) % 2 ^ 32 then
    let tmpLen := (msg.uiBodyLen + data.length) % 2 ^ 32 - msg.uiLen
    let count := (data.length + 2 ^ 32 - tmpLen) % 2 ^ 32
    some ((.ended, count, { msg.countBody limit count with ucEndStatus := .s0D0A0D0A }), world)
  else some ((.more, data.length, msg.countBody limit data.length), world)

/-- What is left of a result without the count. -/
def uncounted (result : Option ((Got × Nat × MsgInfo) × World)) : Option ((Got × MsgInfo) × World) :=
  result.map fun result => ((result.1.1, result.1.2.2), result.2)

theorem uncounted_map (count : Nat) (result : Option ((Got × Nat × MsgInfo) × World)) :
    uncounted (result.map fun result =>
      ((result.1.1, count + result.1.2.1, result.1.2.2), result.2)) = uncounted result := by
  rw [uncounted, Option.map_map]
  rfl

theorem chunked_uncounted (isNotREQ limit : Bool) (data : List UInt8) (msg : MsgInfo)
    (world : World) :
    uncounted (chunkedRead env client isNotREQ limit data msg world) =
      dGetChunkedData env client isNotREQ limit data msg world := by
  rw [chunkedRead]
  induction data generalizing msg world with
  | nil => rfl
  | cons byte rest ih =>
      rw [readLoop, chunkedTurn, dGetChunkedData]
      cases msg.ucEndStatus.chunk byte with
      | none => rfl
      | some state =>
          dsimp only
          rcases putChunked env client isNotREQ { msg with ucEndStatus := state } byte world with
            _ | ⟨_ | next, after⟩
          · rfl
          · rfl
          · dsimp only
            by_cases last : state = .s0D0A0D0A
            · rw [if_pos last, if_pos last]
              rfl
            · rw [if_neg last, if_neg last]
              exact (uncounted_map 1 _).trans (ih _ _)

theorem multi_uncounted (isNotREQ limit : Bool) (data : List UInt8) (msg : MsgInfo)
    (world : World) :
    uncounted (multiRead env client isNotREQ limit data msg world) =
      dGetMultiData env client isNotREQ limit data msg world := by
  rw [multiRead]
  induction data generalizing msg world with
  | nil => rfl
  | cons byte rest ih =>
      rw [readLoop, multiTurn, dGetMultiData]
      by_cases last : msg.multiKey.key.length - 1 ≤ msg.multiKey.state
      · rw [if_pos last, if_pos last]
        rfl
      · rw [if_neg last, if_neg last]
        rcases putMulti env client isNotREQ { msg with multiKey := msg.multiKey.next byte } byte
          world with _ | ⟨_ | next, after⟩
        · rfl
        · rfl
        · exact (uncounted_map 1 _).trans (ih _ _)

theorem length_loop_uncounted (isNotREQ limit : Bool) (data : List UInt8) (msg : MsgInfo)
    (world : World) :
    uncounted (readLoop (lengthTurn env client isNotREQ limit) data msg world) =
      lengthLoop env client isNotREQ limit data msg world := by
  induction data generalizing msg world with
  | nil => rfl
  | cons byte rest ih =>
      rw [readLoop, lengthTurn, lengthLoop]
      rcases putBody env client isNotREQ msg byte world with _ | ⟨_ | next, after⟩
      · rfl
      · rfl
      · dsimp only
        by_cases last : next.uiLen = (next.countBody limit 1).uiBodyLen
        · rw [if_pos last, if_pos last]
          rfl
        · rw [if_neg last, if_neg last]
          exact (uncounted_map 1 _).trans (ih _ _)

theorem length_uncounted (isNotREQ limit : Bool) (data : List UInt8) (msg : MsgInfo)
    (world : World) :
    uncounted (lengthRead env client isNotREQ limit data msg world) =
      dGetLengthData env client isNotREQ limit data msg world := by
  rw [lengthRead, dGetLengthData]
  split
  · exact length_loop_uncounted env client isNotREQ limit data msg world
  · split
    · rfl
    · split <;> rfl

end Readers

section Segments

/-- The codes and counts of the calls for the segments, each with whether it counts for
`uiLimitLen`. -/
def readSegments (read : Bool → List UInt8 → MsgInfo → World → Option ((Got × Nat × MsgInfo) × World)) :
    List (Bool × List UInt8) → MsgInfo → World → Option ((List (Got × Nat) × MsgInfo) × World)
  | [], msg, world => some (([], msg), world)
  | (limit, data) :: segments, msg, world =>
      match read limit data msg world with
      | none => none
      | some ((.more, dLen, msg), world) =>
          (readSegments read segments msg world).map fun result =>
            (((.more, dLen) :: result.1.1, result.1.2), result.2)
      | some ((.ended, dLen, msg), world) => some (([(.ended, dLen)], msg), world)
      | some ((.failed, dLen, msg), world) => some (([(.failed, dLen)], msg), world)

def streamOf (segments : List (Bool × List UInt8)) : List UInt8 := segments.flatMap Prod.snd

theorem stream_cons (segment : Bool × List UInt8) (segments : List (Bool × List UInt8)) :
    streamOf (segment :: segments) = segment.2 ++ streamOf segments :=
  List.flatMap_cons

def taken (reports : List (Got × Nat)) : Nat := (reports.map Prod.snd).sum

def AllMore (reports : List (Got × Nat)) : Prop := ∀ report ∈ reports, report.1 = .more

/-- The end is found when so many bytes are consumed. -/
def EndsAt (reports : List (Got × Nat)) (size : Nat) : Prop :=
  ∃ front last, reports = front ++ [(.ended, last)] ∧ AllMore front ∧ taken front + last = size

/-- All bytes are consumed and no end is found. -/
def GoesOn (reports : List (Got × Nat)) (size : Nat) : Prop := AllMore reports ∧ taken reports = size

def Fails (reports : List (Got × Nat)) : Prop :=
  ∃ front last, reports = front ++ [(.failed, last)] ∧ AllMore front

theorem all_more_cons {dLen : Nat} {reports : List (Got × Nat)} (more : AllMore reports) :
    AllMore ((.more, dLen) :: reports) := by
  rintro report (_ | ⟨_, member⟩)
  · rfl
  · exact more report member

theorem taken_cons (got : Got) (dLen : Nat) (reports : List (Got × Nat)) :
    taken ((got, dLen) :: reports) = dLen + taken reports :=
  List.sum_cons

theorem ends_at_cons {reports : List (Got × Nat)} {size : Nat} (dLen : Nat) (ends : EndsAt reports size) :
    EndsAt ((.more, dLen) :: reports) (dLen + size) := by
  obtain ⟨front, last, rfl, more, sum⟩ := ends
  refine ⟨(.more, dLen) :: front, last, rfl, all_more_cons more, ?_⟩
  rw [taken_cons, Nat.add_assoc, sum]

theorem ends_at_tail {reports : List (Got × Nat)} {size dLen : Nat}
    (ends : EndsAt ((.more, dLen) :: reports) size) :
    ∃ rest, size = dLen + rest ∧ EndsAt reports rest := by
  obtain ⟨front, last, same, more, sum⟩ := ends
  cases front with
  | nil => exact nomatch (List.cons.inj same).1
  | cons first front =>
      obtain ⟨rfl, rfl⟩ := List.cons.inj same
      rw [taken_cons] at sum
      exact ⟨taken front + last, by omega, front, last, rfl,
        fun report member => more report (List.mem_cons_of_mem _ member), rfl⟩

theorem goes_on_cons {reports : List (Got × Nat)} {size : Nat} (dLen : Nat)
    (going : GoesOn reports size) : GoesOn ((.more, dLen) :: reports) (dLen + size) := by
  refine ⟨all_more_cons going.1, ?_⟩
  rw [taken_cons, going.2]

theorem goes_on_tail {reports : List (Got × Nat)} {size dLen : Nat}
    (going : GoesOn ((.more, dLen) :: reports) (dLen + size)) : GoesOn reports size := by
  obtain ⟨more, sum⟩ := going
  rw [taken_cons] at sum
  exact ⟨fun report member => more report (List.mem_cons_of_mem _ member), Nat.add_left_cancel sum⟩

theorem fails_cons {reports : List (Got × Nat)} (dLen : Nat) (fails : Fails reports) :
    Fails ((.more, dLen) :: reports) := by
  obtain ⟨front, last, rfl, more⟩ := fails
  exact ⟨(.more, dLen) :: front, last, rfl, all_more_cons more⟩

theorem ends_at_alone (dLen : Nat) : EndsAt [(.ended, dLen)] dLen :=
  ⟨[], dLen, rfl, nofun, Nat.zero_add dLen⟩

theorem fails_alone (dLen : Nat) : Fails [(.failed, dLen)] := ⟨[], dLen, rfl, nofun⟩

theorem last_unique {front front' : List (Got × Nat)} {last last' : Got × Nat}
    (same : front ++ [last] = front' ++ [last']) : front = front' ∧ last = last' := by
  obtain ⟨fronts, lasts⟩ := List.append_inj' same rfl
  exact ⟨fronts, (List.cons.inj lasts).1⟩

theorem ends_at_unique {reports : List (Got × Nat)} {size size' : Nat} (ends : EndsAt reports size)
    (ends' : EndsAt reports size') : size = size' := by
  obtain ⟨front, last, rfl, -, sum⟩ := ends
  obtain ⟨front', last', same, -, sum'⟩ := ends'
  obtain ⟨rfl, lasts⟩ := last_unique same
  cases lasts
  exact sum.symm.trans sum'

theorem ends_not_going {reports : List (Got × Nat)} {size size' : Nat} (ends : EndsAt reports size) :
    ¬GoesOn reports size' := by
  obtain ⟨front, last, rfl, -, -⟩ := ends
  rintro ⟨more, -⟩
  exact nomatch more (.ended, last) (List.mem_append_right front (List.mem_singleton.mpr rfl))

end Segments

section Supply

variable (env : Env) (client : TSessKey) (isNotREQ : Bool)

/-- The node for more of the body is refused at some time. -/
def Refused : Prop := ∃ number, env.grants (.node .cont isNotREQ true) client number = false

variable {env client isNotREQ}

theorem granting_not_refused (granting : Granting env) : ¬Refused env client isNotREQ := by
  rintro ⟨number, refused⟩
  rw [granting.all] at refused
  cases refused

theorem plainEnv_not_refused : ¬Refused plainEnv client isNotREQ :=
  granting_not_refused plainEnv_granting

theorem put_byte_cases (chain : Chain) (byte : UInt8) (world : World) :
    (∃ after, putByte env client isNotREQ true chain byte world = (none, after) ∧
      Refused env client isNotREQ) ∨
    ∃ chain' after, putByte env client isNotREQ true chain byte world = (some chain', after) ∧
      Extends chain [byte] chain' := by
  rw [putByte]
  by_cases full : chain.room = 0
  · rw [if_pos full, nifoNodeAlloc, granted]
    cases grant : env.grants (.node .cont isNotREQ true) client (world.calls client) with
    | false => exact Or.inl ⟨_, rfl, _, grant⟩
    | true => exact Or.inr ⟨_, _, rfl, rfl, rfl⟩
  · rw [if_neg full]
    exact Or.inr ⟨_, _, rfl, rfl, rfl⟩

theorem put_body_cases {msg : MsgInfo} {chain : Chain} (found : msg.body = some chain) (byte : UInt8)
    (world : World) :
    (∃ after, putBody env client isNotREQ msg byte world = some (none, after) ∧
      Refused env client isNotREQ) ∨
    ∃ chain' after, putBody env client isNotREQ msg byte world =
        some (some { msg with body := some chain' }, after) ∧
      Extends chain [if 0 < msg.dZip then byte else toLower byte] chain' := by
  rw [putBody, found]
  dsimp only
  rcases put_byte_cases chain (if 0 < msg.dZip then byte else toLower byte) world with
    ⟨after, put, refused⟩ | ⟨chain', after, put, more⟩
  · rw [put]
    exact Or.inl ⟨after, rfl, refused⟩
  · rw [put]
    exact Or.inr ⟨chain', after, rfl, more⟩

theorem put_multi_cases {msg : MsgInfo} {chain : Chain} (found : msg.body = some chain) (byte : UInt8)
    (world : World) :
    (∃ after, putMulti env client isNotREQ msg byte world = some (none, after) ∧
      Refused env client isNotREQ) ∨
    ∃ chain' after, putMulti env client isNotREQ msg byte world =
        some (some { msg with body := some chain' }, after) ∧ Extends chain [byte] chain' := by
  rw [putMulti, found]
  dsimp only
  rcases put_byte_cases chain byte world with ⟨after, put, refused⟩ | ⟨chain', after, put, more⟩
  · rw [put]
    exact Or.inl ⟨after, rfl, refused⟩
  · rw [put]
    exact Or.inr ⟨chain', after, rfl, more⟩

theorem put_chunked_cases {msg : MsgInfo} (found : msg.body.isSome) (byte : UInt8) (world : World) :
    (∃ after, putChunked env client isNotREQ msg byte world = some (none, after) ∧
      Refused env client isNotREQ) ∨
    ∃ body after, putChunked env client isNotREQ msg byte world =
        some (some { msg with body := body }, after) ∧ body.isSome := by
  rw [putChunked]
  split
  · obtain ⟨chain, found⟩ := Option.isSome_iff_exists.mp found
    rcases put_body_cases found byte world with ⟨after, put, refused⟩ | ⟨chain', after, put, -⟩
    · exact Or.inl ⟨after, put, refused⟩
    · exact Or.inr ⟨some chain', after, put, rfl⟩
  · exact Or.inr ⟨msg.body, world, rfl, found⟩

end Supply

section Fresh

def oneClient : TSessKey := ⟨10, 1000, 0⟩

def emptyChain : Chain := ⟨.reqBody, .read 0, [], [], 100⟩

/-- A message whose body comes next. -/
def freshMsg : MsgInfo := newMsg 0 emptyChain emptyChain

end Fresh

end Upst.Http
