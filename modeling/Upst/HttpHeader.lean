import Upst.HttpScan
import Upst.Nifo
import Upst.Word

/-!
What is read of a header and what is written of it. `dGetData` puts the bytes of a header behind each
other in the first of its nodes and then in the nodes that continue it; `httphdrinfo` is given the place
behind the first TLV and the length of all of them. `GetURL` and `dProcStatus` write the texts of the
session to the log, each to the field of its size.
-/

namespace Upst.Http

open Nifo (NIFO_SIZE TLV_SIZE)

set_option autoImplicit false

/-! ## What is written to a log -/

section Writes

/-- The fields of a log for the texts of a session. -/
inductive Field
  | szLOGURL | szURL | szHostName | szReqMulti | szResMulti
  deriving DecidableEq, Repr

def Field.size : Field → Nat
  | .szLOGURL => MAX_LOGURL_LEN + 1
  | .szURL => MAX_URL_LEN + 1
  | .szHostName => MAX_HOSTNAME_LEN + 1
  | .szReqMulti => MAX_MULTIPART_LEN + 1
  | .szResMulti => MAX_MULTIPART_LEN + 1

/-- `length` bytes of a field from `offset` on. -/
structure Span where
  field : Field
  offset : Int
  length : Nat
  deriving DecidableEq, Repr

def Span.Inside (span : Span) : Prop :=
  0 ≤ span.offset ∧ span.offset + span.length ≤ span.field.size

/-- The length is a `size_t`. -/
def memcpy (field : Field) (offset n : Int) : Span := ⟨field, offset, (n % 2 ^ 64).toNat⟩

/-- `for(i = 0; i < n; i++)` -/
def fill (field : Field) (offset n : Int) : Span := ⟨field, offset, n.toNat⟩

def terminate (field : Field) (offset : Int) : Span := ⟨field, offset, 1⟩

/-- The length that `GetURL` returns and the bytes that it writes. -/
def writeURL (urlLen : Int) (urlType : Option UrlType) (hostNameLen maxLen : Int) : Int × List Span :=
  match urlType with
  | some .hostPort | some .hostNoport =>
      (urlLen, [fill .szLOGURL 0 urlLen, terminate .szLOGURL urlLen])
  | some .nohostNoport =>
      if 0 ≤ hostNameLen then
        let tmpLen := hostNameLen + 7
        let (copyLen, newUrlLen) :=
          if maxLen < urlLen + tmpLen then (maxLen - tmpLen, maxLen) else (urlLen, urlLen + tmpLen)
        (newUrlLen, [memcpy .szLOGURL 0 7, memcpy .szLOGURL 7 hostNameLen,
          fill .szLOGURL tmpLen copyLen, terminate .szLOGURL newUrlLen])
      else (0, [])
  | some .connect =>
      let tmpLen := 7
      let (copyLen, newUrlLen) :=
        if maxLen < urlLen + tmpLen then (maxLen - tmpLen, maxLen) else (urlLen, urlLen + tmpLen)
      (newUrlLen, [memcpy .szLOGURL 0 tmpLen, fill .szLOGURL tmpLen copyLen,
        terminate .szLOGURL newUrlLen])
  | none => (0, [])

/-- A text and the NUL behind it. -/
def writeText (field : Field) (length : Int) : List Span :=
  [memcpy field 0 length, terminate field length]

/-- The texts that `dProcStatus` writes to the log of the transaction. -/
def writeStatus (isNotREQ : Bool) (sess : TSess) : List Span :=
  match isNotREQ with
  | false =>
      let (newUrlLen, written) :=
        writeURL sess.szUrl.length sess.urlType sess.szHostName.length MAX_LOGURL_LEN
      let usLOGURLSize : Int := newUrlLen % (2 ^ 16 : Int)
      let usURLSize : Int := if MAX_URL_LEN < usLOGURLSize then MAX_URL_LEN else usLOGURLSize
      written ++ writeText .szURL usURLSize ++ writeText .szHostName sess.szHostName.length ++
        writeText .szReqMulti sess.req.multiKey.key.length
  | true => writeText .szResMulti sess.res.multiKey.key.length

theorem copy_inside {field : Field} {offset n : Int} (low : 0 ≤ offset) (some : 0 ≤ n)
    (high : offset + n ≤ field.size) (small : n < 2 ^ 64) : (memcpy field offset n).Inside := by
  have same : n % 2 ^ 64 = n := Int.emod_eq_of_lt some small
  refine ⟨low, ?_⟩
  show offset + ((n % 2 ^ 64).toNat : Int) ≤ _
  rw [same, Int.toNat_of_nonneg some]
  exact high

theorem fill_inside {field : Field} {offset n : Int} (low : 0 ≤ offset) (some : 0 ≤ n)
    (high : offset + n ≤ field.size) : (fill field offset n).Inside := by
  refine ⟨low, ?_⟩
  show offset + (n.toNat : Int) ≤ _
  rw [Int.toNat_of_nonneg some]
  exact high

theorem terminate_inside {field : Field} {offset : Int} (low : 0 ≤ offset) (high : offset < field.size) :
    (terminate field offset).Inside :=
  ⟨low, high⟩

theorem field_small (field : Field) : field.size ≤ 1025 := by
  cases field <;> decide

theorem text_inside {field : Field} {length : Int} (some : 0 ≤ length) (small : length < field.size) :
    ∀ span ∈ writeText field length, span.Inside := by
  have size := field_small field
  intro span member
  simp only [writeText, List.mem_cons, List.not_mem_nil, or_false] at member
  rcases member with rfl | rfl
  · exact copy_inside (Int.le_refl 0) some (by omega) (by omega)
  · exact terminate_inside some small

/-- What is written of a URL with a host in front, whichever of the two is cut. -/
theorem url_inside {urlLen hostNameLen : Int} (urlType : Option UrlType) (url : 0 ≤ urlLen)
    (urlFits : urlLen ≤ MAX_LOGURL_LEN) (host : 0 ≤ hostNameLen) (hostFits : hostNameLen ≤ MAX_HOSTNAME_LEN) :
    (0 ≤ (writeURL urlLen urlType hostNameLen MAX_LOGURL_LEN).1 ∧
        (writeURL urlLen urlType hostNameLen MAX_LOGURL_LEN).1 ≤ MAX_LOGURL_LEN) ∧
      ∀ span ∈ (writeURL urlLen urlType hostNameLen MAX_LOGURL_LEN).2, span.Inside := by
  have size : (Field.szLOGURL.size : Int) = 1025 := rfl
  have logged : (MAX_LOGURL_LEN : Int) = 1024 := rfl
  have named : (MAX_HOSTNAME_LEN : Int) = 40 := rfl
  have plain : (0 ≤ urlLen ∧ urlLen ≤ MAX_LOGURL_LEN) ∧
      ∀ span ∈ [fill .szLOGURL 0 urlLen, terminate .szLOGURL urlLen], span.Inside := by
    refine ⟨⟨url, urlFits⟩, fun span member => ?_⟩
    simp only [List.mem_cons, List.not_mem_nil, or_false] at member
    rcases member with rfl | rfl
    · exact fill_inside (Int.le_refl 0) url (by omega)
    · exact terminate_inside url (by omega)
  cases urlType with
  | none => exact ⟨⟨Int.le_refl 0, Int.natCast_nonneg MAX_LOGURL_LEN⟩, nofun⟩
  | some type =>
      cases type with
      | hostPort => exact plain
      | hostNoport => exact plain
      | nohostNoport =>
          simp only [writeURL, host, if_true]
          split
          · refine ⟨⟨by omega, by omega⟩, fun span member => ?_⟩
            simp only [List.mem_cons, List.not_mem_nil, or_false] at member
            rcases member with rfl | rfl | rfl | rfl
            · exact copy_inside (by omega) (by omega) (by omega) (by omega)
            · exact copy_inside (by omega) host (by omega) (by omega)
            · exact fill_inside (by omega) (by omega) (by omega)
            · exact terminate_inside (by omega) (by omega)
          · refine ⟨⟨by omega, by omega⟩, fun span member => ?_⟩
            simp only [List.mem_cons, List.not_mem_nil, or_false] at member
            rcases member with rfl | rfl | rfl | rfl
            · exact copy_inside (by omega) (by omega) (by omega) (by omega)
            · exact copy_inside (by omega) host (by omega) (by omega)
            · exact fill_inside (by omega) url (by omega)
            · exact terminate_inside (by omega) (by omega)
      | connect =>
          simp only [writeURL]
          split
          · refine ⟨⟨by omega, by omega⟩, fun span member => ?_⟩
            simp only [List.mem_cons, List.not_mem_nil, or_false] at member
            rcases member with rfl | rfl | rfl
            · exact copy_inside (by omega) (by omega) (by omega) (by omega)
            · exact fill_inside (by omega) (by omega) (by omega)
            · exact terminate_inside (by omega) (by omega)
          · refine ⟨⟨by omega, by omega⟩, fun span member => ?_⟩
            simp only [List.mem_cons, List.not_mem_nil, or_false] at member
            rcases member with rfl | rfl | rfl
            · exact copy_inside (by omega) (by omega) (by omega) (by omega)
            · exact fill_inside (by omega) url (by omega)
            · exact terminate_inside (by omega) (by omega)

theorem status_inside {sess : TSess} (fits : sess.core.Fits) (isNotREQ : Bool) :
    ∀ span ∈ writeStatus isNotREQ sess, span.Inside := by
  have url : (sess.szUrl.length : Int) ≤ MAX_LOGURL_LEN := Int.ofNat_le.mpr fits.url
  have host : (sess.szHostName.length : Int) ≤ MAX_HOSTNAME_LEN := Int.ofNat_le.mpr fits.host
  have text {field : Field} {length : Nat} (small : length < field.size) :
      ∀ span ∈ writeText field length, span.Inside :=
    text_inside (Int.natCast_nonneg length) (Int.ofNat_lt.mpr small)
  cases isNotREQ with
  | false =>
      obtain ⟨⟨low, high⟩, written⟩ := url_inside sess.urlType (Int.natCast_nonneg _) url
        (Int.natCast_nonneg _) host
      have logged : (MAX_LOGURL_LEN : Int) = 1024 := rfl
      have cut : (MAX_URL_LEN : Int) = 555 := rfl
      have size : (Field.szURL.size : Int) = 556 := rfl
      intro span member
      rw [writeStatus] at member
      simp only [List.mem_append] at member
      rcases member with ((member | member) | member) | member
      · exact written span member
      · refine text_inside ?_ ?_ span member
        · split <;> omega
        · split <;> omega
      · exact @text .szHostName _ (Nat.lt_succ_of_le fits.host) span member
      · exact @text .szReqMulti _ (Nat.lt_succ_of_le fits.reqKey) span member
  | true => exact @text .szResMulti _ (Nat.lt_succ_of_le fits.resKey)

end Writes

/-! ## Where the header is -/

section Header

/-- The size of the body of a node, and what a node has room for behind what it begins with. -/
structure Layout (env : Env) (size : Nat) : Prop where
  head : env.headRoom + (NIFO_SIZE + TLV_SIZE) = size
  cont : env.contRoom + NIFO_SIZE = size

/-- The bodies of the nodes do not overlap. -/
def Placed (address : NodeId → Nat) (size : Nat) (chain : Chain) : Prop :=
  chain.nodes.Pairwise fun one two => address one + size ≤ address two ∨ address two + size ≤ address one

/-- The node that is written to. -/
def Chain.last (chain : Chain) : NodeId := chain.conts.getLast?.getD chain.head

/-- The place that a byte was put to. -/
def lastPlace (address : NodeId → Nat) (size : Nat) (chain : Chain) : Nat :=
  address chain.last + (size - (chain.room + 1))

/-- A chain with the places that its bytes were put to. -/
inductive Collected (env : Env) (address : NodeId → Nat) (size : Nat) : Chain → List Nat → Prop
  | fresh (type : DataType) (head : NodeId) :
      Collected env address size ⟨type, head, [], [], env.headRoom⟩ []
  | put {chain after : Chain} {own : List Nat} {client : TSessKey} {isNotREQ body : Bool} {byte : UInt8}
      {world world' : World} (collected : Collected env address size chain own)
      (did : putByte env client isNotREQ body chain byte world = (some after, world')) :
      Collected env address size after (own ++ [lastPlace address size after])

/-- `pTLV->len` as the `int` that `httphdrinfo` gets. -/
def slen (chain : Chain) : Nat := (Word.s32 (chain.bytes.length % 2 ^ 32 : Nat)).toNat

/-- The places of the bytes that `httphdrinfo` is given. -/
def passed (address : NodeId → Nat) (chain : Chain) : List Nat :=
  List.range' (address chain.head + NIFO_SIZE + TLV_SIZE) (slen chain)

/-- The bytes of a chain are first in its head, then in the nodes that continue it. -/
structure Filled (env : Env) (address : NodeId → Nat) (size : Nat) (chain : Chain) (own : List Nat) :
    Prop where
  count : own.length = chain.bytes.length
  first : ∀ index < env.headRoom, index < own.length →
    own[index]? = some (address chain.head + NIFO_SIZE + TLV_SIZE + index)
  rest : ∀ place ∈ own.drop env.headRoom, ∃ node ∈ chain.conts,
    address node + NIFO_SIZE ≤ place ∧ place < address node + size
  alone : chain.conts = [] → own.length + chain.room = env.headRoom
  continued : chain.conts ≠ [] → env.headRoom ≤ own.length ∧ chain.room < env.contRoom

variable {env : Env} {address : NodeId → Nat} {size : Nat} {chain after : Chain} {own : List Nat}

theorem slen_le (chain : Chain) : slen chain ≤ chain.bytes.length := by
  have wrapped := Nat.mod_le chain.bytes.length (2 ^ 32)
  have below : chain.bytes.length % 2 ^ 32 < 2 ^ 32 := Nat.mod_lt _ (Nat.two_pow_pos 32)
  rw [slen, Word.s32, Int.bmod]
  split <;> omega

theorem slen_small (small : chain.bytes.length < 2 ^ 31) : slen chain = chain.bytes.length := by
  have unsigned : chain.bytes.length % 2 ^ 32 = chain.bytes.length := Nat.mod_eq_of_lt (by omega)
  rw [slen, unsigned, Word.s32_small (Int.natCast_nonneg _) (by omega), Int.toNat_natCast]

/-- A byte goes behind the last one or, when there is no room, to a node of its own. -/
theorem put_cases {client : TSessKey} {isNotREQ body : Bool} {byte : UInt8} {world world' : World}
    (did : putByte env client isNotREQ body chain byte world = (some after, world')) :
    (chain.room = 0 ∧ ∃ node, after =
        { chain with
          conts := chain.conts ++ [node]
          bytes := chain.bytes ++ [byte]
          room := env.contRoom - 1 }) ∨
      chain.room ≠ 0 ∧ after = { chain with bytes := chain.bytes ++ [byte], room := chain.room - 1 } := by
  rw [putByte] at did
  split at did
  · next full =>
      split at did
      · cases did
      · next node _ _ =>
          cases did
          exact Or.inl ⟨full, node, rfl⟩
  · next room =>
      cases did
      exact Or.inr ⟨room, rfl⟩

theorem Layout.contRoom_pos (layout : Layout env size) : 0 < env.contRoom := by
  have head := layout.head
  have cont := layout.cont
  simp only [TLV_SIZE] at head
  omega

theorem last_mem (more : chain.conts ≠ []) : chain.last ∈ chain.conts := by
  rw [Chain.last, List.getLast?_eq_some_getLast more]
  exact List.getLast_mem more

theorem filled_full (filled : Filled env address size chain own)
    (full : chain.room = 0) : env.headRoom ≤ own.length := by
  by_cases only : chain.conts = []
  · have count := filled.alone only
    omega
  · exact (filled.continued only).1

/-- A byte in a node of its own. -/
theorem filled_node (layout : Layout env size) (filled : Filled env address size chain own)
    (full : chain.room = 0) (node : NodeId) (byte : UInt8) :
    Filled env address size
      { chain with
        conts := chain.conts ++ [node]
        bytes := chain.bytes ++ [byte]
        room := env.contRoom - 1 }
      (own ++ [address node + (size - (env.contRoom - 1 + 1))]) where
  count := by
    rw [List.length_append, List.length_append, filled.count]
    rfl
  first index small before := by
    have enough := filled_full filled full
    have known : index < own.length := Nat.lt_of_lt_of_le small enough
    rw [List.getElem?_append_left known]
    exact filled.first index small known
  rest place member := by
    have enough := filled_full filled full
    rw [List.drop_append_of_le_length enough, List.mem_append, List.mem_singleton] at member
    rcases member with old | rfl
    · obtain ⟨cont, known, bounds⟩ := filled.rest place old
      exact ⟨cont, List.mem_append_left _ known, bounds⟩
    · have cont := layout.cont
      have room := layout.contRoom_pos
      refine ⟨node, List.mem_append_right _ (List.mem_singleton_self node), ?_, ?_⟩ <;> omega
  alone only := absurd only (List.append_ne_nil_of_right_ne_nil _ (List.cons_ne_nil node []))
  continued _ := by
    have enough := filled_full filled full
    have room := layout.contRoom_pos
    refine ⟨?_, Nat.sub_lt room Nat.one_pos⟩
    rw [List.length_append]
    exact Nat.le_add_right_of_le enough

/-- A byte behind the last one. -/
theorem filled_room (layout : Layout env size) (filled : Filled env address size chain own)
    (room : chain.room ≠ 0) (byte : UInt8) :
    Filled env address size { chain with bytes := chain.bytes ++ [byte], room := chain.room - 1 }
      (own ++ [address chain.last + (size - (chain.room - 1 + 1))]) where
  count := by
    rw [List.length_append, List.length_append, filled.count]
    rfl
  first index small before := by
    by_cases known : index < own.length
    · rw [List.getElem?_append_left known]
      exact filled.first index small known
    · have only : chain.conts = [] := by
        by_contra more
        exact known (Nat.lt_of_lt_of_le small (filled.continued more).1)
      have head : chain.last = chain.head := by
        rw [Chain.last, only]
        rfl
      have count := filled.alone only
      have last : index = own.length := by
        rw [List.length_append, List.length_singleton] at before
        omega
      rw [last, List.getElem?_concat_length, head]
      congr 1
      have place := layout.head
      show address chain.head + (size - (chain.room - 1 + 1)) =
        address chain.head + NIFO_SIZE + TLV_SIZE + own.length
      omega
  rest place member := by
    by_cases only : chain.conts = []
    · have count := filled.alone only
      have short : (own ++ [address chain.last + (size - (chain.room - 1 + 1))]).length ≤ env.headRoom := by
        rw [List.length_append, List.length_singleton]
        omega
      rw [List.drop_eq_nil_of_le short] at member
      cases member
    · obtain ⟨enough, small⟩ := filled.continued only
      rw [List.drop_append_of_le_length enough, List.mem_append, List.mem_singleton] at member
      rcases member with old | rfl
      · exact filled.rest place old
      · have cont := layout.cont
        refine ⟨chain.last, last_mem only, ?_, ?_⟩ <;> omega
  alone only := by
    have count := filled.alone only
    rw [List.length_append, List.length_singleton]
    show own.length + 1 + (chain.room - 1) = _
    omega
  continued more := by
    obtain ⟨enough, small⟩ := filled.continued more
    rw [List.length_append]
    exact ⟨Nat.le_add_right_of_le enough, Nat.lt_of_le_of_lt (Nat.sub_le _ _) small⟩

theorem last_node (chain : Chain) (node : NodeId) (bytes : List UInt8) (room : Nat) :
    lastPlace address size { chain with conts := chain.conts ++ [node], bytes := bytes, room := room } =
      address node + (size - (room + 1)) := by
  rw [lastPlace, Chain.last, List.getLast?_concat]
  rfl

theorem collected_filled (layout : Layout env size) (collected : Collected env address size chain own) :
    Filled env address size chain own := by
  induction collected with
  | fresh type head =>
      exact {
        count := rfl
        first := fun index _ before => absurd before (Nat.not_lt_zero index)
        rest := fun place member => by
          rw [List.drop_nil] at member
          cases member
        alone := fun _ => Nat.zero_add env.headRoom
        continued := fun more => absurd rfl more }
  | @put chain after own client isNotREQ body byte world world' _ did filled =>
      rcases put_cases did with ⟨full, node, rfl⟩ | ⟨room, rfl⟩
      · rw [last_node]
        exact filled_node layout filled full node byte
      · exact filled_room layout filled room byte

/-- The place behind the first node is not one of the chain: it is not in the first node and would be
before the bytes of any other. -/
theorem behind_head (placed : Placed address size chain) (filled : Filled env address size chain own)
    (layout : Layout env size) : address chain.head + size ∉ own := by
  intro member
  have sizes := layout.head
  obtain ⟨index, found⟩ := List.mem_iff_getElem?.mp member
  have known : index < own.length := (List.getElem?_eq_some_iff.mp found).1
  by_cases small : index < env.headRoom
  · have place := Option.some.inj (found.symm.trans (filled.first index small known))
    omega
  · have later : address chain.head + size ∈ own.drop env.headRoom := by
      rw [List.mem_iff_getElem?]
      refine ⟨index - env.headRoom, ?_⟩
      rw [List.getElem?_drop, Nat.add_sub_of_le (Nat.le_of_not_lt small)]
      exact found
    obtain ⟨node, cont, low, high⟩ := filled.rest _ later
    have apart := (List.pairwise_cons.mp placed).1 node cont
    have begins : 0 < NIFO_SIZE := by decide
    omega

/-- Only bytes of the header are read just when no more are than its first node holds. -/
theorem reads_iff (layout : Layout env size) (placed : Placed address size chain)
    (collected : Collected env address size chain own) :
    (∀ place ∈ passed address chain, place ∈ own) ↔ slen chain ≤ env.headRoom := by
  have filled := collected_filled layout collected
  constructor
  · intro reads
    by_contra long
    refine behind_head placed filled layout (reads _ ?_)
    have sizes := layout.head
    rw [passed, List.mem_range'_1]
    omega
  · intro fits place member
    rw [passed, List.mem_range'_1] at member
    obtain ⟨low, high⟩ := member
    obtain ⟨index, rfl⟩ := Nat.exists_eq_add_of_le low
    have short := slen_le chain
    have within : index < own.length := by
      rw [filled.count]
      omega
    exact List.mem_of_getElem? (filled.first index (by omega) within)

end Header

/-! ## Both -/

section Extraction

/-- What becomes of the session that the table holds while a node of it is served. -/
inductive Updated (env : Env) (stored : TSess) : TSess → Prop
  | stored : Updated env stored stored
  | checked {sess sess' : TSess} {isNotREQ : Bool} {payload : List UInt8} (updated : Updated env stored sess)
      (checked : checkHeader env.parsers isNotREQ sess payload = some sess') : Updated env stored sess'
  | scanned {sess : TSess} (isNotREQ : Bool) (starts : Starts) (chain : Chain)
      (updated : Updated env stored sess) :
      Updated env stored (getHeaderInfo env.parsers isNotREQ starts env.headRoom sess chain).1
  | others {sess sess' : TSess} (updated : Updated env stored sess) (url : sess'.szUrl = sess.szUrl)
      (host : sess'.szHostName = sess.szHostName)
      (key : ∀ isNotREQ, (sess'.msg isNotREQ).multiKey.key = (sess.msg isNotREQ).multiKey.key ∨
        (sess'.msg isNotREQ).multiKey.key = []) : Updated env stored sess'

/-- The bytes that are read are of the header, and what is written is in its field. -/
structure Inside (address : NodeId → Nat) (chain : Chain) (own : List Nat) (sess : TSess) : Prop where
  reads : ∀ place ∈ passed address chain, place ∈ own
  writes : ∀ isNotREQ, ∀ span ∈ writeStatus isNotREQ sess, span.Inside

variable {env : Env} {scan : Scanners} {address : NodeId → Nat} {size : Nat} {chain : Chain} {own : List Nat}
  {inputs : List (Option TcpInfo)} {world : World} {client : TSessKey} {stored sess : TSess}

theorem updated_fits (parsers : env.parsers = scan.parsers) (fits : stored.core.Fits)
    (updated : Updated env stored sess) : sess.core.Fits := by
  have kept {one other : TSess} (small : one.core.Fits) (isNotREQ : Bool)
      (key : (other.msg isNotREQ).multiKey.key = (one.msg isNotREQ).multiKey.key ∨
        (other.msg isNotREQ).multiKey.key = []) :
      (other.msg isNotREQ).multiKey.key.length ≤ MAX_MULTIPART_LEN := by
    rcases key with same | empty
    · rw [same]
      exact fits_key small isNotREQ
    · rw [empty]
      exact Nat.zero_le _
  induction updated with
  | stored => exact fits
  | checked _ checked small => exact fits_checked parsers small checked
  | scanned isNotREQ starts chain _ small => exact fits_scanned parsers small isNotREQ starts chain
  | others _ url host key small =>
      exact {
        url := Nat.le_trans (Nat.le_of_eq (congrArg List.length url)) small.url
        host := Nat.le_trans (Nat.le_of_eq (congrArg List.length host)) small.host
        reqKey := kept small false (key false)
        resKey := kept small true (key true) }

/-- Whatever a session stores is written inside the fields of the log; of a header only its own bytes are
read just when its length is that of its first node at most. -/
theorem header_inside (parsers : env.parsers = scan.parsers) (layout : Layout env size)
    (ran : run env .start inputs = some world) (found : world.tcp.lookup client = some stored)
    (updated : Updated env stored sess) (placed : Placed address size chain)
    (collected : Collected env address size chain own) :
    Inside address chain own sess ↔ slen chain ≤ env.headRoom := by
  have fits := updated_fits parsers (run_fits parsers ran client stored found) updated
  rw [← reads_iff layout placed collected]
  exact ⟨Inside.reads, fun reads => ⟨reads, status_inside fits⟩⟩

end Extraction

/-! ## A header of more than one node -/

section Long

/-- Scanners that find nothing. -/
def noScanners : Scanners where
  line := fun _ => none
  hdrMatches := fun start _ _ => ([], start)
  ctypeMatches := fun start _ => ([], start)
  hostMatches := fun _ => []
  platformType := fun _ _ => 0

/-- Nodes with bodies of 8192 bytes. -/
def nodeEnv : Env :=
  { plainEnv with headRoom := 8120, contRoom := 8128, parsers := noScanners.parsers }

theorem node_layout : Layout nodeEnv 8192 :=
  ⟨rfl, rfl⟩

theorem node_granting : Granting nodeEnv :=
  ⟨fun _ _ _ => rfl⟩

/-- The nodes that are read are behind those that are allocated. -/
def nodeAddress : NodeId → Nat
  | .alloc _ number => 8192 * number
  | .read number => 8192 * (number + 2)

/-- Bytes that the first node has room for. -/
theorem first_node (bytes : List UInt8) (fits : bytes.length ≤ nodeEnv.headRoom) :
    ∃ own, Collected nodeEnv nodeAddress 8192
      ⟨.reqHdr, .read 0, [], bytes, nodeEnv.headRoom - bytes.length⟩ own := by
  induction bytes using List.reverseRecOn with
  | nil => exact ⟨[], .fresh .reqHdr (.read 0)⟩
  | append_singleton bytes byte ih =>
      rw [List.length_append, List.length_singleton] at fits ⊢
      obtain ⟨own, collected⟩ := ih (Nat.le_of_succ_le fits)
      have room : nodeEnv.headRoom - bytes.length ≠ 0 := by omega
      refine ⟨_, @Collected.put nodeEnv nodeAddress 8192 _ _ own ⟨0, 0, 0⟩ false false byte .start .start
        collected ?_⟩
      rw [putByte, if_neg room, Nat.sub_sub]

/-- The session of one connection that has just been opened. -/
theorem node_session : ∃ world stored, run nodeEnv .start [some (bareInfo ⟨10, 1000, 20, 80⟩ .start [])] =
    some world ∧ world.tcp.lookup ⟨10, 1000, 0⟩ = some stored := by
  have idle : ∀ old, World.start.tcp.lookup (Conn.client ⟨10, 1000, 20, 80⟩) = some old → Idle old := by
    intro old found
    rw [World.start, AList.lookup_empty] at found
    cases found
  have free : ∀ key : TransKey, key.ofClient (Conn.client ⟨10, 1000, 20, 80⟩) →
      World.start.http.lookup key = none := fun _ _ => AList.lookup_empty _
  obtain ⟨world, stepped, ⟨⟨stored, found, -, -⟩, -⟩, -⟩ :=
    start_serving node_granting ⟨10, 1000, 20, 80⟩ idle free
  refine ⟨world, stored, ?_, found⟩
  rw [run, List.foldlM_cons, stepped]
  rfl

/-- A header of 8121 bytes without the last. -/
def longHeader : List UInt8 := List.replicate 8117 0x61 ++ [0x0D, 0x0A, 0x0D]

theorem longHeader_length : longHeader.length = nodeEnv.headRoom := by
  rw [longHeader, List.length_append, List.length_replicate]
  rfl

/-- The header without its last byte is all in one node. -/
theorem header_of_a_node : ∃ world stored own,
    run nodeEnv .start [some (bareInfo ⟨10, 1000, 20, 80⟩ .start [])] = some world ∧
      world.tcp.lookup ⟨10, 1000, 0⟩ = some stored ∧
      Inside nodeAddress ⟨.reqHdr, .read 0, [], longHeader, 0⟩ own stored := by
  obtain ⟨own, collected⟩ := first_node longHeader (Nat.le_of_eq longHeader_length)
  rw [longHeader_length, Nat.sub_self] at collected
  obtain ⟨world, stored, ran, found⟩ := node_session
  have placed : Placed nodeAddress 8192 ⟨.reqHdr, .read 0, [], longHeader, 0⟩ :=
    List.pairwise_singleton _ _
  have inside := @header_inside nodeEnv noScanners nodeAddress 8192 _ own _ world _ stored stored rfl
    node_layout ran found .stored placed collected
  exact ⟨world, stored, own, ran, found,
    inside.mpr (Nat.le_trans (slen_le _) (Nat.le_of_eq longHeader_length))⟩

theorem header_past_node : ∃ world stored own,
    run nodeEnv .start [some (bareInfo ⟨10, 1000, 20, 80⟩ .start [])] = some world ∧
      world.tcp.lookup ⟨10, 1000, 0⟩ = some stored ∧
      Placed nodeAddress 8192
        ⟨.reqHdr, .read 0, [.alloc ⟨10, 1000, 0⟩ 0], longHeader ++ [0x0A], 8127⟩ ∧
      Collected nodeEnv nodeAddress 8192
        ⟨.reqHdr, .read 0, [.alloc ⟨10, 1000, 0⟩ 0], longHeader ++ [0x0A], 8127⟩ own ∧
      ¬Inside nodeAddress ⟨.reqHdr, .read 0, [.alloc ⟨10, 1000, 0⟩ 0], longHeader ++ [0x0A], 8127⟩ own
        stored := by
  obtain ⟨own, collected⟩ := first_node longHeader (Nat.le_of_eq longHeader_length)
  rw [longHeader_length, Nat.sub_self] at collected
  obtain ⟨world, stored, ran, found⟩ := node_session
  have placed : Placed nodeAddress 8192
      ⟨.reqHdr, .read 0, [.alloc ⟨10, 1000, 0⟩ 0], longHeader ++ [0x0A], 8127⟩ :=
    List.pairwise_pair.mpr (Or.inr (Nat.le_of_ble_eq_true rfl))
  have longer := @Collected.put nodeEnv nodeAddress 8192 _
    ⟨.reqHdr, .read 0, [.alloc ⟨10, 1000, 0⟩ 0], longHeader ++ [0x0A], 8127⟩ own ⟨10, 1000, 0⟩ false false
    0x0A .start _ collected rfl
  refine ⟨world, stored, _, ran, found, placed, longer, fun inside => ?_⟩
  have fits := (reads_iff node_layout placed longer).mp inside.reads
  have length : (longHeader ++ [0x0A]).length = nodeEnv.headRoom + 1 := by
    rw [List.length_append, longHeader_length]
    rfl
  rw [slen_small (length ▸ by decide), length] at fits
  exact absurd fits (Nat.not_succ_le_self nodeEnv.headRoom)

end Long

end Upst.Http
