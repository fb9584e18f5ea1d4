import Upst.AnalyzeEth

/-!
Where the payload lies that `Analyze_Eth` reports. The datagrams of a frame are looked at through the
bytes of their headers alone: a datagram of protocol 4 has the next one behind its header, and the
innermost one carries the transport header.
-/

namespace Upst.AnalyzeEth

open Bytes Network InternetChecksum

set_option autoImplicit false

section Claim

/-- The innermost datagram from a datagram on. -/
inductive Innermost (pBuf : Nat → UInt8) : Nat → Nat → Prop where
  | here (place : Nat) : ipProtocol pBuf place ≠ 4 → Innermost pBuf place place
  | within (place inner : Nat) : ipProtocol pBuf place = 4 →
      Innermost pBuf (place + ipHeaderLen pBuf place) inner → Innermost pBuf place inner

/-- The place of the outermost datagram. -/
def ipStart (pBuf : Nat → UInt8) : Nat :=
  if frameType pBuf ≤ 0x05DC then ETHERNET_HDR + 2 else ETHERNET_HDR

def transportStart (pBuf : Nat → UInt8) (inner : Nat) : Nat := inner + ipHeaderLen pBuf inner

/-- A TCP header has twenty bytes, or as many as it says. -/
def transportEnd (pBuf : Nat → UInt8) (inner : Nat) : Nat :=
  if ipProtocol pBuf inner = 6 then
    transportStart pBuf inner + max 20 (tcpHeaderLen pBuf (transportStart pBuf inner))
  else transportStart pBuf inner + wUDPHeaderLen

/-- The bytes of the payload stand behind the transport header, in the innermost datagram and in the
frame. -/
def Located (pBuf : Nat → UInt8) (wSize inner : Nat) (info : InfoEth) : Prop :=
  ∀ place, info.offset ≤ place → place < info.offset + info.stUDPTCP.wDataLen →
    transportEnd pBuf inner ≤ place ∧ place < inner + ipTotalLen pBuf inner ∧ place < wSize

/-- The result of an analysis that found TCP or UDP. -/
def Succeeds (result : Int × InfoEth) : Prop :=
  0 ≤ result.1 ∧ (result.2.stUDPTCP.dUDPTCP = 1 ∨ result.2.stUDPTCP.dUDPTCP = 2)

instance (result : Int × InfoEth) : Decidable (Succeeds result) := inferInstanceAs (Decidable (_ ∧ _))

/-- The bytes of the innermost datagram behind its header. -/
def dataLen (pBuf : Nat → UInt8) (inner : Nat) : Nat := ipTotalLen pBuf inner - ipHeaderLen pBuf inner

/-- A TCP segment with a right checksum says a header of twenty bytes or more, unless its header is all
there is. -/
def HeaderFits (pBuf : Nat → UInt8) (inner : Nat) : Prop :=
  ipProtocol pBuf inner = 6 →
    Checksum .little (summed pBuf (transportStart pBuf inner) (dataLen pBuf inner)
      (pseudoHeader pBuf inner)) = some 0 →
    20 ≤ tcpHeaderLen pBuf (transportStart pBuf inner) ∨
      dataLen pBuf inner = tcpHeaderLen pBuf (transportStart pBuf inner)

end Claim

section Datagrams

variable {pBuf : Nat → UInt8}

theorem innermost_unique {place inner other : Nat} (first : Innermost pBuf place inner)
    (second : Innermost pBuf place other) : other = inner := by
  induction first with
  | here place last =>
      cases second with
      | here => rfl
      | within _ _ nested => exact absurd nested last
  | within place inner nested _ ih =>
      cases second with
      | here _ last => exact absurd nested last
      | within _ _ _ rest => exact ih rest

/-- What the analysis has come to: the transport analysis of a datagram inside of the bytes up to
`bound`, with no payload found so far. -/
structure Analysed (pBuf : Nat → UInt8) (inner bound : Nat) (result : Int × InfoEth) : Prop where
  header : ipHeaderLen pBuf inner ≤ ipTotalLen pBuf inner
  inside : inner + ipTotalLen pBuf inner ≤ bound
  analysis : ∃ info : InfoEth, info.stUDPTCP.wDataLen = 0 ∧
    (ipProtocol pBuf inner = 6 ∧ result = AnalyzeIP_TCP pBuf (transportStart pBuf inner)
        (dataLen pBuf inner) (pseudoHeader pBuf inner) info ∨
      ipProtocol pBuf inner = 17 ∧ result = Analyze_IP_UDP pBuf (transportStart pBuf inner)
        (dataLen pBuf inner) (pseudoHeader pBuf inner) info)

theorem ip_analysed (wSize : Nat) : ∀ place info, Succeeds (Analyze_IP pBuf place wSize info) →
    info.stUDPTCP = InfoEth.cleared.stUDPTCP →
      ∃ inner, Innermost pBuf place inner ∧
        Analysed pBuf inner (place + wSize) (Analyze_IP pBuf place wSize info) := by
  induction wSize using Nat.strongRecOn with
  | ind wSize ih =>
      intro place info succeeds clear
      have none {number : Int} {other : InfoEth} (same : other.stUDPTCP = info.stUDPTCP) :
          ¬Succeeds (number, other) := by
        intro succeeds
        have found := succeeds.2
        rw [same, clear] at found
        exact absurd found (by decide)
      rw [Analyze_IP] at succeeds ⊢
      by_cases version : ipVersion pBuf place ≠ 4
      · rw [if_pos version] at succeeds
        exact absurd succeeds (none rfl)
      rw [if_neg version] at succeeds ⊢
      by_cases short : wSize < ipTotalLen pBuf place
      · rw [if_pos short] at succeeds
        exact absurd succeeds (none rfl)
      rw [if_neg short] at succeeds ⊢
      by_cases wrong : ipHeaderLen pBuf place < 20 ∨ ipTotalLen pBuf place < ipHeaderLen pBuf place
      · rw [if_pos wrong] at succeeds
        exact absurd succeeds (none rfl)
      rw [if_neg wrong] at succeeds ⊢
      by_cases damaged : Checksum .little (readBytes pBuf place (ipHeaderLen pBuf place)) ≠ some 0
      · rw [if_pos damaged] at succeeds
        exact absurd succeeds (none rfl)
      rw [if_neg damaged] at succeeds ⊢
      have header : ipHeaderLen pBuf place ≤ ipTotalLen pBuf place := by omega
      have inside : place + ipTotalLen pBuf place ≤ place + wSize := by omega
      have empty : info.stUDPTCP.wDataLen = 0 := by rw [clear]; rfl
      dsimp only at succeeds ⊢
      split at succeeds
      · exact absurd succeeds (none rfl)
      split at succeeds
      · next icmp nested =>
          rw [if_neg icmp, if_pos nested]
          obtain ⟨inner, innermost, analysed⟩ := ih (ipTotalLen pBuf place - ipHeaderLen pBuf place)
            (by omega) (place + ipHeaderLen pBuf place)
            { info with stIP := checkedFields pBuf place info.stIP } succeeds clear
          refine ⟨inner, .within place inner nested innermost, analysed.header, ?_, analysed.analysis⟩
          have bound := analysed.inside
          omega
      split at succeeds
      · next icmp nested tcp =>
          rw [if_neg icmp, if_neg nested, if_pos tcp]
          exact ⟨place, .here place nested, header, inside,
            { info with stIP := checkedFields pBuf place info.stIP }, empty, .inl ⟨tcp, rfl⟩⟩
      split at succeeds
      · next icmp nested tcp udp =>
          rw [if_neg icmp, if_neg nested, if_neg tcp, if_pos udp]
          split at succeeds
          · next whole =>
              rw [if_pos whole]
              exact ⟨place, .here place nested, header, inside,
                { info with stIP := checkedFields pBuf place info.stIP }, empty, .inr ⟨udp, rfl⟩⟩
          · exact absurd succeeds (none rfl)
      split at succeeds
      · exact absurd succeeds (none rfl)
      · exact absurd succeeds (none rfl)

end Datagrams

section Transports

variable {pBuf : Nat → UInt8}

/-- No byte of the payload is anywhere else, for a payload that reaches from `offset` up to the end of
the datagram. -/
theorem located_iff {wSize inner : Nat} {info : InfoEth}
    (inside : inner + ipTotalLen pBuf inner ≤ wSize)
    (reaches : info.stUDPTCP.wDataLen = 0 ∨
      info.offset + info.stUDPTCP.wDataLen = inner + ipTotalLen pBuf inner) :
    Located pBuf wSize inner info ↔
      info.stUDPTCP.wDataLen = 0 ∨ transportEnd pBuf inner ≤ info.offset := by
  constructor
  · intro located
    by_cases empty : info.stUDPTCP.wDataLen = 0
    · exact .inl empty
    · exact .inr (located info.offset (Nat.le_refl _) (by omega)).1
  · rintro behind place above below
    refine ⟨?_, ?_, ?_⟩
    · omega
    · omega
    · omega

theorem tcp_located {wSize inner : Nat} {info : InfoEth}
    (header : ipHeaderLen pBuf inner ≤ ipTotalLen pBuf inner)
    (inside : inner + ipTotalLen pBuf inner ≤ wSize) (empty : info.stUDPTCP.wDataLen = 0)
    (tcp : ipProtocol pBuf inner = 6)
    (succeeds : Succeeds (AnalyzeIP_TCP pBuf (transportStart pBuf inner) (dataLen pBuf inner)
      (pseudoHeader pBuf inner) info)) :
    Located pBuf wSize inner (AnalyzeIP_TCP pBuf (transportStart pBuf inner) (dataLen pBuf inner)
      (pseudoHeader pBuf inner) info).2 ↔ HeaderFits pBuf inner := by
  rw [HeaderFits, forall_prop_of_true tcp]
  rw [AnalyzeIP_TCP] at succeeds ⊢
  dsimp only at succeeds ⊢
  split
  · next damaged =>
      refine iff_of_true ?_ fun right => absurd right damaged
      apply (located_iff inside (.inl empty)).mpr
      exact .inl empty
  · next right =>
      rw [if_neg right] at succeeds
      rw [forall_prop_of_true (not_not.mp right)]
      split
      · next short =>
          rw [if_pos short] at succeeds
          exact absurd succeeds.1 (show ¬(0 : Int) ≤ ERR_370102 by decide)
      · next long =>
          have size : dataLen pBuf inner = ipTotalLen pBuf inner - ipHeaderLen pBuf inner := rfl
          have start : transportStart pBuf inner = inner + ipHeaderLen pBuf inner := rfl
          have past : transportEnd pBuf inner = transportStart pBuf inner +
              max 20 (tcpHeaderLen pBuf (transportStart pBuf inner)) := if_pos tcp
          rw [located_iff inside, past]
          · dsimp only
            split
            · omega
            · omega
          · dsimp only
            split
            · omega
            · omega

theorem udp_located {wSize inner : Nat} {info : InfoEth}
    (header : ipHeaderLen pBuf inner ≤ ipTotalLen pBuf inner)
    (inside : inner + ipTotalLen pBuf inner ≤ wSize) (udp : ipProtocol pBuf inner = 17)
    (succeeds : Succeeds (Analyze_IP_UDP pBuf (transportStart pBuf inner) (dataLen pBuf inner)
      (pseudoHeader pBuf inner) info)) :
    Located pBuf wSize inner (Analyze_IP_UDP pBuf (transportStart pBuf inner) (dataLen pBuf inner)
      (pseudoHeader pBuf inner) info).2 := by
  have size : dataLen pBuf inner = ipTotalLen pBuf inner - ipHeaderLen pBuf inner := rfl
  have start : transportStart pBuf inner = inner + ipHeaderLen pBuf inner := rfl
  have past : transportEnd pBuf inner = transportStart pBuf inner + wUDPHeaderLen := if_neg (by omega)
  rw [Analyze_IP_UDP] at succeeds ⊢
  dsimp only at succeeds ⊢
  split
  · next short =>
      rw [if_pos short] at succeeds
      exact absurd succeeds.1 (show ¬(0 : Int) ≤ ERR_360101 by decide)
  · next long =>
      split
      · rw [located_iff inside, past]
        · exact .inr (Nat.le_refl _)
        · dsimp only
          omega
      · rw [located_iff inside, past]
        · exact .inr (Nat.le_refl _)
        · dsimp only
          omega

theorem analysed_located {wSize inner : Nat} {result : Int × InfoEth}
    (analysed : Analysed pBuf inner wSize result) (succeeds : Succeeds result) :
    Located pBuf wSize inner result.2 ↔ HeaderFits pBuf inner := by
  obtain ⟨header, inside, info, empty, analysis⟩ := analysed
  cases analysis with
  | inl both =>
      obtain ⟨tcp, rfl⟩ := both
      exact tcp_located header inside empty tcp succeeds
  | inr both =>
      obtain ⟨udp, rfl⟩ := both
      refine iff_of_true (udp_located header inside udp succeeds) fun tcp => ?_
      exact absurd (tcp.symm.trans udp) (by decide)

end Transports

section Frames

variable {pBuf : Nat → UInt8} {wSize : Nat}

theorem eth_analysed (succeeds : Succeeds (Analyze_Eth pBuf wSize .cleared)) :
    ∃ inner, Innermost pBuf (ipStart pBuf) inner ∧
      Analysed pBuf inner wSize (Analyze_Eth pBuf wSize .cleared) := by
  have none {number : Int} {other : InfoEth} (same : other.stUDPTCP = InfoEth.cleared.stUDPTCP) :
      ¬Succeeds (number, other) := by
    intro succeeds
    have found := succeeds.2
    rw [same] at found
    exact absurd found (by decide)
  rw [Analyze_Eth] at succeeds ⊢
  by_cases size : wSize < MIN_ETHERNET_SIZE ∨ wSize > MAX_ETHERNET_SIZE
  · rw [if_pos size] at succeeds
    exact absurd succeeds (none rfl)
  rw [if_neg size] at succeeds ⊢
  have long : 54 ≤ wSize := Nat.not_lt.mp fun short => size (.inl short)
  dsimp only at succeeds ⊢
  rw [ipStart, ETHERNET_HDR]
  rw [ETHERNET_HDR] at succeeds
  split at succeeds
  · next lengths =>
      rw [if_pos lengths, if_pos lengths]
      split at succeeds
      · exact absurd succeeds (none rfl)
      · next padding =>
          rw [if_neg padding]
          split at succeeds
          · exact absurd succeeds (none rfl)
          · next bridge =>
              rw [if_neg bridge]
              split at succeeds
              · next internet =>
                  rw [if_pos internet]
                  have analysed := ip_analysed _ _ _ succeeds rfl
                  rw [show 14 + 2 + (wSize - 14 - 2) = wSize by omega] at analysed
                  exact analysed
              · exact absurd succeeds (none rfl)
  · next types =>
      rw [if_neg types, if_neg types]
      split at succeeds
      · next internet =>
          rw [if_pos internet]
          have analysed := ip_analysed _ _ _ succeeds rfl
          rw [show 14 + (wSize - 14) = wSize by omega] at analysed
          exact analysed
      · exact absurd succeeds (none rfl)

/-- The payload that an analysis with a TCP or UDP header reports is located just when the header of the
innermost segment fits. -/
theorem payload_located_iff (pBuf : Nat → UInt8) (wSize : Nat)
    (succeeds : Succeeds (Analyze_Eth pBuf wSize .cleared)) :
    (∃ inner, Innermost pBuf (ipStart pBuf) inner) ∧
      ∀ inner, Innermost pBuf (ipStart pBuf) inner →
        (Located pBuf wSize inner (Analyze_Eth pBuf wSize .cleared).2 ↔ HeaderFits pBuf inner) := by
  obtain ⟨inner, innermost, analysed⟩ := eth_analysed succeeds
  refine ⟨⟨inner, innermost⟩, fun other others => ?_⟩
  rw [innermost_unique innermost others]
  exact analysed_located analysed succeeds

end Frames

section ShortHeader

/-- A segment of twenty bytes that says a header of none, with right checksums. -/
def shortHeader : List UInt8 :=
  [0, 0, 0, 0, 0, 1, 0, 0, 0, 0, 0, 2, 0x08, 0x00,
    0x45, 0, 0, 40, 0, 1, 0, 0, 64, 6, 102, 205, 10, 0, 0, 1, 10, 0, 0, 2,
    0, 80, 4, 0, 0, 0, 0, 1, 0, 0, 0, 1, 0x00, 0x10, 1, 0, 230, 128, 0, 0]

def shortBuf (place : Nat) : UInt8 := shortHeader.getD place 0

theorem short_header_ip : Checksum .little (readBytes shortBuf 14 20) = some 0 :=
  checksum_zero (by decide +kernel) (by decide +kernel) (by decide +kernel)

theorem short_header_tcp :
    Checksum .little (summed shortBuf 34 20 (pseudoHeader shortBuf 14)) = some 0 :=
  checksum_zero (by decide +kernel) (by decide +kernel) (by decide +kernel)

theorem short_header_analysis : ∃ info, Analyze_Eth shortBuf 54 .cleared = (1, info) ∧
    info.stUDPTCP.dUDPTCP = 2 ∧ info.offset = 34 ∧ info.stUDPTCP.wDataLen = 20 := by
  have header : ipHeaderLen shortBuf 14 = 20 := by decide +kernel
  have total : ipTotalLen shortBuf 14 = 40 := by decide +kernel
  have version : ipVersion shortBuf 14 = 4 := by decide +kernel
  have tcp : ipProtocol shortBuf 14 = 6 := by decide +kernel
  have segment : tcpHeaderLen shortBuf 34 = 0 := by decide +kernel
  have type : frameType shortBuf = 0x0800 := by decide +kernel
  rw [Analyze_Eth, if_neg (by decide)]
  dsimp only
  rw [type, if_neg (by decide), if_pos (by decide), ETHERNET_HDR, Analyze_IP, version, total, header, tcp,
    if_neg (by decide), if_neg (by decide), if_neg (by decide), short_header_ip, if_neg (by decide)]
  dsimp only
  rw [if_neg (by decide), if_neg (by decide), if_pos rfl, AnalyzeIP_TCP, short_header_tcp,
    if_neg (by decide), segment]
  exact ⟨_, rfl, rfl, rfl, rfl⟩

theorem short_header_succeeds : Succeeds (Analyze_Eth shortBuf 54 .cleared) := by
  obtain ⟨info, analysis, tcp, -, -⟩ := short_header_analysis
  rw [analysis]
  exact ⟨Int.one_nonneg, .inr tcp⟩

theorem short_header_innermost : Innermost shortBuf (ipStart shortBuf) 14 := by
  have start : ipStart shortBuf = 14 := by decide +kernel
  rw [start]
  exact .here 14 (by decide +kernel)

theorem short_header_located :
    (∃ inner, Innermost shortBuf (ipStart shortBuf) inner) ∧
      ∀ inner, Innermost shortBuf (ipStart shortBuf) inner →
        (Located shortBuf 54 inner (Analyze_Eth shortBuf 54 .cleared).2 ↔ HeaderFits shortBuf inner) :=
  payload_located_iff shortBuf 54 short_header_succeeds

/-- The payload of that segment starts where its header does. -/
theorem header_taken_for_payload : Succeeds (Analyze_Eth shortBuf 54 .cleared) ∧
    Innermost shortBuf (ipStart shortBuf) 14 ∧
      ¬Located shortBuf 54 14 (Analyze_Eth shortBuf 54 .cleared).2 := by
  refine ⟨short_header_succeeds, short_header_innermost, fun located => ?_⟩
  obtain ⟨info, analysis, -, offset, length⟩ := short_header_analysis
  rw [analysis] at located
  have start := (located 34 (Nat.le_of_eq offset) (by rw [offset, length]; decide)).1
  exact absurd start (by decide +kernel)

end ShortHeader

end Upst.AnalyzeEth
