import Upst.Asso
import Upst.Crc
import Upst.Network
import Upst.PreaFilter

/-!
`A_SCTP`: the checksum of a packet, the association it belongs to, and the walk over its chunks.
The user data of a DATA chunk is put into a node of its own for `A_DIAMETER`. `pBuf` is the memory
behind the captured frame. The names of the chunk types are read for the log, which otherwise takes
no part; the stack lists of an association stay empty.
-/

namespace Upst.Sctp

open Asso Bytes Crc Network
open Tcp (Rtx)

set_option autoImplicit false

def u16 (value : Nat) : Nat := value % 2 ^ 16

section Checksum

def crc32tab : Array (BitVec 32) :=
  #[0x00000000, 0xF26B8303, 0xE13B70F7, 0x1350F3F4, 0xC79A971F, 0x35F1141C, 0x26A1E7E8, 0xD4CA64EB,
    0x8AD958CF, 0x78B2DBCC, 0x6BE22838, 0x9989AB3B, 0x4D43CFD0, 0xBF284CD3, 0xAC78BF27, 0x5E133C24,
    0x105EC76F, 0xE235446C, 0xF165B798, 0x030E349B, 0xD7C45070, 0x25AFD373, 0x36FF2087, 0xC494A384,
    0x9A879FA0, 0x68EC1CA3, 0x7BBCEF57, 0x89D76C54, 0x5D1D08BF, 0xAF768BBC, 0xBC267848, 0x4E4DFB4B,
    0x20BD8EDE, 0xD2D60DDD, 0xC186FE29, 0x33ED7D2A, 0xE72719C1, 0x154C9AC2, 0x061C6936, 0xF477EA35,
    0xAA64D611, 0x580F5512, 0x4B5FA6E6, 0xB93425E5, 0x6DFE410E, 0x9F95C20D, 0x8CC531F9, 0x7EAEB2FA,
    0x30E349B1, 0xC288CAB2, 0xD1D83946, 0x23B3BA45, 0xF779DEAE, 0x05125DAD, 0x1642AE59, 0xE4292D5A,
    0xBA3A117E, 0x4851927D, 0x5B016189, 0xA96AE28A, 0x7DA08661, 0x8FCB0562, 0x9C9BF696, 0x6EF07595,
    0x417B1DBC, 0xB3109EBF, 0xA0406D4B, 0x522BEE48, 0x86E18AA3, 0x748A09A0, 0x67DAFA54, 0x95B17957,
    0xCBA24573, 0x39C9C670, 0x2A993584, 0xD8F2B687, 0x0C38D26C, 0xFE53516F, 0xED03A29B, 0x1F682198,
    0x5125DAD3, 0xA34E59D0, 0xB01EAA24, 0x42752927, 0x96BF4DCC, 0x64D4CECF, 0x77843D3B, 0x85EFBE38,
    0xDBFC821C, 0x2997011F, 0x3AC7F2EB, 0xC8AC71E8, 0x1C661503, 0xEE0D9600, 0xFD5D65F4, 0x0F36E6F7,
    0x61C69362, 0x93AD1061, 0x80FDE395, 0x72966096, 0xA65C047D, 0x5437877E, 0x4767748A, 0xB50CF789,
    0xEB1FCBAD, 0x197448AE, 0x0A24BB5A, 0xF84F3859, 0x2C855CB2, 0xDEEEDFB1, 0xCDBE2C45, 0x3FD5AF46,
    0x7198540D, 0x83F3D70E, 0x90A324FA, 0x62C8A7F9, 0xB602C312, 0x44694011, 0x5739B3E5, 0xA55230E6,
    0xFB410CC2, 0x092A8FC1, 0x1A7A7C35, 0xE811FF36, 0x3CDB9BDD, 0xCEB018DE, 0xDDE0EB2A, 0x2F8B6829,
    0x82F63B78, 0x709DB87B, 0x63CD4B8F, 0x91A6C88C, 0x456CAC67, 0xB7072F64, 0xA457DC90, 0x563C5F93,
    0x082F63B7, 0xFA44E0B4, 0xE9141340, 0x1B7F9043, 0xCFB5F4A8, 0x3DDE77AB, 0x2E8E845F, 0xDCE5075C,
    0x92A8FC17, 0x60C37F14, 0x73938CE0, 0x81F80FE3, 0x55326B08, 0xA759E80B, 0xB4091BFF, 0x466298FC,
    0x1871A4D8, 0xEA1A27DB, 0xF94AD42F, 0x0B21572C, 0xDFEB33C7, 0x2D80B0C4, 0x3ED04330, 0xCCBBC033,
    0xA24BB5A6, 0x502036A5, 0x4370C551, 0xB11B4652, 0x65D122B9, 0x97BAA1BA, 0x84EA524E, 0x7681D14D,
    0x2892ED69, 0xDAF96E6A, 0xC9A99D9E, 0x3BC21E9D, 0xEF087A76, 0x1D63F975, 0x0E330A81, 0xFC588982,
    0xB21572C9, 0x407EF1CA, 0x532E023E, 0xA145813D, 0x758FE5D6, 0x87E466D5, 0x94B49521, 0x66DF1622,
    0x38CC2A06, 0xCAA7A905, 0xD9F75AF1, 0x2B9CD9F2, 0xFF56BD19, 0x0D3D3E1A, 0x1E6DCDEE, 0xEC064EED,
    0xC38D26C4, 0x31E6A5C7, 0x22B65633, 0xD0DDD530, 0x0417B1DB, 0xF67C32D8, 0xE52CC12C, 0x1747422F,
    0x49547E0B, 0xBB3FFD08, 0xA86F0EFC, 0x5A048DFF, 0x8ECEE914, 0x7CA56A17, 0x6FF599E3, 0x9D9E1AE0,
    0xD3D3E1AB, 0x21B862A8, 0x32E8915C, 0xC083125F, 0x144976B4, 0xE622F5B7, 0xF5720643, 0x07198540,
    0x590AB964, 0xAB613A67, 0xB831C993, 0x4A5A4A90, 0x9E902E7B, 0x6CFBAD78, 0x7FAB5E8C, 0x8DC0DD8F,
    0xE330A81A, 0x115B2B19, 0x020BD8ED, 0xF0605BEE, 0x24AA3F05, 0xD6C1BC06, 0xC5914FF2, 0x37FACCF1,
    0x69E9F0D5, 0x9B8273D6, 0x88D28022, 0x7AB90321, 0xAE7367CA, 0x5C18E4C9, 0x4F48173D, 0xBD23943E,
    0xF36E6F75, 0x0105EC76, 0x12551F82, 0xE03E9C81, 0x34F4F86A, 0xC69F7B69, 0xD5CF889D, 0x27A40B9E,
    0x79B737BA, 0x8BDCB4B9, 0x988C474D, 0x6AE7C44E, 0xBE2DA0A5, 0x4C4623A6, 0x5F16D052, 0xAD7D5351]

/-- The loop of `uiCrc32`. -/
def crcLoop (uiCrc : BitVec 32) (src : List UInt8) : BitVec 32 :=
  src.foldl (tableStep fun index => crc32tab.getD index 0) uiCrc

/-- The octets of the remainder are taken in the other order. -/
def uiCrc32 (src : List UInt8) : Nat := fromBe (le32 (~~~ crcLoop 0xFFFFFFFF src).toNat)

end Checksum

section Packet

structure InfoEth extends PreaFilter.InfoEth where
  ucProtocol : Nat
  wIPHeaderLen : Nat
  wTotalLength : Nat

/-- The direction of the packet is `bRtxType` of `InfoEth`. -/
structure CaptureHeaderMsg where
  curtime : Nat
  ucurtime : Nat
  datalen : Nat

def DEF_SCTPHEADER_SIZE : Nat := 12
def DEF_SCTPCHUNKHEADER_SIZE : Nat := 4
def DEF_DATA_SIZE : Nat := 12
def DEF_INIT_SIZE : Nat := 16
def DEF_ERROR_SIZE : Nat := 4
def DEF_DIAMETER_PORT : Nat := 3868
def SCTP_DATA_SIZE : Nat := 1500

structure DataNode where
  capHeader : CaptureHeaderMsg
  infoEth : InfoEth
  sctpData : List UInt8
  ethData : List UInt8

/-- What is done with the nodes, each known by its offset. `write` is an accepted `gifo_write` to
`A_DIAMETER`. -/
inductive NodeEvent where
  | alloc (offset : Nat)
  | write (offset : Nat) (node : DataNode)
  | delete (offset : Nat)

/-- Which calls succeed for the node of a DATA chunk. -/
structure DataSupply where
  nodeAlloc : Option Nat
  capHeader : Bool
  infoEth : Bool
  sctpData : Bool
  ethData : Bool
  gifoWrite : Bool

/-- What a chunk finds: the calls for its node, the value `usDataOffset` has without being set, and
the slot whose record moves in a deletion. -/
structure Supply where
  data : DataSupply
  usDataOffset : Nat
  moved : Option Nat

structure ChunkHeader where
  ucType : Nat
  ucFlag : Nat
  usChunkLen : Nat

/-- The value of `&&`. -/
def logicalAnd (left right : Nat) : Nat := if left ≠ 0 ∧ right ≠ 0 then 1 else 0

def hasDiameterPort (key : AssoKey) : Bool :=
  key.usDestPort = DEF_DIAMETER_PORT ∨ key.usSrcPort = DEF_DIAMETER_PORT

end Packet

section Chunks

variable (pBuf : Nat → UInt8)

/-- `usChunkLen - DEF_SCTPCHUNKHEADER_SIZE - DEF_DATA_SIZE` as an `USHORT`. -/
def writeLen (usChunkLen : Nat) : Nat := u16 (usChunkLen + 2 ^ 16 - 16)

/-- The value of `SCTP_DATA_NUM`, cleared before the copy. -/
def sctpDataValue (pucData usWriteLen : Nat) : List UInt8 :=
  readBytes pBuf (pucData + DEF_DATA_SIZE) usWriteLen ++
    List.replicate (SCTP_DATA_SIZE - usWriteLen) 0

/-- A copy of more than the value holds is out of the model. -/
def dAnalyzeDATA (key : AssoKey) (cap : CaptureHeaderMsg) (info : InfoEth) (pucData : Nat)
    (header : ChunkHeader) (supply : DataSupply) : Option (InfoEth × List NodeEvent) :=
  match supply.nodeAlloc with
  | none => some (info, [])
  | some offset =>
      if ¬ (supply.capHeader ∧ supply.infoEth ∧ supply.sctpData) then
        some ({ info with wDataLen := writeLen header.usChunkLen }, [.alloc offset, .delete offset])
      else if SCTP_DATA_SIZE < writeLen header.usChunkLen then none
      else if ¬ supply.ethData then
        some ({ info with wDataLen := writeLen header.usChunkLen }, [.alloc offset, .delete offset])
      else if ¬ hasDiameterPort key then
        some ({ info with wDataLen := writeLen header.usChunkLen }, [.alloc offset, .delete offset])
      else if ¬ supply.gifoWrite then
        some ({ info with wDataLen := writeLen header.usChunkLen }, [.alloc offset, .delete offset])
      else
        some ({ info with wDataLen := writeLen header.usChunkLen },
          [.alloc offset,
            .write offset
              { capHeader := cap
                infoEth := { info with wDataLen := writeLen header.usChunkLen }
                sctpData := sctpDataValue pBuf pucData (writeLen header.usChunkLen)
                ethData := readBytes pBuf 0 cap.datalen }])

def dCheckOptionParameter (usType : Nat) : Int :=
  if logicalAnd usType 0xC000 = 0x8000 ∨ logicalAnd usType 0xC000 = 0x8000 then -1 else 0

/-- The address of a parameter of type 5. The first goes to the one field, later ones to the other. -/
def setIP (data : AssoData) (ucType usIPCnt value : Nat) : AssoData :=
  if ucType = 1 then
    if usIPCnt = 0 then { data with uiSrcIPFst := value } else { data with uiSrcIPSnd := value }
  else if usIPCnt = 0 then { data with uiDestIPFst := value }
  else { data with uiDestIPSnd := value }

/-- The loop of `dAnalyzeINIT`. One octet is read for the type and one for the length. -/
def initLoop (ucType pucData usChunkLen : Nat) :
    Nat → Nat → Nat → AssoData → Option (Nat × AssoData)
  | 0, _, _, _ => none
  | fuel + 1, usOffset, usIPCnt, data =>
      if usChunkLen ≤ usOffset then
        if dCheckOptionParameter (pBuf (pucData + usOffset)).toNat < 0 then
          initLoop ucType pucData usChunkLen fuel
            (u16 (u16 (usOffset + 2) + (pBuf (pucData + u16 (usOffset + 2))).toNat)) usIPCnt data
        else if (pBuf (pucData + usOffset)).toNat = 5 then
          initLoop ucType pucData usChunkLen fuel
            (u16 (u16 (usOffset + 4) + (pBuf (pucData + u16 (usOffset + 2))).toNat + 2 ^ 16 - 4))
            (u16 (usIPCnt + 1))
            (setIP data ucType usIPCnt
              (fromLe (readBytes pBuf (pucData + u16 (usOffset + 4)) 4)))
        else
          initLoop ucType pucData usChunkLen fuel
            (u16 (u16 (usOffset + 2) + (pBuf (pucData + u16 (usOffset + 2))).toNat + 2 ^ 16 - 2))
            usIPCnt data
      else some (usIPCnt, data)

/-- The fields set before the loop, by type `1` and by type `2`. -/
def initFields (pucData ucType : Nat) (data : AssoData) : AssoData :=
  if ucType = 1 then
    { data with
      uiResVerifTag := ntohl pBuf pucData
      uiReqInitTSN := ntohl pBuf (pucData + 12)
      ucSetupStatus := data.ucSetupStatus ||| 0x01 }
  else
    { data with
      uiReqVerifTag := ntohl pBuf pucData
      uiResInitTSN := ntohl pBuf (pucData + 12)
      ucSetupStatus := data.ucSetupStatus ||| 0x02 }

def dAnalyzeINIT (fuel pucData : Nat) (header : ChunkHeader) (data : AssoData) :
    Option (Nat × AssoData) :=
  initLoop pBuf header.ucType pucData (u16 (header.usChunkLen + 2 ^ 16 - DEF_SCTPCHUNKHEADER_SIZE))
    fuel DEF_INIT_SIZE 0 (initFields pBuf pucData header.ucType data)

/-- An INIT without addresses leaves that of the packet. -/
def initChunk (fuel pucData : Nat) (header : ChunkHeader) (info : InfoEth) (data : AssoData) :
    Option AssoData :=
  match dAnalyzeINIT pBuf fuel pucData header data with
  | none => none
  | some (0, data) =>
      if header.ucType = 1 then some { data with uiSrcIPFst := info.dwSrcIP }
      else some { data with uiDestIPFst := info.dwDestIP }
  | some (_ + 1, data) => some data

/-- The loop of `dCheckErrorCode`. `pucData` does not advance, so each turn reads the same cause. -/
def causeLoop (pucData usChunkDataLen : Nat) : Nat → Nat → Option Int
  | 0, _ => none
  | fuel + 1, usDataOffset =>
      if usChunkDataLen ≤ usDataOffset then
        if 1 ≤ ntohs pBuf pucData ∧ ntohs pBuf pucData ≤ 10 then
          causeLoop pucData usChunkDataLen fuel
            (u16 (u16 (usDataOffset + DEF_ERROR_SIZE) + ntohs pBuf (pucData + 2) + 2 ^ 16 -
              DEF_ERROR_SIZE))
        else some (-1)
      else some 0

def dCheckErrorCode (fuel pucData usChunkDataLen usDataOffset : Nat) : Option Int :=
  causeLoop pBuf pucData usChunkDataLen fuel (u16 usDataOffset)

/-- The length of the value of an ERROR or ABORT chunk. -/
def causesLen (usChunkLen : Nat) : Nat := u16 (usChunkLen + 2 ^ 16 - DEF_SCTPCHUNKHEADER_SIZE)

def setStatus (data : AssoData) (ucSetupStatus : Nat) : AssoData :=
  { data with ucSetupStatus := ucSetupStatus }

structure Work where
  table : AssoTable
  info : InfoEth
  events : List NodeEvent

def Work.setData (work : Work) (slot : Nat) (data : AssoData) : Work :=
  { work with table := work.table.setData slot data }

/-- The switch over the type of a chunk. A SACK or HEARTBEAT changes nothing. -/
def chunkCase (fuel slot : Nat) (cap : CaptureHeaderMsg) (pucData : Nat) (header : ChunkHeader)
    (supply : Supply) (work : Work) : Option Work :=
  match header.ucType with
  | 0 =>
      (dAnalyzeDATA pBuf (work.table.tuple slot).stKey cap work.info pucData header supply.data).map
        fun sent => { work with info := sent.1, events := work.events ++ sent.2 }
  | 1 | 2 =>
      (initChunk pBuf fuel pucData header work.info (work.table.tuple slot)).map (work.setData slot)
  | 6 =>
      (dCheckErrorCode pBuf fuel pucData (causesLen header.usChunkLen) supply.usDataOffset).map
        fun _ => { work with table := work.table.freeMMDB slot supply.moved }
  | 7 =>
      some (work.setData slot (setStatus (work.table.tuple slot)
        ((work.table.tuple slot).ucCloseStatus ||| 0x01)))
  | 8 =>
      some (work.setData slot (setStatus (work.table.tuple slot)
        ((work.table.tuple slot).ucCloseStatus ||| 0x02)))
  | 9 =>
      (dCheckErrorCode pBuf fuel pucData (causesLen header.usChunkLen) supply.usDataOffset).map
        fun _ => work
  | 10 =>
      some (work.setData slot (setStatus (work.table.tuple slot)
        ((work.table.tuple slot).ucSetupStatus ||| 0x04)))
  | 11 =>
      some (work.setData slot (setStatus (work.table.tuple slot)
        ((work.table.tuple slot).ucSetupStatus ||| 0x08)))
  | 14 =>
      some { work with
        table := (work.setData slot (setStatus (work.table.tuple slot)
          ((work.table.tuple slot).ucCloseStatus ||| 0x04))).table.freeMMDB slot supply.moved }
  | _ => some work

def uiPaddingLen (usChunkLen : Nat) : Nat :=
  if usChunkLen % 4 = 0 then 0 else 4 - usChunkLen % 4

def chunkHeader (place : Nat) : ChunkHeader where
  ucType := (pBuf place).toNat
  ucFlag := (pBuf (place + 1)).toNat
  usChunkLen := ntohs pBuf (place + 2)

def mustSkip (ucType : Nat) : Prop :=
  logicalAnd ucType 0xC0 = 0x80 ∨ logicalAnd ucType 0xC0 = 0xC0

instance (ucType : Nat) : Decidable (mustSkip ucType) := inferInstanceAs (Decidable (_ ∨ _))

/-- `szChunkTypeName` has fifteen names, and that of the chunk is read before anything else. -/
def chunkStep (fuel slot : Nat) (cap : CaptureHeaderMsg) (place : Nat) (supply : Supply)
    (work : Work) : Option Work :=
  if 15 ≤ (chunkHeader pBuf place).ucType then none
  else if mustSkip (chunkHeader pBuf place).ucType then some work
  else
    chunkCase pBuf fuel slot cap (place + DEF_SCTPCHUNKHEADER_SIZE) (chunkHeader pBuf place) supply
      work

/-- The loop over the chunks, with their number so far. -/
def chunkLoop (slot usSCTPDataLen : Nat) (cap : CaptureHeaderMsg) (supply : Nat → Supply) :
    Nat → Nat → Nat → Nat → Work → Option Work
  | 0, _, _, _, _ => none
  | fuel + 1, count, usPosition, place, work =>
      if usPosition < usSCTPDataLen then
        (chunkStep pBuf fuel slot cap place (supply count) work).bind fun work =>
          chunkLoop slot usSCTPDataLen cap supply fuel (count + 1)
            (u16 (usPosition + (chunkHeader pBuf place).usChunkLen +
              uiPaddingLen (chunkHeader pBuf place).usChunkLen))
            (place + (chunkHeader pBuf place).usChunkLen +
              uiPaddingLen (chunkHeader pBuf place).usChunkLen) work
      else some work

end Chunks

section Analyze

variable (pBuf : Nat → UInt8)

/-- Where the packet stands behind the Ethernet and the IP header. -/
def InfoEth.sctpPlace (info : InfoEth) : Nat := info.wIPHeaderLen + 14

def InfoEth.sctpDataLen (info : InfoEth) : Nat :=
  u16 (info.wTotalLength + 2 ^ 16 - info.wIPHeaderLen)

/-- The groups of the two ends, that of the client first. -/
def uiSysInfo (info : InfoEth) : Nat :=
  if info.bRtxType = .client then u16 info.seq + 2 ^ 16 * u16 info.ack
  else u16 info.ack + 2 ^ 16 * u16 info.seq

/-- `usSrcPort` and `usDestPort` of `stSCTPHeader`. -/
def headerPorts (info : InfoEth) : Nat × Nat :=
  if info.bRtxType = .client then (ntohs pBuf info.sctpPlace, ntohs pBuf (info.sctpPlace + 2))
  else (ntohs pBuf (info.sctpPlace + 2), ntohs pBuf info.sctpPlace)

def assoKey (info : InfoEth) : AssoKey :=
  if info.bRtxType = .client then
    { usSrcPort := (headerPorts pBuf info).1
      usDestPort := (headerPorts pBuf info).2
      uiSysInfo := uiSysInfo info }
  else
    { usSrcPort := (headerPorts pBuf info).2
      usDestPort := (headerPorts pBuf info).1
      uiSysInfo := uiSysInfo info }

/-- The frame after `CheckSum` is cleared. -/
def clearSum (place : Nat) : Nat → UInt8 := writeBytes pBuf (place + 8) [0, 0, 0, 0]

/-- A new record takes the time of the packet. -/
def newAsso (cap : CaptureHeaderMsg) (key : AssoKey) : AssoData :=
  { initASSODATA key with
    stSessTime := ⟨cap.curtime, cap.ucurtime⟩
    stUpdateTime := ⟨cap.curtime, cap.ucurtime⟩ }

/-- The association of the packet, or the code of the failure. The tag of a known one is replaced. -/
def lookup (cap : CaptureHeaderMsg) (info : InfoEth) (table : AssoTable) :
    Except Int (Nat × AssoTable) :=
  match table.avlSearch (assoKey pBuf info) with
  | none =>
      match table.insertMMDB (newAsso cap (assoKey pBuf info)) with
      | .error _ => .error (-4)
      | .ok found => .ok found
  | some slot =>
      match info.bRtxType with
      | .client =>
          .ok (slot, table.setData slot
            { table.tuple slot with
              uiReqVerifTag := ntohl pBuf (info.sctpPlace + 4)
              stUpdateTime := ⟨cap.curtime, cap.ucurtime⟩ })
      | .server =>
          .ok (slot, table.setData slot
            { table.tuple slot with
              uiResVerifTag := ntohl pBuf (info.sctpPlace + 4)
              stUpdateTime := ⟨cap.curtime, cap.ucurtime⟩ })
      | .none => .error (-7)

/-- `pINFOETH` takes the ports of the packet. -/
def InfoEth.withPorts (info : InfoEth) : InfoEth :=
  { info with
    wSrcPort := ntohs pBuf info.sctpPlace
    wDestPort := ntohs pBuf (info.sctpPlace + 2) }

/-- An association made without INIT takes the addresses of the packet. -/
def setAddresses (info : InfoEth) (data : AssoData) : AssoData :=
  if data.uiSrcIPFst = 0 then
    { data with
      uiSrcIPFst := info.dwSrcIP
      uiDestIPFst := info.dwDestIP }
  else data

/-- `dAnalyzeSCTP` for the node at `gdOffset`: its value, the table and what was done with nodes. -/
def dAnalyzeSCTP (fuel gdOffset : Nat) (cap : CaptureHeaderMsg) (info : InfoEth)
    (supply : Nat → Supply) (table : AssoTable) : Option (Int × AssoTable × List NodeEvent) :=
  if info.ucProtocol ≠ 0x84 then some (-2, table, [])
  else if uiCrc32 (readBytes (clearSum pBuf info.sctpPlace) info.sctpPlace info.sctpDataLen) ≠
      ntohl pBuf (info.sctpPlace + 8) then some (-3, table, [])
  else
    match lookup pBuf cap info table with
    | .error dRet => some (dRet, table, [])
    | .ok (slot, table) =>
        (chunkLoop (clearSum pBuf info.sctpPlace) slot info.sctpDataLen cap supply fuel 0
            DEF_SCTPHEADER_SIZE (info.sctpPlace + DEF_SCTPHEADER_SIZE)
            { table := table
              info := info.withPorts pBuf
              events := [] }).map fun work =>
          (1, work.table.setData slot (setAddresses work.info (work.table.tuple slot)),
            work.events ++ [.delete gdOffset])

/-- One turn of the main loop: the node is freed here when it was not analyzed. -/
def mainTurn (fuel gdOffset : Nat) (cap : CaptureHeaderMsg) (pINFOETH : Option InfoEth)
    (supply : Nat → Supply) (table : AssoTable) : Option (AssoTable × List NodeEvent) :=
  match pINFOETH with
  | none => some (table, [.delete gdOffset])
  | some info =>
      (dAnalyzeSCTP pBuf fuel gdOffset cap info supply table).map fun done =>
        if done.1 < 0 then (done.2.1, done.2.2 ++ [.delete gdOffset]) else done.2

end Analyze

end Upst.Sctp
