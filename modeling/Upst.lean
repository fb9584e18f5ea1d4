import Upst.SctpWalk
import Upst.SctpInit
import Upst.RadiusBounds
import Upst.CallSession
import Upst.EthPayload
import Upst.InternetChecksum
import Upst.A11Mdn
import Upst.NifoTlv
import Upst.GreentrySelect
import Upst.CifoFifo
import Upst.MemsRun
import Upst.NifoProcs
import Upst.CifoReaders
import Upst.NextFit
import Upst.Chain
import Upst.HashoRun
import Upst.HashoTables
import Upst.HashoRelink
import Upst.HashgRun
import Upst.Deadlines
import Upst.TimernRun
import Upst.TcpCount
import Upst.PppFrame
import Upst.GreFrames
import Upst.L2tpBounds
import Upst.DiameterLoop
import Upst.SessKeyRun
import Upst.TcpTimers
import Upst.TcpAck
import Upst.TcpRetrans
import Upst.Gifo
import Upst.GifoLoad
import Upst.PreaBuffer
import Upst.PreaFilter
import Upst.PreaFrag
import Upst.PreaFragStore
import Upst.PreaFragRun
import Upst.Ippool
import Upst.Url
import Upst.UrlPath
import Upst.RadiusDecode
import Upst.SctpIdentity
import Upst.HttpConn
import Upst.HttpLedger
import Upst.CifoCount
import Upst.CifoTable
import Upst.HashgPlaces
import Upst.TimernPlaces
import Upst.TimernDue
import Upst.NifoDelete
import Upst.NifoLookup
import Upst.MemsSweep
import Upst.MemsLoad
import Upst.NifoAtomic
import Upst.Chunked
import Upst.Multipart
import Upst.PppControl
import Upst.ArpCalls
import Upst.ArpDurations
import Upst.ArpGreentry
import Upst.ArpEntries
import Upst.SctpFrame
import Upst.PppPairing
import Upst.SctpSum
import Upst.HttpChunked
import Upst.HttpMulti
import Upst.HttpLength
import Upst.Clisto
import Upst.AdnsRun
import Upst.AftpTerm
import Upst.HttpRounds
import Upst.HttpStatus
import Upst.HttpScan
import Upst.HttpHeader
import Upst.HttpCounts
import Upst.UrlFind
import Upst.TcpDeliver
import Upst.TcpShift
