import Rtl8192eu.Lib.Run
import Rtl8192eu.Lib.Chains
import Rtl8192eu.Lib.Circ
import Rtl8192eu.Lib.ReorderBuffer
import Rtl8192eu.Lib.Ledger
import Rtl8192eu.Lib.Mem
import Rtl8192eu.Lib.Tally
import Rtl8192eu.Lib.Records
import Rtl8192eu.Lib.Tlv
import Rtl8192eu.Lib.HashChain
import Rtl8192eu.Lib.Marks
import Rtl8192eu.Lib.Least
import Rtl8192eu.Lib.Layout
import Rtl8192eu.Lib.Blocks
import Rtl8192eu.Lib.Loop
import Rtl8192eu.Lib.OnesSum
import Rtl8192eu.Lib.Keyed
import Rtl8192eu.Lib.Apart
import Rtl8192eu.Lib.Rijndael
import Rtl8192eu.Lib.BlockMode
import Rtl8192eu.Lib.BinaryPoly
import Rtl8192eu.Lib.CondList
import Rtl8192eu.Lib.RegBits
import Rtl8192eu.Lib.Mailbox
import Rtl8192eu.Lib.Lease
import Rtl8192eu.Recv.Frame
import Rtl8192eu.Recv.ReorderCtrl
import Rtl8192eu.Recv.ReorderRun
import Rtl8192eu.Recv.Adapter
import Rtl8192eu.Recv.Decache
import Rtl8192eu.Recv.Validate
import Rtl8192eu.Recv.Defrag
import Rtl8192eu.Recv.Indicate
import Rtl8192eu.Recv.Mgnt
import Rtl8192eu.Recv.Pool
import Rtl8192eu.Recv.PoolRun
import Rtl8192eu.Recv.BlockAck
import Rtl8192eu.Recv.BaSession
import Rtl8192eu.Recv.BarRun
import Rtl8192eu.Recv.ReorderTimer
import Rtl8192eu.Recv.MgntDispatch
import Rtl8192eu.Recv.MgmtBody
import Rtl8192eu.Recv.MsduLen
import Rtl8192eu.Recv.Amsdu
import Rtl8192eu.Recv.SwDecrypt
import Rtl8192eu.Usb.StallRecovery
import Rtl8192eu.Usb.RecvBufs
import Rtl8192eu.Usb.StallCount
import Rtl8192eu.Usb.Removal
import Rtl8192eu.Usb.RecvAgg
import Rtl8192eu.Usb.QueueCounts
import Rtl8192eu.Ie.Elems
import Rtl8192eu.Ie.Walkers
import Rtl8192eu.Ie.Lookup
import Rtl8192eu.Ie.Remove
import Rtl8192eu.Ie.VendorDelete
import Rtl8192eu.Ie.Replace
import Rtl8192eu.Ie.Rates
import Rtl8192eu.Ie.Ssid
import Rtl8192eu.Ie.P2pMerge
import Rtl8192eu.Ie.Attrs
import Rtl8192eu.Ie.Rsne
import Rtl8192eu.Security.Bip
import Rtl8192eu.Security.Wep
import Rtl8192eu.Security.Tkip
import Rtl8192eu.Security.CamTable
import Rtl8192eu.Security.CamRun
import Rtl8192eu.Security.CamClear
import Rtl8192eu.Crypto.AesInternal
import Rtl8192eu.Crypto.Aes128k
import Rtl8192eu.Crypto.Wrap
import Rtl8192eu.Crypto.Ccm
import Rtl8192eu.Crypto.Ccmp
import Rtl8192eu.Crypto.Gcm
import Rtl8192eu.Crypto.Gcmp
import Rtl8192eu.Crypto.Omac1
import Rtl8192eu.Recv.AesDecrypt
import Rtl8192eu.Cmd.Thread
import Rtl8192eu.Ap.StaPriv
import Rtl8192eu.Ap.Mlme
import Rtl8192eu.Ap.MfpSta
import Rtl8192eu.Ap.Reassoc
import Rtl8192eu.Ap.StaLists
import Rtl8192eu.Ap.StaHash
import Rtl8192eu.Ap.StaView
import Rtl8192eu.Ap.SharedKey
import Rtl8192eu.Ap.BssCap
import Rtl8192eu.Ap.Aid
import Rtl8192eu.Ap.Tim
import Rtl8192eu.Ap.BcnIe
import Rtl8192eu.Ap.BcnTim
import Rtl8192eu.Ap.BcnProt
import Rtl8192eu.Ap.BcnProtRun
import Rtl8192eu.Ap.Aging
import Rtl8192eu.Mlme.Join
import Rtl8192eu.Mlme.JoinForeign
import Rtl8192eu.Mlme.JoinResult
import Rtl8192eu.Mlme.RxParse
import Rtl8192eu.Mlme.Scan
import Rtl8192eu.Mlme.ScanTable
import Rtl8192eu.Mlme.HtCaps
import Rtl8192eu.Mlme.Select
import Rtl8192eu.Xmit.DataPath
import Rtl8192eu.Xmit.Order
import Rtl8192eu.Xmit.Attrib
import Rtl8192eu.Xmit.PktFile
import Rtl8192eu.Cmd.SessionTracker
import Rtl8192eu.Cmd.Cbuf
import Rtl8192eu.Xmit.Transport
import Rtl8192eu.Xmit.TrackerKey
import Rtl8192eu.Xmit.Coalesce
import Rtl8192eu.Xmit.AggLayout
import Rtl8192eu.Xmit.BulkBlocks
import Rtl8192eu.Xmit.Fragment
import Rtl8192eu.Xmit.PacketNumber
import Rtl8192eu.Xmit.PowerSave
import Rtl8192eu.Xmit.Pending
import Rtl8192eu.Xmit.SleepQueue
import Rtl8192eu.Xmit.Doze
import Rtl8192eu.Xmit.Bufs
import Rtl8192eu.Xmit.RoundTrip
import Rtl8192eu.Xmit.SoftRoundTrip
import Rtl8192eu.Xmit.AesRoundTrip
import Rtl8192eu.Xmit.OsQueue
import Rtl8192eu.Xmit.SubmitCtx
import Rtl8192eu.Xmit.AckReport
import Rtl8192eu.Xmit.MonitorXmit
import Rtl8192eu.Recv.Radiotap
import Rtl8192eu.BrExt.Nat25
import Rtl8192eu.BrExt.Pppoe
import Rtl8192eu.BrExt.DbHandle
import Rtl8192eu.BrExt.DbEffect
import Rtl8192eu.BrExt.Vlan
import Rtl8192eu.BrExt.OptionScan
import Rtl8192eu.BrExt.Checksum
import Rtl8192eu.Ap.Forward
import Rtl8192eu.Ap.ForwardOnce
import Rtl8192eu.Hal.TxPower
import Rtl8192eu.Hal.TxPowerLimit
import Rtl8192eu.Hal.TxPowerLoad
import Rtl8192eu.Hal.ParaFile
import Rtl8192eu.Hal.LimitFile
import Rtl8192eu.Hal.LimitLayout
import Rtl8192eu.Hal.ByRateFile
import Rtl8192eu.Hal.ByRateLayout
import Rtl8192eu.Hal.ConfigTable
import Rtl8192eu.Hal.PwrSeq
import Rtl8192eu.Hal.H2c
import Rtl8192eu.Hal.Dig
import Rtl8192eu.Efuse.Log
import Rtl8192eu.Efuse.Read
import Rtl8192eu.Efuse.Write
import Rtl8192eu.Efuse.MapWrite
import Rtl8192eu.Efuse.ReadAny
import Rtl8192eu.Efuse.RawLog
import Rtl8192eu.Efuse.PgRead
import Rtl8192eu.Efuse.Analyze
