import PacketWyrm.Reprogram
import PacketWyrm.RxPorts
import PacketWyrm.HashTable
import PacketWyrm.Interfaces
import PacketWyrm.Background
import PacketWyrm.FlowStats
import PacketWyrm.OwnTraffic
import PacketWyrm.TestFrames
import PacketWyrm.SlotAllocation
import PacketWyrm.LossLaw
import PacketWyrm.FrameSaf
import PacketWyrm.SafContract
import PacketWyrm.ClassPipe
import PacketWyrm.RowRoundTrip
import PacketWyrm.TokenLaw
import PacketWyrm.SequenceLaw
import PacketWyrm.TestStamps
import PacketWyrm.RxRoutes
import PacketWyrm.RxPath
import PacketWyrm.EgressArbiters
import PacketWyrm.LatCorrection
import PacketWyrm.ConfigLoad
import PacketWyrm.DmaRing
import PacketWyrm.HistAgreement
import PacketWyrm.StatsSnapshot
import PacketWyrm.GpioSync
import PacketWyrm.DmaSlowpath
import PacketWyrm.HashSeparation
import PacketWyrm.FrameLengths
import PacketWyrm.Checksums
import PacketWyrm.WireChecksums
import PacketWyrm.ParserResidue
import PacketWyrm.FramePreview
import PacketWyrm.PreviewHeaders
import PacketWyrm.PreviewParity
import PacketWyrm.SendLaw
import PacketWyrm.Lib.OnesComplement
import PacketWyrm.Lib.Threads
import PacketWyrm.ReportOrder
import PacketWyrm.Lib.NorFlash
import PacketWyrm.Lib.Outcome
import PacketWyrm.SpiEngine
import PacketWyrm.SpiFlash
import PacketWyrm.Lib.QuotedScalar
import PacketWyrm.YamlTree
import PacketWyrm.EnvConfig
import PacketWyrm.SecretLines
import PacketWyrm.ConfigSave
import PacketWyrm.Lib.Strtoul
import PacketWyrm.Ipv6Prefix
import PacketWyrm.CsrWindows
import PacketWyrm.BarBackend
import PacketWyrm.Lib.Search
import PacketWyrm.ReadRequest
import PacketWyrm.RequestFraming
import PacketWyrm.Authentication
import PacketWyrm.SecretView
import PacketWyrm.Lib.Numerals
import PacketWyrm.FlowParse
import PacketWyrm.FlowForm
import PacketWyrm.FormTexts
import PacketWyrm.FlowWritten
import PacketWyrm.FormBlocks
import PacketWyrm.FormFlow
import PacketWyrm.FlowReplace
import PacketWyrm.LoadApply
import PacketWyrm.Ipc
import PacketWyrm.TsGrayCdc
import PacketWyrm.SfpModule
import PacketWyrm.RunSession
import PacketWyrm.CheckerPlain
import PacketWyrm.Gateway
import PacketWyrm.HostPlane
import PacketWyrm.CsrReadPort
import PacketWyrm.TesterLaw
