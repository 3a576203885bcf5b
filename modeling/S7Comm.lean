import S7Comm.Lib.Outcome
import S7Comm.Lib.Bytes
import S7Comm.Lib.Codec
import S7Comm.Errors
import S7Comm.Wire.ParamError
import S7Comm.Wire.Header
import S7Comm.Wire.Vars
import S7Comm.Wire.Jobs
import S7Comm.Wire.Setup
import S7Comm.Wire.Userdata
import S7Comm.Wire.Blocks
import S7Comm.Lib.Series
import S7Comm.Lib.Failure
import S7Comm.Wire.Grammar
import S7Comm.Lib.Span
import S7Comm.Server.Memory
import S7Comm.Server.Config
import S7Comm.Server.Session
import S7Comm.Server.Meaning
import S7Comm.Server.Host
import S7Comm.Client.Client
import S7Comm.Client.ReadWrite
import S7Comm.Client.Bit
import S7Comm.Theorems.Header
import S7Comm.Theorems.Jobs
import S7Comm.Theorems.JobGrammar
import S7Comm.Theorems.ReadRequests
import S7Comm.Theorems.DataGrammar
import S7Comm.Theorems.ReadResponses
import S7Comm.Theorems.Items
import S7Comm.Theorems.WriteVar
import S7Comm.Theorems.ReadVar
import S7Comm.Theorems.Answers
import S7Comm.Theorems.Handle
import S7Comm.Theorems.Requests
import S7Comm.Theorems.MemoryRuns
import S7Comm.Client.Exchanges
import S7Comm.Theorems.SendReceive
import S7Comm.Theorems.Correlation
import S7Comm.Theorems.SingleItem
import S7Comm.System.Link
import S7Comm.Theorems.LinkBase
import S7Comm.Theorems.LinkRead
import S7Comm.Theorems.LinkWrite
import S7Comm.Theorems.WriteFits
import S7Comm.Lib.Pieces
import S7Comm.Client.Peer
import S7Comm.Theorems.AnswerBounds
import S7Comm.Theorems.Framing
import S7Comm.Theorems.PeerReads
import S7Comm.Theorems.HostileReads
import S7Comm.Theorems.ReadStatus
import S7Comm.Lib.Runs
import S7Comm.Client.RangeScan
import S7Comm.Theorems.RangeScan
import S7Comm.Theorems.ProbeReads
import S7Comm.Theorems.RangeSpans
import S7Comm.Lib.IPNet
import S7Comm.Client.CIDR
import S7Comm.Theorems.CIDR
import S7Comm.Lib.Slots
import S7Comm.Client.Discover
import S7Comm.Theorems.Discover
import S7Comm.Client.Compare
import S7Comm.Theorems.Compare
import S7Comm.Theorems.HostPath
import S7Comm.Theorems.ParserBounds
import S7Comm.Theorems.LinkBits
import S7Comm.Theorems.WriteRequests
import S7Comm.Theorems.Negotiation
import S7Comm.Client.Userdata
import S7Comm.Theorems.Userdata
import S7Comm.Client.SZL
import S7Comm.Client.Blocks
import S7Comm.Theorems.UserdataErrors
import S7Comm.Theorems.SZL
import S7Comm.Client.Cancel
import S7Comm.Theorems.Cancel
import S7Comm.Client.Upload
import S7Comm.System.Cpu
import S7Comm.Theorems.Upload
import S7Comm.Client.Connect
import S7Comm.Client.FollowUp
import S7Comm.Theorems.Connect
import S7Comm.Theorems.FollowUp
import S7Comm.Lib.Machine
import S7Comm.Server.Serve
import S7Comm.Theorems.Serve
import S7Comm.Theorems.ServerClose
import S7Comm.Theorems.SZLSections
import S7Comm.Lib.Ranges
import S7Comm.Lib.Sizes
import S7Comm.Capture.Stream
import S7Comm.Capture.PDUs
import S7Comm.Theorems.Reassembly
import S7Comm.Theorems.Splitting
import S7Comm.Theorems.Readings
import S7Comm.Theorems.Gaps
import S7Comm.Lib.ByteOrder
import S7Comm.Lib.Records
import S7Comm.Lib.Keyed
import S7Comm.Capture.File
import S7Comm.Capture.Frame
import S7Comm.Capture.Read
import S7Comm.Theorems.CaptureFiles
import S7Comm.Theorems.Frames
import S7Comm.Theorems.Conversations
import S7Comm.Theorems.Traffic
import S7Comm.Theorems.Recording
import S7Comm.Lib.Pool
import S7Comm.Client.Probe
import S7Comm.Theorems.Probe
import S7Comm.Theorems.ProbeRuns
import S7Comm.Theorems.DiscoverProgress
import S7Comm.System.Shared
import S7Comm.System.Store
import S7Comm.Theorems.Shared
import S7Comm.Theorems.Spans
import S7Comm.Theorems.SharedWrite
import S7Comm.Theorems.SharedRead
import S7Comm.Theorems.SharedBits
import S7Comm.Theorems.AtRest
import S7Comm.Theorems.LinkStore
import S7Comm.Theorems.LinkScan
import S7Comm.Theorems.LinkConnect
import S7Comm.Theorems.Dialogue
import S7Comm.Client.Calls
import S7Comm.System.Conversation
import S7Comm.Lib.Ends
import S7Comm.Model.Codec
import S7Comm.Wire.Values
import S7Comm.Theorems.Values
import S7Comm.Theorems.ReadBack
import S7Comm.Theorems.CompareServer
import S7Comm.Lib.Calm
import S7Comm.Theorems.CalmCalls
import S7Comm.System.Ledger
import S7Comm.Theorems.Connections
