import Networks.Library.StepRuns
import Networks.Library.StreamPieces
import Networks.Ctcp.SendWindow
import Networks.Ctcp.Transmissions
import Networks.Ctcp.Verifiability
import Networks.Ctcp.Restamping
import Networks.Ctcp.StreamEnd
import Networks.Ctcp.OwedSegments
import Networks.Ctcp.PeerWindow
import Networks.Ctcp.AdvertisedWindow
import Networks.Ctcp.Delivery
import Networks.Ctcp.Reassembly
import Networks.Ctcp.Wire
import Networks.Ctcp.DataSafety
import Networks.Ctcp.FlowControl
import Networks.Ctcp.FinReliability
import Networks.Ctcp.Teardown
import Networks.Ctcp.RoundTrip
import Networks.Ctcp.Dispatch
import Networks.Ctcp.Acknowledgements
import Networks.Ctcp.WholeSegments
import Networks.Ctcp.Recovery
import Networks.Ctcp.Unreliability
import Networks.Ctcp.Handshake
import Networks.Ctcp.Dialogue
import Networks.Ctcp.Connecting
import Networks.Ctcp.Retransmissions
import Networks.Ctcp.Duplicates
import Networks.Ctcp.ReceivedLengths
import Networks.Ctcp.StateList
import Networks.Ctcp.RecvFilter
import Networks.Ctcp.Decoding
import Networks.Ctcp.LinkedList
import Networks.Router.Bounds
import Networks.Router.CheckedHandling
import Networks.Router.TimeToLive
import Networks.Router.Egress
import Networks.Router.Requests
import Networks.Router.ArpCache
import Networks.Router.Answers
import Networks.Router.Resolved
import Networks.Router.SlowPath
import Networks.Router.LongestPrefix
import Networks.Router.HeaderChecksum
import Networks.Router.EchoReply
import Networks.Router.ErrorQuote
import Networks.Router.Traversal
import Networks.Router.WaitingFrames
import Networks.Router.RequestHeap
import Networks.Router.ArpFrames
import Networks.Router.ServerMessages
import Networks.Router.InternetChecksum
import Networks.Router.Sha1
import Networks.Router.RoutingTable
import Networks.Router.Interfaces
import Networks.Router.MainLoop
import Networks.Router.Startup
import Networks.Router.Authentication
import Networks.System.OutputQueue
import Networks.System.Connections
import Networks.System.Input
import Networks.System.OutputEvents
