import MoshClient.Bootstrap.Command
import MoshClient.Bootstrap.Connect
import MoshClient.Bootstrap.ConnectLine
import MoshClient.Bootstrap.ConnectPattern
import MoshClient.Bootstrap.Outputs
import MoshClient.Crypto.Base64Key
import MoshClient.Crypto.DatagramCodec
import MoshClient.Crypto.Honest
import MoshClient.Crypto.Nonce
import MoshClient.Crypto.NonceUniqueness
import MoshClient.Crypto.Opener
import MoshClient.Crypto.Sealer
import MoshClient.Fragment.Completion
import MoshClient.Fragment.Framing
import MoshClient.Fragment.Genuine
import MoshClient.Fragment.HostileReassembly
import MoshClient.Fragment.Integrity
import MoshClient.Fragment.LastAck
import MoshClient.Fragment.Limits
import MoshClient.Fragment.Reassembly
import MoshClient.Fragment.Sending
import MoshClient.Fragment.Slicing
import MoshClient.Fragment.Transport
import MoshClient.Library.Base128
import MoshClient.Library.Base64
import MoshClient.Library.BigEndian
import MoshClient.Library.Chain
import MoshClient.Library.Collector
import MoshClient.Library.Counted
import MoshClient.Library.HighWater
import MoshClient.Library.History
import MoshClient.Library.PartitionPoint
import MoshClient.Library.Pieces
import MoshClient.Library.ShellWords
import MoshClient.Library.Simulation
import MoshClient.Library.Spacing
import MoshClient.Library.Transition
import MoshClient.Library.Watermark
import MoshClient.Library.Words
import MoshClient.Session.Acknowledged
import MoshClient.Session.Acks
import MoshClient.Session.AnyNetwork
import MoshClient.Session.Capture
import MoshClient.Session.Clocks
import MoshClient.Session.Closing
import MoshClient.Session.Delivery
import MoshClient.Session.DisplayRuns
import MoshClient.Session.DisplaySize
import MoshClient.Session.DrivenSender
import MoshClient.Session.Embedding
import MoshClient.Session.EndToEnd
import MoshClient.Session.Ending
import MoshClient.Session.EventLog
import MoshClient.Session.Exchange
import MoshClient.Session.ExchangeSteps
import MoshClient.Session.GuessSteps
import MoshClient.Session.Guesses
import MoshClient.Session.HostStream
import MoshClient.Session.LogForest
import MoshClient.Session.Loop
import MoshClient.Session.Nonces
import MoshClient.Session.PathMtu
import MoshClient.Session.Prediction
import MoshClient.Session.RunLoop
import MoshClient.Session.RunSteps
import MoshClient.Session.ServerScreen
import MoshClient.Session.SessionRuns
import MoshClient.Session.ShadowCursor
import MoshClient.Session.Sockets
import MoshClient.Session.Timing
import MoshClient.Session.Tracking
import MoshClient.Session.WiredLoop
import MoshClient.Ssp.AckOrder
import MoshClient.Ssp.Agreement
import MoshClient.Ssp.Chronicle
import MoshClient.Ssp.DiffAlgebra
import MoshClient.Ssp.DueTicks
import MoshClient.Ssp.Emissions
import MoshClient.Ssp.FullLog
import MoshClient.Ssp.Outlook
import MoshClient.Ssp.Oversleep
import MoshClient.Ssp.Pacing
import MoshClient.Ssp.Quench
import MoshClient.Ssp.QueueOrder
import MoshClient.Ssp.Rebasing
import MoshClient.Ssp.Receiver
import MoshClient.Ssp.ReceiverRuns
import MoshClient.Ssp.Recovery
import MoshClient.Ssp.Rejection
import MoshClient.Ssp.Sender
import MoshClient.Ssp.SenderMap
import MoshClient.Ssp.SenderRuns
import MoshClient.Ssp.SenderSteps
import MoshClient.Ssp.SenderSystem
import MoshClient.Ssp.SenderTiming
import MoshClient.Ssp.SentQueue
import MoshClient.Ssp.ShutdownTries
import MoshClient.Ssp.TwoParty
import MoshClient.Ssp.UserStream
import MoshClient.Wire.Acceptance
import MoshClient.Wire.Cursors
import MoshClient.Wire.EmbeddedTail
import MoshClient.Wire.Grammar
import MoshClient.Wire.Messages
import MoshClient.Wire.Offset
import MoshClient.Wire.Primitives
import MoshClient.Wire.RoundTrip
import MoshClient.Wire.Tolerance
