import GimbalLink.Run
import GimbalLink.Frame.Receiver
import GimbalLink.Settings.Stored
import GimbalLink.Channel.Uart
import GimbalLink.Engine.Rig
import GimbalLink.Proofs.Frame.Tokens
import GimbalLink.Proofs.Frame.Delivery
import GimbalLink.Proofs.Checksum.Linear
import GimbalLink.Proofs.Checksum.Errors
import GimbalLink.Proofs.Frame.Corruption
import GimbalLink.Proofs.Frame.Registers
import GimbalLink.Proofs.Frame.Bounds
import GimbalLink.Proofs.Frame.Feeding
import GimbalLink.Proofs.Frame.Uses
import GimbalLink.Proofs.Frame.Resync
import GimbalLink.Proofs.Message.PackedChannels
import GimbalLink.Proofs.Message.PackedBits
import GimbalLink.Proofs.Message.Layouts
import GimbalLink.Proofs.Message.CommandWire
import GimbalLink.Proofs.Channel.Sending
import GimbalLink.Proofs.Pointing.History
import GimbalLink.Proofs.Pointing.Failsafe
import GimbalLink.Proofs.Listeners.Board
import GimbalLink.Proofs.Listeners.Refinement
import GimbalLink.Proofs.Listeners.Handing
import GimbalLink.Proofs.Listeners.Places
import GimbalLink.Proofs.Listeners.Delivery
import GimbalLink.Proofs.Pointing.Recentre
import GimbalLink.Proofs.Engine.StaleInput
import GimbalLink.Proofs.Timing.Polling
import GimbalLink.Proofs.Engine.Actions
import GimbalLink.Proofs.Engine.Disabled
import GimbalLink.Proofs.Engine.Transmission
import GimbalLink.Proofs.Engine.Backpressure
import GimbalLink.Proofs.Channel.Receiving
import GimbalLink.Proofs.Message.Answers
import GimbalLink.Proofs.Engine.Changes
import GimbalLink.Proofs.Engine.Hearing
import GimbalLink.Proofs.Engine.Discovery
import GimbalLink.Proofs.Engine.LiveTelemetry
import GimbalLink.Proofs.Engine.Fields
import GimbalLink.Proofs.Engine.Repertoire
import GimbalLink.Proofs.Engine.Emissions
import GimbalLink.Proofs.Engine.Announcements
import GimbalLink.Proofs.Engine.Broadcasts
import GimbalLink.Proofs.Listeners.Reentrancy
import GimbalLink.Proofs.Settings.Numbers
import GimbalLink.Proofs.Settings.RoundTrip
import GimbalLink.Proofs.Settings.Damage
import GimbalLink.Proofs.Engine.Numbering
import GimbalLink.Proofs.Timing.Sequencer
import GimbalLink.Proofs.Timing.Turns
import GimbalLink.Proofs.Binary32.Circular
import GimbalLink.Proofs.Listeners.Tables
import GimbalLink.Proofs.Pointing.Override
import GimbalLink.Proofs.Pointing.ShortWay
import GimbalLink.Proofs.Message.Layouts
import GimbalLink.Proofs.Message.CommandGrammar
import GimbalLink.Proofs.Message.LiveDataCodec
import GimbalLink.Proofs.Message.VersionCodec
import GimbalLink.Proofs.Channel.FrameEnds
import GimbalLink.Proofs.Channel.Passes
import GimbalLink.Proofs.Telemetry.History
import GimbalLink.Proofs.Channel.TransmitQueue
import GimbalLink.Proofs.Frame.Residue
import GimbalLink.Proofs.Frame.Writing
