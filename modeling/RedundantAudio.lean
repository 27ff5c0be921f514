import RedundantAudio.Audio.Pcm
import RedundantAudio.Audio.Tone
import RedundantAudio.Audio.Wav
import RedundantAudio.Cli.Address
import RedundantAudio.Cli.Color
import RedundantAudio.Cli.Directive
import RedundantAudio.Cli.Failure
import RedundantAudio.Cli.Filter
import RedundantAudio.Cli.HostName
import RedundantAudio.Cli.Options
import RedundantAudio.Cli.Outcome
import RedundantAudio.Cli.ReceiverProgram
import RedundantAudio.Cli.SenderProgram
import RedundantAudio.Cli.SystemError
import RedundantAudio.Cli.Value
import RedundantAudio.Decimal.Binary
import RedundantAudio.Decimal.Reader
import RedundantAudio.Decimal.Text
import RedundantAudio.Json.Reader
import RedundantAudio.Json.Value
import RedundantAudio.Log
import RedundantAudio.Loss.Counters
import RedundantAudio.Loss.Tracker
import RedundantAudio.Loss.Window
import RedundantAudio.Main
import RedundantAudio.Message.Control
import RedundantAudio.Message.Telemetry
import RedundantAudio.Metrics
import RedundantAudio.Metrics.Exposition
import RedundantAudio.Opus.Codec
import RedundantAudio.Opus.Descriptor
import RedundantAudio.Opus.Packet
import RedundantAudio.Opus.Speech
import RedundantAudio.Opus.Toc
import RedundantAudio.Proofs.Audio.Downmix
import RedundantAudio.Proofs.Audio.Frames
import RedundantAudio.Proofs.Decimal.Order
import RedundantAudio.Proofs.Json.Grammar
import RedundantAudio.Proofs.Json.Members
import RedundantAudio.Proofs.Json.Reading
import RedundantAudio.Proofs.Json.Writing
import RedundantAudio.Proofs.Loss.Attribution
import RedundantAudio.Proofs.Loss.Balance
import RedundantAudio.Proofs.Loss.Duplicates
import RedundantAudio.Proofs.Loss.EarlyPackets
import RedundantAudio.Proofs.Loss.Entries
import RedundantAudio.Proofs.Loss.Grants
import RedundantAudio.Proofs.Loss.Joining
import RedundantAudio.Proofs.Loss.LateProtection
import RedundantAudio.Proofs.Loss.Ledger
import RedundantAudio.Proofs.Loss.Queue
import RedundantAudio.Proofs.Loss.Reordering
import RedundantAudio.Proofs.Loss.Repeats
import RedundantAudio.Proofs.Loss.Reports
import RedundantAudio.Proofs.Loss.Ring
import RedundantAudio.Proofs.Loss.Stragglers
import RedundantAudio.Proofs.Loss.Stream
import RedundantAudio.Proofs.Message.Telemetry
import RedundantAudio.Proofs.Opus.Delimiting
import RedundantAudio.Proofs.Opus.Division
import RedundantAudio.Proofs.Opus.Durations
import RedundantAudio.Proofs.Opus.Fields
import RedundantAudio.Proofs.Opus.Flags
import RedundantAudio.Proofs.Opus.Framing
import RedundantAudio.Proofs.Opus.Heads
import RedundantAudio.Proofs.Opus.Layout
import RedundantAudio.Proofs.Reception.Accounting
import RedundantAudio.Proofs.Reception.Broadcast
import RedundantAudio.Proofs.Reception.Cadence
import RedundantAudio.Proofs.Reception.Concealment
import RedundantAudio.Proofs.Reception.Conservation
import RedundantAudio.Proofs.Reception.Continuity
import RedundantAudio.Proofs.Reception.Dropping
import RedundantAudio.Proofs.Reception.Hearing
import RedundantAudio.Proofs.Reception.Lengths
import RedundantAudio.Proofs.Reception.Listening
import RedundantAudio.Proofs.Reception.Loops
import RedundantAudio.Proofs.Reception.LossyStream
import RedundantAudio.Proofs.Reception.Schedule
import RedundantAudio.Proofs.Reception.Separation
import RedundantAudio.Proofs.Reception.Slots
import RedundantAudio.Proofs.Reception.Turns
import RedundantAudio.Proofs.Red.Cursor
import RedundantAudio.Proofs.Red.Grammar
import RedundantAudio.Proofs.Red.Headers
import RedundantAudio.Proofs.Red.Packet
import RedundantAudio.Proofs.Red.Timeline
import RedundantAudio.Proofs.Redundancy.Agreement
import RedundantAudio.Proofs.Redundancy.Decisions
import RedundantAudio.Proofs.Redundancy.HoldDown
import RedundantAudio.Proofs.Redundancy.Independence
import RedundantAudio.Proofs.Redundancy.Plan
import RedundantAudio.Proofs.Redundancy.Provenance
import RedundantAudio.Proofs.Redundancy.Regular
import RedundantAudio.Proofs.Redundancy.Retention
import RedundantAudio.Proofs.Redundancy.Selection
import RedundantAudio.Proofs.Redundancy.Setting
import RedundantAudio.Proofs.Redundancy.Steady
import RedundantAudio.Proofs.Redundancy.Tally
import RedundantAudio.Proofs.Redundancy.Valve
import RedundantAudio.Proofs.Redundancy.Windows
import RedundantAudio.Proofs.Redundancy.Wrapping
import RedundantAudio.Proofs.Rtp.Frame
import RedundantAudio.Proofs.Transmission.Bookkeeping
import RedundantAudio.Proofs.Transmission.Deadlines
import RedundantAudio.Proofs.Transmission.Events
import RedundantAudio.Proofs.Wire.Fields
import RedundantAudio.Reception.Intake
import RedundantAudio.Reception.Listener
import RedundantAudio.Reception.Playout
import RedundantAudio.Reception.Receiver
import RedundantAudio.Reception.Recording
import RedundantAudio.Red.Block
import RedundantAudio.Red.Packet
import RedundantAudio.Redundancy.Encoder
import RedundantAudio.Redundancy.History
import RedundantAudio.Redundancy.Policy
import RedundantAudio.Redundancy.Sender
import RedundantAudio.Rtp.Frame
import RedundantAudio.Simulation.FileTree
import RedundantAudio.Simulation.Generator
import RedundantAudio.Simulation.Host
import RedundantAudio.Simulation.Link
import RedundantAudio.Text.Alphanumeric
import RedundantAudio.Text.Blank
import RedundantAudio.Text.Hex
import RedundantAudio.Text.Pattern
import RedundantAudio.Text.Terminal
import RedundantAudio.Transmission.Stream
import RedundantAudio.Transmission.Transmitter
import RedundantAudio.Wire.Bytes
