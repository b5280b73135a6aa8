import TcpVisr.Lib.Runs
import TcpVisr.Lib.Ageing
import TcpVisr.Lib.Front
import TcpVisr.Lib.AsOf
import TcpVisr.Lib.Walk
import TcpVisr.Lib.Grid
import TcpVisr.Lib.Serial
import TcpVisr.Core
import TcpVisr.Conn
import TcpVisr.Metrics
import TcpVisr.Timeline
import TcpVisr.ConnTrack
import TcpVisr.Tracker
import TcpVisr.Recording
import TcpVisr.Slots
import TcpVisr.Plan
import TcpVisr.Passes
import TcpVisr.Lifecycle
import TcpVisr.Index
import TcpVisr.Steps
import TcpVisr.Appending
import TcpVisr.Kept
import TcpVisr.States
import TcpVisr.Census
import TcpVisr.Eviction
import TcpVisr.Shift
import TcpVisr.Queries
import TcpVisr.History
import TcpVisr.Seek
import TcpVisr.Window
import TcpVisr.Forgetting
import TcpVisr.Backstop
import TcpVisr.Snapshot
import TcpVisr.Ceiling
import TcpVisr.Collection
import TcpVisr.Isolation
import TcpVisr.Traffic
import TcpVisr.Ledger
import TcpVisr.Handshake
import TcpVisr.Ending
import TcpVisr.Observing
import TcpVisr.Pending
import TcpVisr.Karn
import TcpVisr.Counting
import TcpVisr.Names
import TcpVisr.Transport
import TcpVisr.App
import TcpVisr.Selecting
import TcpVisr.Cursor
import TcpVisr.Frames
import TcpVisr.Lib.Readers
import TcpVisr.Lib.IpTcp
import TcpVisr.Decode
import TcpVisr.Slicing
import TcpVisr.Snaplen
import TcpVisr.Replay
import TcpVisr.Accounting
import TcpVisr.Scaling
import TcpVisr.Wraps
import TcpVisr.Decay
import TcpVisr.Journal
import TcpVisr.Series
import TcpVisr.Later
import TcpVisr.Translation
import TcpVisr.Rates
import TcpVisr.Fading
import TcpVisr.Orientation
import TcpVisr.Monotone
import TcpVisr.Stepping
import TcpVisr.Detail
import TcpVisr.Peaks
import TcpVisr.Rows
import TcpVisr.Resolving
import TcpVisr.Unwrap
import TcpVisr.Checked
import TcpVisr.Libpcap
import TcpVisr.Axes
import TcpVisr.Lib.Channel
import TcpVisr.Capture
import TcpVisr.Controls
import TcpVisr.Pipeline
import TcpVisr.Sessions
import TcpVisr.Clocks
import TcpVisr.Commands
import TcpVisr.Unbounded
import TcpVisr.Framing
import TcpVisr.Playback
import TcpVisr.Measuring
import TcpVisr.Packets
import TcpVisr.Marks
