import EmbeddedHttp.Application.Environ
import EmbeddedHttp.Application.Handler
import EmbeddedHttp.Buffer
import EmbeddedHttp.Bytes
import EmbeddedHttp.Config.Basic
import EmbeddedHttp.Config.Listen
import EmbeddedHttp.Config.Load
import EmbeddedHttp.Connection.Basic
import EmbeddedHttp.Connection.Exchange
import EmbeddedHttp.Connection.Machine
import EmbeddedHttp.Fault
import EmbeddedHttp.Message.Chunk
import EmbeddedHttp.Message.Event
import EmbeddedHttp.Message.Framing
import EmbeddedHttp.Message.Head
import EmbeddedHttp.Message.Parser
import EmbeddedHttp.Message.Transcript
import EmbeddedHttp.Proofs.Application.Handing
import EmbeddedHttp.Proofs.Connection.Answering
import EmbeddedHttp.Proofs.Connection.Balance
import EmbeddedHttp.Proofs.Connection.Course
import EmbeddedHttp.Proofs.Connection.InStep
import EmbeddedHttp.Proofs.Connection.Ledger
import EmbeddedHttp.Proofs.Connection.Obliging
import EmbeddedHttp.Proofs.Connection.Order
import EmbeddedHttp.Proofs.Connection.Pipelining
import EmbeddedHttp.Proofs.Connection.Run
import EmbeddedHttp.Proofs.Connection.Standing
import EmbeddedHttp.Proofs.Message.BodyReading
import EmbeddedHttp.Proofs.Message.Cuts
import EmbeddedHttp.Proofs.Message.FieldReading
import EmbeddedHttp.Proofs.Message.HeadReading
import EmbeddedHttp.Proofs.Message.Octets
import EmbeddedHttp.Proofs.Message.Written
import EmbeddedHttp.Proofs.Request.Arrivals
import EmbeddedHttp.Proofs.Request.Blame
import EmbeddedHttp.Proofs.Request.Building
import EmbeddedHttp.Proofs.Request.Expectation
import EmbeddedHttp.Proofs.Request.InStep
import EmbeddedHttp.Proofs.Request.Inner
import EmbeddedHttp.Proofs.Request.Pipelines
import EmbeddedHttp.Proofs.Request.Queue
import EmbeddedHttp.Proofs.Request.Room
import EmbeddedHttp.Proofs.Request.Taking
import EmbeddedHttp.Proofs.Response.Framed
import EmbeddedHttp.Proofs.Text.Utf8
import EmbeddedHttp.Reactor.Action
import EmbeddedHttp.Reactor.Detached
import EmbeddedHttp.Reactor.Hub
import EmbeddedHttp.Reactor.Notice
import EmbeddedHttp.Request.Assembly
import EmbeddedHttp.Request.Basic
import EmbeddedHttp.Request.Body
import EmbeddedHttp.Request.Input
import EmbeddedHttp.Request.Intake
import EmbeddedHttp.Request.Method
import EmbeddedHttp.Request.Target
import EmbeddedHttp.Response.Body
import EmbeddedHttp.Response.Framing
import EmbeddedHttp.Response.Head
import EmbeddedHttp.Response.Outbox
import EmbeddedHttp.Server.Acceptor
import EmbeddedHttp.Server.Address
import EmbeddedHttp.Server.Binding
import EmbeddedHttp.Server.Path
import EmbeddedHttp.Server.Setup
import EmbeddedHttp.Simulation.AppScript
import EmbeddedHttp.Simulation.Call
import EmbeddedHttp.Simulation.Entry
import EmbeddedHttp.Simulation.HubRun
import EmbeddedHttp.Simulation.Loop
import EmbeddedHttp.Simulation.Schedule
import EmbeddedHttp.Simulation.ServerRun
import EmbeddedHttp.Simulation.Socket
import EmbeddedHttp.Simulation.SocketRun
import EmbeddedHttp.Simulation.TaskRun
import EmbeddedHttp.Simulation.TaskScript
import EmbeddedHttp.Simulation.World
import EmbeddedHttp.Status
import EmbeddedHttp.Task.Basic
import EmbeddedHttp.Task.Cell
import EmbeddedHttp.Task.Program
import EmbeddedHttp.Text.Blank
import EmbeddedHttp.Text.Pieces
import EmbeddedHttp.Text.Numeral
import EmbeddedHttp.Text.Percent
import EmbeddedHttp.Text.Printable
import EmbeddedHttp.Text.Quoted
import EmbeddedHttp.Text.Utf8
import EmbeddedHttp.Heap
import EmbeddedHttp.TimerQueue
import EmbeddedHttp.Yaml.Cursor
import EmbeddedHttp.Yaml.Decode
import EmbeddedHttp.Yaml.Grammar
import EmbeddedHttp.Yaml.Node
import EmbeddedHttp.Yaml.Scalar
import EmbeddedHttp.Yaml.Token
import EmbeddedHttp.Proofs.Connection.Carrying
import EmbeddedHttp.Proofs.Connection.FramedBody
import EmbeddedHttp.Proofs.Connection.Orderly
import EmbeddedHttp.Proofs.Connection.TakenUp
import EmbeddedHttp.Proofs.Connection.OneAnswer
import EmbeddedHttp.Proofs.Task.Waiting
import EmbeddedHttp.Proofs.Task.Surroundings
import EmbeddedHttp.Proofs.Response.ChunkedReading
import EmbeddedHttp.Proofs.Response.OneFraming
import EmbeddedHttp.Proofs.Response.Unsplit
import EmbeddedHttp.Proofs.Timers.Draining
import EmbeddedHttp.Proofs.Timers.Holding
import EmbeddedHttp.Proofs.Timers.Agenda
import EmbeddedHttp.Proofs.Message.Between
import EmbeddedHttp.Proofs.Connection.Awaiting
import EmbeddedHttp.Proofs.Connection.Lapsing
import EmbeddedHttp.Proofs.Request.Streams
import EmbeddedHttp.Proofs.Request.Extents
import EmbeddedHttp.Proofs.Request.Asking
import EmbeddedHttp.Proofs.Request.Tracking
import EmbeddedHttp.Proofs.Connection.Interim
import EmbeddedHttp.Proofs.Message.Codings
import EmbeddedHttp.Proofs.Message.ChunkedBodies
import EmbeddedHttp.Proofs.Runs
import EmbeddedHttp.Proofs.Timers.Popping
import EmbeddedHttp.Proofs.Reactor.Dispatch
import EmbeddedHttp.Proofs.Reactor.Tickets
import EmbeddedHttp.Proofs.Reactor.Custody
import EmbeddedHttp.Proofs.Reactor.Rounds
import EmbeddedHttp.Proofs.Reactor.FiresOnce
import EmbeddedHttp.Proofs.Server.Serving
import EmbeddedHttp.Proofs.Server.Slots
import EmbeddedHttp.Proofs.Server.Simulated
import EmbeddedHttp.Proofs.Response.Flushing
import EmbeddedHttp.Proofs.Request.Reading
import EmbeddedHttp.Proofs.Text.Lossy
import EmbeddedHttp.Proofs.Request.Heads
import EmbeddedHttp.Proofs.Request.Persistence
import EmbeddedHttp.Proofs.Request.Admitting
import EmbeddedHttp.Proofs.Response.Starting
import EmbeddedHttp.Proofs.Message.Sessions
import EmbeddedHttp.Proofs.Message.EventOrder
import EmbeddedHttp.Proofs.Message.Rereading
import EmbeddedHttp.Proofs.Message.KeptHeads
import EmbeddedHttp.Proofs.Request.Fragments
import EmbeddedHttp.Proofs.Request.Assembled
import EmbeddedHttp.Proofs.Request.AbsoluteForm
import EmbeddedHttp.Proofs.Response.Sending
import EmbeddedHttp.Proofs.Connection.FileRegions
import EmbeddedHttp.Proofs.Request.ToldLength
import EmbeddedHttp.Proofs.Task.Dialogue
import EmbeddedHttp.Proofs.Application.Lossless
import EmbeddedHttp.Proofs.Request.Truncating
import EmbeddedHttp.Proofs.Message.DeclaredLengths
import EmbeddedHttp.Proofs.Response.StatusLines
import EmbeddedHttp.Proofs.Message.Sizes
import EmbeddedHttp.Proofs.Request.CheckedAssembly
import EmbeddedHttp.Proofs.Response.Pages
import EmbeddedHttp.Proofs.Response.HeadBlocks
