import RemoteDebugger.Breakpoint.Locator
import RemoteDebugger.Breakpoint.Store
import RemoteDebugger.Cli.Grammar
import RemoteDebugger.Cli.Invocation
import RemoteDebugger.Cli.Outcome
import RemoteDebugger.Decimal.Shortest
import RemoteDebugger.Dwarf.Constants
import RemoteDebugger.Dwarf.Expression
import RemoteDebugger.Dwarf.Form
import RemoteDebugger.Dwarf.Frame
import RemoteDebugger.Dwarf.Leb128
import RemoteDebugger.Dwarf.Line
import RemoteDebugger.Dwarf.Lists
import RemoteDebugger.Dwarf.Reader
import RemoteDebugger.Dwarf.Unit
import RemoteDebugger.Error
import RemoteDebugger.Main
import RemoteDebugger.Object.Bytes
import RemoteDebugger.Object.Elf
import RemoteDebugger.Object.Inflate
import RemoteDebugger.Object.Zstandard.Entropy
import RemoteDebugger.Object.Zstandard.Frame
import RemoteDebugger.Overflow
import RemoteDebugger.Remote.Client
import RemoteDebugger.Remote.Network
import RemoteDebugger.Remote.Session
import RemoteDebugger.Session.Config
import RemoteDebugger.Session.Debugger
import RemoteDebugger.Session.Event
import RemoteDebugger.Session.Logging
import RemoteDebugger.Symbols.Builder
import RemoteDebugger.Symbols.Database
import RemoteDebugger.Symbols.Demangle
import RemoteDebugger.Symbols.Entry
import RemoteDebugger.Symbols.Key
import RemoteDebugger.Symbols.Loader
import RemoteDebugger.Symbols.Module
import RemoteDebugger.Symbols.Position
import RemoteDebugger.Symbols.Records
import RemoteDebugger.Symbols.Resolver
import RemoteDebugger.Symbols.Type
import RemoteDebugger.Target.Address
import RemoteDebugger.Target.Architecture
import RemoteDebugger.Target.Memory
import RemoteDebugger.Target.Registers
import RemoteDebugger.Target.Stop
import RemoteDebugger.Text.Blank
import RemoteDebugger.Text.Escaped
import RemoteDebugger.Text.Integer
import RemoteDebugger.Text.Path
import RemoteDebugger.Text.Quoted
import RemoteDebugger.Text.Similarity
import RemoteDebugger.Text.Utf8
import RemoteDebugger.Unwind.Frames
import RemoteDebugger.Wire.Error
import RemoteDebugger.Wire.Hex
import RemoteDebugger.Wire.Link
import RemoteDebugger.Wire.Packet
import RemoteDebugger.Wire.Transport
import RemoteDebugger.Proofs.Wire.RoundTrip
import RemoteDebugger.Proofs.Remote.Stub
import RemoteDebugger.Proofs.Remote.StubLink
import RemoteDebugger.Proofs.Remote.StubClient
import RemoteDebugger.Proofs.Breakpoint.Lookup
import RemoteDebugger.Proofs.Remote.Overlay
import RemoteDebugger.Proofs.Remote.SessionSteady
import RemoteDebugger.Proofs.Remote.SessionCommands
import RemoteDebugger.Proofs.Remote.SessionMemory
import RemoteDebugger.Proofs.Symbols.OrderedMaps
import RemoteDebugger.Proofs.Symbols.Building
import RemoteDebugger.Proofs.Symbols.FileMatching
import RemoteDebugger.Proofs.Symbols.PositionRoundTrip
import RemoteDebugger.Proofs.Remote.RecordingStub
import RemoteDebugger.Proofs.Remote.RecordingClient
import RemoteDebugger.Proofs.Remote.FailedUpdates
import RemoteDebugger.Proofs.Remote.SessionPackets
import RemoteDebugger.Proofs.Remote.StepOver
import RemoteDebugger.Proofs.Breakpoint.Lifetime
import RemoteDebugger.Proofs.Remote.CalmSteps
import RemoteDebugger.Proofs.Remote.StopHandling
import RemoteDebugger.Proofs.Remote.StopRules
import RemoteDebugger.Proofs.Breakpoint.Indexes
import RemoteDebugger.Proofs.Wire.Streams
import RemoteDebugger.Proofs.Symbols.Collected
import RemoteDebugger.Proofs.Symbols.ScopeChains
import RemoteDebugger.Proofs.Symbols.Validation
import RemoteDebugger.Proofs.Symbols.Indices
import RemoteDebugger.Proofs.Wire.Ledger
import RemoteDebugger.Proofs.Breakpoint.Placement
import RemoteDebugger.Proofs.Dwarf.Reading
import RemoteDebugger.Proofs.Symbols.Ingest
import RemoteDebugger.Proofs.Symbols.LoadedScopes
import RemoteDebugger.Proofs.Unwind.CallerRegisters
import RemoteDebugger.Proofs.Dwarf.StackMachine
import RemoteDebugger.Proofs.Dwarf.ExpressionAgreement
import RemoteDebugger.Proofs.Symbols.FrameTables
import RemoteDebugger.Proofs.Symbols.ScopeAddresses
import RemoteDebugger.Proofs.Symbols.TypeChains
import RemoteDebugger.Proofs.Symbols.ArithmeticFaults
import RemoteDebugger.Proofs.Symbols.FrameVariables
import RemoteDebugger.Proofs.Dwarf.UnwindRows
import RemoteDebugger.Proofs.Symbols.LoadedFrames
import RemoteDebugger.Proofs.Target.GdbLayout
import RemoteDebugger.Proofs.Unwind.StackWalk
import RemoteDebugger.Proofs.Remote.ScriptedStub
import RemoteDebugger.Proofs.Remote.MemoryChunks
import RemoteDebugger.Proofs.Remote.SourceStep
import RemoteDebugger.Proofs.Wire.HexReading
import RemoteDebugger.Proofs.Target.StopReplies
import RemoteDebugger.Proofs.Symbols.ValueText
import RemoteDebugger.Proofs.Symbols.LineSpans
import RemoteDebugger.Proofs.Remote.Interleavings
