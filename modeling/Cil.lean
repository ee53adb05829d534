import Cil.Code.Assembler
import Cil.Code.Body
import Cil.Code.Clause
import Cil.Code.Decode
import Cil.Code.Encoder
import Cil.Code.Instruction
import Cil.Code.Layout
import Cil.Code.MethodCode
import Cil.Code.Opcode
import Cil.Cursor
import Cil.Document
import Cil.Document.Code
import Cil.Document.Declaration
import Cil.Document.Emission
import Cil.Document.Isolation
import Cil.Document.Signature
import Cil.Document.Value
import Cil.Error
import Cil.Isolation.Dispatch
import Cil.Isolation.Instrumentation
import Cil.Isolation.Isolate
import Cil.Isolation.Policy
import Cil.Isolation.Regions
import Cil.Isolation.Registry
import Cil.Isolation.Run
import Cil.Isolation.Shim
import Cil.Isolation.Stub
import Cil.Isolation.StubKind
import Cil.Listing
import Cil.Machine.Action
import Cil.Machine.Arithmetic
import Cil.Machine.Call
import Cil.Machine.Callable
import Cil.Machine.Comparison
import Cil.Machine.Conversion
import Cil.Machine.CoreLibrary
import Cil.Machine.Execution
import Cil.Machine.Heap
import Cil.Machine.Host
import Cil.Machine.Limits
import Cil.Machine.Memory
import Cil.Machine.State
import Cil.Machine.Step
import Cil.Machine.Thread
import Cil.Machine.Unwinding
import Cil.Machine.Value
import Cil.Machine.Zero
import Cil.Metadata.Core
import Cil.Metadata.Declaration
import Cil.Metadata.Definition
import Cil.Metadata.Flags
import Cil.Metadata.Hierarchy
import Cil.Metadata.Module
import Cil.Number.BinaryFormat
import Cil.Number.FloatingPoint
import Cil.Number.LittleEndian
import Cil.Number.Shortest
import Cil.Reference
import Cil.Session
import Cil.Signature
import Cil.Text.Hex
import Cil.Text.Quoted
import Cil.Text.Unprintable
import Cil.Text.UpperCase
import Cil.Token
import Cil.Proofs.Metadata.Tables
import Cil.Proofs.Metadata.Slots
import Cil.Proofs.Isolation.ShimCoverage
import Cil.Proofs.Machine.Running
import Cil.Proofs.Code.Decoding
import Cil.Proofs.Code.Emission
import Cil.Proofs.Code.Layout
import Cil.Proofs.Isolation.Stubs
import Cil.Proofs.Isolation.Runs
import Cil.Proofs.Isolation.Pieces
import Cil.Proofs.Isolation.Replay
import Cil.Proofs.Isolation.Emission
import Cil.Proofs.Isolation.Places
import Cil.Proofs.Isolation.Reemission
import Cil.Proofs.Isolation.AdjoiningMarks
import Cil.Proofs.Isolation.Nesting
import Cil.Proofs.Isolation.NestedReplay
import Cil.Proofs.Isolation.KeptRegions
import Cil.Proofs.Isolation.Forwarding
import Cil.Proofs.Code.Encoding
import Cil.Proofs.Machine.Unwinding
import Cil.Proofs.Isolation.Interception
import Cil.Proofs.Code.BodyFormat
import Cil.Proofs.Isolation.ShimPriority
import Cil.Proofs.Machine.Locations
import Cil.Proofs.Isolation.VirtualDispatch
import Cil.Proofs.Isolation.ReceiverPassing
import Cil.Proofs.Machine.UnwindingOrder
import Cil.Proofs.Code.FailedSteps
import Cil.Proofs.Code.RoundTrip
import Cil.Proofs.Machine.Congruence
import Cil.Proofs.Machine.CallsInProgress
import Cil.Proofs.Machine.WatchedCalls
import Cil.Proofs.Machine.SlotPointers
import Cil.Proofs.Metadata.Subtyping
import Cil.Proofs.Metadata.Growth
import Cil.Proofs.Metadata.ReturnedTokens
import Cil.Proofs.Isolation.RunCache
import Cil.Proofs.Isolation.RunUses
import Cil.Proofs.LongWalks
import Cil.Proofs.Metadata.Zeros
import Cil.Proofs.Machine.Beyond
import Cil.Proofs.Machine.Metering
import Cil.Proofs.Machine.LimitedCode
import Cil.Proofs.Machine.LimitedRuns
import Cil.Proofs.Code.Requests
import Cil.Proofs.Code.Acceptance
import Cil.Proofs.Code.StackEffects
import Cil.Proofs.Code.Underflow
import Cil.Proofs.Code.LabelHeights
import Cil.Proofs.Code.Outlines
import Cil.Proofs.Code.MaxStack
import Cil.Proofs.Machine.Prefixes
import Cil.Proofs.Isolation.Constraints
import Cil.Proofs.Metadata.SlotTables
import Cil.Proofs.Code.BoundedReads
import Cil.Proofs.Isolation.ShimArguments
import Cil.Proofs.Machine.DataFailures
import Cil.Proofs.Machine.StepFailures
import Cil.Proofs.Machine.Transfers
import Cil.Proofs.Machine.Integers
import Cil.Proofs.Machine.IntegerArithmetic
import Cil.Proofs.Number.Truncation
import Cil.Proofs.Machine.Conversions
import Cil.Proofs.Metadata.EndlessZeros
import Cil.Proofs.Metadata.GenericSlots
import Cil.Proofs.Machine.Comparisons
import Cil.Proofs.Machine.ElementAccess
import Cil.Proofs.Machine.Lenses
import Cil.Proofs.Machine.ObjectIdentity
import Cil.Proofs.Machine.Recording
import Cil.Proofs.Machine.CaughtExceptions
import Cil.Proofs.Machine.HandlerEntries
import Cil.Proofs.Machine.HandlerRuns
import Cil.Proofs.Machine.Rethrowing
import Cil.Proofs.CursorMoves
import Cil.Proofs.Code.Tiling
import Cil.Proofs.Code.ShortestForms
import Cil.Proofs.Code.AssemblerSteps
import Cil.Proofs.Code.MarkedPrograms
import Cil.Proofs.Code.AssembledBlocks
import Cil.Proofs.Machine.CarefulRuns
import Cil.Proofs.Isolation.Discipline
import Cil.Proofs.Machine.Mirroring
import Cil.Proofs.Machine.Tallying
import Cil.Proofs.Machine.MirroredAccess
import Cil.Proofs.Machine.MirroredSteps
import Cil.Proofs.Machine.MirroredCode
import Cil.Proofs.Machine.MirroredExecution
import Cil.Proofs.Machine.MirroredTransfers
import Cil.Proofs.Machine.MirroredCalls
import Cil.Proofs.Code.KnownMethods
import Cil.Proofs.Isolation.CarefulCalls
import Cil.Proofs.Isolation.Counterparts
import Cil.Proofs.Isolation.ParallelCalls
import Cil.Proofs.Isolation.ParallelSteps
import Cil.Proofs.Isolation.ParallelSites
import Cil.Proofs.Isolation.ParallelStubs
import Cil.Proofs.Isolation.ParallelRows
import Cil.Proofs.Isolation.ScopeSizes
import Cil.Proofs.Isolation.RegularCode
import Cil.Proofs.Isolation.StandingCode
import Cil.Proofs.Isolation.ParallelBodies
import Cil.Proofs.Isolation.ParallelRuns
import Cil.Proofs.Isolation.Transparency
