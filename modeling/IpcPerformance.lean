import IpcPerformance.Handler.BufferBounds
import IpcPerformance.Handler.DBus
import IpcPerformance.Handler.MessageBoundary
import IpcPerformance.Handler.SharedFile
import IpcPerformance.Handler.SharedMemoryCalls
import IpcPerformance.Handler.SharedMemoryProgress
import IpcPerformance.Library.Programs
import IpcPerformance.Handler.NamedHandlers
import IpcPerformance.Handler.NamedDescriptors
import IpcPerformance.Handler.NameSharing
import IpcPerformance.Handler.Meeting
import IpcPerformance.Handler.Rendezvous
import IpcPerformance.Handler.SharedMemoryProtocol
import IpcPerformance.Handler.StreamWrites
import IpcPerformance.Handler.SharedFileFaults
import IpcPerformance.Handler.RingSessions
import IpcPerformance.Handler.Transport
import IpcPerformance.Handler.Agreement
import IpcPerformance.Handler.FifoWriters
import IpcPerformance.Handler.NoData
import IpcPerformance.Benchmark.ServerLoop
import IpcPerformance.Benchmark.Readers
import IpcPerformance.Benchmark.Figures
import IpcPerformance.Benchmark.Waiting
import IpcPerformance.Benchmark.Payload
import IpcPerformance.Benchmark.Deadlines
import IpcPerformance.Library.Isolation
import IpcPerformance.Handler.RingNames
import IpcPerformance.Benchmark.Statistics
import IpcPerformance.Benchmark.SampleVariance
import IpcPerformance.Testdata.Overlaps
import IpcPerformance.Handler.RingResources
import IpcPerformance.Handler.StreamDescriptors
import IpcPerformance.Benchmark.Trace
import IpcPerformance.Benchmark.TraceFaults
import IpcPerformance.Handler.Readiness
import IpcPerformance.Library.Progress
import IpcPerformance.Library.Context
import IpcPerformance.Benchmark.Clients
import IpcPerformance.Benchmark.Processes
import IpcPerformance.Benchmark.Completion
import IpcPerformance.Benchmark.EndToEnd
import IpcPerformance.Library.TextFormat
import IpcPerformance.Library.OutputStream
import IpcPerformance.Log.Objects
import IpcPerformance.Log.Server
import IpcPerformance.Log.Client
import IpcPerformance.Log.NormalMode
import IpcPerformance.Handler.BusDaemon
import IpcPerformance.Handler.BusPrograms
import IpcPerformance.Handler.BusHandlers
import IpcPerformance.Handler.StreamPrograms
import IpcPerformance.Handler.StreamSharing
import IpcPerformance.Handler.StreamMeeting
import IpcPerformance.Benchmark.CommandLine
