import MoonlightScarlet.Support.Runs
import MoonlightScarlet.Support.Fallible
import MoonlightScarlet.Support.Leases
import MoonlightScarlet.Support.SortedSet
import MoonlightScarlet.Support.Futex
import MoonlightScarlet.Support.Counting
import MoonlightScarlet.Support.Reconcile
import MoonlightScarlet.Support.Resume
import MoonlightScarlet.Support.Memory
import MoonlightScarlet.Support.Files
import MoonlightScarlet.Support.ByteOrder
import MoonlightScarlet.Support.LockOrder
import MoonlightScarlet.Support.Words
import MoonlightScarlet.Support.Alignment
import MoonlightScarlet.Support.Numerals
import MoonlightScarlet.Support.AspectFit
import MoonlightScarlet.Support.Blocks
import MoonlightScarlet.Support.Since
import MoonlightScarlet.Support.LineBreaks
import MoonlightScarlet.Support.CellCopies
import MoonlightScarlet.Support.Occurrences
import MoonlightScarlet.Support.LowBits
import MoonlightScarlet.Support.Parities
import MoonlightScarlet.Sys.Input
import MoonlightScarlet.Support.Threads
import MoonlightScarlet.Support.Monitor
import MoonlightScarlet.Support.Links
import MoonlightScarlet.Sys.Connection
import MoonlightScarlet.Sys.Proofs.Moves
import MoonlightScarlet.Sys.Proofs.Locks
import MoonlightScarlet.Sys.Proofs.Stages
import MoonlightScarlet.Sys.Proofs.Callers
import MoonlightScarlet.Sys.Proofs.Windows
import MoonlightScarlet.Sys.Proofs.Wake
import MoonlightScarlet.Sys.Proofs.Isolation
import MoonlightScarlet.Sys.StartAttempt
import MoonlightScarlet.Sys.Proofs.AttemptMoves
import MoonlightScarlet.Sys.Proofs.Attempts
import MoonlightScarlet.Sys.RawMutex
import MoonlightScarlet.Sys.Proofs.RawMutex
import MoonlightScarlet.Sys.RawConditionVariable
import MoonlightScarlet.Sys.Proofs.RawConditionVariable
import MoonlightScarlet.Sys.Configuration
import MoonlightScarlet.Sys.VideoFrame
import MoonlightScarlet.Sys.SocketAddress
import MoonlightScarlet.Sys.Proofs.SocketAddress
import MoonlightScarlet.Sys.AudioSetup
import MoonlightScarlet.Sys.Proofs.AudioSetup
import MoonlightScarlet.Sys.Vsnprintf
import MoonlightScarlet.Sys.Rendering
import MoonlightScarlet.Sys.Strtol
import MoonlightScarlet.Sys.SubjectSequence
import MoonlightScarlet.Sys.Proofs.Strtol
import MoonlightScarlet.Sys.Proofs.Strtoul
import MoonlightScarlet.Sys.Strtok
import MoonlightScarlet.Sys.Proofs.Strtok
import MoonlightScarlet.Sys.Allocator
import MoonlightScarlet.Sys.Proofs.Allocator
import MoonlightScarlet.Sys.Proofs.AllocatorCalls
import MoonlightScarlet.Sys.Proofs.VideoFrame
import MoonlightScarlet.Sys.Proofs.Vsnprintf
import MoonlightScarlet.Sys.Proofs.VsnprintfBuffer
import MoonlightScarlet.Sys.Proofs.IntegerText
import MoonlightScarlet.Sys.Strings
import MoonlightScarlet.Sys.Proofs.Memmove
import MoonlightScarlet.Sys.Proofs.Strstr
import MoonlightScarlet.Sys.FallbackRandom
import MoonlightScarlet.Sys.Proofs.FallbackRandom
import MoonlightScarlet.Gamepad.Tracker
import MoonlightScarlet.Gamepad.Host
import MoonlightScarlet.Gamepad.Proofs.Commit
import MoonlightScarlet.Gamepad.Proofs.Refinement
import MoonlightScarlet.Gamepad.Proofs.Resume
import MoonlightScarlet.Gamepad.Proofs.Slots
import MoonlightScarlet.Video.FitSize
import MoonlightScarlet.Video.Proofs.FitSize
import MoonlightScarlet.Touch.Routing
import MoonlightScarlet.Touch.Host
import MoonlightScarlet.Touch.Proofs.Native
import MoonlightScarlet.Touch.Proofs.Fallback
import MoonlightScarlet.App.Control
import MoonlightScarlet.App.RemoteInput
import MoonlightScarlet.App.Stream
import MoonlightScarlet.App.Proofs.Keys
import MoonlightScarlet.App.Proofs.Releases
import MoonlightScarlet.App.Proofs.Shortcuts
import MoonlightScarlet.App.Window
import MoonlightScarlet.App.Proofs.Mouse
import MoonlightScarlet.App.Proofs.Intents
import MoonlightScarlet.Control.Text
import MoonlightScarlet.Control.Types
import MoonlightScarlet.Control.Xml
import MoonlightScarlet.Control.Crypto
import MoonlightScarlet.Control.Client
import MoonlightScarlet.Control.Pairing
import MoonlightScarlet.Control.Proofs.Trace
import MoonlightScarlet.Control.Proofs.Pairing
import MoonlightScarlet.Control.Session
import MoonlightScarlet.Control.Proofs.Session
import MoonlightScarlet.Control.Proofs.Busy
import MoonlightScarlet.Control.Proofs.Crypto
import MoonlightScarlet.Control.Endpoint
import MoonlightScarlet.Control.Proofs.PlainUrl
import MoonlightScarlet.Control.Proofs.Endpoint
import MoonlightScarlet.Control.Connect
import MoonlightScarlet.Control.Proofs.Connect
import MoonlightScarlet.Control.Storage
import MoonlightScarlet.Control.Hosts
import MoonlightScarlet.Control.Settings
import MoonlightScarlet.Control.Identity
import MoonlightScarlet.Control.Proofs.Text
import MoonlightScarlet.Control.Proofs.Storage
import MoonlightScarlet.Control.Proofs.Identity
import MoonlightScarlet.Control.Proofs.PlainJson
import MoonlightScarlet.Control.Proofs.Hosts
import MoonlightScarlet.Control.Proofs.FailedSave
import MoonlightScarlet.App.Licenses
import MoonlightScarlet.App.Proofs.Licenses
import MoonlightScarlet.App.Locking
import MoonlightScarlet.App.Proofs.Locking
import MoonlightScarlet.App.StreamRun
import MoonlightScarlet.App.Proofs.StreamRun
import MoonlightScarlet.App.ConsumeVideo
import MoonlightScarlet.App.Proofs.ConsumeVideo
import MoonlightScarlet.App.Workers
import MoonlightScarlet.App.Proofs.Workers
import MoonlightScarlet.App.Proofs.Exclusive
import MoonlightScarlet.App.Proofs.Sessions
import MoonlightScarlet.Core.LinkedBlockingQueue
import MoonlightScarlet.Core.Proofs.LinkedBlockingQueue
import MoonlightScarlet.Core.Proofs.QueueRuns
import MoonlightScarlet.Support.Batching
import MoonlightScarlet.Core.InputStream
import MoonlightScarlet.Core.Proofs.InputStream
import MoonlightScarlet.Core.Proofs.InputMotion
import MoonlightScarlet.Core.Proofs.InputWaiting
import MoonlightScarlet.Core.Proofs.InputRuns
import MoonlightScarlet.Core.Proofs.InputDelivery
import MoonlightScarlet.Support.Logarithms
import MoonlightScarlet.Support.Elimination
import MoonlightScarlet.Support.Cauchy
import MoonlightScarlet.Support.Loops
import MoonlightScarlet.Fec.Tables
import MoonlightScarlet.Fec.ReedSolomon
import MoonlightScarlet.Fec.Proofs.Galois
import MoonlightScarlet.Fec.Proofs.Inversion
import MoonlightScarlet.Fec.Proofs.Selection
import MoonlightScarlet.Fec.Proofs.Decoding
import MoonlightScarlet.Fec.Proofs.RoundTrip
import MoonlightScarlet.Core.RtpAudioQueue
import MoonlightScarlet.Core.Proofs.AudioQueueOrder
import MoonlightScarlet.Core.Proofs.AudioCoder
import MoonlightScarlet.Core.Proofs.AudioQueueInvariant
import MoonlightScarlet.Core.Proofs.AudioQueueRuns
import MoonlightScarlet.Core.Proofs.AudioQueueStream
