import MutsukiRuntime.Core.Runtime.Turns
import MutsukiRuntime.Contracts.ReceiptLog
import MutsukiRuntime.Core.LogReaders
import MutsukiRuntime.Core.Runtime.ProtocolClasses
import MutsukiRuntime.Core.Runtime.RemovedSurfaces
import MutsukiRuntime.Core.Runtime.Stopping
import MutsukiRuntime.Core.Runtime.Submission
import MutsukiRuntime.Core.TaskPool.Load
import MutsukiRuntime.Host.Resolver.Providers
import MutsukiRuntime.Core.Runtime.ResourcePlans
import MutsukiRuntime.Core.Runtime.ReceiptSyncs
import MutsukiRuntime.Core.Runtime.Settling
import MutsukiRuntime.Core.TaskPool.Sleeping
import MutsukiRuntime.Core.Runtime.Cancellation
import MutsukiRuntime.Core.Runtime.KernelPass
import MutsukiRuntime.Host.Capacity
import MutsukiRuntime.Host.JsonlReader
import MutsukiRuntime.Host.Negotiation
import MutsukiRuntime.Host.GenerationRunner
import MutsukiRuntime.Wire.UnknownFields
import MutsukiRuntime.Contracts.SampleWindow
import MutsukiRuntime.Core.Runtime.Refinement
import MutsukiRuntime.Host.Completion
import MutsukiRuntime.Host.Workers
import MutsukiRuntime.Core.Runtime.Entries
