import Okl4Kernel.Asid
import Okl4Kernel.AttachErrors
import Okl4Kernel.Calendar
import Okl4Kernel.CapabilityRefinement
import Okl4Kernel.CircularBuffer
import Okl4Kernel.ClistCreation
import Okl4Kernel.ContainerList
import Okl4Kernel.Deadlock
import Okl4Kernel.DetachUnmaps
import Okl4Kernel.EnvSegments
import Okl4Kernel.FastScheduling
import Okl4Kernel.HaltSuspend
import Okl4Kernel.InitScript.Reservation
import Okl4Kernel.InterruptDelivery
import Okl4Kernel.KernelAreaSync
import Okl4Kernel.KmemoryCompleteness
import Okl4Kernel.L4eMap
import Okl4Kernel.MutexTable
import Okl4Kernel.NanoFutexInvariant
import Okl4Kernel.NanoInterrupts
import Okl4Kernel.NanoIpcInvariant
import Okl4Kernel.ObjectTable
import Okl4Kernel.PdCreation
import Okl4Kernel.PdDict
import Okl4Kernel.RemoteMemcpyResult
import Okl4Kernel.ResourceConfinement
import Okl4Kernel.SegmentList
import Okl4Kernel.SimpleSoc
import Okl4Kernel.SmallAllocCompleteness
import Okl4Kernel.SmallAllocLayout
import Okl4Kernel.ThreadControlAtomicity
import Okl4Kernel.UtcbArea
import Okl4Kernel.Utlb
import Okl4Kernel.VtimerTicks
import Okl4Kernel.WaitQueues
import Okl4Kernel.Weaver.Placement
