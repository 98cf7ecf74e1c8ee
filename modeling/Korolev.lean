import Korolev.Fs.Kfs2Open
import Korolev.Fs.Kfs2Cache
import Korolev.Fs.Kfs2Isolation
import Korolev.Fs.Kfs2Walk
import Korolev.Fs.ClusterSectors
import Korolev.Fs.ClusterFaults
import Korolev.Fs.KssfsLoad
import Korolev.Libc.Strncmp
import Korolev.Libc.Atoi
import Korolev.Libc.Strncpy
import Korolev.Libc.Reverse
import Korolev.Kernel.Memory
import Korolev.Kernel.MemoryChunk
import Korolev.Kernel.Attributes
import Korolev.Kernel.Putn
import Korolev.Kernel.Syscall
import Korolev.Kernel.Multiboot
import Korolev.Kernel.Cmdline
import Korolev.Kernel.CmdlineBounds
import Korolev.Dev.KbdModifiers
import Korolev.Dev.Timer
import Korolev.Dev.Pci
import Korolev.Dev.PciConfig
import Korolev.Dev.E1000Receive
import Korolev.Dev.E1000Transmit
import Korolev.Dev.NicInit
import Korolev.Net.Mask
import Korolev.Net.Setup
import Korolev.Tools.Format
import Korolev.Tools.FormatGeometry
import Korolev.Tools.FormatLeak
import Korolev.Tools.MkfsKfs2
import Korolev.Tools.KssfsFuseNames
import Korolev.Tools.KssfsFuseStore
import Korolev.Tools.KssfsFuseTransfer
import Korolev.Tools.KssfsFuseEntries
import Korolev.Tools.FuseKernel
import Korolev.Tools.Fsinspect
import Korolev.Kernel.Clock
import Korolev.Kernel.Heap
import Korolev.Dev.IdeInit
import Korolev.Dev.Serial
import Korolev.Dev.KbdSetup
