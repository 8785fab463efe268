import SaltyOS.Cap.Authority
import SaltyOS.Sched.PipExact
import SaltyOS.Ipc.QueueState
import SaltyOS.Ipc.FastpathEquiv
import SaltyOS.Fs.CacheRuns
import SaltyOS.Vfs.PipeStream
import SaltyOS.Vfs.RefcountRuns
import SaltyOS.Vfs.Passing
import SaltyOS.Vfs.WakeupRuns
import SaltyOS.Tmpfs.Files
import SaltyOS.Udp.Fifo
import SaltyOS.Net.Sockets
import SaltyOS.Dns.Resolution
import SaltyOS.Mmsrv.Paging
import SaltyOS.Net.Dhcp
import SaltyOS.Fs.Inodes
import SaltyOS.Fs.Extents
import SaltyOS.Mm.RadixMap
import SaltyOS.Sched.Deadlines
import SaltyOS.Ipc.FailedSend
import SaltyOS.Ipc.Notification
import SaltyOS.Cap.AddressBits
import SaltyOS.Procmgr.Credentials
import SaltyOS.Vfs.BadgeMap
import SaltyOS.Cap.SlotAlloc
import SaltyOS.Init.Boot
import SaltyOS.Mm.NodePages
import SaltyOS.Net.Wire
