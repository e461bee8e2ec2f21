import MiniKernel.Mm.HeapLaws
import MiniKernel.Mm.PagingLaws
import MiniKernel.Cpu.ShootdownLaws
import MiniKernel.Vfs.CloseLaws
import MiniKernel.Vfs.OpenLaws
import MiniKernel.Ipc.MailboxLaws
import MiniKernel.Mm.UserAccess
import MiniKernel.Mm.UserBuffers
import MiniKernel.Sync.Spinlock
import MiniKernel.Fat32.LongNames
import MiniKernel.Fat32.ShortNames
import MiniKernel.Ipc.TransferLaws
import MiniKernel.Mm.PmmLaws
import MiniKernel.Mm.SpaceLaws
import MiniKernel.Process.ThreadStackLaws
import MiniKernel.Process.WaitLaws
import MiniKernel.Process.JoinLaws
import MiniKernel.Process.ProgramBreak
import MiniKernel.Process.ResultLaws
import MiniKernel.Ipc.WakeupLaws
import MiniKernel.Vfs.MemFsLaws
import MiniKernel.Vfs.Mounts
import MiniKernel.Driver.AddressArenaLaws
import MiniKernel.Driver.IrqDispatchLaws
import MiniKernel.Driver.ActivityLaws
import MiniKernel.Window.RefusalLaws
import MiniKernel.Service.Requests
import MiniKernel.Image.Unfilter
