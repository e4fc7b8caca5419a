import SporeVM.Build.CacheRuns
import SporeVM.Build.Exec
import SporeVM.Build.IgnoredEntries
import SporeVM.Cache.IndexAccept
import SporeVM.Cache.StepKeys
import SporeVM.Copy.Extract
import SporeVM.Disk.Growth
import SporeVM.Disk.Lineage
import SporeVM.Guest.ConfinedReach
import SporeVM.Netd.Delivery
import SporeVM.Rootfs.Whiteouts
import SporeVM.Virtio.DirtyLog
import SporeVM.Virtio.Elastic
import SporeVM.Virtio.Mmio
import SporeVM.Virtio.Poisoned
import SporeVM.Virtio.VsockCredit
import SporeVM.Virtio.VsockOutput
import SporeVM.Netd.Polling
import SporeVM.Netd.DnsProxy
import SporeVM.Netd.Learning
import SporeVM.Build.PatternLanguage
import SporeVM.Rootfs.TarRecords
import SporeVM.BuiltIndexes
import SporeVM.Build.StagePlan
import SporeVM.ForkHeads
import SporeVM.Vmm.Power
import SporeVM.Vmm.Wake
