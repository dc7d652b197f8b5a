import GlideFS.Block.Breaker
import GlideFS.Block.Glvm
import GlideFS.Block.PackExtents
import GlideFS.Block.WalReplay
import GlideFS.Devices.Starts
import GlideFS.Ext4.ErofsPrefetch
import GlideFS.Ext4.ExtentReader
import GlideFS.Gc.ForkPacks
import GlideFS.Gc.GracePeriod
import GlideFS.Gc.LayersKept
import GlideFS.Handoff.Progress
import GlideFS.Handoff.Takeover
import GlideFS.Nbd.Framing
import GlideFS.Oci.BootCapture
import GlideFS.Oci.BootElf
import GlideFS.Oci.Ext4Store
import GlideFS.Router.FailedAttach
import GlideFS.Router.ForkFence
import GlideFS.Router.ForkReads
import GlideFS.Router.PoolNames
import GlideFS.Router.Purge
import GlideFS.Router.ReattachKeeps
import GlideFS.Router.Tenures
import GlideFS.Router.TokenMonotone
import GlideFS.Ublk.BufferPool
import GlideFS.WriteCache.Backfill
import GlideFS.WriteCache.CheckpointSafety
import GlideFS.WriteCache.Counters
import GlideFS.WriteCache.Device
import GlideFS.WriteCache.Fenced
import GlideFS.WriteCache.ManifestSync
import GlideFS.WriteCache.MetadataFile
import GlideFS.WriteCache.RefusedOpen
import GlideFS.WriteCache.Snapshots
