import Gbl.Lib.Exec
import Gbl.Lib.Bytes
import Gbl.Lib.Align
import Gbl.Lib.Codec
import Gbl.Lib.Sorted
import Gbl.Lib.Run
import Gbl.Lib.Fallback
import Gbl.Lib.BitField
import Gbl.Lib.Crc32
import Gbl.Lib.Regions
import Gbl.Error
import Gbl.SafeMath
import Gbl.Storage.Basic
import Gbl.Storage.Algorithm
import Gbl.Storage.Scratch
import Gbl.Storage.Rules
import Gbl.Storage.Range
import Gbl.Storage.Read
import Gbl.Storage.Write
import Gbl.Storage.Disk
import Gbl.Storage.Fill
import Gbl.Storage.Gpt.Layout
import Gbl.Storage.Gpt.Check
import Gbl.Storage.Gpt.Basic
import Gbl.Storage.Gpt.Load
import Gbl.Storage.Gpt.Sync
import Gbl.Storage.Gpt.Report
import Gbl.Storage.Gpt.Restore
import Gbl.Storage.Gpt.Converge
import Gbl.Storage.Gpt.Erase
import Gbl.Storage.Gpt.Update
import Gbl.Storage.Gpt.Builder
import Gbl.Storage.Gpt.Session
import Gbl.Abr.Basic
import Gbl.Abr.Policy
import Gbl.Abr.Store
import Gbl.Abr.Boot
import Gbl.Abr.Operations
import Gbl.Abr.Faults
import Gbl.Abr.Checksum
import Gbl.Slots.Basic
import Gbl.Slots.Ranking
import Gbl.Slots.Android
import Gbl.Slots.Fuchsia
import Gbl.Slots.Boot
import Gbl.Slots.Managers
import Gbl.Slots.Calls
import Gbl.Slots.Runs
import Gbl.Slots.Coherence
import Gbl.Slots.Agreement
import Gbl.Partitions.Io
import Gbl.Partitions.Sparse
import Gbl.Partitions.SparseWalk
import Gbl.Partitions.SparseFill
import Gbl.Partitions.SparseWindow
import Gbl.Partitions.SparseRefine
import Gbl.Fastboot.Replies
import Gbl.Integration
import Gbl.Lib.Extent
import Gbl.Efi.Allocation
import Gbl.Libc.Malloc
import Gbl.Efi.ImageLoading
import Gbl.Efi.MemoryAttributes
import Gbl.Efi.MemoryCoverage
import Gbl.BootParams.Bootconfig
import Gbl.Avb.Ops
import Gbl.FuchsiaBoot.Vboot
import Gbl.Android.Exact
import Gbl.Storage.Gpt.Names
import Gbl.Storage.Gpt.Arithmetic
import Gbl.Libc.Strtoul
import Gbl.Libc.FormatSafety
import Gbl.Storage.Gpt.FirstFit
import Gbl.Storage.Gpt.Resize
import Gbl.Partitions.SparseSafety
import Gbl.Abr.Backends
import Gbl.Slots.Acceptance
import Gbl.Partitions.Unique
import Gbl.Fastboot.Buffers
import Gbl.Fastboot.Truncation
import Gbl.Fastboot.Session
import Gbl.Fastboot.Fetch
import Gbl.Android.Ramboot
import Gbl.BootParams.RoundTrip
import Gbl.Android.Padding
import Gbl.Avb.PartitionRead
import Gbl.BootParams.Commandline
import Gbl.BootParams.Coverage
import Gbl.Efi.Net
import Gbl.Fastboot.BufferPool
import Gbl.Android.LoadVerify
import Gbl.Partitions.Stores
