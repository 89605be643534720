import SaxonOS.Lib.Run
import SaxonOS.Lib.Tiling
import SaxonOS.Proofs.HeapRun
import SaxonOS.Frame
import SaxonOS.Proofs.Frames
import SaxonOS.Proofs.FrameSearch
import SaxonOS.Paging
import SaxonOS.Proofs.Pages
import SaxonOS.Buffer
import SaxonOS.Proofs.BufferSteps
import SaxonOS.Proofs.BufferReadOnly
import SaxonOS.Proofs.BufferChains
import SaxonOS.Proofs.BufferFreeList
import SaxonOS.Proofs.BufferReuse
import SaxonOS.Proofs.BufferInsertion
import SaxonOS.Proofs.BufferCoherence
import SaxonOS.Proofs.BufferStale
import SaxonOS.Proofs.PageMapping
import SaxonOS.Proofs.PageRoom
import SaxonOS.Proofs.Threads
import SaxonOS.Lib.Words
import SaxonOS.Lib.X86
import SaxonOS.Switch
import SaxonOS.Proofs.SwitchTask
import SaxonOS.Vfs
import SaxonOS.Proofs.Registry
import SaxonOS.Proofs.RegistryNames
import SaxonOS.Proofs.StringCompare
import SaxonOS.Proofs.FlatDevice
import SaxonOS.Lib.Loop
import SaxonOS.Ext2
import SaxonOS.Proofs.Ext2Transfer
import SaxonOS.Proofs.Ext2Read
import SaxonOS.Proofs.Ext2Write
import SaxonOS.Proofs.Ext2Directory
import SaxonOS.Proofs.Ext2Lookup
import SaxonOS.Proofs.Ext2Truthful
import SaxonOS.Proofs.Ext2Inode
import SaxonOS.Proofs.Ext2Ends
import SaxonOS.Proofs.Ext2Records
import SaxonOS.Proofs.Ext2LookupEnds
import SaxonOS.Ext2Volume
import SaxonOS.Proofs.Ext2Superblock
import SaxonOS.Proofs.Ext2ChangeSize
import SaxonOS.Proofs.Ext2WriteFile
import SaxonOS.Proofs.Ext2AllocInode
import SaxonOS.Proofs.Devices
import SaxonOS.DevfsInode
import SaxonOS.Proofs.DevfsInode
import SaxonOS.Proofs.Screen
import SaxonOS.Lib.Traced
import SaxonOS.TerminalTrace
import SaxonOS.Proofs.ScreenAccess
import SaxonOS.Proofs.Syscalls
import SaxonOS.Ata
import SaxonOS.Proofs.AtaTransfer
import SaxonOS.Mbr
import SaxonOS.Proofs.Mbr
import SaxonOS.Lib.PioRecord
import SaxonOS.AtaRecord
import SaxonOS.Proofs.AtaRecord
import SaxonOS.Lib.PciHost
import SaxonOS.Pci
import SaxonOS.Proofs.Pci
import SaxonOS.Lib.Clock
import SaxonOS.Rtc
import SaxonOS.Proofs.Rtc
import SaxonOS.Lib.UnixTime
import SaxonOS.SysTime
import SaxonOS.Proofs.SysTime
import SaxonOS.Proofs.HeapFree
import SaxonOS.Proofs.HeapMove
import SaxonOS.Proofs.HeapSplit
import SaxonOS.Proofs.HeapAligned
import SaxonOS.Proofs.HeapFrame
import SaxonOS.Proofs.HeapRoundTrip
import SaxonOS.Proofs.HeapRealloc
import SaxonOS.Proofs.HeapCalloc
import SaxonOS.Ext2Calls
import SaxonOS.Proofs.Ext2Admission
import SaxonOS.Proofs.Ext2Loading
import SaxonOS.Proofs.Ext2Released
import SaxonOS.Lib.Simulation
import SaxonOS.ThreadSystem
import SaxonOS.Proofs.ThreadSystem
import SaxonOS.Lib.Holding
import SaxonOS.CacheReaders
import SaxonOS.Proofs.CacheReaders
import SaxonOS.Proofs.BufferLives
import SaxonOS.Proofs.ReaderRuns
import SaxonOS.Proofs.ReaderLimits
import SaxonOS.Lib.Pic
import SaxonOS.Irq
import SaxonOS.Proofs.Irq
import SaxonOS.Drivers
import SaxonOS.Proofs.Drivers
