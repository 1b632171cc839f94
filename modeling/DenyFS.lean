import DenyFS.Library.BlockProgram
import DenyFS.Library.Faulty
import DenyFS.Library.Ledger
import DenyFS.Library.Machine
import DenyFS.Library.Packed
import DenyFS.Library.Refinement
import DenyFS.Library.Requests
import DenyFS.Library.Served
import DenyFS.Library.Settles
import DenyFS.Library.SparseFile
import DenyFS.Library.Storage
import DenyFS.Library.Strict
import DenyFS.Model.BlockMap
import DenyFS.Model.CommandLine
import DenyFS.Model.Commands
import DenyFS.Model.Container
import DenyFS.Model.Dashboard
import DenyFS.Model.Directory
import DenyFS.Model.Fuse
import DenyFS.Model.Operations
import DenyFS.Model.Session
import DenyFS.Model.Types
import DenyFS.Model.Validate
import DenyFS.Verified.Acceptance
import DenyFS.Verified.Accounting
import DenyFS.Verified.Allocation
import DenyFS.Verified.Allocator
import DenyFS.Verified.Bitmap
import DenyFS.Verified.BitmapFlush
import DenyFS.Verified.BlockMapLaw
import DenyFS.Verified.Claims
import DenyFS.Verified.CleanBitmap
import DenyFS.Verified.CommandLine
import DenyFS.Verified.Confinement
import DenyFS.Verified.CreateOpen
import DenyFS.Verified.CreateSpec
import DenyFS.Verified.Creation
import DenyFS.Verified.DirectoryCheck
import DenyFS.Verified.DirectoryGrowth
import DenyFS.Verified.DirectorySpec
import DenyFS.Verified.Dirents
import DenyFS.Verified.Effects
import DenyFS.Verified.FailedAllocation
import DenyFS.Verified.FailedCreate
import DenyFS.Verified.FailedUnlink
import DenyFS.Verified.FileMap
import DenyFS.Verified.FileStore
import DenyFS.Verified.Flush
import DenyFS.Verified.FormatImage
import DenyFS.Verified.FormatWrites
import DenyFS.Verified.Frames
import DenyFS.Verified.FreeInode
import DenyFS.Verified.FreshRuns
import DenyFS.Verified.FullFlush
import DenyFS.Verified.FuseCalls
import DenyFS.Verified.FuseRuns
import DenyFS.Verified.FuseSessions
import DenyFS.Verified.FuseSpec
import DenyFS.Verified.FuseUpdates
import DenyFS.Verified.Headers
import DenyFS.Verified.HiddenCreation
import DenyFS.Verified.Isolation
import DenyFS.Verified.Loading
import DenyFS.Verified.NoTrace
import DenyFS.Verified.Outcomes
import DenyFS.Verified.OuterView
import DenyFS.Verified.Ownership
import DenyFS.Verified.Reached
import DenyFS.Verified.ReadSpec
import DenyFS.Verified.Recovery
import DenyFS.Verified.Release
import DenyFS.Verified.Reload
import DenyFS.Verified.Runs
import DenyFS.Verified.SectorCommands
import DenyFS.Verified.Separation
import DenyFS.Verified.SoundRuns
import DenyFS.Verified.Space
import DenyFS.Verified.Steady
import DenyFS.Verified.StoreRuns
import DenyFS.Verified.StoreView
import DenyFS.Verified.Stores
import DenyFS.Verified.Successes
import DenyFS.Verified.TailRelease
import DenyFS.Verified.Tails
import DenyFS.Verified.TruncateSpec
import DenyFS.Verified.TwoRuns
import DenyFS.Verified.UnlinkSpec
import DenyFS.Verified.Validation
import DenyFS.Verified.Vaults
import DenyFS.Verified.VolumeDevice
import DenyFS.Verified.WellFormed
import DenyFS.Verified.WriteSpec
import DenyFS.Verified.Writing
