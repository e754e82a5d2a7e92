import FuseOverlay.DeletedFiles
import FuseOverlay.XattrRequests
import FuseOverlay.KernelReferences
import FuseOverlay.LookupAgreement
import FuseOverlay.NumberAgreement
import FuseOverlay.DiskChanges
import FuseOverlay.CopyupStages
import FuseOverlay.CopyupInstall
import FuseOverlay.CopyupObjects
import FuseOverlay.Lib.Twin
import FuseOverlay.Passthrough
import FuseOverlay.PassthroughCounts
import FuseOverlay.PassthroughFiles
import FuseOverlay.LoadingOrder
import FuseOverlay.RefreshListing
import FuseOverlay.HardLinks
import FuseOverlay.Retention
import FuseOverlay.XattrNames
import FuseOverlay.WhiteoutCalls
import FuseOverlay.RenameFlags
import FuseOverlay.KnownWhiteouts
import FuseOverlay.LookupShortcut
import FuseOverlay.IdMappings
import FuseOverlay.CommandLine
import FuseOverlay.LockOrder
import FuseOverlay.CopyupReads
import FuseOverlay.CopyData
import FuseOverlay.PathBuilders
import FuseOverlay.DirectoryStreams
import FuseOverlay.SetattrSteps
import FuseOverlay.Timestamps
import FuseOverlay.OverrideText
import FuseOverlay.OverrideReplies
import FuseOverlay.OwnerRoundTrip
import FuseOverlay.CreatedModes
import FuseOverlay.Lib.Layered
import FuseOverlay.UnionLayers
import FuseOverlay.UnionLoads
import FuseOverlay.UnionRuns
import FuseOverlay.FileData
