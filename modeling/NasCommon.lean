import NasCommon.Lib.OrdSet
import NasCommon.Lib.OrdScan
import NasCommon.Lib.UndoLog
import NasCommon.Lib.Runs
import NasCommon.Lib.Attempts
import NasCommon.Lib.Refinement
import NasCommon.Lib.KeyedIndex
import NasCommon.Lib.AttrTree
import NasCommon.Lib.Attrs
import NasCommon.Lib.Table
import NasCommon.Lib.OrdMap
import NasCommon.Lib.Owners
import NasCommon.Types
import NasCommon.Config
import NasCommon.Base.Sets
import NasCommon.Base.IdGenerator
import NasCommon.Base.Obj
import NasCommon.Base.NdiUtl
import NasCommon.Base.Commit
import NasCommon.Base.Atomic
import NasCommon.Base.RollingBack
import NasCommon.Base.Incremental
import NasCommon.Base.Rollback
import NasCommon.Base.Created
import NasCommon.Base.Retry
import NasCommon.Base.Follow
import NasCommon.Base.Session
import NasCommon.Base.AttrArray
import NasCommon.Base.AllocHelper
import NasCommon.NdiTable.Codec
import NasCommon.NdiTable.Decoder
import NasCommon.NdiTable.Handles
import NasCommon.IfMapping.Registry
import NasCommon.IfMapping.Coherence
import NasCommon.IfMapping.Indexes
import NasCommon.IfMapping.Walk
import NasCommon.IfMapping.Restore
import NasCommon.IfMapping.Query
import NasCommon.IfMapping.Translate
import NasCommon.IfMapping.Descs
import NasCommon.IfMapping.Refines
import NasCommon.IfMapping.Ports
import NasCommon.IfMapping.Mac
import NasCommon.IfMapping.IetfTypes
import NasCommon.Vrf.Store
import NasCommon.Vrf.Heap
import NasCommon.Bridge.UntagVid
import NasCommon.SwProfile.Info
import NasCommon.SwProfile.Acl
import NasCommon.SwProfile.Boot
import NasCommon.SwProfile.ConfGet
import NasCommon.SwProfile.Parse
import NasCommon.SwProfile.Uft
import NasCommon.SwProfile.NpuProfile
import NasCommon.SwProfile.AclTable
import NasCommon.SwProfile.AclLeaks
import NasCommon.SwProfile.Setters
import NasCommon.SwProfile.Getters
import NasCommon.SwProfile.BlockSizes
import NasCommon.SwProfile.AclQuery
import NasCommon.SwProfile.AclWalk
import NasCommon.SwProfile.AclObjects
import NasCommon.SwProfile.AclSupport
import NasCommon.SwProfile.AclStartup
import NasCommon.Switch.Parser
import NasCommon.Switch.Dispatch
import NasCommon.Switch.Walk
import NasCommon.Switch.Init
import NasCommon.Switch.Adopted
import NasCommon.Switch.Inventory
import NasCommon.Switch.Lookup
import NasCommon.Switch.Reboot
import NasCommon.Switch.Configured
import NasCommon.Switch.Observed
import NasCommon.Switch.BaseMac
