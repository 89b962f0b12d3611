import Luminate.EphemeralStores
import Luminate.SessionRevocation
import Luminate.TopologyAgreement
import Luminate.AdoptionCommit
import Luminate.PolicyRevisions
import Luminate.DeviceSequencers
import Luminate.DiscoveryRegistry
import Luminate.ManagedReconciliation
import Luminate.PluginReload
import Luminate.PolicyMeaning
import Luminate.EventFilters
import Luminate.CollectionProjection
import Luminate.PowerButtonMigration
import Luminate.InterpolationBounds
import Luminate.TransitionWaiters
import Luminate.DeviceAggregates
import Luminate.KeyboardReports
import Luminate.BatchApply
import Luminate.RateLimits
import Luminate.StreamKeys
import Luminate.SettingsDisclosure
import Luminate.SetupActivity
import Luminate.StreamSequences
import Luminate.SceneRevisions
import Luminate.StreamConflicts
import Luminate.CaptureHistory
import Luminate.SlotCompleteness
import Luminate.WithdrawnDevices
import Luminate.PowerButtonFirmware
import Luminate.AllOff
import Luminate.GroupCycles
import Luminate.LifxPackets
import Luminate.PackedFrames
import Luminate.AsyncOperations
