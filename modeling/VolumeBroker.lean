import VolumeBroker.Main
import VolumeBroker.Session
import VolumeBroker.Identity
import VolumeBroker.Proofs.CatalogLookup
import VolumeBroker.Proofs.SnapshotValidity
import VolumeBroker.Proofs.StoreLookup
import VolumeBroker.Proofs.Runs
import VolumeBroker.Proofs.Ownership
import VolumeBroker.Proofs.Durability
import VolumeBroker.Proofs.Traffic
import VolumeBroker.Proofs.UnseenRecords
import VolumeBroker.Proofs.Gathering
import VolumeBroker.Proofs.SharedLoad
import VolumeBroker.Proofs.VolumeHistory
import VolumeBroker.Proofs.StoreAcceptance
import VolumeBroker.Proofs.NamedRuns
import VolumeBroker.Proofs.Restart
import VolumeBroker.Proofs.SyncRecovery
import VolumeBroker.Proofs.LockDiscipline
import VolumeBroker.Proofs.DeviceLifecycle
import VolumeBroker.Proofs.FailedOperations
import VolumeBroker.Proofs.NameOrder
import VolumeBroker.Proofs.StoreKinds
import VolumeBroker.Proofs.LogGrouping
import VolumeBroker.Proofs.PathTransports
import VolumeBroker.Proofs.VolumeContexts
import VolumeBroker.Proofs.LockedDevices
import VolumeBroker.Proofs.AllocationOrder
import VolumeBroker.Proofs.LoadAmongDiscoveries
import VolumeBroker.Proofs.RepeatedCreation
import VolumeBroker.Proofs.WholeLoads
import VolumeBroker.Proofs.DiscoveryMerge
import VolumeBroker.Proofs.ReturnedDevices
import VolumeBroker.Proofs.CollaboratorCalls
import VolumeBroker.Proofs.CallCompletion
import VolumeBroker.Proofs.CreationOutcome
import VolumeBroker.Proofs.CanonicalRecords
import VolumeBroker.Proofs.TaggedRecords
import VolumeBroker.Proofs.LogRenderings
import VolumeBroker.Proofs.EndpointText
import VolumeBroker.Proofs.ConfigurationSources
import VolumeBroker.Proofs.DiscoveryCommands
import VolumeBroker.Proofs.ListedEndpoints
import VolumeBroker.Proofs.GuardedKeys
import VolumeBroker.Proofs.MergedPaths
import VolumeBroker.Proofs.AbandonedSaves
import VolumeBroker.Proofs.LostLoads
