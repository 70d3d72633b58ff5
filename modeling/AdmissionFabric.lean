import AdmissionFabric.Core.Crc32cBits
import AdmissionFabric.Guarantees.AccountingClosure
import AdmissionFabric.Guarantees.AttemptAges
import AdmissionFabric.Guarantees.CanonicalAuthority
import AdmissionFabric.Guarantees.CapacityMonotone
import AdmissionFabric.Guarantees.CompactedState
import AdmissionFabric.Guarantees.CrashConsistency
import AdmissionFabric.Guarantees.DamagedHistory
import AdmissionFabric.Guarantees.DecisionIdentities
import AdmissionFabric.Guarantees.Deferral
import AdmissionFabric.Guarantees.EnforcementPass
import AdmissionFabric.Guarantees.EpochStamps
import AdmissionFabric.Guarantees.ExactRecords
import AdmissionFabric.Guarantees.ExactRelease
import AdmissionFabric.Guarantees.FailedAdmissions
import AdmissionFabric.Guarantees.FailedAppends
import AdmissionFabric.Guarantees.FencedIncarnations
import AdmissionFabric.Guarantees.FencedInfluence
import AdmissionFabric.Guarantees.FencedRelease
import AdmissionFabric.Guarantees.FingerprintContent
import AdmissionFabric.Guarantees.GenerationLaw
import AdmissionFabric.Guarantees.GrantArithmetic
import AdmissionFabric.Guarantees.HistoryRetirement
import AdmissionFabric.Guarantees.IdempotentReplay
import AdmissionFabric.Guarantees.InfeasibleCount
import AdmissionFabric.Guarantees.LedgerRepresentation
import AdmissionFabric.Guarantees.LiveFlags
import AdmissionFabric.Guarantees.Lookups
import AdmissionFabric.Guarantees.PathAlternatives
import AdmissionFabric.Guarantees.Recoverability
import AdmissionFabric.Guarantees.RefusedRecovery
import AdmissionFabric.Guarantees.RemoteCalls
import AdmissionFabric.Guarantees.Revalidation
import AdmissionFabric.Guarantees.ScanReplay
