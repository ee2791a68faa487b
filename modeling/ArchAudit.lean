import ArchAudit.Analysis.Codec
import ArchAudit.Analysis.File
import ArchAudit.Config.Codec
import ArchAudit.Config.Standard
import ArchAudit.Proofs.AddedViolation
import ArchAudit.Proofs.Betweenness
import ArchAudit.Proofs.Binary64Products
import ArchAudit.Proofs.Binary64Quotients
import ArchAudit.Proofs.Binary64Sums
import ArchAudit.Proofs.Binary64Values
import ArchAudit.Proofs.CyclicComponents
import ArchAudit.Proofs.Degrees
import ArchAudit.Proofs.Dependents
import ArchAudit.Proofs.EvidenceCounts
import ArchAudit.Proofs.ExactScalars
import ArchAudit.Proofs.FeatureDirectories
import ArchAudit.Proofs.GlobLanguages
import ArchAudit.Proofs.JudgedPairs
import ArchAudit.Proofs.LayerDirectories
import ArchAudit.Proofs.Lookup
import ArchAudit.Proofs.MutualCoupling
import ArchAudit.Proofs.OrderIndependence
import ArchAudit.Proofs.PathSeparators
import ArchAudit.Proofs.Percentiles
import ArchAudit.Proofs.PrunedReferences
import ArchAudit.Proofs.RankedAdvice
import ArchAudit.Proofs.RecordRoundTrip
import ArchAudit.Proofs.ReferencesById
import ArchAudit.Proofs.ReferentialClosure
import ArchAudit.Proofs.RefusedRecords
import ArchAudit.Proofs.Registrations
import ArchAudit.Proofs.RepeatedReferences
import ArchAudit.Proofs.ReportRoundTrip
import ArchAudit.Proofs.RoleChoice
import ArchAudit.Proofs.RoleCycles
import ArchAudit.Proofs.SelfReferences
import ArchAudit.Proofs.Severities
import ArchAudit.Proofs.ShortestPaths
import ArchAudit.Proofs.Skeleton
import ArchAudit.Proofs.StyleFindings
import ArchAudit.Proofs.StyleRanking
import ArchAudit.Proofs.Thresholds
import ArchAudit.Proofs.Unconnected
import ArchAudit.Proofs.ViolationIds
import ArchAudit.Proofs.WeightSums
import ArchAudit.Proofs.WeightedScores
import ArchAudit.Proofs.WordBoundaries
