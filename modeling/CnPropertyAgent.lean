import CnPropertyAgent.Relational.Codec
import CnPropertyAgent.Relational.Query
import CnPropertyAgent.Relational.Slices
import CnPropertyAgent.Relational.Statements
import CnPropertyAgent.Relational.Table
import CnPropertyAgent.Decision.Gates
import CnPropertyAgent.Python.Calendar
import CnPropertyAgent.Python.Collections
import CnPropertyAgent.Python.Json
import CnPropertyAgent.Python.Runtime
import CnPropertyAgent.Python.Text
import CnPropertyAgent.Domain.Models
import CnPropertyAgent.Domain.Validation
import CnPropertyAgent.Utils
import CnPropertyAgent.Storage.Reads
import CnPropertyAgent.Storage.Repositories
import CnPropertyAgent.Storage.Schema
import CnPropertyAgent.Providers.Lianjia.Cells
import CnPropertyAgent.Providers.Lianjia.ListingParser
import CnPropertyAgent.Providers.Lianjia.TransactionParser
import CnPropertyAgent.Providers.Lianjia.Values
import CnPropertyAgent.Providers.Parsing
import CnPropertyAgent.Services.CommunityEvidence
import CnPropertyAgent.Services.ListingIngestion
import CnPropertyAgent.Services.ListingRuns
import CnPropertyAgent.Services.MarketObservationIngestion
import CnPropertyAgent.Services.MarketObservationQuery
import CnPropertyAgent.Services.MarketRuns
import CnPropertyAgent.Services.TransactionIngestion
import CnPropertyAgent.Services.TransactionNormalization
import CnPropertyAgent.Services.TransactionRuns
import CnPropertyAgent.Analytics.Common
import CnPropertyAgent.Analytics.ListingMetrics
import CnPropertyAgent.Analytics.TransactionMetrics
import CnPropertyAgent.Properties.AskingPriceHistory
import CnPropertyAgent.Properties.BatchSettlement
import CnPropertyAgent.Properties.LianjiaIdentity
import CnPropertyAgent.Properties.ListingIdentity
import CnPropertyAgent.Properties.ListingViews
import CnPropertyAgent.Properties.MarketSeries
import CnPropertyAgent.Properties.PartialBatches
import CnPropertyAgent.Properties.QualityGates
import CnPropertyAgent.Properties.Replay
import CnPropertyAgent.Properties.RowAccounting
import CnPropertyAgent.Properties.RowIsolation
import CnPropertyAgent.Properties.SeenRange
import CnPropertyAgent.Properties.StoredEvidence
import CnPropertyAgent.Properties.SubjectIsolation
import CnPropertyAgent.Properties.TransactionOwnership
import CnPropertyAgent.Decision.Ranking
import CnPropertyAgent.Storage.Communities
import CnPropertyAgent.Services.CommunityResolver
import CnPropertyAgent.Properties.Resolution
import CnPropertyAgent.Properties.FiniteEvidence
import CnPropertyAgent.Config.YamlMapping
import CnPropertyAgent.Properties.YamlSubset
import CnPropertyAgent.Git.Porcelain
import CnPropertyAgent.Scripts.RunClaudeTask
import CnPropertyAgent.Properties.TrustBoundary
import CnPropertyAgent.Properties.EvidenceSets
import CnPropertyAgent.Properties.InventoryCounts
import CnPropertyAgent.Properties.TransactionSamples
import CnPropertyAgent.Properties.ProviderIdentity
import CnPropertyAgent.Properties.Provenance
import CnPropertyAgent.Properties.FieldOrder
import CnPropertyAgent.Properties.GeoEvidence
import CnPropertyAgent.Properties.Windows
import CnPropertyAgent.Properties.YamlRoundTrip
import CnPropertyAgent.Python.Tokens
import CnPropertyAgent.Providers.Lianjia.Numerals
import CnPropertyAgent.Properties.UnitTokens
import CnPropertyAgent.Properties.DeclaredUnits
import CnPropertyAgent.Properties.NormalCells
import CnPropertyAgent.Python.JsonText
import CnPropertyAgent.Python.JsonRoundTrip
import CnPropertyAgent.Python.ReadText
import CnPropertyAgent.Domain.Payload
import CnPropertyAgent.Providers.Lianjia.Recorded
import CnPropertyAgent.Properties.RecordedRuns
import CnPropertyAgent.Properties.RecordedDocuments
import CnPropertyAgent.Config.CityProfile
import CnPropertyAgent.Config.Composition
import CnPropertyAgent.Properties.CityProfiles
import CnPropertyAgent.Properties.ComposedRuns
import CnPropertyAgent.Relational.Encoding
import CnPropertyAgent.Storage.CommunityColumns
import CnPropertyAgent.Properties.StoredCommunities
import CnPropertyAgent.Relational.Delivery
import CnPropertyAgent.Properties.Redelivery
import CnPropertyAgent.Scripts.ClaudeTask
import CnPropertyAgent.Properties.TaskAttempts
import CnPropertyAgent.Properties.TransactionSeries
import CnPropertyAgent.Properties.ResolutionDecision
import CnPropertyAgent.Python.Gregorian
import CnPropertyAgent.Properties.DealDates
import CnPropertyAgent.Properties.FieldGrammar
import CnPropertyAgent.Properties.RowGrammar
import CnPropertyAgent.Properties.RecordedHistory
import CnPropertyAgent.Relational.Parts
import CnPropertyAgent.Properties.Interleavings
import CnPropertyAgent.Python.Median
import CnPropertyAgent.Properties.ReportedMedians
