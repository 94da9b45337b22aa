import SubqlConcordium.Interaction.Pool
import SubqlConcordium.Interaction.Retry
import SubqlConcordium.Interaction.Live
import SubqlConcordium.Interaction.Threaded
import SubqlConcordium.ProjectService
import SubqlConcordium.Endpoints
import SubqlConcordium.UnfinalizedBlocks
import SubqlConcordium.FetchBlocks
import SubqlConcordium.BackReferences
import SubqlConcordium.EventIds
import SubqlConcordium.IndexerManager
import SubqlConcordium.FilterMeaning
import SubqlConcordium.Validation
import SubqlConcordium.Dictionary.QueryEntry
import SubqlConcordium.Dictionary.Handlers
import SubqlConcordium.Dictionary.Paths
import SubqlConcordium.Dictionary.Soundness
import SubqlConcordium.Dictionary.Certain
import SubqlConcordium.Dictionary.Admitted
import SubqlConcordium.Dictionary.Dedup
import SubqlConcordium.Dictionary.Indexing
import SubqlConcordium.ApiService
import SubqlConcordium.RetryLaw
import SubqlConcordium.Transparency
import SubqlConcordium.ChainId
import SubqlConcordium.EndpointList
import SubqlConcordium.MetaService
import SubqlConcordium.FetchOutcome
import SubqlConcordium.Completion
import SubqlConcordium.Connection
import SubqlConcordium.EndpointRuns
import SubqlConcordium.Determinism
import SubqlConcordium.DynamicDs
