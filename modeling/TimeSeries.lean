import TimeSeries.Http.Server
import TimeSeries.Settings
import TimeSeries.Proofs.Greatest
import TimeSeries.Proofs.MapEntries
import TimeSeries.Proofs.StepFunction
import TimeSeries.Proofs.Traversal
import TimeSeries.Proofs.Alignment
import TimeSeries.Proofs.Weighting
import TimeSeries.Proofs.Combination
import TimeSeries.Proofs.TracedCombination
import TimeSeries.Proofs.Reachability
import TimeSeries.Proofs.PathIndependence
import TimeSeries.Proofs.Walks
import TimeSeries.Proofs.Lookups
import TimeSeries.Proofs.History
import TimeSeries.Proofs.PrimitiveAnswers
import TimeSeries.Proofs.PointRange
import TimeSeries.Proofs.DateText
import TimeSeries.Proofs.Stamps
import TimeSeries.Proofs.JsonNumber
import TimeSeries.Proofs.JsonString
import TimeSeries.Proofs.JsonTree
import TimeSeries.Proofs.Shapes
import TimeSeries.Proofs.Codecs
import TimeSeries.Proofs.Selection
import TimeSeries.Proofs.Dependence
import TimeSeries.Proofs.Actions
import TimeSeries.Proofs.Sessions
import TimeSeries.Proofs.Refinement
import TimeSeries.Proofs.Cycles
import TimeSeries.Proofs.LaterRows
import TimeSeries.Proofs.Recording
import TimeSeries.Proofs.Indexes
import TimeSeries.Proofs.Provisioning
import TimeSeries.Proofs.BuiltCompositions
import TimeSeries.Proofs.WeightedMeans
import TimeSeries.Proofs.Renaming
import TimeSeries.Proofs.ResultShape
import TimeSeries.Proofs.SelectionOrder
import TimeSeries.Proofs.StoredSamples
import TimeSeries.Proofs.LaterCreated
import TimeSeries.Proofs.LatestAnswers
import TimeSeries.Proofs.CatalogueRuns
import TimeSeries.Proofs.Provenance
import TimeSeries.Proofs.Frames
import TimeSeries.Proofs.Depth
import TimeSeries.Proofs.Reprovisioning
import TimeSeries.Proofs.Persistence
import TimeSeries.Proofs.Units
import TimeSeries.Proofs.AsOf
import TimeSeries.Proofs.BaseDay
import TimeSeries.Proofs.KeptCells
import TimeSeries.Proofs.TableLookups
import TimeSeries.Proofs.Ties
import TimeSeries.Proofs.Fractions
import TimeSeries.Proofs.AlignedSeries
import TimeSeries.Proofs.WeightMetadata
import TimeSeries.Proofs.Superseding
import TimeSeries.Proofs.Utf8
import TimeSeries.Proofs.CanonicalDates
import TimeSeries.Proofs.QueryTexts
import TimeSeries.Proofs.Targets
import TimeSeries.Proofs.Calls
