import SourceOutline.Analyzer
import SourceOutline.Json.Reader
import SourceOutline.Pattern.Document
import SourceOutline.Pattern.Words
import SourceOutline.Proofs.Arena
import SourceOutline.Proofs.Placement
import SourceOutline.Proofs.Links
import SourceOutline.Proofs.Grouping
import SourceOutline.Proofs.Captures
import SourceOutline.Proofs.Handler
import SourceOutline.Proofs.Session
import SourceOutline.Proofs.Analysis
import SourceOutline.Proofs.Renumbering
import SourceOutline.Proofs.History
import SourceOutline.Proofs.Truncation
import SourceOutline.Proofs.Summaries
import SourceOutline.Proofs.Layers
import SourceOutline.Proofs.Reading
import SourceOutline.Proofs.Handles
import SourceOutline.Proofs.Enclosure
import SourceOutline.Proofs.Searching
import SourceOutline.Proofs.Ancestry
import SourceOutline.Proofs.Scanning
import SourceOutline.Proofs.Intervals
import SourceOutline.Proofs.EngineNodes
import SourceOutline.Proofs.MatchCounts
import SourceOutline.Proofs.NodeQueries
import SourceOutline.Proofs.CommonAncestor
import SourceOutline.Proofs.KindQueries
import SourceOutline.Proofs.ByteOrder
import SourceOutline.Proofs.MergedView
import SourceOutline.Proofs.Overrides
import SourceOutline.Proofs.Precedence
import SourceOutline.Proofs.QueryCache
import SourceOutline.Proofs.Containers
import SourceOutline.Proofs.Loading
import SourceOutline.Proofs.Outcomes
import SourceOutline.Proofs.Constancy
import SourceOutline.Proofs.Tasks
import SourceOutline.Proofs.Batch
import SourceOutline.Proofs.Accounts
import SourceOutline.Proofs.Degradation
import SourceOutline.Proofs.LineCounts
import SourceOutline.Proofs.Issues
import SourceOutline.Proofs.CleanSubtrees
import SourceOutline.Proofs.JsonText
import SourceOutline.Proofs.Spellings
import SourceOutline.Proofs.Fingerprints
import SourceOutline.Proofs.Derivatives
import SourceOutline.Proofs.InterpreterLines
import SourceOutline.Proofs.LineEndings
import SourceOutline.Proofs.FinalComponents
import SourceOutline.Proofs.PathResolution
import SourceOutline.Proofs.PathHints
import SourceOutline.Query.Engine
