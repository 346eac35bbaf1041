import MetricWatch.Main
import MetricWatch.Regression.Distribution
import MetricWatch.Proofs.Binary64.Finite
import MetricWatch.Proofs.Binary64.Sign
import MetricWatch.Proofs.Stats.Finite
import MetricWatch.Proofs.Stats.Sorted
import MetricWatch.Proofs.Detection.Points
import MetricWatch.Proofs.Detection.SelfBaseline
import MetricWatch.Proofs.Regression.Verdict
import MetricWatch.Proofs.Comparison.Change
import MetricWatch.Proofs.Report.Additions
import MetricWatch.Proofs.Report.Consistency
import MetricWatch.Proofs.Binary64.Count
import MetricWatch.Proofs.Report.Health
import MetricWatch.Proofs.Report.Order
import MetricWatch.Proofs.Binary64.Decimal
import MetricWatch.Proofs.Decimal.Digits
import MetricWatch.Proofs.Decimal.Literal
import MetricWatch.Proofs.Json.Number
import MetricWatch.Proofs.Json.Leaf
import MetricWatch.Proofs.Json.Text
import MetricWatch.Proofs.Json.Machine
import MetricWatch.Proofs.Json.RoundTrip
import MetricWatch.Proofs.Json.Sound
import MetricWatch.Proofs.Node.Faithful
import MetricWatch.Proofs.Instant.Calendar
import MetricWatch.Proofs.Instant.Text
import MetricWatch.Proofs.Node.Columns
import MetricWatch.Proofs.Document.Context
import MetricWatch.Proofs.Document.Finding
import MetricWatch.Proofs.Document.Baseline
import MetricWatch.Proofs.Document.Report
import MetricWatch.Proofs.Document.RoundTrip
import MetricWatch.Proofs.Store
import MetricWatch.Proofs.Detection.Reload
import MetricWatch.Proofs.Report.Rate
import MetricWatch.Proofs.Detection.Combined
import MetricWatch.Proofs.Comparison.Significance
import MetricWatch.Proofs.Comparison.Judgement
import MetricWatch.Proofs.Node.Place
import MetricWatch.Proofs.Document.Confidence
import MetricWatch.Proofs.Binary64.Lower
import MetricWatch.Proofs.Stats.Constant
import MetricWatch.Proofs.Binary64.Exact
import MetricWatch.Proofs.Detection.Constant
import MetricWatch.Proofs.FileSystem
import MetricWatch.Proofs.CommandLine.Answers
import MetricWatch.Proofs.CommandLine.Verdict
import MetricWatch.Proofs.CommandLine.Options
import MetricWatch.Proofs.CommandLine.Effects
import MetricWatch.Proofs.Binary64.Monotone
import MetricWatch.Proofs.Binary64.Interpolation
import MetricWatch.Proofs.Binary64.Rank
import MetricWatch.Proofs.Stats.Quartiles
import MetricWatch.Proofs.Detection.Thresholds
import MetricWatch.Proofs.Exact.Arithmetic
import MetricWatch.Proofs.Exact.Statistics
import MetricWatch.Proofs.Exact.Comparison
import MetricWatch.Proofs.Exact.Regression
import MetricWatch.Proofs.Exact.Unit
import MetricWatch.Proofs.Regression.Bars
import MetricWatch.Proofs.Exact.Shift
import MetricWatch.Proofs.Exact.Freedom
import MetricWatch.Proofs.Binary64.Opposite
import MetricWatch.Proofs.Regression.Exchange
import MetricWatch.Proofs.Exact.Normal
import MetricWatch.Proofs.Exact.Percentile
import MetricWatch.Proofs.Binary64.Value
import MetricWatch.Proofs.Binary64.Leeway
import MetricWatch.Proofs.Binary64.Native
import MetricWatch.Proofs.Regression.Fraction
import MetricWatch.Proofs.Regression.Gamma
import MetricWatch.Proofs.Regression.Probability
import MetricWatch.Proofs.Regression.Overflow
import MetricWatch.Proofs.Detection.Kind
import MetricWatch.Proofs.Exact.Spread
import MetricWatch.Proofs.Exact.Rank
import MetricWatch.Proofs.Exact.Summary
import MetricWatch.Proofs.Exact.Outlier
import MetricWatch.Proofs.Exact.Share
import MetricWatch.Proofs.Exact.Accord
import MetricWatch.Proofs.Exact.Affine
import MetricWatch.Proofs.Exact.Equivariance
import MetricWatch.Proofs.Stats.Arrival
import MetricWatch.Proofs.Regression.Poisoned
import MetricWatch.Proofs.Exact.Noiseless
import MetricWatch.Proofs.Exact.Direction
import MetricWatch.Proofs.Exact.Deviation
import MetricWatch.Proofs.Exact.Tolerance
import MetricWatch.Proofs.Detection.Locality
import MetricWatch.Proofs.Detection.Season
import MetricWatch.Proofs.Exact.Boundary
import MetricWatch.Proofs.Regression.Resampled
import MetricWatch.Proofs.Regression.Cuts
import MetricWatch.Proofs.Exact.Resampling
import MetricWatch.Proofs.Series.Formats
import MetricWatch.Proofs.Exact.Gravity
import MetricWatch.Proofs.Exact.Partial
import MetricWatch.Proofs.Exact.Defined
import MetricWatch.Proofs.Node.Written
import MetricWatch.Proofs.Document.Settings
import MetricWatch.Proofs.CommandLine.Thresholds
import MetricWatch.Proofs.Instant.Order
import MetricWatch.Proofs.CommandLine.Period
