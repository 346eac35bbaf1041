import Mathlib.Data.List.PeriodicityLemma
import MetricWatch.Proofs.Binary64.Exact
import MetricWatch.Proofs.Detection.Locality

namespace MetricWatch

namespace Detector

open Binary64

end Detector

end MetricWatch
