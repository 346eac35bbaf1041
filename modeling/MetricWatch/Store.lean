import MetricWatch.Document.Baseline
import MetricWatch.Json.Reader
import MetricWatch.Json.Writer

namespace MetricWatch.Store

def saveBaseline (b : Baseline Binary64) : String := Json.pretty b.node

def loadBaseline (text : String) : Except Node.Fault (Baseline Binary64) :=
  Json.decode Baseline.reader text

def saveHistory (history : List (Baseline Binary64)) : String :=
  Json.pretty (.list (history.map Baseline.node))

def loadHistory (text : String) : Except Node.Fault (List (Baseline Binary64)) :=
  Json.decode (Node.readList Baseline.reader) text

end MetricWatch.Store
