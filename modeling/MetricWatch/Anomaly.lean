import MetricWatch.Confidence
import MetricWatch.Failure
import MetricWatch.Instant
import MetricWatch.Severity

namespace MetricWatch

inductive AnomalyKind where
  | spike
  | drop
  | trendChange
  | outlier
  | patternBreak
  | regression
  deriving DecidableEq, Repr

namespace AnomalyKind

def all : List AnomalyKind := [spike, drop, trendChange, outlier, patternBreak, regression]

def name : AnomalyKind → String
  | spike => "spike"
  | drop => "drop"
  | trendChange => "trend_change"
  | outlier => "outlier"
  | patternBreak => "pattern_break"
  | regression => "regression"

end AnomalyKind

/-- Named diagnostic numbers, in the order of their names, each name once. -/
structure Context (α : Type) where
  entries : List (String × α)
  ordered : entries.Pairwise fun a b ↦ a.1 < b.1

namespace Context

variable {α : Type}

instance [DecidableEq α] : DecidableEq (Context α) := fun a b ↦
  match decEq a.entries b.entries with
  | isTrue h => isTrue (by cases a; cases b; cases h; rfl)
  | isFalse h => isFalse fun e ↦ h (congrArg entries e)

def empty : Context α := ⟨[], .nil⟩

def insertEntry (name : String) (value : α) : List (String × α) → List (String × α)
  | [] => [(name, value)]
  | (n, v) :: rest =>
    if name < n then (name, value) :: (n, v) :: rest
    else if name = n then (name, value) :: rest
    else (n, v) :: insertEntry name value rest

theorem mem_insertEntry {name : String} {value : α} {entries : List (String × α)}
    {e : String × α} (h : e ∈ insertEntry name value entries) :
    e = (name, value) ∨ e ∈ entries := by
  induction entries with
  | nil => exact .inl (List.mem_singleton.1 h)
  | cons head rest ih =>
    obtain ⟨n, v⟩ := head
    simp only [insertEntry] at h
    split at h
    · exact List.mem_cons.1 h
    · split at h
      · exact (List.mem_cons.1 h).imp_right (List.mem_cons_of_mem _)
      · rcases List.mem_cons.1 h with h | h
        · exact .inr (h ▸ List.mem_cons_self)
        · exact (ih h).imp_right (List.mem_cons_of_mem _)

theorem insertEntry_ordered (name : String) (value : α) {entries : List (String × α)}
    (h : entries.Pairwise fun a b ↦ a.1 < b.1) :
    (insertEntry name value entries).Pairwise fun a b ↦ a.1 < b.1 := by
  induction entries with
  | nil => exact List.pairwise_singleton _ _
  | cons head rest ih =>
    obtain ⟨n, v⟩ := head
    have ⟨hn, hr⟩ := List.pairwise_cons.1 h
    simp only [insertEntry]
    split
    · rename_i hlt
      refine List.pairwise_cons.2 ⟨fun e he ↦ ?_, h⟩
      rcases List.mem_cons.1 he with rfl | he
      · exact hlt
      · exact String.lt_trans hlt (hn e he)
    · split
      · rename_i heq
        exact List.pairwise_cons.2 ⟨fun e he ↦ heq ▸ hn e he, hr⟩
      · rename_i hlt hne
        refine List.pairwise_cons.2 ⟨fun e he ↦ ?_, ih hr⟩
        rcases mem_insertEntry he with rfl | he
        · exact Decidable.byContradiction fun hn ↦ hne (String.le_antisymm hn hlt)
        · exact hn e he

/-- Sets a number, in place of an earlier one of the same name. -/
def insert (context : Context α) (name : String) (value : α) : Context α :=
  ⟨insertEntry name value context.entries, insertEntry_ordered name value context.ordered⟩

def ofList (entries : List (String × α)) : Context α :=
  entries.foldl (fun context (name, value) ↦ context.insert name value) empty

end Context

variable {α : Type} [Scalar α]

structure Anomaly (α : Type) [Scalar α] where
  detectedAt : Instant
  timestamp : Instant
  kind : AnomalyKind
  severity : Severity
  metric : String
  actual : α
  expected : α
  deviation : α
  deviationPercent : α
  zScore : Option α
  confidence : Confidence α
  context : Context α
  description : String
  deriving DecidableEq

namespace Anomaly

/-- A point without confidence, score or description. The deviation has a sign; its percentage of
the expected value has none, and is zero where nothing is expected. -/
def ofPoint (now : Instant) (metric : String) (kind : AnomalyKind) (severity : Severity)
    (actual expected : α) (timestamp : Instant) : Anomaly α :=
  let deviation := actual - expected
  { detectedAt := now
    timestamp
    kind
    severity
    metric
    actual
    expected
    deviation
    deviationPercent :=
      if Scalar.IsZero expected then 0.0 else Scalar.abs deviation / Scalar.abs expected * 100.0
    zScore := none
    confidence := .zero
    context := .empty
    description := "" }

def withConfidence (a : Anomaly α) (x : α) : Except (Failure α) (Anomaly α) :=
  match Confidence.ofValue? x with
  | some confidence => .ok { a with confidence }
  | none => .error (.confidenceOutOfRange x)

end Anomaly

def resolveTimestamps (now : Instant) (length : Nat) (timestamps : Option (List Instant)) :
    List Instant :=
  timestamps.getD ((List.range length).map fun i ↦ now.backBy (length - 1 - i))

end MetricWatch
