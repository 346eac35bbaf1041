import MetricWatch.Document.Settings
import MetricWatch.Proofs.Node.Written
import MetricWatch.Proofs.Validation

namespace MetricWatch

open Node

variable {β γ : Type} {root n : Node} {surplus : Bool} {text : String} {s : Settings Binary64}

theorem Node.Gives.member {table : Reader γ} {read : Reader β} {standard t : γ}
    {entry : Option Node} {value : γ → β} {name : String} {place : Nat}
    (h : Gives table (some standard) t entry)
    (hmember : ∀ n, table n = .ok t →
      Gives read (some (value standard)) (value t) (n.memberAt? name place)) :
    Gives read (some (value standard)) (value t) (entry.bind (·.memberAt? name place)) := by
  cases entry with
  | none => exact congrArg (Option.map value) h
  | some n => exact hmember n h

theorem Detector.give_of_reader {d : Detector Binary64} (h : reader surplus n = .ok d) :
    (slots .standard).Give n 0 (d.zThreshold, d.iqrMultiplier, d.minSampleSize, ()) := by
  obtain ⟨⟨zThreshold, iqrMultiplier, minSampleSize, ⟨⟩⟩, hread, h⟩ := ok_of_bind h
  obtain rfl := Except.ok.inj h
  exact Slots.give_of_readWith ⟨rfl, rfl, rfl, trivial⟩ (by decide) hread

theorem Comparator.give_of_reader {c : Comparator Binary64} (h : reader surplus n = .ok c) :
    (slots .standard).Give n 0 (c.significance, c.zThreshold, c.critical, c.high, ()) := by
  obtain ⟨⟨significance, zThreshold, critical, high, ⟨⟩⟩, hread, h⟩ := ok_of_bind h
  obtain rfl := Except.ok.inj h
  exact Slots.give_of_readWith ⟨rfl, rfl, rfl, rfl, trivial⟩ (by decide) hread

theorem Gate.give_of_reader {g : Gate Binary64} (h : reader surplus n = .ok g) :
    (slots .standard).Give n 0
      (g.significanceLevel, g.minEffectSize, g.threshold, g.critical, ()) := by
  obtain ⟨⟨significanceLevel, minEffectSize, threshold, critical, ⟨⟩⟩, hread, h⟩ := ok_of_bind h
  obtain rfl := Except.ok.inj h
  exact Slots.give_of_readWith ⟨rfl, rfl, rfl, rfl, trivial⟩ (by decide) hread

namespace Settings

theorem give_of_reader (h : reader surplus n = .ok s) :
    (slots surplus).Give n 0 (s.detector, s.comparator, s.gate, ()) := by
  obtain ⟨⟨detector, comparator, gate, ⟨⟩⟩, hread, h⟩ := ok_of_bind h
  obtain rfl := Except.ok.inj h
  have hnames : ["detector", "comparator", "regression"].Nodup := by decide
  exact Slots.give_of_readWith ⟨rfl, rfl, rfl, trivial⟩ hnames hread

/-- One of the settings: the name of its table and its own, each with its place where a list stands
for the record, and what it is in the settings. -/
structure Key (β : Type) where
  table : String × Nat
  name : String × Nat
  value : Settings Binary64 → β

def realKeys : List (Key Binary64) :=
  [⟨("detector", 0), ("z_threshold", 0), (·.detector.zThreshold)⟩,
    ⟨("detector", 0), ("iqr_multiplier", 1), (·.detector.iqrMultiplier)⟩,
    ⟨("comparator", 1), ("significance_threshold", 0), (·.comparator.significance)⟩,
    ⟨("comparator", 1), ("z_threshold", 1), (·.comparator.zThreshold)⟩,
    ⟨("comparator", 1), ("critical_change_percent", 2), (·.comparator.critical)⟩,
    ⟨("comparator", 1), ("high_change_percent", 3), (·.comparator.high)⟩,
    ⟨("regression", 2), ("significance_level", 0), (·.gate.significanceLevel)⟩,
    ⟨("regression", 2), ("min_effect_size", 1), (·.gate.minEffectSize)⟩,
    ⟨("regression", 2), ("regression_threshold_percent", 2), (·.gate.threshold)⟩,
    ⟨("regression", 2), ("critical_threshold_percent", 3), (·.gate.critical)⟩]

def sizeKeys : List (Key Nat) :=
  [⟨("detector", 0), ("min_sample_size", 2), (·.detector.minSampleSize)⟩]

namespace Key

def written? (k : Key β) (root : Node) : Option Node :=
  (root.memberAt? k.table.1 k.table.2).bind (·.memberAt? k.name.1 k.name.2)

def Carried (k : Key β) (read : Reader β) (root : Node) (s : Settings Binary64) : Prop :=
  Gives read (some (k.value .standard)) (k.value s) (k.written? root)

end Key

/-- What is written in a document, and nothing else but what is standard. -/
structure WrittenIn (s : Settings Binary64) (root : Node) : Prop where
  reals : ∀ k ∈ realKeys, k.Carried readReal root s
  sizes : ∀ k ∈ sizeKeys, k.Carried readSize root s

theorem writtenIn_of_reader (h : reader surplus root = .ok s) : s.WrittenIn root := by
  have h := give_of_reader h
  have hdetector := h.default
  have hcomparator := h.2.default
  have hgate := h.2.2.default
  constructor
  · simp only [realKeys, List.forall_mem_cons]
    exact ⟨hdetector.member fun n hn ↦ (Detector.give_of_reader hn).default,
      hdetector.member fun n hn ↦ (Detector.give_of_reader hn).2.default,
      hcomparator.member fun n hn ↦ (Comparator.give_of_reader hn).default,
      hcomparator.member fun n hn ↦ (Comparator.give_of_reader hn).2.default,
      hcomparator.member fun n hn ↦ (Comparator.give_of_reader hn).2.2.default,
      hcomparator.member fun n hn ↦ (Comparator.give_of_reader hn).2.2.2.default,
      hgate.member fun n hn ↦ (Gate.give_of_reader hn).default,
      hgate.member fun n hn ↦ (Gate.give_of_reader hn).2.default,
      hgate.member fun n hn ↦ (Gate.give_of_reader hn).2.2.default,
      hgate.member fun n hn ↦ (Gate.give_of_reader hn).2.2.2.default, nofun⟩
  · simp only [sizeKeys, List.forall_mem_cons]
    exact ⟨hdetector.member fun n hn ↦ (Detector.give_of_reader hn).2.2.default, nofun⟩

theorem validate_eq_ok_iff : s.validate = .ok () ↔
    s.detector.validate = .ok () ∧ s.comparator.validate = .ok () ∧ s.gate.validate = .ok () := by
  unfold validate
  cases s.detector.validate with
  | error => simp [bind, Except.bind]
  | ok _ => cases s.comparator.validate <;> simp [bind, Except.bind]

theorem ofToml_eq_ok_iff : ofToml text = .ok s ↔
    ∃ root, Toml.parse? text = some root ∧ reader true root = .ok s ∧ s.validate = .ok () := by
  constructor
  · intro h
    unfold ofToml at h
    split at h
    · rename_i settings hread
      obtain ⟨root, hparse, hread⟩ := Option.map_eq_some_iff.1 hread
      cases hvalid : settings.validate with
      | error fault => simp [hvalid] at h
      | ok _ =>
        rw [hvalid] at h
        obtain rfl := Except.ok.inj h
        exact ⟨root, hparse, hread, hvalid⟩
    · cases h
  · rintro ⟨root, hparse, hread, hvalid⟩
    simp only [ofToml, hparse, Option.map_some, hread, hvalid]

end Settings

end MetricWatch
