import MetricWatch.Json.Reader
import MetricWatch.Proofs.Json.Leaf
import MetricWatch.Proofs.Json.Text

namespace MetricWatch.Json.Machine

variable {frames : List Frame} {place : Place} {node : Node} {m : Machine} {c : Char}
  {text : List Char}

def TakesValue (place : Place) : Prop := place = .value ∨ place = .firstItem

/-- A value has been read. If it is a number, the character after it is still to come. -/
def Holds (frames : List Frame) (node : Node) (m : Machine) : Prop :=
  m = deliver node frames ∨ ∃ n, m = number frames n ∧ n.complete = true ∧ n.node = node

theorem step_deliver (node : Node) (frames : List Frame) (c : Char) :
    (deliver node frames).step c = (deliver node frames).outside c := by
  rcases frames with _ | ⟨_ | _ | _, frames⟩ <;> rfl

theorem step_of_holds (h : Holds frames node m) (hc : NumberScan.Ends c) :
    m.step c = (deliver node frames).outside c := by
  rcases h with rfl | ⟨n, rfl, hcomplete, rfl⟩
  · exact step_deliver node frames c
  · rw [step, NumberScan.step_of_ends hcomplete hc]

theorem ends_of_mem (h : c ∈ [',', ']', '}', ' ', '\n', '\t', '\r']) : NumberScan.Ends c := by
  simp only [List.mem_cons, List.not_mem_nil, or_false] at h
  unfold NumberScan.Ends
  rcases h with rfl | rfl | rfl | rfl | rfl | rfl | rfl
  all_goals decide

theorem ends_of_isSpace (h : isSpace c = true) : NumberScan.Ends c :=
  ends_of_mem (List.mem_append_right [',', ']', '}'] (of_decide_eq_true h))

theorem deliver_outside_space (node : Node) (frames : List Frame) (h : isSpace c = true) :
    (deliver node frames).outside c = deliver node frames := by
  rcases frames with _ | ⟨_ | _ | _, frames⟩
  · exact if_pos h
  · exact if_pos h
  · rfl
  · exact if_pos h

theorem holds_foldl_space (h : Holds frames node m) (htext : ∀ c ∈ text, isSpace c = true) :
    Holds frames node (text.foldl step m) := by
  induction text generalizing m with
  | nil => exact h
  | cons c text ih =>
    obtain ⟨hc, hrest⟩ := List.forall_mem_cons.1 htext
    apply ih _ hrest
    left
    rw [step_of_holds h (ends_of_isSpace hc), deliver_outside_space node frames hc]

theorem foldl_space (htext : ∀ c ∈ text, isSpace c = true) :
    text.foldl step (between frames place) = between frames place := by
  induction text with
  | nil => rfl
  | cons c text ih =>
    obtain ⟨hc, hrest⟩ := List.forall_mem_cons.1 htext
    have hstep : (between frames place).step c = between frames place := if_pos hc
    rw [List.foldl_cons, hstep, ih hrest]

theorem step_between (hplace : TakesValue place) (hspace : isSpace c = false) (hclose : c ≠ ']') :
    (between frames place).step c = beginValue frames c := by
  have hspace' : ¬ isSpace c = true := Bool.eq_false_iff.1 hspace
  rcases hplace with rfl | rfl
  · exact if_neg hspace'
  · exact (if_neg hspace').trans (if_neg hclose)

theorem foldl_lexeme {σ : Type} {more? : σ → Char → Option σ} (within : σ → Machine)
    (hstep : ∀ s s' c, more? s c = some s' → (within s).step c = within s') {s s' : σ}
    (h : text.foldlM more? s = some s') : text.foldl step (within s) = within s' := by
  induction text generalizing s with
  | nil =>
    obtain rfl := Option.some.inj h
    rfl
  | cons c text ih =>
    rw [List.foldlM_cons] at h
    obtain ⟨next, hnext, hrest⟩ := Option.bind_eq_some_iff.1 h
    rw [List.foldl_cons, hstep s next c hnext]
    exact ih hrest

theorem foldl_number {n n' : NumberScan} (h : n.feed text = some n') :
    text.foldl step (number frames n) = number frames n' := by
  refine foldl_lexeme (number frames) (fun s s' c hc ↦ ?_) h
  rw [step, NumberScan.step_of_more? hc]

theorem foldl_text {t t' : TextScan} (h : t.feed text = some t') :
    text.foldl step (Machine.text frames t) = Machine.text frames t' := by
  refine foldl_lexeme (Machine.text frames) (fun s s' c hc ↦ ?_) h
  rw [step, TextScan.step_of_more? hc]

theorem foldl_memberName {t t' : TextScan} (h : t.feed text = some t') :
    text.foldl step (memberName frames t) = memberName frames t' := by
  refine foldl_lexeme (memberName frames) (fun s s' c hc ↦ ?_) h
  rw [step, TextScan.step_of_more? hc]

theorem beginValue_of_start? {n : NumberScan} (h : NumberScan.start? c = some n)
    (frames : List Frame) :
    beginValue frames c = number frames n ∧ isSpace c = false ∧ c ≠ ']' := by
  have hnone : ['"', '[', '{', 't', 'f', 'n', ']', ' ', '\n', '\t', '\r'].all
      (fun d ↦ (NumberScan.start? d).isNone) = true := by decide
  have hother : c ∉ ['"', '[', '{', 't', 'f', 'n', ']', ' ', '\n', '\t', '\r'] := by
    intro hmem
    have hc := List.all_eq_true.1 hnone c hmem
    rw [h] at hc
    cases hc
  simp only [List.mem_cons, not_or] at hother
  obtain ⟨h₁, h₂, h₃, h₄, h₅, h₆, hclose, hspace⟩ := hother
  refine ⟨?_, ?_, hclose⟩
  · unfold beginValue
    split
    all_goals first | contradiction | rw [h]
  · unfold isSpace
    simpa using hspace

theorem foldl_scan {n : NumberScan} (hplace : TakesValue place)
    (h : NumberScan.scan? text = some n) :
    text.foldl step (between frames place) = number frames n := by
  cases text with
  | nil => cases h
  | cons c rest =>
    obtain ⟨first, hfirst, hrest⟩ := Option.bind_eq_some_iff.1 h
    obtain ⟨hbegin, hspace, hclose⟩ := beginValue_of_start? hfirst frames
    rw [List.foldl_cons, step_between hplace hspace hclose, hbegin, foldl_number hrest]

theorem foldl_quote (hplace : TakesValue place) (s : String) :
    (quote s).foldl step (between frames place) = deliver (.text s) frames := by
  have hbegin : (between frames place).step '"' = Machine.text frames .start :=
    step_between hplace rfl (by decide)
  have hend : (Machine.text frames (TextScan.quoted s)).step '"' = deliver (.text s) frames := by
    rw [step, TextScan.step_quoted, TextScan.text?_quoted]
    rfl
  rw [quote, List.cons_append, List.foldl_cons, hbegin, List.foldl_append,
    foldl_text (TextScan.feed_quoted s), List.foldl_cons, hend, List.foldl_nil]

theorem foldl_name {before : List (Option String × Node)}
    (hplace : place = .firstMember ∨ place = .name) (s : String) :
    (quote s).foldl step (between (.members before :: frames) place) =
      between (.member before (some s) :: frames) .colon := by
  have hbegin : (between (.members before :: frames) place).step '"' =
      memberName (.members before :: frames) .start := by
    rcases hplace with rfl | rfl <;> rfl
  have hend : (memberName (.members before :: frames) (TextScan.quoted s)).step '"' =
      between (.member before (some s) :: frames) .colon := by
    rw [step, TextScan.step_quoted, TextScan.text?_quoted]
    rfl
  rw [quote, List.cons_append, List.foldl_cons, hbegin, List.foldl_append,
    foldl_memberName (TextScan.feed_quoted s), List.foldl_cons, hend, List.foldl_nil]

theorem foldl_rest {rest : List Char} (hrest : rest ≠ []) :
    rest.foldl step (word frames rest node) = deliver node frames := by
  induction rest with
  | nil => exact absurd rfl hrest
  | cons c rest ih =>
    rw [List.foldl_cons, step, if_neg (not_not.2 rfl)]
    cases rest with
    | nil => rfl
    | cons d rest => exact ih nofun

theorem foldl_word (hplace : TakesValue place) {rest : List Char}
    (hbegin : beginValue frames c = word frames rest node) (hspace : isSpace c = false)
    (hclose : c ≠ ']') (hrest : rest ≠ []) :
    (c :: rest).foldl step (between frames place) = deliver node frames := by
  rw [List.foldl_cons, step_between hplace hspace hclose, hbegin, foldl_rest hrest]

theorem foldl_null (hplace : TakesValue place) :
    "null".toList.foldl step (between frames place) = deliver .null frames :=
  foldl_word hplace rfl rfl nofun nofun

theorem foldl_bool (hplace : TakesValue place) (b : Bool) :
    (scalar (.bool b)).foldl step (between frames place) = deliver (.bool b) frames := by
  cases b with
  | true => exact foldl_word hplace rfl rfl nofun nofun
  | false => exact foldl_word hplace rfl rfl nofun nofun

theorem holds_integer (hplace : TakesValue place) (n : Int) :
    Holds frames (.storedInteger n) ((integer n).foldl step (between frames place)) := by
  obtain ⟨scan, hscan, hcomplete, hnode⟩ := NumberScan.exists_scan_integer n
  exact .inr ⟨scan, foldl_scan hplace hscan, hcomplete, hnode⟩

theorem holds_real (hplace : TakesValue place) (x : Binary64) :
    Holds frames (.storedReal x) ((real x).foldl step (between frames place)) := by
  unfold Node.storedReal
  split
  · rename_i hfinite
    obtain ⟨scan, hscan, hcomplete, hnode⟩ := NumberScan.exists_scan_real hfinite
    exact .inr ⟨scan, foldl_scan hplace hscan, hcomplete, hnode⟩
  · rename_i hfinite
    rw [real, if_neg hfinite]
    exact .inl (foldl_null hplace)

end MetricWatch.Json.Machine
