import MetricWatch.Proofs.Node.Faithful
import MetricWatch.CommandLine.Invocation

namespace MetricWatch.CommandLine

open Node (ok_of_bind)

variable {σ : Type} {P : σ → Prop} {g : Grammar σ} {p p' : Progress σ} {rule : OptionRule σ}
  {put? : String → σ → Option σ} {words rest : List String}

def Keeps (P : σ → Prop) (put? : String → σ → Option σ) : Prop :=
  ∀ value state state', P state → put? value state = some state' → P state'

def OptionRule.Keeps (P : σ → Prop) (rule : OptionRule σ) : Prop :=
  ∀ put?, rule.action = .value put? → CommandLine.Keeps P put?

namespace Progress

theorem endRun_state (h : p.endRun g = .ok p') : p'.state = p.state := by
  rw [endRun] at h
  split at h
  · cases h
  · obtain rfl := Except.ok.inj h
    rfl

theorem note_state (h : p.note rule = .ok p') : p'.state = p.state := by
  rw [note] at h
  split at h
  · cases h
  · obtain rfl := Except.ok.inj h
    rfl

theorem assign_keeps {value : String} (hput : Keeps P put?) (hp : P p.state)
    (h : p.assign rule put? value = .ok p') : P p'.state := by
  rw [assign] at h
  split at h
  · rename_i state hstate
    rw [note_state h]
    exact hput value p.state state hp hstate
  · cases h

theorem addOperand_state {word : String} (h : p.addOperand g word = .ok p') :
    p'.state = p.state := by
  rw [addOperand] at h
  split at h
  · obtain rfl := Except.ok.inj h
    rfl
  · cases h

theorem addOperands_state (h : p.addOperands g words = .ok p') : p'.state = p.state := by
  induction words generalizing p with
  | nil =>
    obtain rfl := Except.ok.inj h
    rfl
  | cons word words ih =>
    obtain ⟨q, hq, h⟩ := ok_of_bind h
    rw [ih h, addOperand_state hq]

end Progress

def Reading.Holds (P : σ → Prop) : Reading σ → Prop
  | complete p => P p.state
  | awaiting p _ put? => P p.state ∧ Keeps P put?

theorem readOption_keeps {attached : Option String} {reading : Reading σ} (hrule : rule.Keeps P)
    (hp : P p.state) (h : readOption p rule attached = .ok reading) : reading.Holds P := by
  unfold readOption at h
  split at h
  · cases h
  · cases hnote : p.note rule with
    | error stop =>
      rw [hnote] at h
      cases h
    | ok q =>
      rw [hnote] at h
      obtain rfl := Except.ok.inj h
      rwa [Reading.Holds, Progress.note_state hnote]
  · rename_i put? value hput
    cases hassign : p.assign rule put? value with
    | error stop =>
      rw [hassign] at h
      cases h
    | ok q =>
      rw [hassign] at h
      obtain rfl := Except.ok.inj h
      exact Progress.assign_keeps (hrule put? hput) hp hassign
  · rename_i put? hput
    obtain rfl := Except.ok.inj h
    exact ⟨hp, hrule put? hput⟩
  · cases h

variable {reading : Reading σ}

theorem readLetters_keeps {letters : List Char} (hg : ∀ rule ∈ g.rules, rule.Keeps P)
    (hp : P p.state) (h : readLetters g p letters = .ok reading) : reading.Holds P := by
  induction letters generalizing p with
  | nil =>
    obtain rfl := Except.ok.inj h
    exact hp
  | cons c letters ih =>
    rw [readLetters] at h
    split at h
    · cases h
    · rename_i rule hfind
      have hrule := hg rule (List.mem_of_find?_eq_some hfind)
      split at h
      · exact readOption_keeps hrule hp h
      · split at h
        · rename_i q hq
          have hkept : (Reading.complete q).Holds P := readOption_keeps hrule hp hq
          exact ih hkept h
        · exact readOption_keeps hrule hp h

theorem readSpelling_keeps {spelling : Spelling} (hg : ∀ rule ∈ g.rules, rule.Keeps P)
    (hp : P p.state) (h : readSpelling g p spelling = .ok reading) : reading.Holds P := by
  cases spelling with
  | name name attached =>
    rw [readSpelling] at h
    split at h
    · cases h
    · rename_i rule hfind
      exact readOption_keeps (hg rule (List.mem_of_find?_eq_some hfind)) hp h
  | letters letters => exact readLetters_keeps hg hp h

theorem readWords_keeps (hg : ∀ rule ∈ g.rules, rule.Keeps P) (hp : P p.state)
    (h : readWords g p words = .ok (p', rest)) : P p'.state := by
  -- An option takes one word or two, so the induction is on how many words are left.
  induction hn : words.length using Nat.strong_induction_on generalizing words p with
  | _ n ih =>
  cases words with
  | nil =>
    obtain ⟨q, hq, h⟩ := ok_of_bind h
    cases h
    rwa [Progress.endRun_state hq]
  | cons word words =>
    rw [List.length_cons] at hn
    rw [readWords] at h
    split at h
    · obtain ⟨q, hq, h⟩ := ok_of_bind h
      obtain ⟨r, hr, h⟩ := ok_of_bind h
      cases h
      rwa [Progress.endRun_state hr, Progress.addOperands_state hq]
    · split at h
      · cases h
        exact hp
      · obtain ⟨q, hq, h⟩ := ok_of_bind h
        refine ih words.length (by omega) ?_ h rfl
        rwa [Progress.addOperand_state hq]
    · obtain ⟨q, hq, h⟩ := ok_of_bind h
      rw [← Progress.endRun_state hq] at hp
      obtain ⟨reading, hreading, h⟩ := ok_of_bind h
      have hkept := readSpelling_keeps hg hp hreading
      split at h
      · exact ih words.length (by omega) hkept h rfl
      · cases words with
        | nil => cases h
        | cons value words =>
          rw [List.length_cons] at hn
          dsimp only at h
          split at h
          · obtain ⟨r, hr, h⟩ := ok_of_bind h
            exact ih words.length (by omega) (Progress.assign_keeps hkept.2 hkept.1 hr) h rfl
          · cases h

theorem readCount?_lt {limit n : Nat} {text : String} (h : readCount? limit text = some n) :
    n < limit := by
  obtain ⟨hcount, hn⟩ := Option.ite_none_right_eq_some.1 h
  rw [← Option.some.inj hn]
  exact hcount.2.2

theorem readDays?_lt {n : Nat} {text : String} (h : readDays? text = some n) :
    n < 0x100000000 := by
  unfold readDays? at h
  split at h
  · split at h
    · exact Nat.lt_trans (readCount?_lt h) (by decide)
    · cases h
  · exact readCount?_lt h

theorem valueRule_keeps {β : Type} {P : Draft → Prop} {name : String} {read? : String → Option β}
    {put : Draft → β → Draft}
    (h : ∀ text value draft, read? text = some value → P draft → P (put draft value)) :
    (valueRule name read? put).Keeps P := by
  rintro _ ⟨⟩ text draft draft' hdraft hput
  obtain ⟨value, hvalue, rfl⟩ := Option.map_eq_some_iff.1 hput
  exact h text value draft hvalue hdraft

/-- The period of a draft is its default or has been read. -/
abbrev Draft.PeriodFits (draft : Draft) : Prop := draft.periodDays < 0x100000000

theorem sharedRules_keep : ∀ rule ∈ sharedRules, rule.Keeps Draft.PeriodFits := by
  intro rule hrule
  simp only [sharedRules, List.mem_cons, List.not_mem_nil, or_false] at hrule
  rcases hrule with rfl | rfl | rfl | rfl
  · exact nofun
  · exact nofun
  · exact valueRule_keeps fun _ _ _ _ hdraft ↦ hdraft
  · exact valueRule_keeps fun _ _ _ _ hdraft ↦ hdraft

theorem ownRules_keep (verb : Verb) : ∀ rule ∈ verb.ownRules, rule.Keeps Draft.PeriodFits := by
  intro rule hrule
  cases verb with
  | detect =>
    simp only [Verb.ownRules, List.mem_cons, List.not_mem_nil, or_false] at hrule
    rcases hrule with rfl | rfl | rfl
    all_goals exact valueRule_keeps fun _ _ _ _ hdraft ↦ hdraft
  | regression =>
    simp only [Verb.ownRules, List.mem_cons, List.not_mem_nil, or_false] at hrule
    rcases hrule with rfl | rfl | rfl | rfl
    all_goals exact valueRule_keeps fun _ _ _ _ hdraft ↦ hdraft
  | baseline =>
    simp only [Verb.ownRules, List.mem_cons, List.not_mem_nil, or_false] at hrule
    rcases hrule with rfl | rfl | rfl
    · exact valueRule_keeps fun _ _ _ _ hdraft ↦ hdraft
    · exact valueRule_keeps fun _ _ _ hdays _ ↦ readDays?_lt hdays
    · have hpath : (valueRule "output" readPath? fun draft path ↦
          { draft with output := some path }).Keeps Draft.PeriodFits :=
        valueRule_keeps fun _ _ _ _ hdraft ↦ hdraft
      exact hpath
  | compare =>
    obtain rfl := List.mem_singleton.1 hrule
    exact valueRule_keeps fun _ _ _ _ hdraft ↦ hdraft
  | drift => cases hrule
  | changePoints =>
    obtain rfl := List.mem_singleton.1 hrule
    exact valueRule_keeps fun _ _ _ _ hdraft ↦ hdraft

theorem command_of_read {i : Invocation} (h : Invocation.read words = .ok i) :
    ∃ (verb : Verb) (draft : Draft) (operands : List String),
      draft.PeriodFits ∧ verb.command? draft operands = some i.command := by
  obtain ⟨⟨leading, rest⟩, hleading, h⟩ := ok_of_bind h
  have hdefault : (Progress.start ({} : Draft)).state.PeriodFits := by decide
  have hstart : (Progress.start leading.state).state.PeriodFits := by
    change leading.state.PeriodFits
    refine readWords_keeps ?_ hdefault hleading
    intro rule hrule
    rcases List.mem_append.1 hrule with hrule | hrule
    · exact sharedRules_keep rule hrule
    · obtain rfl := List.mem_singleton.1 hrule
      exact nofun
  dsimp only at h
  split at h
  · cases h
  split at h
  · cases h
  split at h
  · cases h
  rename_i verb _
  obtain ⟨⟨own, _⟩, hown, h⟩ := ok_of_bind h
  dsimp only at h
  split at h
  · rename_i command hcommand
    obtain rfl := Except.ok.inj h
    refine ⟨verb, own.state, own.operands, readWords_keeps ?_ hstart hown, hcommand⟩
    intro rule hrule
    rcases List.mem_append.1 hrule with hrule | hrule
    · exact sharedRules_keep rule hrule
    · exact ownRules_keep verb rule hrule
  · cases h

theorem periodDays_lt {i : Invocation} {series metric : String} {periodDays : Nat}
    {output : Option String} (h : Invocation.read words = .ok i)
    (hi : i.command = .baseline series metric periodDays output) : periodDays < 0x100000000 := by
  obtain ⟨verb, draft, operands, hdraft, hcommand⟩ := command_of_read h
  rw [hi] at hcommand
  unfold Verb.command? at hcommand
  split at hcommand
  · cases hcommand
  · obtain ⟨resampling, -, hregression⟩ := Option.map_eq_some_iff.1 hcommand
    cases hregression
  · cases hcommand
    exact hdraft
  · obtain ⟨path, -, hcompare⟩ := Option.map_eq_some_iff.1 hcommand
    cases hcompare
  · cases hcommand
  · cases hcommand
  · cases hcommand

end MetricWatch.CommandLine
