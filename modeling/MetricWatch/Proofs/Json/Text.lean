import Mathlib.Tactic.SplitIfs
import MetricWatch.Json.Lexeme
import MetricWatch.Json.Writer

namespace MetricWatch.Json.TextScan

def more? (t : TextScan) (c : Char) : Option TextScan :=
  match t.step c with
  | .more t => some t
  | _ => none

def feed (t : TextScan) (text : List Char) : Option TextScan := text.foldlM more? t

variable {t t' : TextScan} {text rest : List Char} {c : Char}

theorem step_of_more? (h : t.more? c = some t') : t.step c = .more t' := by
  unfold more? at h
  cases hstep : t.step c with
  | more m =>
    rw [hstep] at h
    rw [Option.some.inj h]
  | ended =>
    rw [hstep] at h
    cases h
  | fault =>
    rw [hstep] at h
    cases h

@[simp]
theorem feed_nil (t : TextScan) : t.feed [] = some t := rfl

theorem feed_cons (h : t.step c = .more t') : t.feed (c :: rest) = t'.feed rest := by
  rw [feed, List.foldlM_cons, more?, h]
  rfl

theorem feed_append (h : t.feed text = some t') : t.feed (text ++ rest) = t'.feed rest := by
  rw [feed] at h
  rw [feed, List.foldlM_append, h]
  rfl

theorem step_backslash (ht : t.escape = .none) :
    t.step '\\' = .more { t with escape := .letter } := by
  rw [step, ht]
  rfl

theorem feed_letter (ht : t.escape = .none) {letter : Char}
    (h : ∀ t : TextScan, t.letterStep letter = .more (t.push c)) :
    t.feed ['\\', letter] = some (t.push c) := by
  have hletter : step { t with escape := .letter } letter = .more (t.push c) := h _
  rw [feed_cons (step_backslash ht), feed_cons hletter, feed_nil]

theorem hexValue?_hexDigit {n : Nat} (h : n < 16) : hexValue? (hexDigit n) = some n := by
  have hall : ∀ n < 16, hexValue? (hexDigit n) = some n := by decide
  exact hall n h

theorem step_hex {missing value digit : Nat} (hc : hexValue? c = some digit) :
    step { t with escape := .hex (missing + 2) value } c =
      .more { t with escape := .hex (missing + 1) (16 * value + digit) } := by
  have hmissing : ¬ missing + 2 ≤ 1 := by omega
  simp [step, hc]

theorem step_lastHex {value digit : Nat} (hc : hexValue? c = some digit) :
    step { t with escape := .hex 1 value } c =
      .more (pushUnit { t with escape := .hex 1 value } (16 * value + digit)) := by
  simp [step, hc]

/-- A control character is written as its number, in four hexadecimal digits. -/
theorem feed_control (ht : t.escape = .none) (hc : c.toNat < 0x20) :
    t.feed ['\\', 'u', '0', '0', hexDigit (c.toNat / 16), hexDigit (c.toNat % 16)] =
      some (t.push c) := by
  have hu : step { t with escape := .letter } 'u' = .more { t with escape := .hex 4 0 } := rfl
  have hzero : hexValue? '0' = some 0 := by decide
  have hhigh : hexValue? (hexDigit (c.toNat / 16)) = some (c.toNat / 16) :=
    hexValue?_hexDigit (by omega)
  have hlow : hexValue? (hexDigit (c.toNat % 16)) = some (c.toNat % 16) :=
    hexValue?_hexDigit (by omega)
  have hunit : 16 * (16 * (16 * (16 * 0 + 0) + 0) + c.toNat / 16) + c.toNat % 16 = c.toNat := by
    omega
  have hpush : pushUnit { t with escape := .hex 1 (16 * (16 * (16 * 0 + 0) + 0) + c.toNat / 16) }
      c.toNat = t.push c := by
    rw [pushUnit, if_neg (by omega), if_neg (by omega), Char.ofNat_toNat]
    rfl
  rw [feed_cons (step_backslash ht), feed_cons hu, feed_cons (step_hex hzero),
    feed_cons (step_hex hzero), feed_cons (step_hex hhigh), feed_cons (step_lastHex hlow), hunit,
    hpush, feed_nil]

theorem feed_escape (ht : t.escape = .none) (c : Char) :
    t.feed (Json.escape c) = some (t.push c) := by
  unfold Json.escape
  split_ifs with hquote hbackslash hback hform hline hreturn htab hcontrol
  · exact feed_letter ht fun t ↦ by rw [hquote]; rfl
  · exact feed_letter ht fun t ↦ by rw [hbackslash]; rfl
  · exact feed_letter ht fun t ↦ by rw [hback]; rfl
  · exact feed_letter ht fun t ↦ by rw [hform]; rfl
  · exact feed_letter ht fun t ↦ by rw [hline]; rfl
  · exact feed_letter ht fun t ↦ by rw [hreturn]; rfl
  · exact feed_letter ht fun t ↦ by rw [htab]; rfl
  · exact feed_control ht hcontrol
  · have hstep : t.step c = .more (t.push c) := by
      rw [step, ht]
      simp [hquote, hbackslash, hcontrol]
    rw [feed_cons hstep, feed_nil]

theorem feed_flatMap_escape (ht : t.escape = .none) (chars : List Char) :
    t.feed (chars.flatMap Json.escape) = some (chars.foldl push t) := by
  induction chars generalizing t with
  | nil => rfl
  | cons c chars ih =>
    rw [List.flatMap_cons, feed_append (feed_escape ht c), ih rfl, List.foldl_cons]

theorem foldl_push (chars before : List Char) :
    chars.foldl push ⟨before, .none, none, false⟩ = ⟨chars.reverse ++ before, .none, none, false⟩ := by
  induction chars generalizing before with
  | nil => rfl
  | cons c chars ih =>
    have hpush : push ⟨before, .none, none, false⟩ c = ⟨c :: before, .none, none, false⟩ := rfl
    rw [List.foldl_cons, hpush, ih, List.reverse_cons, List.append_assoc]
    rfl

def quoted (text : String) : TextScan := ⟨text.toList.reverse, .none, none, false⟩

theorem feed_quoted (text : String) :
    start.feed (text.toList.flatMap Json.escape) = some (quoted text) := by
  rw [feed_flatMap_escape rfl, start, foldl_push, List.append_nil]
  rfl

theorem text?_quoted (text : String) : (quoted text).text? = some text := by
  rw [text?, quoted, List.reverse_reverse, String.ofList_toList]
  rfl

theorem step_quoted (text : String) : (quoted text).step '"' = .ended := rfl

end MetricWatch.Json.TextScan
