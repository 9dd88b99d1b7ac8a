import TorrentServer.Library.SqlText

namespace TorrentServer.Library.SqlLiterals

open TorrentServer.Library.CIntegers
open TorrentServer.Library.SqlText

section Clean

/-- Neither a quote nor a zero character, and no backslash but before `%` and `_`. -/
def Clean : List Char → Prop
  | [] => True
  | c :: rest =>
      c ≠ '\'' ∧ c ≠ '\x00' ∧
        (c = '\\' → rest.head? = some '%' ∨ rest.head? = some '_') ∧ Clean rest

instance instDecidableClean : (value : List Char) → Decidable (Clean value)
  | [] => isTrue trivial
  | c :: rest =>
      have : Decidable (Clean rest) := instDecidableClean rest
      inferInstanceAs (Decidable (c ≠ '\'' ∧ c ≠ '\x00' ∧
        (c = '\\' → rest.head? = some '%' ∨ rest.head? = some '_') ∧ Clean rest))

/-- What `%s` writes. -/
def cString (value : List Char) : List Char :=
  value.takeWhile (· ≠ '\x00')

theorem clean_of_forall {value : List Char}
    (h : ∀ c ∈ value, c ≠ '\'' ∧ c ≠ '\x00' ∧ c ≠ '\\') : Clean value := by
  induction value with
  | nil => trivial
  | cons c value ih =>
      obtain ⟨hquote, hzero, hbackslash⟩ := h c List.mem_cons_self
      exact ⟨hquote, hzero, fun hc => absurd hc hbackslash,
        ih fun d hd => h d (List.mem_cons_of_mem _ hd)⟩

/-- A character without a meaning of its own separates. -/
theorem clean_append_cons_iff {a b : List Char} {c : Char}
    (hc : c ∉ ['\'', '\x00', '\\', '%', '_']) :
    Clean (a ++ c :: b) ↔ Clean a ∧ Clean b := by
  simp only [List.mem_cons, not_or] at hc
  obtain ⟨hquote, hzero, hbackslash, hpercent, hunderscore, -⟩ := hc
  induction a with
  | nil => simp [Clean, hquote, hzero, hbackslash]
  | cons d a ih =>
      have hhead : ((a ++ c :: b).head? = some '%' ∨ (a ++ c :: b).head? = some '_') ↔
          (a.head? = some '%' ∨ a.head? = some '_') := by
        cases a with
        | nil => simp [hpercent, hunderscore]
        | cons e a => rfl
      simp only [List.cons_append, Clean, hhead, ih]
      tauto

theorem cString_of_clean {value : List Char} (h : Clean value) : cString value = value := by
  induction value with
  | nil => rfl
  | cons c value ih =>
      rw [cString, List.takeWhile_cons_of_pos (by simpa using h.2.1)]
      exact congrArg (c :: ·) (ih h.2.2.2)

theorem weights_cString_le (value : List Char) : weights (cString value) ≤ stringCost value := by
  induction value with
  | nil => exact le_rfl
  | cons c value ih =>
      have hchar : weight c ≤ charCost c value.head? := Nat.le_add_right _ _
      by_cases hzero : c = '\x00'
      · rw [cString, List.takeWhile_cons_of_neg (by simpa using hzero)]
        exact Nat.zero_le _
      · rw [cString, List.takeWhile_cons_of_pos (by simpa using hzero), weights_cons, stringCost]
        exact Nat.add_le_add hchar ih

theorem charCost_le_iff (c : Char) (next : Option Char) :
    charCost c next ≤ weight c ↔
      c ≠ '\'' ∧ (c = '\\' → next = some '%' ∨ next = some '_') := by
  unfold charCost
  split_ifs with hquote hbackslash
  · simp [hquote]
  · obtain ⟨hc, hpercent, hunderscore⟩ := hbackslash
    simp [hc, hpercent, hunderscore]
  · simp only [Nat.add_zero, le_refl, true_iff]
    exact ⟨hquote, fun hc => by tauto⟩

theorem clean_of_stringCost_le {value : List Char}
    (h : stringCost value ≤ weights (cString value)) : Clean value := by
  induction value with
  | nil => trivial
  | cons c value ih =>
      have hrest := weights_cString_le value
      have hchar : weight c ≤ charCost c value.head? := Nat.le_add_right _ _
      by_cases hzero : c = '\x00'
      · rw [cString, List.takeWhile_cons_of_neg (by simpa using hzero)] at h
        subst hzero
        have hweight : weight '\x00' = 1 := rfl
        simp only [stringCost, weights_nil] at h
        omega
      · rw [cString, List.takeWhile_cons_of_pos (by simpa using hzero), weights_cons,
          stringCost, ← cString] at h
        obtain ⟨hquote, hbackslash⟩ := (charCost_le_iff c value.head?).mp (by omega)
        exact ⟨hquote, hzero, hbackslash, ih (by omega)⟩

theorem run_cons (l : Lexer) (c : Char) (text : List Char) :
    run l (c :: text) = run (step l c) text := rfl

theorem run_append (l : Lexer) (a b : List Char) : run l (a ++ b) = run (run l a) b :=
  List.foldl_append

/-- A clean text is the value of the literal it is written in. -/
theorem run_string_of_clean (tokens : List Token) (before : List Char) {value : List Char}
    (h : Clean value) :
    run ⟨tokens, .string before⟩ value = ⟨tokens, .string (before ++ value)⟩ := by
  match value, h with
  | [], _ => simp [run]
  | c :: rest, ⟨hquote, _, hbackslash, hrest⟩ =>
      by_cases hc : c = '\\'
      · subst hc
        -- The next character is a pattern character, which takes the backslash with it.
        obtain ⟨d, tail, rfl, hd⟩ : ∃ d tail, rest = d :: tail ∧ unescape d = ['\\', d] := by
          cases rest with
          | nil => simp at hbackslash
          | cons d tail =>
              refine ⟨d, tail, rfl, ?_⟩
              rcases hbackslash rfl with hd | hd <;> cases hd <;> rfl
        have htail := run_string_of_clean tokens (before ++ ['\\', d]) hrest.2.2.2
        rw [run_cons, run_cons]
        simpa [step, hd] using htail
      · have htail := run_string_of_clean tokens (before ++ [c]) hrest
        rw [run_cons]
        simpa [step, hquote, hc] using htail
  termination_by value.length

end Clean

section Numerals

/-- A number the way `%d`, `%lu`, `%zu` and `%f` write it. -/
@[ext] structure Numeral where
  negative : Bool
  digits : List Char
  digits_ne_nil : digits ≠ []
  isWord_digits : ∀ c ∈ digits, isWord c = true

def Numeral.text (n : Numeral) : List Char :=
  if n.negative then '-' :: n.digits else n.digits

def Numeral.tokens (n : Numeral) : List Token :=
  if n.negative then [.symbol '-', .word n.digits] else [.word n.digits]

theorem isWord_of_isDigit {c : Char} (h : c.isDigit = true) : isWord c = true := by
  simp [isWord, Char.isAlphanum, h]

def Numeral.ofNat (negative : Bool) (n : Nat) : Numeral where
  negative := negative
  digits := Nat.toDigits 10 n
  digits_ne_nil := Nat.toDigits_ne_nil
  isWord_digits _ hc :=
    isWord_of_isDigit (Nat.isDigit_of_mem_toDigits (by decide) (by decide) hc)

def Numeral.ofInt : Int → Numeral
  | .ofNat n => .ofNat false n
  | .negSucc n => .ofNat true (n + 1)

theorem Numeral.text_ofInt (n : Int) : (Numeral.ofInt n).text = (intText n).toList := by
  cases n with
  | ofNat n => simp [ofInt, ofNat, text, intText]
  | negSucc n => simp [ofInt, ofNat, text, intText]

theorem Numeral.tokens_append_inj {m n : Numeral} {a b : List Token}
    (h : m.tokens ++ a = n.tokens ++ b) : m = n ∧ a = b := by
  obtain ⟨mneg, mdigits, hm, hm'⟩ := m
  obtain ⟨nneg, ndigits, hn, hn'⟩ := n
  cases mneg <;> cases nneg <;> simp [Numeral.tokens] at h ⊢ <;> exact h

theorem weights_eq_zero_of_isWord {text : List Char} (h : ∀ c ∈ text, isWord c = true) :
    weights text = 0 := by
  induction text with
  | nil => rfl
  | cons c text ih =>
      have hc := h c List.mem_cons_self
      rw [weights_cons, ih fun d hd => h d (List.mem_cons_of_mem _ hd)]
      simp [weight, hc]

theorem Numeral.weights_text (n : Numeral) : weights n.text = 0 := by
  have hdigits := weights_eq_zero_of_isWord n.isWord_digits
  unfold text
  split
  · rw [weights_cons, hdigits]
    rfl
  · exact hdigits

end Numerals

section Literals

inductive Value
  | string (value : List Char)
  | number (n : Numeral)
  | null

def Value.tokens : Value → List Token
  | .string value => [.string value]
  | .number n => n.tokens
  | .null => [.word "NULL".toList]

/-- A literal: a string between quotes, or a number. -/
inductive Slot
  | string (value : List Char)
  | number (written meant : Numeral)

def Slot.text : Slot → List Char
  | .string value => '\'' :: (cString value ++ ['\''])
  | .number written _ => written.text

def Slot.meant : Slot → Value
  | .string value => .string value
  | .number _ meant => .number meant

def Slot.written : Slot → Value
  | .string value => .string value
  | .number written _ => .number written

/-- `%s` between quotes. -/
def slotS (text : String) : Slot :=
  .string text.toList

/-- `%d` for a value that is meant as `n`. -/
def slotD (x : UInt32) (n : Int) : Slot :=
  .number (.ofInt x.toInt32.toInt) (.ofInt n)

def slotLu (x : UInt64) : Slot :=
  .number (.ofInt x.toNat) (.ofInt x.toNat)

/-- The literal ends where it is meant to. -/
def Slot.Readable : Slot → Prop
  | .string value => Clean value
  | .number _ _ => True

def Slot.Exact : Slot → Prop
  | .string value => Clean value
  | .number written meant => written = meant

/-- The literal with what is written as its meaning. -/
def Slot.asWritten : Slot → Slot
  | .string value => .string value
  | .number written _ => .number written written

theorem Slot.asWritten_text (slot : Slot) : slot.asWritten.text = slot.text := by
  cases slot <;> rfl

theorem Slot.asWritten_meant (slot : Slot) : slot.asWritten.meant = slot.written := by
  cases slot <;> rfl

theorem Slot.asWritten_exact_iff (slot : Slot) : slot.asWritten.Exact ↔ slot.Readable := by
  cases slot with
  | string value => exact Iff.rfl
  | number written meant => exact iff_of_true rfl trivial

theorem Slot.Exact.readable {slot : Slot} (h : slot.Exact) : slot.Readable := by
  cases slot with
  | string value => exact h
  | number written meant => trivial

theorem Slot.Exact.written_eq {slot : Slot} (h : slot.Exact) : slot.written = slot.meant := by
  cases slot with
  | string value => rfl
  | number written meant => exact congrArg Value.number h

theorem Slot.weights_text_le (slot : Slot) : weights slot.text ≤ cost slot.meant.tokens := by
  cases slot with
  | string value =>
      have hvalue := weights_cString_le value
      have hquote : weight '\'' = 1 := rfl
      simp only [text, meant, Value.tokens, weights_cons, weights_append, weights_nil, cost_cons,
        cost_nil, tokenCost]
      omega
  | number written meant => exact (written.weights_text).le.trans (Nat.zero_le _)

theorem Slot.readable_of_cost_le {slot : Slot}
    (h : cost slot.meant.tokens ≤ weights slot.text) : slot.Readable := by
  cases slot with
  | string value =>
      have hquote : weight '\'' = 1 := rfl
      simp only [text, meant, Value.tokens, weights_cons, weights_append, weights_nil, cost_cons,
        cost_nil, tokenCost] at h
      exact clean_of_stringCost_le (by omega)
  | number written meant => trivial

theorem Slot.tokens_append_inj {slot : Slot} {a b : List Token} (hreadable : slot.Readable)
    (h : slot.written.tokens ++ a = slot.meant.tokens ++ b) : slot.Exact ∧ a = b := by
  cases slot with
  | string value => exact ⟨hreadable, List.append_cancel_left h⟩
  | number written meant => exact Numeral.tokens_append_inj h

end Literals

section Ends

def isDelimiter (c : Char) : Bool :=
  c == ' ' || c == ',' || c == '(' || c == ')'

/-- All that has been read is `tokens`, whether a delimiter follows or the end. -/
structure Ends (l : Lexer) (tokens : List Token) : Prop where
  step_eq : ∀ c, isDelimiter c = true → step l c = start tokens c
  finish_eq : finish l = some tokens

theorem isWord_of_isDelimiter {c : Char} (h : isDelimiter c = true) : isWord c = false := by
  simp only [isDelimiter, Bool.or_eq_true, beq_iff_eq] at h
  rcases h with ((rfl | rfl) | rfl) | rfl <;> rfl

theorem ne_quote_of_isDelimiter {c : Char} (h : isDelimiter c = true) : c ≠ '\'' := by
  rintro rfl
  cases h

theorem ends_neutral (tokens : List Token) : Ends ⟨tokens, .neutral⟩ tokens where
  step_eq _ _ := rfl
  finish_eq := rfl

theorem ends_word (tokens : List Token) (text : List Char) :
    Ends ⟨tokens, .word text⟩ (tokens ++ [.word text]) where
  step_eq c hc := by simp [step, isWord_of_isDelimiter hc]
  finish_eq := rfl

theorem ends_stringEnd (tokens : List Token) (value : List Char) :
    Ends ⟨tokens, .stringEnd value⟩ (tokens ++ [.string value]) where
  step_eq c hc := by simp [step, ne_quote_of_isDelimiter hc]
  finish_eq := rfl

theorem isSpace_of_isWord {c : Char} (h : isWord c = true) : isSpace c = false := by
  by_contra hspace
  simp only [Bool.not_eq_false, isSpace, Bool.or_eq_true, beq_iff_eq] at hspace
  rcases hspace with ((((rfl | rfl) | rfl) | rfl) | rfl) | rfl <;> cases h

theorem run_word (tokens : List Token) (before : List Char) {text : List Char}
    (h : ∀ c ∈ text, isWord c = true) :
    run ⟨tokens, .word before⟩ text = ⟨tokens, .word (before ++ text)⟩ := by
  induction text generalizing before with
  | nil => simp [run]
  | cons c text ih =>
      have hrest := ih (before ++ [c]) fun d hd => h d (List.mem_cons_of_mem _ hd)
      rw [run_cons]
      simpa [step, h c List.mem_cons_self] using hrest

/-- The digits of a numeral are one word, at the start of a text or behind its sign. -/
theorem run_digits (n : Numeral) {l : Lexer} {tokens : List Token}
    (h : ∀ c, isWord c = true → step l c = start tokens c) :
    run l n.digits = ⟨tokens, .word n.digits⟩ := by
  obtain ⟨c, rest, hdigits⟩ := List.exists_cons_of_ne_nil n.digits_ne_nil
  have hword := n.isWord_digits
  rw [hdigits] at hword ⊢
  have hc := hword c List.mem_cons_self
  rw [run_cons, h c hc]
  simp only [start, isSpace_of_isWord hc, hc, if_true, Bool.false_eq_true, if_false]
  exact run_word tokens [c] fun d hd => hword d (List.mem_cons_of_mem _ hd)

theorem Numeral.ends_run (n : Numeral) (tokens : List Token) :
    Ends (run ⟨tokens, .neutral⟩ n.text) (tokens ++ n.tokens) := by
  unfold text Numeral.tokens
  split
  · have hsign : ∀ c, isWord c = true →
        step ⟨tokens, .dash⟩ c = start (tokens ++ [.symbol '-']) c := by
      intro c hc
      have hdash : c ≠ '-' := by
        rintro rfl
        cases hc
      simp [step, hdash]
    rw [run_cons, show step ⟨tokens, .neutral⟩ '-' = ⟨tokens, .dash⟩ from rfl,
      run_digits n hsign]
    have hends := ends_word (tokens ++ [.symbol '-']) n.digits
    rwa [List.append_assoc] at hends
  · rw [run_digits n fun _ _ => rfl]
    exact ends_word tokens n.digits

theorem Slot.ends_run {slot : Slot} (h : slot.Readable) (tokens : List Token) :
    Ends (run ⟨tokens, .neutral⟩ slot.text) (tokens ++ slot.written.tokens) := by
  cases slot with
  | string value =>
      rw [text, cString_of_clean h, run_cons, run_append,
        show step ⟨tokens, .neutral⟩ '\'' = ⟨tokens, .string []⟩ from rfl,
        run_string_of_clean tokens [] h]
      exact ends_stringEnd tokens value
  | number written meant => exact written.ends_run tokens

end Ends

end TorrentServer.Library.SqlLiterals
