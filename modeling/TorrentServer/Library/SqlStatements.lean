import TorrentServer.Library.SqlLiterals

/-!
Statements the way a program writes them: fixed texts, and between them literals
whose contents are spliced in as they are. A template says for every literal what
is written and what is meant, and `Template.lex_eq_iff` says when the text of a
template is read as the tokens that are meant.
-/

namespace TorrentServer.Library.SqlStatements

open TorrentServer.Library.SqlText
open TorrentServer.Library.SqlLiterals

section Templates

/-- A text the lexer reads as whole tokens, with nothing lost in weight. -/
structure Fixed where
  text : List Char
  tokens : List Token
  settled : run {} text = ⟨tokens, .neutral⟩
  weighed : cost tokens = weights text

/-- A fixed text that may follow a literal. -/
structure Separator extends Fixed where
  delimited : text.head?.any isDelimiter = true

theorem start_append (before tokens : List Token) (c : Char) :
    start (before ++ tokens) c = ⟨before ++ (start tokens c).tokens, (start tokens c).mode⟩ := by
  unfold start
  split_ifs <;> simp

theorem step_append (before : List Token) (l : Lexer) (c : Char) :
    step ⟨before ++ l.tokens, l.mode⟩ c = ⟨before ++ (step l c).tokens, (step l c).mode⟩ := by
  obtain ⟨tokens, mode⟩ := l
  cases mode <;> simp only [step, List.append_assoc, start_append]
  all_goals
    split_ifs <;> rfl

theorem run_append_tokens (before : List Token) (l : Lexer) (text : List Char) :
    run ⟨before ++ l.tokens, l.mode⟩ text = ⟨before ++ (run l text).tokens, (run l text).mode⟩ := by
  induction text generalizing l with
  | nil => rfl
  | cons c text ih =>
      rw [run_cons, step_append, ih (step l c)]
      rfl

theorem Fixed.run_eq (fixed : Fixed) (before : List Token) :
    run ⟨before, .neutral⟩ fixed.text = ⟨before ++ fixed.tokens, .neutral⟩ := by
  have hrun := run_append_tokens before {} fixed.text
  rw [List.append_nil, fixed.settled] at hrun
  exact hrun

def Fixed.append (a b : Fixed) : Fixed where
  text := a.text ++ b.text
  tokens := a.tokens ++ b.tokens
  settled := by rw [run_append, a.settled, b.run_eq]
  weighed := by rw [cost_append, weights_append, a.weighed, b.weighed]

theorem Fixed.append_text {a b : Fixed} {s t : String} (ha : a.text = s.toList)
    (hb : b.text = t.toList) : (a.append b).text = (s ++ t).toList := by
  rw [String.toList_append, ← ha, ← hb]
  rfl

/-- A literal, of which `String.toList_ofList` gives the characters. -/
def Fixed.literal (text : String) {chars : List Char} (h : text.toList = chars)
    (tokens : List Token) (settled : run {} chars = ⟨tokens, .neutral⟩)
    (weighed : cost tokens = weights chars) : Fixed where
  text := text.toList
  tokens := tokens
  settled := by rwa [h]
  weighed := by rwa [h]

theorem Separator.run_eq (separator : Separator) {l : Lexer} {tokens : List Token}
    (h : Ends l tokens) :
    run l separator.text = ⟨tokens ++ separator.tokens, .neutral⟩ := by
  have hneutral := separator.toFixed.run_eq tokens
  have hdelimited := separator.delimited
  cases htext : separator.text with
  | nil =>
      rw [htext] at hdelimited
      cases hdelimited
  | cons c rest =>
      rw [htext] at hdelimited hneutral
      rw [run_cons, h.step_eq c (by simpa using hdelimited)]
      exact hneutral

/-- A text in which each literal stands behind a separator. -/
structure Template where
  head : Fixed
  literals : List (Separator × Slot)
  last : Option Separator

def textOf (literals : List (Separator × Slot)) : List Char :=
  literals.flatMap fun literal => literal.1.text ++ literal.2.text

def meantTokens (literals : List (Separator × Slot)) : List Token :=
  literals.flatMap fun literal => literal.1.tokens ++ literal.2.meant.tokens

def writtenTokens (literals : List (Separator × Slot)) : List Token :=
  literals.flatMap fun literal => literal.1.tokens ++ literal.2.written.tokens

theorem textOf_cons (literal : Separator × Slot) (literals : List (Separator × Slot)) :
    textOf (literal :: literals) = literal.1.text ++ (literal.2.text ++ textOf literals) := by
  simp [textOf]

theorem meantTokens_cons (literal : Separator × Slot) (literals : List (Separator × Slot)) :
    meantTokens (literal :: literals) =
      literal.1.tokens ++ (literal.2.meant.tokens ++ meantTokens literals) := by
  simp [meantTokens]

def lastText (last : Option Separator) : List Char :=
  last.elim [] fun separator => separator.text

def lastTokens (last : Option Separator) : List Token :=
  last.elim [] fun separator => separator.tokens

def Template.text (t : Template) : List Char :=
  t.head.text ++ (textOf t.literals ++ lastText t.last)

/-- What the text is meant to be read as. -/
def Template.tokens (t : Template) : List Token :=
  t.head.tokens ++ (meantTokens t.literals ++ lastTokens t.last)

theorem weights_textOf_le (literals : List (Separator × Slot)) :
    weights (textOf literals) ≤ cost (meantTokens literals) := by
  induction literals with
  | nil => exact le_rfl
  | cons literal literals ih =>
      have hslot := literal.2.weights_text_le
      have hseparator := literal.1.weighed
      simp only [textOf, meantTokens, List.flatMap_cons, weights_append, cost_append] at ih ⊢
      omega

theorem cost_lastTokens (last : Option Separator) :
    cost (lastTokens last) = weights (lastText last) := by
  cases last with
  | none => rfl
  | some separator => exact separator.weighed

theorem Template.weights_text_le (t : Template) : weights t.text ≤ cost t.tokens := by
  have hhead := t.head.weighed
  have hliterals := weights_textOf_le t.literals
  have hlast := cost_lastTokens t.last
  simp only [text, tokens, weights_append, cost_append]
  omega

theorem readable_of_cost_le {literals : List (Separator × Slot)}
    (h : cost (meantTokens literals) ≤ weights (textOf literals)) :
    ∀ literal ∈ literals, literal.2.Readable := by
  induction literals with
  | nil => simp
  | cons literal literals ih =>
      have hslot := literal.2.weights_text_le
      have hrest := weights_textOf_le literals
      have hseparator := literal.1.weighed
      simp only [textOf, meantTokens, List.flatMap_cons, weights_append,
        cost_append] at h hrest ih
      intro other hother
      rcases List.mem_cons.mp hother with rfl | hmem
      · exact Slot.readable_of_cost_le (by omega)
      · exact ih (by omega) other hmem

theorem ends_run_textOf {literals : List (Separator × Slot)}
    (h : ∀ literal ∈ literals, literal.2.Readable) {l : Lexer} {before : List Token}
    (hl : Ends l before) : Ends (run l (textOf literals)) (before ++ writtenTokens literals) := by
  induction literals generalizing l before with
  | nil => simpa [textOf, writtenTokens, run] using hl
  | cons literal literals ih =>
      have hslot := Slot.ends_run (h literal List.mem_cons_self) (before ++ literal.1.tokens)
      have hrest := ih (fun other hother => h other (List.mem_cons_of_mem _ hother)) hslot
      simp only [textOf, writtenTokens, List.flatMap_cons, List.append_assoc] at hrest ⊢
      rwa [run_append, run_append, literal.1.run_eq hl]

theorem finish_run_lastText (last : Option Separator) {l : Lexer} {tokens : List Token}
    (hl : Ends l tokens) : finish (run l (lastText last)) = some (tokens ++ lastTokens last) := by
  cases last with
  | none => simpa [lastText, lastTokens, run] using hl.finish_eq
  | some separator =>
      change finish (run l separator.text) = _
      rw [separator.run_eq hl]
      rfl

theorem Template.lex_of_readable {t : Template}
    (h : ∀ literal ∈ t.literals, literal.2.Readable) :
    lex t.text = some (t.head.tokens ++ (writtenTokens t.literals ++ lastTokens t.last)) := by
  have hhead := t.head.run_eq []
  have hliterals := ends_run_textOf h (ends_neutral ([] ++ t.head.tokens))
  have hlast := finish_run_lastText t.last hliterals
  rw [lex, text, run_append, run_append]
  change finish (run (run (run ⟨[], .neutral⟩ t.head.text) _) _) = _
  rw [hhead, hlast]
  simp

theorem exact_of_writtenTokens_eq {literals : List (Separator × Slot)} {rest : List Token}
    (hreadable : ∀ literal ∈ literals, literal.2.Readable)
    (h : writtenTokens literals ++ rest = meantTokens literals ++ rest) :
    ∀ literal ∈ literals, literal.2.Exact := by
  induction literals with
  | nil => simp
  | cons literal literals ih =>
      simp only [writtenTokens, meantTokens, List.flatMap_cons, List.append_assoc,
        List.append_cancel_left_eq] at h
      obtain ⟨hexact, hrest⟩ :=
        Slot.tokens_append_inj (hreadable literal List.mem_cons_self) h
      intro other hother
      rcases List.mem_cons.mp hother with rfl | hmem
      · exact hexact
      · exact ih (fun other hother => hreadable other (List.mem_cons_of_mem _ hother)) hrest
          other hmem

theorem meantTokens_of_exact {literals : List (Separator × Slot)}
    (h : ∀ literal ∈ literals, literal.2.Exact) :
    writtenTokens literals = meantTokens literals := by
  induction literals with
  | nil => rfl
  | cons literal literals ih =>
      have hrest := ih fun other hother => h other (List.mem_cons_of_mem _ hother)
      simp only [writtenTokens, meantTokens, List.flatMap_cons] at hrest ⊢
      rw [hrest, (h literal List.mem_cons_self).written_eq]

/-- A text is read as it is meant exactly when every literal in it is. -/
theorem Template.lex_eq_iff (t : Template) :
    lex t.text = some t.tokens ↔ ∀ literal ∈ t.literals, literal.2.Exact := by
  constructor
  · intro h
    -- By weight, no literal runs over its end; what is read then is what is written.
    have hcost := cost_le_weights h
    have hhead := t.head.weighed
    have hlast := cost_lastTokens t.last
    have hreadable : ∀ literal ∈ t.literals, literal.2.Readable := by
      simp only [text, tokens, weights_append, cost_append] at hcost
      exact readable_of_cost_le (by omega)
    rw [lex_of_readable hreadable, tokens, Option.some.injEq] at h
    exact exact_of_writtenTokens_eq hreadable (List.append_cancel_left h)
  · intro h
    rw [lex_of_readable fun literal hmem => (h literal hmem).readable, meantTokens_of_exact h]
    rfl

end Templates

section Separators

/-- Names with a comma behind each. -/
def columnTokens (columns : List String) : List Token :=
  columns.flatMap fun column => [.name column.toList, .symbol ',']

def Separator.literal (text : String) {chars : List Char} (h : text.toList = chars)
    (tokens : List Token) (settled : run {} chars = ⟨tokens, .neutral⟩)
    (weighed : cost tokens = weights chars) (delimited : chars.head?.any isDelimiter = true) :
    Separator where
  toFixed := .literal text h tokens settled weighed
  delimited := by
    change text.toList.head?.any isDelimiter = true
    rwa [h]

def blank : Separator := ⟨⟨[' '], [], rfl, rfl⟩, rfl⟩

/-- A separator with another blank in front. -/
def blankBefore (separator : Separator) : Separator where
  toFixed := blank.toFixed.append separator.toFixed
  delimited := rfl

def comma : Separator := ⟨⟨[','], [.symbol ','], rfl, rfl⟩, rfl⟩

def commaBlank : Separator := ⟨⟨[',', ' '], [.symbol ','], rfl, rfl⟩, rfl⟩

def blankComma : Separator := ⟨⟨[' ', ','], [.symbol ','], rfl, rfl⟩, rfl⟩

def blankCommaBlank : Separator := ⟨⟨[' ', ',', ' '], [.symbol ','], rfl, rfl⟩, rfl⟩

def blankCommaBlanks : Separator := ⟨⟨[' ', ',', ' ', ' '], [.symbol ','], rfl, rfl⟩, rfl⟩

end Separators

section Replace

def commaSeparated (items : List (List Token)) : List Token :=
  [Token.symbol ','].intercalate items

def tupleTokens (values : List Value) : List Token :=
  .symbol '(' :: (commaSeparated (values.map Value.tokens) ++ [.symbol ')'])

structure Replace where
  table : String
  columns : List String
  tuples : List (List Value)

def replaceHead (table : String) (columns : List String) : List Token :=
  [.word "REPLACE".toList, .word "INTO".toList, .name table.toList, .symbol '('] ++
    (commaSeparated (columns.map fun column => [.name column.toList]) ++
      [.symbol ')', .word "VALUES".toList])

def Replace.tokens (r : Replace) : List Token :=
  replaceHead r.table r.columns ++ commaSeparated (r.tuples.map tupleTokens)

/-- A tuple by its literals, each but the first behind a comma. -/
structure Tuple where
  first : Slot
  rest : List (Separator × Slot)
  commas : ∀ literal ∈ rest, literal.1.tokens = [.symbol ',']

def Tuple.slots (t : Tuple) : List Slot :=
  t.first :: t.rest.map Prod.snd

def Tuple.values (t : Tuple) : List Value :=
  t.slots.map Slot.meant

def Tuple.text (t : Tuple) : List Char :=
  ['('] ++ ((t.first.text ++ textOf t.rest) ++ [')'])

def openTuple : Separator := ⟨⟨['('], [.symbol '('], rfl, rfl⟩, rfl⟩

def nextTuple : Separator :=
  ⟨⟨[')', ',', '('], [.symbol ')', .symbol ',', .symbol '('], rfl, rfl⟩, rfl⟩

def closeTuple : Separator := ⟨⟨[')'], [.symbol ')'], rfl, rfl⟩, rfl⟩

def tupleLiterals : List Tuple → List (Separator × Slot)
  | [] => []
  | t :: ts =>
      (openTuple, t.first) :: (t.rest ++ ts.flatMap fun t => (nextTuple, t.first) :: t.rest)

/-- Tuples behind a fixed text, joined by commas. -/
def tuplesTemplate (head : Fixed) (tuples : List Tuple) : Template where
  head := head
  literals := tupleLiterals tuples
  last := some closeTuple

/-- Closing, separating and opening after each item is separating the closed items. -/
theorem join_eq_intercalate {α β : Type*} (opening separator closing : List β)
    (body : α → List β) (item : α) (items : List α) :
    opening ++ (body item ++
        (items.flatMap (fun item => closing ++ (separator ++ (opening ++ body item))) ++ closing)) =
      separator.intercalate
        ((item :: items).map fun item => opening ++ (body item ++ closing)) := by
  induction items generalizing item with
  | nil => simp
  | cons next items ih =>
      have hrest := ih next
      simp only [List.map_cons] at hrest ⊢
      rw [List.intercalate_cons_cons, ← hrest]
      simp

theorem tuplesTemplate_text (head : Fixed) {tuples : List Tuple} (h : tuples ≠ []) :
    (tuplesTemplate head tuples).text =
      head.text ++ [','].intercalate (tuples.map Tuple.text) := by
  obtain ⟨t, ts, rfl⟩ := List.exists_cons_of_ne_nil h
  have hjoin := join_eq_intercalate ['('] [','] [')']
    (fun t : Tuple => t.first.text ++ textOf t.rest) t ts
  have hnext : textOf (ts.flatMap fun t => (nextTuple, t.first) :: t.rest) =
      ts.flatMap fun t =>
        [')'] ++ ([','] ++ (['('] ++ (t.first.text ++ textOf t.rest))) := by
    simp [textOf, List.flatMap_assoc, nextTuple]
  rw [show Tuple.text = fun t => ['('] ++ ((t.first.text ++ textOf t.rest) ++ [')']) from rfl,
    ← hjoin, ← hnext]
  simp [Template.text, tuplesTemplate, tupleLiterals, textOf, lastText, openTuple, closeTuple]

theorem Tuple.meantTokens_eq (t : Tuple) :
    t.first.meant.tokens ++ meantTokens t.rest =
      commaSeparated (t.values.map Value.tokens) := by
  obtain ⟨first, rest, commas⟩ := t
  induction rest generalizing first with
  | nil => simp [Tuple.values, slots, meantTokens, commaSeparated]
  | cons literal rest ih =>
      have hrest := ih literal.2 fun other hother => commas other (List.mem_cons_of_mem _ hother)
      have hcomma := commas literal List.mem_cons_self
      simp only [Tuple.values, slots, List.map_cons, commaSeparated, meantTokens,
        List.flatMap_cons, List.intercalate_cons_cons, hcomma] at hrest ⊢
      rw [← hrest]
      simp

theorem tuplesTemplate_tokens (head : Fixed) {tuples : List Tuple} (h : tuples ≠ []) :
    (tuplesTemplate head tuples).tokens =
      head.tokens ++ commaSeparated (tuples.map fun t => tupleTokens t.values) := by
  obtain ⟨t, ts, rfl⟩ := List.exists_cons_of_ne_nil h
  have hjoin := join_eq_intercalate [Token.symbol '('] [.symbol ','] [.symbol ')']
    (fun t : Tuple => t.first.meant.tokens ++ meantTokens t.rest) t ts
  have hnext : meantTokens (ts.flatMap fun t => (nextTuple, t.first) :: t.rest) =
      ts.flatMap fun t => [.symbol ')'] ++ ([.symbol ','] ++ ([.symbol '('] ++
        (t.first.meant.tokens ++ meantTokens t.rest))) := by
    have htokens : nextTuple.tokens = [.symbol ')', .symbol ',', .symbol '('] := rfl
    simp [meantTokens, List.flatMap_assoc, htokens]
  have htuple : (fun t : Tuple => tupleTokens t.values) = fun t => [Token.symbol '('] ++
      ((t.first.meant.tokens ++ meantTokens t.rest) ++ [.symbol ')']) := by
    funext t
    rw [t.meantTokens_eq]
    rfl
  have hopen : openTuple.tokens = [.symbol '('] := rfl
  have hclose : closeTuple.tokens = [.symbol ')'] := rfl
  rw [htuple, commaSeparated, ← hjoin, ← hnext]
  simp [Template.tokens, tuplesTemplate, tupleLiterals, meantTokens, lastTokens, hopen, hclose]

theorem forall_tupleLiterals_iff (tuples : List Tuple) :
    (∀ literal ∈ tupleLiterals tuples, literal.2.Exact) ↔
      ∀ t ∈ tuples, ∀ slot ∈ t.slots, slot.Exact := by
  cases tuples with
  | nil => simp [tupleLiterals]
  | cons t ts =>
      simp only [tupleLiterals, Tuple.slots, List.forall_mem_cons, List.forall_mem_append,
        List.forall_mem_flatMap, List.forall_mem_map]
      tauto

def Tuple.cost (t : Tuple) : Nat :=
  3 + SqlText.cost (t.first.meant.tokens ++ meantTokens t.rest)

def Tuple.asWritten (t : Tuple) : Tuple where
  first := t.first.asWritten
  rest := t.rest.map fun literal => (literal.1, literal.2.asWritten)
  commas := by
    rw [List.forall_mem_map]
    exact t.commas

theorem Tuple.asWritten_slots (t : Tuple) : t.asWritten.slots = t.slots.map Slot.asWritten := by
  simp [asWritten, slots]

theorem Tuple.asWritten_text (t : Tuple) : t.asWritten.text = t.text := by
  simp [asWritten, text, textOf, List.flatMap_map, Slot.asWritten_text]

theorem Tuple.asWritten_values (t : Tuple) : t.asWritten.values = t.slots.map Slot.written := by
  simp [values, asWritten_slots, Function.comp_def, Slot.asWritten_meant]

/-- Where every literal ends where it is meant to, the tuples are read as they are
written. -/
theorem lex_tuples_of_readable (head : Fixed) {tuples : List Tuple} (htuples : tuples ≠ [])
    (h : ∀ t ∈ tuples, ∀ slot ∈ t.slots, slot.Readable) :
    lex (tuplesTemplate head tuples).text =
      some (head.tokens ++
        commaSeparated (tuples.map fun t => tupleTokens (t.slots.map Slot.written))) := by
  have hwritten : tuples.map Tuple.asWritten ≠ [] := by simpa using htuples
  have htext : (tuplesTemplate head tuples).text =
      (tuplesTemplate head (tuples.map Tuple.asWritten)).text := by
    rw [tuplesTemplate_text head htuples, tuplesTemplate_text head hwritten, List.map_map]
    simp [Function.comp_def, Tuple.asWritten_text]
  have hexact : ∀ literal ∈ (tuplesTemplate head (tuples.map Tuple.asWritten)).literals,
      literal.2.Exact := by
    apply (forall_tupleLiterals_iff _).mpr
    rw [List.forall_mem_map]
    intro t ht
    rw [Tuple.asWritten_slots, List.forall_mem_map]
    exact fun slot hslot => slot.asWritten_exact_iff.mpr (h t ht slot hslot)
  rw [htext, (Template.lex_eq_iff _).mpr hexact, tuplesTemplate_tokens head hwritten,
    List.map_map]
  simp [Function.comp_def, Tuple.asWritten_values]

end Replace

end TorrentServer.Library.SqlStatements
