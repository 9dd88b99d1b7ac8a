import Mathlib.Algebra.BigOperators.Group.List.Basic
import TorrentServer.Library.CIntegers

/-!
The lexical structure of MySQL statements: single-quoted strings with doubled
quotes and backslash escapes, names in backquotes, words, symbols and comments.
Double quotes make a token of their own, since the mode of the server decides
whether it is a string or a name.
-/

namespace TorrentServer.Library.SqlText

open TorrentServer.Library.CIntegers

inductive Token
  | word (text : List Char)
  | name (text : List Char)
  | string (value : List Char)
  | quoted (value : List Char)
  | symbol (c : Char)
deriving DecidableEq

/-- What the lexer is in the middle of. The modes that end in `End` stand behind a
closing quote that may still turn out to be doubled. -/
inductive Mode
  | neutral
  | word (text : List Char)
  | name (text : List Char)
  | nameEnd (text : List Char)
  | string (value : List Char)
  | stringEscape (value : List Char)
  | stringEnd (value : List Char)
  | quoted (value : List Char)
  | quotedEscape (value : List Char)
  | quotedEnd (value : List Char)
  | dash
  | dashes
  | slash
  | lineComment
  | blockComment
  | blockStar
deriving DecidableEq

structure Lexer where
  tokens : List Token := []
  mode : Mode := .neutral
deriving DecidableEq

def isWord (c : Char) : Bool :=
  c.isAlphanum || c == '_' || c == '$' || c == '.' || decide (127 < c.toNat)

/-- The characters an escape stands for. Outside of patterns the backslash before
`%` and `_` is kept. -/
def unescape (c : Char) : List Char :=
  if c = '0' then ['\x00']
  else if c = 'b' then ['\x08']
  else if c = 'n' then ['\n']
  else if c = 'r' then ['\r']
  else if c = 't' then ['\t']
  else if c = 'Z' then ['\x1a']
  else if c = '%' || c = '_' then ['\\', c]
  else [c]

/-- A character that begins something new. -/
def start (tokens : List Token) (c : Char) : Lexer :=
  if isSpace c then ⟨tokens, .neutral⟩
  else if isWord c then ⟨tokens, .word [c]⟩
  else if c = '`' then ⟨tokens, .name []⟩
  else if c = '\'' then ⟨tokens, .string []⟩
  else if c = '"' then ⟨tokens, .quoted []⟩
  else if c = '-' then ⟨tokens, .dash⟩
  else if c = '/' then ⟨tokens, .slash⟩
  else if c = '#' then ⟨tokens, .lineComment⟩
  else ⟨tokens ++ [.symbol c], .neutral⟩

def step (l : Lexer) (c : Char) : Lexer :=
  match l.mode with
  | .neutral => start l.tokens c
  | .word text =>
      if isWord c then { l with mode := .word (text ++ [c]) }
      else start (l.tokens ++ [.word text]) c
  | .name text =>
      if c = '`' then { l with mode := .nameEnd text }
      else { l with mode := .name (text ++ [c]) }
  | .nameEnd text =>
      if c = '`' then { l with mode := .name (text ++ [c]) }
      else start (l.tokens ++ [.name text]) c
  | .string value =>
      if c = '\'' then { l with mode := .stringEnd value }
      else if c = '\\' then { l with mode := .stringEscape value }
      else { l with mode := .string (value ++ [c]) }
  | .stringEscape value => { l with mode := .string (value ++ unescape c) }
  | .stringEnd value =>
      if c = '\'' then { l with mode := .string (value ++ [c]) }
      else start (l.tokens ++ [.string value]) c
  | .quoted value =>
      if c = '"' then { l with mode := .quotedEnd value }
      else if c = '\\' then { l with mode := .quotedEscape value }
      else { l with mode := .quoted (value ++ [c]) }
  | .quotedEscape value => { l with mode := .quoted (value ++ unescape c) }
  | .quotedEnd value =>
      if c = '"' then { l with mode := .quoted (value ++ [c]) }
      else start (l.tokens ++ [.quoted value]) c
  | .dash => if c = '-' then { l with mode := .dashes } else start (l.tokens ++ [.symbol '-']) c
  | .dashes =>
      if isSpace c then { l with mode := if c = '\n' then .neutral else .lineComment }
      else start (l.tokens ++ [.symbol '-', .symbol '-']) c
  | .slash =>
      if c = '*' then { l with mode := .blockComment } else start (l.tokens ++ [.symbol '/']) c
  | .lineComment => if c = '\n' then { l with mode := .neutral } else l
  | .blockComment => if c = '*' then { l with mode := .blockStar } else l
  | .blockStar =>
      if c = '/' then { l with mode := .neutral }
      else if c = '*' then l
      else { l with mode := .blockComment }

def run (l : Lexer) (text : List Char) : Lexer :=
  text.foldl step l

/-- The tokens of a text that ends here; none inside a literal or a comment. -/
def finish (l : Lexer) : Option (List Token) :=
  match l.mode with
  | .neutral | .lineComment => some l.tokens
  | .word text => some (l.tokens ++ [.word text])
  | .nameEnd text => some (l.tokens ++ [.name text])
  | .stringEnd value => some (l.tokens ++ [.string value])
  | .quotedEnd value => some (l.tokens ++ [.quoted value])
  | .dash => some (l.tokens ++ [.symbol '-'])
  | .dashes => some (l.tokens ++ [.symbol '-', .symbol '-'])
  | .slash => some (l.tokens ++ [.symbol '/'])
  | _ => none

def lex (text : List Char) : Option (List Token) :=
  finish (run {} text)

section Cost

/-- What a character is counted as. What numbers, words, names and blanks are made of
counts nothing, so that the count sees only symbols and literals. -/
def weight (c : Char) : Nat :=
  if isSpace c || isWord c || c == '-' || c == '/' || c == '`' then 0 else 1

def weights (text : List Char) : Nat :=
  (text.map weight).sum

/-- The least weight of a character in a string literal: a quote or a backslash takes
another character with it, except for the backslash before `%` and `_`. -/
def charCost (c : Char) (next : Option Char) : Nat :=
  weight c +
    if c = '\'' then 1
    else if c = '\\' ∧ next ≠ some '%' ∧ next ≠ some '_' then 1
    else 0

def stringCost : List Char → Nat
  | [] => 0
  | c :: rest => charCost c rest.head? + stringCost rest

def tokenCost : Token → Nat
  | .string value => 2 + stringCost value
  | .symbol c => weight c
  | _ => 0

def cost (tokens : List Token) : Nat :=
  (tokens.map tokenCost).sum

def modeCost : Mode → Nat
  | .string value => 1 + stringCost value
  | .stringEscape value => 2 + stringCost value
  | .stringEnd value => 2 + stringCost value
  | _ => 0

def lexerCost (l : Lexer) : Nat :=
  cost l.tokens + modeCost l.mode

@[simp] theorem weights_nil : weights [] = 0 := rfl

@[simp] theorem weights_cons (c : Char) (text : List Char) :
    weights (c :: text) = weight c + weights text := by
  simp [weights]

@[simp] theorem weights_append (a b : List Char) :
    weights (a ++ b) = weights a + weights b := by
  simp [weights]

@[simp] theorem cost_nil : cost [] = 0 := rfl

@[simp] theorem cost_append (a b : List Token) : cost (a ++ b) = cost a + cost b := by
  simp [cost]

@[simp] theorem cost_cons (token : Token) (tokens : List Token) :
    cost (token :: tokens) = tokenCost token + cost tokens := by
  simp [cost]

theorem charCost_le_none (c : Char) (next : Option Char) : charCost c next ≤ charCost c none := by
  unfold charCost
  split
  · exact le_rfl
  · split
    · rename_i h
      simp [h.1]
    · simp

theorem stringCost_append_le (a b : List Char) :
    stringCost (a ++ b) ≤ stringCost a + stringCost b := by
  induction a with
  | nil => simp [stringCost]
  | cons c a ih =>
      have hchar : charCost c (a ++ b).head? ≤ charCost c a.head? := by
        cases a with
        | nil => exact charCost_le_none c _
        | cons d a => exact le_rfl
      simp only [List.cons_append, stringCost]
      omega

theorem stringCost_concat_le (value : List Char) (c : Char) :
    stringCost (value ++ [c]) ≤ stringCost value + charCost c none :=
  stringCost_append_le value [c]

theorem charCost_le (c : Char) : charCost c none ≤ weight c + 1 := by
  unfold charCost
  split
  · exact le_rfl
  · split <;> omega

theorem stringCost_unescape_le (c : Char) : stringCost (unescape c) ≤ 1 + weight c := by
  unfold unescape
  split_ifs with h0 hb hn hr ht hZ hpattern
  case pos => subst h0; decide
  case pos => subst hb; decide
  case pos => subst hn; decide
  case pos => subst hr; decide
  case pos => subst ht; decide
  case pos => subst hZ; decide
  case pos =>
      simp only [Bool.or_eq_true, decide_eq_true_eq] at hpattern
      rcases hpattern with rfl | rfl <;> decide
  case neg =>
      have hchar := charCost_le c
      simp only [stringCost, List.head?_nil]
      omega

theorem lexerCost_start_le (tokens : List Token) (c : Char) :
    lexerCost (start tokens c) ≤ cost tokens + weight c := by
  unfold start lexerCost
  split_ifs with hspace hword hname hstring hquoted hdash hslash hcomment
  case pos => simp [modeCost]
  case pos => simp [modeCost]
  case pos => simp [modeCost]
  case pos => subst hstring; simp [modeCost, stringCost]; decide
  case pos => simp [modeCost]
  case pos => simp [modeCost]
  case pos => simp [modeCost]
  case pos => simp [modeCost]
  case neg => simp [modeCost, tokenCost]

theorem lexerCost_string_le (tokens : List Token) (value : List Char) (c : Char) :
    lexerCost (step { tokens := tokens, mode := .string value } c) ≤
      lexerCost { tokens := tokens, mode := .string value } + weight c := by
  simp only [step]
  split
  · rename_i hc
    subst hc
    simp only [lexerCost, modeCost]
    have hweight : weight '\'' = 1 := rfl
    omega
  · split
    · rename_i hc
      subst hc
      simp only [lexerCost, modeCost]
      have hweight : weight '\\' = 1 := rfl
      omega
    · rename_i hquote hbackslash
      have hconcat := stringCost_concat_le value c
      simp only [charCost, hquote, hbackslash, if_false, false_and] at hconcat
      simp only [lexerCost, modeCost]
      omega

/-- No character buys more than its weight. -/
theorem lexerCost_step_le (l : Lexer) (c : Char) :
    lexerCost (step l c) ≤ lexerCost l + weight c := by
  obtain ⟨tokens, mode⟩ := l
  -- A closed token adds to the tokens what it was counted as while it was open.
  have hclosed : ∀ closed : List Token,
      lexerCost (start (tokens ++ closed) c) ≤ cost tokens + cost closed + weight c := by
    intro closed
    have hstart := lexerCost_start_le (tokens ++ closed) c
    rwa [cost_append] at hstart
  cases mode with
  | neutral => exact lexerCost_start_le tokens c
  | word text =>
      simp only [step]
      split
      · simp [lexerCost, modeCost]
      · exact hclosed [.word text]
  | name text =>
      simp only [step]
      split <;> simp [lexerCost, modeCost]
  | nameEnd text =>
      simp only [step]
      split
      · simp [lexerCost, modeCost]
      · exact hclosed [.name text]
  | string value => exact lexerCost_string_le tokens value c
  | stringEscape value =>
      have happend := stringCost_append_le value (unescape c)
      have hunescape := stringCost_unescape_le c
      simp only [step, lexerCost, modeCost]
      omega
  | stringEnd value =>
      simp only [step]
      split
      · have hconcat := stringCost_concat_le value c
        have hchar := charCost_le c
        simp only [lexerCost, modeCost]
        omega
      · exact hclosed [.string value]
  | quoted value =>
      simp only [step]
      split_ifs <;> simp [lexerCost, modeCost]
  | quotedEscape value => simp [step, lexerCost, modeCost]
  | quotedEnd value =>
      simp only [step]
      split
      · simp [lexerCost, modeCost]
      · exact hclosed [.quoted value]
  | dash =>
      simp only [step]
      split
      · simp [lexerCost, modeCost]
      · exact hclosed [.symbol '-']
  | dashes =>
      simp only [step]
      split
      · split <;> simp [lexerCost, modeCost]
      · exact hclosed [.symbol '-', .symbol '-']
  | slash =>
      simp only [step]
      split
      · simp [lexerCost, modeCost]
      · exact hclosed [.symbol '/']
  | lineComment =>
      simp only [step]
      split <;> simp [lexerCost, modeCost]
  | blockComment =>
      simp only [step]
      split <;> simp [lexerCost, modeCost]
  | blockStar =>
      simp only [step]
      split_ifs <;> simp [lexerCost, modeCost]

theorem lexerCost_run_le (l : Lexer) (text : List Char) :
    lexerCost (run l text) ≤ lexerCost l + weights text := by
  induction text generalizing l with
  | nil => exact le_rfl
  | cons c text ih =>
      have hstep := lexerCost_step_le l c
      have hrest := ih (step l c)
      rw [weights_cons]
      change lexerCost (run (step l c) text) ≤ _
      omega

theorem cost_of_finish {l : Lexer} {tokens : List Token} (h : finish l = some tokens) :
    cost tokens ≤ lexerCost l := by
  obtain ⟨before, mode⟩ := l
  cases mode <;> simp only [finish, Option.some.injEq, reduceCtorEq] at h
  all_goals
    subst h
    simp [lexerCost, modeCost, tokenCost, show weight '-' = 0 from rfl,
      show weight '/' = 0 from rfl]

/-- A text weighs at least as much as the tokens it reads as. -/
theorem cost_le_weights {text : List Char} {tokens : List Token} (h : lex text = some tokens) :
    cost tokens ≤ weights text := by
  have hrun := lexerCost_run_le {} text
  have hfinish := cost_of_finish h
  have hempty : lexerCost {} = 0 := rfl
  omega

end Cost

end TorrentServer.Library.SqlText
