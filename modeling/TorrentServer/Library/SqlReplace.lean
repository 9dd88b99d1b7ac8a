import TorrentServer.Library.KeyedTable
import TorrentServer.Library.SqlStatements

namespace TorrentServer.Library.SqlReplace

open TorrentServer.Library.KeyedTable
open TorrentServer.Library.SqlText
open TorrentServer.Library.SqlLiterals
open TorrentServer.Library.SqlStatements

section Reading

inductive Expected
  | replace
  | into
  | table
  | columnsOpen
  | column
  | columnEnd
  | values
  | tupleOpen
  | value
  | digits
  | valueEnd
  | tupleEnd
deriving DecidableEq

structure Reader where
  expected : Expected := .replace
  table : String := ""
  columns : List String := []
  tuples : List (List Value) := []
  current : List Value := []

def numeral (negative : Bool) (digits : List Char) : Option Numeral :=
  if h : digits ≠ [] ∧ digits.all isWord = true then
    some
      { negative := negative
        digits := digits
        digits_ne_nil := h.1
        isWord_digits := List.all_eq_true.mp h.2 }
  else none

def Reader.withNumber (r : Reader) (negative : Bool) (digits : List Char) : Option Reader :=
  (numeral negative digits).map fun n =>
    { r with current := r.current ++ [.number n], expected := .valueEnd }

def Reader.step (r : Reader) (token : Token) : Option Reader :=
  match r.expected with
  | .replace => if token = .word "REPLACE".toList then some { r with expected := .into } else none
  | .into => if token = .word "INTO".toList then some { r with expected := .table } else none
  | .table =>
      match token with
      | .name text => some { r with table := String.ofList text, expected := .columnsOpen }
      | _ => none
  | .columnsOpen => if token = .symbol '(' then some { r with expected := .column } else none
  | .column =>
      match token with
      | .name text =>
          some { r with columns := r.columns ++ [String.ofList text], expected := .columnEnd }
      | _ => none
  | .columnEnd =>
      if token = .symbol ',' then some { r with expected := .column }
      else if token = .symbol ')' then some { r with expected := .values }
      else none
  | .values =>
      if token = .word "VALUES".toList then some { r with expected := .tupleOpen } else none
  | .tupleOpen =>
      if token = .symbol '(' then some { r with current := [], expected := .value } else none
  | .value =>
      match token with
      | .string text =>
          some { r with current := r.current ++ [.string text], expected := .valueEnd }
      | .word digits => r.withNumber false digits
      | .symbol c => if c = '-' then some { r with expected := .digits } else none
      | _ => none
  | .digits =>
      match token with
      | .word digits => r.withNumber true digits
      | _ => none
  | .valueEnd =>
      if token = .symbol ',' then some { r with expected := .value }
      else if token = .symbol ')' then
        some { r with tuples := r.tuples ++ [r.current], current := [], expected := .tupleEnd }
      else none
  | .tupleEnd => if token = .symbol ',' then some { r with expected := .tupleOpen } else none

def readReplace (tokens : List Token) : Option Replace :=
  (tokens.foldlM Reader.step {}).bind fun r =>
    if r.expected = .tupleEnd then
      some { table := r.table, columns := r.columns, tuples := r.tuples }
    else none

/-- A statement with a value for each of its columns in every tuple, none of them `NULL`. -/
structure Literal (r : Replace) : Prop where
  columns_ne_nil : r.columns ≠ []
  tuples_ne_nil : r.tuples ≠ []
  widths : ∀ values ∈ r.tuples, values.length = r.columns.length
  values_ne_null : ∀ values ∈ r.tuples, ∀ value ∈ values, value ≠ .null

theorem numeral_eq (n : Numeral) : numeral n.negative n.digits = some n := by
  unfold numeral
  rw [dif_pos ⟨n.digits_ne_nil, List.all_eq_true.mpr n.isWord_digits⟩]

theorem foldlM_commaSeparated {α : Type*} {tokens : α → List Token} {ready done : List α → Reader}
    (hcomma : ∀ before, (done before).step (.symbol ',') = some (ready before))
    {items : List α} (hitems : items ≠ []) (before : List α)
    (hitem : ∀ before, ∀ item ∈ items,
      (tokens item).foldlM Reader.step (ready before) = some (done (before ++ [item]))) :
    (commaSeparated (items.map tokens)).foldlM Reader.step (ready before) =
      some (done (before ++ items)) := by
  obtain ⟨item, items, rfl⟩ := List.exists_cons_of_ne_nil hitems
  induction items generalizing item before with
  | nil => simpa [commaSeparated] using hitem before item
  | cons next items ih =>
      have hrest := ih (before ++ [item]) next (List.cons_ne_nil _ _)
        fun before other hother => hitem before other (List.mem_cons_of_mem _ hother)
      have hfirst := hitem before item List.mem_cons_self
      simp only [commaSeparated, List.map_cons, List.intercalate_cons_cons] at hrest ⊢
      rw [List.append_assoc, List.foldlM_append, hfirst]
      simp [hcomma, hrest]

theorem read_value {r : Reader} (h : r.expected = .value) {value : Value}
    (hvalue : value ≠ .null) :
    value.tokens.foldlM Reader.step r =
      some { r with current := r.current ++ [value], expected := .valueEnd } := by
  cases value with
  | string text => simp [Value.tokens, Reader.step, h]
  | null => exact absurd rfl hvalue
  | number n =>
      have hn := numeral_eq n
      cases hsign : n.negative with
      | false =>
          rw [hsign] at hn
          simp [Value.tokens, Numeral.tokens, hsign, Reader.step, h, Reader.withNumber, hn]
      | true =>
          rw [hsign] at hn
          have hminus : r.step (.symbol '-') = some { r with expected := .digits } := by
            simp only [Reader.step, h, if_true]
          have hdigits : Reader.step { r with expected := .digits } (.word n.digits) =
              some { r with current := r.current ++ [.number n], expected := .valueEnd } := by
            simp only [Reader.step, Reader.withNumber, hn, Option.map_some]
          simp only [Value.tokens, Numeral.tokens, hsign, if_true, List.foldlM_cons, hminus,
            Option.bind_eq_bind, Option.bind_some, hdigits, List.foldlM_nil, pure]

theorem read_tuple {r : Reader} (h : r.expected = .tupleOpen) {values : List Value}
    (hvalues : values ≠ []) (hnull : ∀ value ∈ values, value ≠ .null) :
    (tupleTokens values).foldlM Reader.step r =
      some { r with tuples := r.tuples ++ [values], current := [], expected := .tupleEnd } := by
  have hlist := @foldlM_commaSeparated _ Value.tokens
    (fun before => { r with current := before, expected := .value })
    (fun before => { r with current := before, expected := .valueEnd })
    (fun before => by simp [Reader.step]) values hvalues []
    (fun before value hvalue => read_value rfl (hnull value hvalue))
  have hopen : r.step (.symbol '(') = some { r with current := [], expected := .value } := by
    simp [Reader.step, h]
  rw [tupleTokens, List.foldlM_cons, hopen]
  simp only [Option.bind_eq_bind, Option.bind_some]
  rw [List.foldlM_append, hlist]
  simp [Reader.step]

theorem read_head (table : String) {columns : List String} (hcolumns : columns ≠ []) :
    (replaceHead table columns).foldlM Reader.step {} =
      some { expected := .tupleOpen, table := table, columns := columns } := by
  have hlist := @foldlM_commaSeparated _ (fun column : String => [Token.name column.toList])
    (fun before => { expected := .column, table := table, columns := before })
    (fun before => { expected := .columnEnd, table := table, columns := before })
    (fun before => by simp [Reader.step]) columns hcolumns []
    (fun before column _ => by simp [Reader.step])
  have hopen : [Token.word "REPLACE".toList, .word "INTO".toList, .name table.toList,
      .symbol '('].foldlM Reader.step {} = some { expected := .column, table := table } := by
    simp [Reader.step]
  rw [replaceHead, List.foldlM_append, hopen]
  simp only [Option.bind_eq_bind, Option.bind_some]
  rw [List.foldlM_append, hlist]
  simp [Reader.step]

/-- A statement is read back from its tokens. -/
theorem readReplace_tokens {r : Replace} (h : Literal r) : readReplace r.tokens = some r := by
  have hlist := @foldlM_commaSeparated _ tupleTokens
    (fun before =>
      { expected := .tupleOpen, table := r.table, columns := r.columns, tuples := before })
    (fun before =>
      { expected := .tupleEnd, table := r.table, columns := r.columns, tuples := before })
    (fun before => by simp [Reader.step]) r.tuples h.tuples_ne_nil []
    (fun before values hvalues => by
      have hne : values ≠ [] := by
        rintro rfl
        exact h.columns_ne_nil (List.length_eq_zero_iff.mp (h.widths [] hvalues).symm)
      exact read_tuple rfl hne (h.values_ne_null values hvalues))
  rw [readReplace, Replace.tokens, List.foldlM_append, read_head r.table h.columns_ne_nil]
  simp only [Option.bind_eq_bind, Option.bind_some]
  rw [hlist]
  rfl

end Reading

section Rows

abbrev Row := List (String × Value)

abbrev Contents := String → List Char → Option Row

def rowKey : Row → List Char
  | (_, .string key) :: _ => key
  | _ => []

def replaceRows (r : Replace) : List Row :=
  r.tuples.map fun values => r.columns.zip values

def Contents.replace (contents : Contents) (r : Replace) : Contents :=
  Function.update contents r.table (replaceInto rowKey (contents r.table) (replaceRows r))

theorem Contents.replace_self (contents : Contents) (r : Replace) :
    contents.replace r r.table = replaceInto rowKey (contents r.table) (replaceRows r) :=
  Function.update_self ..

theorem Contents.replace_of_ne (contents : Contents) (r : Replace) {table : String}
    (hne : table ≠ r.table) : contents.replace r table = contents table :=
  Function.update_of_ne hne ..

/-- The keys are written into the column of the primary key, and are texts which the
collation of that column tells apart as they are. -/
structure Keyed (primaryKey : String → Option String) (plain : List Char → Prop) (r : Replace) :
    Prop extends Literal r where
  primary : r.columns.head? = primaryKey r.table
  keys : ∀ values ∈ r.tuples, ∃ key, values.head? = some (.string key) ∧ plain key

/-- A database server as its clients see it. A query it answers with an error changes
nothing. -/
structure Server where
  State : Type
  contents : State → Contents
  query : State → List Char → Option State

/-- A statement the server executes replaces its rows. Whether it executes the statement
is left to the server: the values may be too long for their columns. -/
def Server.Executes (server : Server) (primaryKey : String → Option String)
    (plain : List Char → Prop) : Prop :=
  ∀ s text r s', lex text = some r.tokens → Keyed primaryKey plain r →
    server.query s text = some s' → server.contents s' = (server.contents s).replace r

/-- A text with an open literal or comment is an error. -/
def Server.Refuses (server : Server) : Prop :=
  ∀ s text, lex text = none → server.query s text = none

/-- A statement whose values all fit their columns is executed once the server is reached. -/
def Server.Accepts (server : Server) (primaryKey : String → Option String)
    (plain : List Char → Prop) (fits : String → List Value → Prop) : Prop :=
  ∀ s text r, lex text = some r.tokens → Keyed primaryKey plain r →
    (∀ values ∈ r.tuples, fits r.table values) → (server.query s text).isSome = true

/-- A server that knows no other statement and no types of columns. -/
def literalServer : Server where
  State := Contents
  contents := id
  query contents text := ((lex text).bind readReplace).map contents.replace

theorem finish_append (before tokens : List Token) (mode : Mode) :
    finish ⟨before ++ tokens, mode⟩ = (finish ⟨tokens, mode⟩).map (before ++ ·) := by
  cases mode <;> simp [finish]

theorem lex_fixed_append (fixed : Fixed) (text : List Char) :
    lex (fixed.text ++ text) = (lex text).map (fixed.tokens ++ ·) := by
  have hhead := fixed.run_eq []
  rw [lex, run_append, show ({} : Lexer) = ⟨[], .neutral⟩ from rfl, hhead, List.nil_append]
  have hrest := run_append_tokens fixed.tokens {} text
  rw [List.append_nil] at hrest
  rw [hrest, finish_append]
  rfl

theorem literalServer_executes (primaryKey : String → Option String) (plain : List Char → Prop) :
    literalServer.Executes primaryKey plain := by
  intro s text r s' htext hkeyed hquery
  have hread := readReplace_tokens hkeyed.toLiteral
  simp only [literalServer, htext, Option.bind_some, hread, Option.map_some] at hquery
  exact (Option.some.inj hquery).symm

theorem literalServer_accepts (primaryKey : String → Option String) (plain : List Char → Prop)
    (fits : String → List Value → Prop) : literalServer.Accepts primaryKey plain fits := by
  intro s text r htext hkeyed _
  have hread := readReplace_tokens hkeyed.toLiteral
  simp [literalServer, htext, hread]

theorem literalServer_refuses : literalServer.Refuses := by
  intro s text htext
  simp [literalServer, htext]

end Rows

end TorrentServer.Library.SqlReplace
