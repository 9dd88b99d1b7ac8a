import Mathlib.Data.Finset.Sort
import Mathlib.Data.String.Basic
import TorrentServer.Library.SqlReplace
import TorrentServer.RowReading
import TorrentServer.SqlExecutor
import TorrentServer.TableMirror

namespace TorrentServer.BatchReading

open TorrentServer.Records
open TorrentServer.ChainLibrary
open TorrentServer.MysqlTables
open TorrentServer.SqlExecutor (Queue putMysqlExeQueueBatch)
open TorrentServer.ReplaceStatements
open TorrentServer.TaskTexts (Append Texts taskTexts torrents payments)
open TorrentServer.ReplaceReading (WritesNumerals)
open TorrentServer.RowReading
open TorrentServer.Library.KeyedTable
open TorrentServer.Library.SqlText
open TorrentServer.Library.SqlLiterals
open TorrentServer.Library.SqlStatements
open TorrentServer.Library.SqlReplace

section Batches

/-- What `MysqlCheckTask::OnTriggeringTask` puts into the batch queue: the entries of the
map in the order of their keys. -/
def batchTasks (task : Texts) : List SqlExecutor.MysqlTask :=
  task.keys.sort.filterMap fun type => (task.lookup type).map (putMysqlExeQueueBatch type)

inductive Table
  | torrent
  | torrentPayment
deriving DecidableEq

def Table.type : Table → String
  | .torrent => torrentType
  | .torrentPayment => torrentPaymentType

/-- The statement for a table, by the calls since the flush before. -/
structure Batch where
  table : Table
  calls : List Append

variable (formatF : UInt64 → Numeral) (env : Environment)

def Batch.value (b : Batch) : Option String :=
  (taskTexts formatF env b.calls).lookup b.table.type

def Batch.task (b : Batch) : SqlExecutor.MysqlTask :=
  putMysqlExeQueueBatch b.table.type ((b.value formatF env).getD "")

def Batch.statement (b : Batch) : Statement :=
  match b.table with
  | .torrent => .replaceTorrent (rowTask env b.calls).torrent
  | .torrentPayment => .replaceTorrentPayment (rowTask env b.calls).torrentPayment

def batchesOf (calls : List Append) : List Batch :=
  [{ table := .torrentPayment, calls := calls }, { table := .torrent, calls := calls }].filter
    fun b => (b.value formatF env).isSome

/-- Texts that begin alike are ordered by the first characters that differ. -/
theorem append_lt_append {s t : String} (s' t' : String) {cs ds : List Char} (hs : s.toList = cs)
    (ht : t.toList = ds) (n : Nat) {a b : Char} (htake : cs.take n = ds.take n)
    (ha : cs[n]? = some a) (hb : ds[n]? = some b) (hlt : a < b) : s ++ s' < t ++ t' := by
  have hsplit : ∀ {l : List Char} {c : Char}, l[n]? = some c →
      l = l.take n ++ c :: l.drop (n + 1) := by
    intro l c hc
    obtain ⟨hn, rfl⟩ := List.getElem?_eq_some_iff.mp hc
    rw [← List.drop_eq_getElem_cons, List.take_append_drop]
  rw [String.lt_iff_toList_lt, String.toList_append, String.toList_append, hs, ht, hsplit ha,
    hsplit hb, htake, List.append_assoc, List.append_assoc]
  exact List.Lex.append_left _ (.rel hlt) _

theorem torrentPaymentType_lt : torrentPaymentType < torrentType := by
  unfold torrentPaymentType torrentType
  simp only [String.append_assoc]
  exact append_lt_append _ _ String.toList_ofList String.toList_ofList 21 rfl rfl rfl (by decide)

theorem sort_filterMap_pair {α β : Type*} [LinearOrder α] {a b : α} (hlt : a < b)
    {keys : Finset α} (hkeys : keys ⊆ {a, b}) {f : α → Option β}
    (hnone : ∀ key ∉ keys, f key = none) : keys.sort.filterMap f = [a, b].filterMap f := by
  by_cases ha : a ∈ keys
  · by_cases hb : b ∈ keys
    · have hpair : keys = insert a {b} := by
        apply Finset.Subset.antisymm hkeys
        simp [Finset.insert_subset_iff, ha, hb]
      rw [hpair, Finset.sort_insert _ (by simpa using hlt.le) (by simpa using hlt.ne),
        Finset.sort_singleton]
    · have hsingle : keys = {a} := by
        ext key
        have hmem := @hkeys key
        simp only [Finset.mem_insert, Finset.mem_singleton] at hmem ⊢
        constructor
        · rintro hkey
          rcases hmem hkey with rfl | rfl
          · rfl
          · exact absurd hkey hb
        · rintro rfl
          exact ha
      rw [hsingle, Finset.sort_singleton]
      simp [List.filterMap_cons, hnone b hb]
  · have hsub : keys ⊆ {b} := by
      intro key hkey
      rcases Finset.mem_insert.mp (hkeys hkey) with rfl | hmem
      · exact absurd hkey ha
      · exact hmem
    rcases Finset.subset_singleton_iff.mp hsub with rfl | rfl
    · simp [hnone a ha, hnone b (by simp)]
    · rw [Finset.sort_singleton]
      simp [List.filterMap_cons, hnone a ha]

theorem mem_taskTexts {calls : List Append} {key : String}
    (h : key ∈ taskTexts formatF env calls) : key = torrentPaymentType ∨ key = torrentType := by
  by_contra hne
  rw [not_or] at hne
  have hnone : (taskTexts formatF env calls).lookup key = none := by
    rw [taskTexts, TaskTexts.lookup_foldl_apply]
    have hempty : calls.flatMap (TaskTexts.tupleTexts formatF env key) = [] := by
      rw [List.flatMap_eq_nil_iff]
      intro call _
      cases call <;> simp [TaskTexts.tupleTexts, Ne.symm hne.1, Ne.symm hne.2]
    rw [hempty]
    rfl
  rw [Finmap.lookup_eq_none] at hnone
  exact hnone h

/-- The flush puts the batches of the calls since the last one into the queue. -/
theorem batchTasks_taskTexts (calls : List Append) :
    batchTasks (taskTexts formatF env calls) =
      (batchesOf formatF env calls).map (Batch.task formatF env) := by
  have hkeys : (taskTexts formatF env calls).keys ⊆ {torrentPaymentType, torrentType} := by
    intro key hkey
    rw [Finmap.mem_keys] at hkey
    simpa using mem_taskTexts formatF env hkey
  rw [batchTasks, sort_filterMap_pair torrentPaymentType_lt hkeys]
  · unfold batchesOf
    cases hpayment : (taskTexts formatF env calls).lookup torrentPaymentType <;>
      cases htorrent : (taskTexts formatF env calls).lookup torrentType <;>
      simp [Batch.value, Batch.task, Table.type, hpayment, htorrent]
  · intro key hkey
    rw [Finmap.mem_keys] at hkey
    rw [Finmap.lookup_eq_none.mpr hkey]
    rfl

theorem rowTask_eq (calls : List Append) :
    rowTask env calls =
      { torrent := (torrents calls).filterMap fun call => torrentRow env call.2
        torrentPayment :=
          (payments calls).filterMap fun call => torrentPaymentRow env call.2.payment } := by
  rw [rowTask, foldl_appendRecord]
  rfl

theorem rowTask_append (calls more : List Append) :
    rowTask env (calls ++ more) = (rowTask env calls).concat (rowTask env more) := by
  rw [rowTask, List.foldl_append, foldl_appendRecord env more, ← rowTask_eq env more]
  rfl

theorem joined_isSome (values : List String) :
    (TaskTexts.joined none values).isSome = !values.isEmpty := by
  cases values with
  | nil => rfl
  | cons value values =>
      obtain ⟨text, htext, -⟩ := TaskTexts.joined_none (value :: values) (List.cons_ne_nil _ _)
      rw [htext]
      rfl

theorem value_isSome_iff (b : Batch) :
    (b.value formatF env).isSome = true ↔
      match b.table with
      | .torrent => (rowTask env b.calls).torrent ≠ []
      | .torrentPayment => (rowTask env b.calls).torrentPayment ≠ [] := by
  obtain ⟨table, calls⟩ := b
  cases table with
  | torrent =>
      rw [Batch.value, Table.type, TaskTexts.lookup_torrentType, joined_isSome, rowTask_eq]
      simp [TaskTexts.torrentTupleText, torrentRow]
  | torrentPayment =>
      rw [Batch.value, Table.type, TaskTexts.lookup_torrentPaymentType, joined_isSome, rowTask_eq]
      simp [TaskTexts.torrentPaymentTupleText, torrentPaymentRow]

theorem statements_batchesOf (calls : List Append) :
    (batchesOf formatF env calls).map (Batch.statement env) = (rowTask env calls).statements := by
  have hpayment := value_isSome_iff formatF env { table := .torrentPayment, calls := calls }
  have htorrent := value_isSome_iff formatF env { table := .torrent, calls := calls }
  simp only [ne_eq] at hpayment htorrent
  by_cases hp : (rowTask env calls).torrentPayment = [] <;>
    by_cases ht : (rowTask env calls).torrent = [] <;>
    simp_all [batchesOf, MysqlTask.statements, Batch.statement]

end Batches

section Reading

/-- The primary keys of `create.sql`. -/
def primaryKey : String → Option String
  | "torrent" => some "id"
  | "torrent_payment" => some "payment_id"
  | _ => none

/-- Keys of lower-case hexadecimal digits; other texts the collation of the key columns
may take for the same. -/
def HashText (key : List Char) : Prop :=
  ∃ id : HashId, key = id.str.toList

/-- A record whose texts stand in a literal as they are. -/
def CleanCall : Append → Prop
  | .torrent _ b => TorrentClean b ∧ HashText b.id.toList
  | .torrentPayment _ b => PaymentClean b ∧ HashText b.payment.paymentId.toList

def TorrentShown (row : Row) (r : TorrentRow) : Prop :=
  ∃ time, row = torrentColumns.zip (torrentRowValues time r)

/-- The maps are shown as texts, with their entries in some order. -/
def TorrentPaymentShown (row : Row) (r : TorrentPaymentRow) : Prop :=
  ∃ (time : Numeral) (b : OrderedPayment), b.payment.payPieces = r.payPieces ∧
    b.payment.increaseTrx = r.increaseTrx ∧
    row = torrentPaymentColumns.zip
      (torrentPaymentRowValues time b.payPiecesText b.increaseTrxText r)

/-- The server holds the rows of the tables. -/
structure Represents (contents : Contents) (tables : Tables) : Prop where
  torrent : ∀ id : String,
    Option.Rel TorrentShown (contents "torrent" id.toList) (tables.torrent id)
  torrentPayment : ∀ id : String,
    Option.Rel TorrentPaymentShown (contents "torrent_payment" id.toList)
      (tables.torrentPayment id)

theorem TorrentShown.key {row : Row} {r : TorrentRow} (h : TorrentShown row r) :
    rowKey row = r.id.toList := by
  obtain ⟨time, rfl⟩ := h
  rfl

theorem TorrentPaymentShown.key {row : Row} {r : TorrentPaymentRow}
    (h : TorrentPaymentShown row r) : rowKey row = r.paymentId.toList := by
  obtain ⟨time, b, -, -, rfl⟩ := h
  rfl

theorem forall₂_filterMap {α β γ : Type*} {Shows : γ → β → Prop} {row : α → Option β}
    {shown : α → β → γ} {items : List α}
    (h : ∀ item ∈ items, ∀ b, row item = some b → Shows (shown item b) b) :
    List.Forall₂ Shows (items.filterMap fun item => (row item).map (shown item))
      (items.filterMap row) := by
  induction items with
  | nil => exact .nil
  | cons item items ih =>
      rw [List.forall_mem_cons] at h
      cases hrow : row item with
      | none => simpa [hrow] using ih h.2
      | some b => simpa [hrow] using List.Forall₂.cons (h.1 b hrow) (ih h.2)

variable (formatF : UInt64 → Numeral) (env : Environment)

/-- The statement the server reads in the text of a batch. -/
def Batch.replace (b : Batch) : Replace :=
  match b.table with
  | .torrent =>
      { table := "torrent"
        columns := torrentColumns
        tuples := (torrents b.calls).filterMap fun call =>
          (torrentRow env call.2).map (torrentRowValues (formatF call.1)) }
  | .torrentPayment =>
      { table := "torrent_payment"
        columns := torrentPaymentColumns
        tuples := (payments b.calls).filterMap fun call =>
          (torrentPaymentRow env call.2.payment).map
            (torrentPaymentRowValues (formatF call.1) call.2.payPiecesText
              call.2.increaseTrxText) }

variable {formatF env}

theorem clean_torrents {calls : List Append} (h : ∀ call ∈ calls, CleanCall call) :
    ∀ call ∈ torrents calls, TorrentClean call.2 ∧ HashText call.2.id.toList := by
  intro call hcall
  obtain ⟨append, hmem, hsome⟩ := List.mem_filterMap.mp hcall
  cases append with
  | torrent now b =>
      cases hsome
      exact h _ hmem
  | torrentPayment now b => cases hsome

theorem clean_payments {calls : List Append} (h : ∀ call ∈ calls, CleanCall call) :
    ∀ call ∈ payments calls, PaymentClean call.2 ∧ HashText call.2.payment.paymentId.toList := by
  intro call hcall
  obtain ⟨append, hmem, hsome⟩ := List.mem_filterMap.mp hcall
  cases append with
  | torrent now b => cases hsome
  | torrentPayment now b =>
      cases hsome
      exact h _ hmem

theorem read_batch {b : Batch} (hvalue : (b.value formatF env).isSome = true) :
    lex (Queue.batch.statement (b.task formatF env)).toList =
      ReplaceReading.read b.table.type (taskTexts formatF env b.calls) := by
  obtain ⟨text, htext⟩ := Option.isSome_iff_exists.mp hvalue
  have htask : Queue.batch.statement (b.task formatF env) = b.table.type ++ text := by
    simp only [Queue.statement, Batch.task, putMysqlExeQueueBatch, htext, Option.getD_some]
  rw [Batch.value] at htext
  rw [htask, ReplaceReading.read, TaskTexts.statementText, htext, Option.map_some,
    Option.bind_some]

/-- A batch of clean records is read as the rows it stands for. -/
theorem lex_batch (hnumerals : WritesNumerals env.decimals) {b : Batch}
    (hclean : ∀ call ∈ b.calls, CleanCall call) (hvalue : (b.value formatF env).isSome = true) :
    lex (Queue.batch.statement (b.task formatF env)).toList =
      some (b.replace formatF env).tokens := by
  have hrows := (value_isSome_iff formatF env b).mp hvalue
  rw [read_batch hvalue]
  obtain ⟨table, calls⟩ := b
  cases table with
  | torrent =>
      exact read_torrent_rows hnumerals
        (fun call hcall => (clean_torrents hclean call hcall).1) hrows
  | torrentPayment =>
      exact read_torrentPayment_rows hnumerals
        (fun call hcall => (clean_payments hclean call hcall).1) hrows

theorem shown_torrents {b : Batch} (htable : b.table = .torrent) :
    List.Forall₂ TorrentShown (replaceRows (b.replace formatF env))
      (rowTask env b.calls).torrent := by
  rw [rowTask_eq]
  simp only [replaceRows, Batch.replace, htable, List.map_filterMap, Option.map_map]
  exact forall₂_filterMap fun call _ r _ => ⟨_, rfl⟩

theorem shown_payments {b : Batch} (htable : b.table = .torrentPayment) :
    List.Forall₂ TorrentPaymentShown (replaceRows (b.replace formatF env))
      (rowTask env b.calls).torrentPayment := by
  rw [rowTask_eq]
  simp only [replaceRows, Batch.replace, htable, List.map_filterMap, Option.map_map]
  refine forall₂_filterMap fun call _ r hr => ?_
  obtain ⟨as, -, rfl⟩ := Option.map_eq_some_iff.mp hr
  exact ⟨_, call.2, rfl, rfl, rfl⟩

structure Written (columns : List String) (values : List Value) : Prop where
  width : values.length = columns.length
  ne_null : .null ∉ values
  key : ∃ key, values.head? = some (.string key) ∧ HashText key

theorem written_torrent (time : Numeral) {r : TorrentRow} (h : HashText r.id.toList) :
    Written torrentColumns (torrentRowValues time r) where
  width := rfl
  ne_null := by simp [torrentRowValues]
  key := ⟨_, rfl, h⟩

theorem written_payment (time : Numeral) (payPieces increaseTrx : String) {r : TorrentPaymentRow}
    (h : HashText r.paymentId.toList) :
    Written torrentPaymentColumns (torrentPaymentRowValues time payPieces increaseTrx r) where
  width := rfl
  ne_null := by simp [torrentPaymentRowValues]
  key := ⟨_, rfl, h⟩

theorem written_batch {b : Batch} (hclean : ∀ call ∈ b.calls, CleanCall call)
    {values : List Value} (hvalues : values ∈ (b.replace formatF env).tuples) :
    Written (b.replace formatF env).columns values := by
  cases htable : b.table with
  | torrent =>
      simp only [Batch.replace, htable, List.mem_filterMap, Option.map_eq_some_iff] at hvalues ⊢
      obtain ⟨call, hcall, r, hr, rfl⟩ := hvalues
      apply written_torrent
      rw [TableMirror.torrentRow_id hr]
      exact (clean_torrents hclean call hcall).2
  | torrentPayment =>
      simp only [Batch.replace, htable, List.mem_filterMap, Option.map_eq_some_iff] at hvalues ⊢
      obtain ⟨call, hcall, r, hr, rfl⟩ := hvalues
      apply written_payment
      rw [TableMirror.torrentPaymentRow_paymentId hr]
      exact (clean_payments hclean call hcall).2

theorem keyed_batch {b : Batch} (hclean : ∀ call ∈ b.calls, CleanCall call)
    (hvalue : (b.value formatF env).isSome = true) :
    Keyed primaryKey HashText (b.replace formatF env) := by
  have hrows := (value_isSome_iff formatF env b).mp hvalue
  have hwritten := @written_batch formatF env b hclean
  constructor
  case toLiteral =>
      refine ⟨?_, ?_, fun values hvalues => (hwritten hvalues).width, ?_⟩
      · cases htable : b.table <;> simp [Batch.replace, htable, torrentColumns,
          torrentPaymentColumns]
      · rintro hnil
        have hempty : replaceRows (b.replace formatF env) = [] := by rw [replaceRows, hnil]; rfl
        cases htable : b.table with
        | torrent =>
            have hshown := @shown_torrents formatF env b htable
            rw [hempty, List.forall₂_nil_left_iff] at hshown
            simp [htable, hshown] at hrows
        | torrentPayment =>
            have hshown := @shown_payments formatF env b htable
            rw [hempty, List.forall₂_nil_left_iff] at hshown
            simp [htable, hshown] at hrows
      · rintro values hvalues value hmem rfl
        exact (hwritten hvalues).ne_null hmem
  case primary => cases htable : b.table <;> simp [Batch.replace, htable, torrentColumns,
      torrentPaymentColumns, primaryKey]
  case keys => exact fun values hvalues => (hwritten hvalues).key

theorem Represents.execute {contents : Contents} {tables : Tables}
    (h : Represents contents tables) (b : Batch) :
    Represents (contents.replace (b.replace formatF env)) (tables.execute (b.statement env)) := by
  have hinjective : Function.Injective String.toList := fun _ _ => String.toList_inj.mp
  cases htable : b.table with
  | torrent =>
      have hname : (b.replace formatF env).table = "torrent" := by simp [Batch.replace, htable]
      have hshown := @shown_torrents formatF env b htable
      constructor
      · intro id
        have hself := contents.replace_self (b.replace formatF env)
        rw [hname] at hself
        rw [hself]
        simp only [Batch.statement, htable, Tables.execute]
        exact replaceInto_rel hinjective (fun _ _ hrow => hrow.key) h.torrent hshown id
      · intro id
        rw [Contents.replace_of_ne contents _ (by simp [hname])]
        simpa only [Batch.statement, htable, Tables.execute] using h.torrentPayment id
  | torrentPayment =>
      have hname : (b.replace formatF env).table = "torrent_payment" := by
        simp [Batch.replace, htable]
      have hshown := @shown_payments formatF env b htable
      constructor
      · intro id
        rw [Contents.replace_of_ne contents _ (by simp [hname])]
        simpa only [Batch.statement, htable, Tables.execute] using h.torrent id
      · intro id
        have hself := contents.replace_self (b.replace formatF env)
        rw [hname] at hself
        rw [hself]
        simp only [Batch.statement, htable, Tables.execute]
        exact replaceInto_rel hinjective (fun _ _ hrow => hrow.key) h.torrentPayment hshown id

end Reading

end TorrentServer.BatchReading
