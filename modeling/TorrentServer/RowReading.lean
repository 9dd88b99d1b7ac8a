import TorrentServer.ReplaceReading

/-!
In `MysqlTables` a tuple stands for the row it denotes. Here the rows are what MySQL
reads: where no text of a batch needs escaping, its statements have the rows of the
task as their tuples, in the order of the calls.
-/

namespace TorrentServer.RowReading

open TorrentServer.Records
open TorrentServer.ChainLibrary
open TorrentServer.MysqlTables
open TorrentServer.ReplaceStatements
open TorrentServer.TaskTexts (Append Texts taskTexts torrents payments torrentTupleText
  torrentPaymentTupleText torrentHead torrentPaymentHead torrentHead_text torrentHead_tokens
  torrentPaymentHead_text torrentPaymentHead_tokens lookup_torrentType lookup_torrentPaymentType)
open TorrentServer.ReplaceReading
open TorrentServer.Library.SqlText
open TorrentServer.Library.SqlLiterals
open TorrentServer.Library.SqlStatements

section Rows

def record : Append → Message
  | .torrent _ b => .torrent b
  | .torrentPayment _ b => .torrentPayment b.payment

def rowTask (env : Environment) (appends : List Append) : MysqlTask :=
  appends.foldl (fun task append => appendRecord env (record append) task) {}

theorem foldl_appendRecord (env : Environment) (appends : List Append) (task : MysqlTask) :
    appends.foldl (fun task append => appendRecord env (record append) task) task =
      task.concat
        { torrent := (torrents appends).filterMap fun call => torrentRow env call.2
          torrentPayment :=
            (payments appends).filterMap fun call => torrentPaymentRow env call.2.payment } := by
  induction appends generalizing task with
  | nil => simp [torrents, payments, MysqlTask.concat]
  | cons append appends ih =>
      rw [List.foldl_cons, ih]
      cases append with
      | torrent now b =>
          cases hrow : torrentRow env b <;>
            simp [record, appendRecord, appendTorrentCreate, MysqlTask.concat, torrents, payments,
              hrow]
      | torrentPayment now b =>
          cases hrow : torrentPaymentRow env b.payment <;>
            simp [record, appendRecord, appendTorrentPayment, MysqlTask.concat, torrents, payments,
              hrow]

end Rows

section Values

/-- A row as the values of a tuple; an `int` is what `%d` makes of the field. -/
def torrentRowValues (time : Numeral) (row : TorrentRow) : List Value :=
  [ .string row.id.toList, .string row.transactionId.toList, .number time,
    .number (.ofInt row.createBlock.toNat), .number (.ofInt row.lastModify.toNat),
    .string row.userId.toList, .number (.ofInt row.asset.toInt32.toInt),
    .number (.ofInt row.percent.toInt32.toInt), .number (.ofInt row.payTimes.toInt32.toInt),
    .number (.ofInt row.finishTimes.toInt32.toInt), .number (.ofInt row.isCreate),
    .string row.balance.toList ]

/-- The texts of the two maps depend on the orders their entries are met in. -/
def torrentPaymentRowValues (time : Numeral) (payPieces increaseTrx : String)
    (row : TorrentPaymentRow) : List Value :=
  [ .string row.paymentId.toList, .string row.torrentId.toList, .number time,
    .number (.ofInt row.createTime.toNat), .number (.ofInt row.selttementTime.toNat),
    .number (.ofInt row.refundTime.toNat), .string row.userId.toList,
    .number (.ofInt row.asset.toInt32.toInt), .number (.ofInt row.pieces.toInt32.toInt),
    .number (.ofInt row.payedPieces.toInt32.toInt), .number (.ofInt row.sizes.toNat),
    .number (.ofInt row.percent.toInt32.toInt), .number (.ofInt row.isSelttement),
    .number (.ofInt row.isRefund), .string row.signAddress.toList, .string payPieces.toList,
    .string row.selttementTrxId.toList, .string row.refundTrxId.toList,
    .string row.receiptTrxId.toList, .string increaseTrx.toList, .string row.authorAmount.toList,
    .string row.paymentAmount.toList, .string row.transferOnePieceAmount.toList,
    .string row.authorOnePieceAmount.toList, .string row.receiverAuthorOnePieceAmount.toList ]

variable (formatF : UInt64 → Numeral) (env : Environment)

theorem torrentTuple_written {now : UInt64} {b : Torrent} {row : TorrentRow}
    (h : torrentRow env b = some row) :
    (torrentTuple formatF env now b).slots.map Slot.written =
      torrentRowValues (formatF now) row := by
  obtain ⟨as, has, rfl⟩ := Option.map_eq_some_iff.mp h
  have hbalance : amountText env b.asset b.balance = amountColumn env as b.balance := by
    simp [amountText, has]
  simp only [Tuple.slots, torrentTuple, List.map_cons, List.map_nil, slotS, slotD, slotLu,
    Slot.written, hbalance]
  rfl

theorem toInt_flag (b : Bool) :
    (if b then 1 else 0 : UInt32).toInt32.toInt = ((if b then 1 else 0 : Nat) : Int) := by
  cases b <;> rfl

theorem torrentPaymentTuple_written {now : UInt64} {b : OrderedPayment} {row : TorrentPaymentRow}
    (h : torrentPaymentRow env b.payment = some row) :
    (torrentPaymentTuple formatF env now b).slots.map Slot.written =
      torrentPaymentRowValues (formatF now) b.payPiecesText b.increaseTrxText row := by
  obtain ⟨as, has, rfl⟩ := Option.map_eq_some_iff.mp h
  have hamount : ∀ amount, amountText env b.payment.asset amount = amountColumn env as amount := by
    simp [amountText, has]
  simp only [Tuple.slots, torrentPaymentTuple, List.map_cons, List.map_nil, slotS, slotD, slotLu,
    Slot.written, hamount, toInt_flag]
  rfl

end Values

section Read

variable {ρ α β : Type*} {text : ρ → Option String} {row : ρ → Option α}

theorem map_filter_eq_filterMap {written : ρ → β} {values : ρ → α → β}
    (hsome : ∀ r, (text r).isSome = (row r).isSome)
    (hwritten : ∀ r a, row r = some a → written r = values r a) (records : List ρ) :
    (records.filter fun r => (text r).isSome).map written =
      records.filterMap fun r => (row r).map (values r) := by
  simp only [hsome]
  induction records with
  | nil => rfl
  | cons r records ih =>
      cases hrow : row r with
      | none => simp [hrow, ih]
      | some a => simp [hrow, ih, hwritten r a hrow]

/-- Where the literals of all records end where they are meant to, the tuples that are
read are the rows. -/
theorem read_rows {type table : String} {columns : List String} {head : Fixed}
    (hhead : head.text = type.toList) (hcolumns : head.tokens = replaceHead table columns)
    {tuple : ρ → Tuple} (htext : ∀ r value, text r = some value → value.toList = (tuple r).text)
    {values : ρ → α → List Value} (hsome : ∀ r, (text r).isSome = (row r).isSome)
    (hwritten : ∀ r a, row r = some a → (tuple r).slots.map Slot.written = values r a)
    {records : List ρ} (hreadable : ∀ r ∈ records, ∀ slot ∈ (tuple r).slots, slot.Readable)
    {task : Texts} (htask : task.lookup type = TaskTexts.joined none (records.filterMap text))
    (hrows : records.filterMap row ≠ []) :
    read type task =
      some (Replace.tokens
        { table := table
          columns := columns
          tuples := records.filterMap fun r => (row r).map (values r) }) := by
  have hfilter : (records.filter fun r => (text r).isSome) ≠ [] := by
    intro hempty
    apply hrows
    rw [List.filterMap_eq_nil_iff]
    intro r hr
    rw [List.filter_eq_nil_iff] at hempty
    simpa [hsome] using hempty r hr
  have hslots : ∀ t ∈ (records.filter fun r => (text r).isSome).map tuple,
      ∀ slot ∈ t.slots, slot.Readable := by
    rw [List.forall_mem_map]
    exact fun r hr => hreadable r (List.mem_of_mem_filter hr)
  rw [read_eq_lex hhead htext htask hfilter,
    lex_tuples_of_readable head (by simpa using hfilter) hslots, hcolumns, Replace.tokens,
    ← map_filter_eq_filterMap hsome hwritten records, List.map_map, List.map_map]
  rfl

variable {formatF : UInt64 → Numeral} {env : Environment}

def TorrentClean (b : Torrent) : Prop :=
  ∀ text ∈ [b.id, b.transactionId, b.userId], Clean text.toList

structure PaymentClean (b : OrderedPayment) : Prop where
  strings :
    ∀ text ∈ [b.payment.paymentId, b.payment.torrentId, b.payment.userId, b.payment.signAddress,
      b.payment.selttementTrxId, b.payment.refundTrxId, b.payment.receiptTrxId],
      Clean text.toList
  payPieces : ∀ entry ∈ b.payPieces.toList, Clean entry.1.toList
  increaseTrx : ∀ entry ∈ b.increaseTrx.toList, Clean entry.1.toList ∧ Clean entry.2.toList

theorem torrentTuple_readable (h : WritesNumerals env.decimals) {b : Torrent}
    (hclean : TorrentClean b) (now : UInt64) :
    ∀ slot ∈ (torrentTuple formatF env now b).slots, slot.Readable := by
  have hbalance := clean_amountText h b.asset b.balance
  simp only [TorrentClean, List.forall_mem_cons] at hclean
  obtain ⟨hid, htransaction, huser, -⟩ := hclean
  simp only [Tuple.slots, torrentTuple, List.map_cons, List.map_nil, List.forall_mem_cons]
  simp [slotS, slotD, slotLu, Slot.Readable, hid, htransaction, huser, hbalance]

theorem torrentPaymentTuple_readable (h : WritesNumerals env.decimals) {b : OrderedPayment}
    (hclean : PaymentClean b) (now : UInt64) :
    ∀ slot ∈ (torrentPaymentTuple formatF env now b).slots, slot.Readable := by
  have hamount := clean_amountText h b.payment.asset
  have hpieces := (clean_payPiecesText_iff b).mpr hclean.payPieces
  have hincrease : Clean b.increaseTrxText.toList := (clean_mapText_iff _).mpr hclean.increaseTrx
  have hstrings := hclean.strings
  simp only [List.forall_mem_cons] at hstrings
  obtain ⟨hpayment, htorrent, huser, hsign, hselttement, hrefund, hreceipt, -⟩ := hstrings
  simp only [Tuple.slots, torrentPaymentTuple, List.map_cons, List.map_nil, List.forall_mem_cons]
  simp [slotS, slotD, slotLu, Slot.Readable, hpayment, htorrent, huser, hsign, hselttement,
    hrefund, hreceipt, hpieces, hincrease, hamount]

/-- The statement for the torrents has the rows of the task as its tuples. -/
theorem read_torrent_rows (h : WritesNumerals env.decimals) {appends : List Append}
    (hclean : ∀ call ∈ torrents appends, TorrentClean call.2)
    (hrows : (rowTask env appends).torrent ≠ []) :
    read torrentType (taskTexts formatF env appends) =
      some (Replace.tokens
        { table := "torrent"
          columns := torrentColumns
          tuples := (torrents appends).filterMap fun call =>
            (torrentRow env call.2).map (torrentRowValues (formatF call.1)) }) := by
  have htask : (rowTask env appends).torrent =
      (torrents appends).filterMap fun call => torrentRow env call.2 := by
    rw [rowTask, foldl_appendRecord]
    rfl
  rw [htask] at hrows
  refine read_rows torrentHead_text torrentHead_tokens (torrentTupleText_toList formatF env) ?_
    (fun call row hrow => torrentTuple_written formatF env hrow)
    (fun call hcall => torrentTuple_readable h (hclean call hcall) call.1)
    (lookup_torrentType formatF env appends) hrows
  intro call
  simp [torrentTupleText, torrentRow]

theorem read_torrentPayment_rows (h : WritesNumerals env.decimals) {appends : List Append}
    (hclean : ∀ call ∈ payments appends, PaymentClean call.2)
    (hrows : (rowTask env appends).torrentPayment ≠ []) :
    read torrentPaymentType (taskTexts formatF env appends) =
      some (Replace.tokens
        { table := "torrent_payment"
          columns := torrentPaymentColumns
          tuples := (payments appends).filterMap fun call =>
            (torrentPaymentRow env call.2.payment).map
              (torrentPaymentRowValues (formatF call.1) call.2.payPiecesText
                call.2.increaseTrxText) }) := by
  have htask : (rowTask env appends).torrentPayment =
      (payments appends).filterMap fun call => torrentPaymentRow env call.2.payment := by
    rw [rowTask, foldl_appendRecord]
    rfl
  rw [htask] at hrows
  refine read_rows torrentPaymentHead_text torrentPaymentHead_tokens
    (torrentPaymentTupleText_toList formatF env) ?_
    (fun call row hrow => torrentPaymentTuple_written formatF env hrow)
    (fun call hcall => torrentPaymentTuple_readable h (hclean call hcall) call.1)
    (lookup_torrentPaymentType formatF env appends) hrows
  intro call
  simp [torrentPaymentTupleText, torrentPaymentRow]

end Read

end TorrentServer.RowReading
