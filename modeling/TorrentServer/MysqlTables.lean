import TorrentServer.ChainLibrary
import TorrentServer.Library.KeyedTable

/-!
The way of a record into MySQL: `append_torrent_create` and
`append_torrent_payment` put a tuple into `g_mysql_task`, the periodic
`MysqlCheckTask` turns what is there into one statement a table, and the batch
executor runs the statements. A tuple stands here for the row it denotes; the
column `time` is the wall clock at the append and is left out.
-/

namespace TorrentServer.MysqlTables

open TorrentServer.Records
open TorrentServer.ChainLibrary
open TorrentServer.Library.KeyedTable

structure TorrentRow where
  id : String
  transactionId : String
  createBlock : UInt64
  lastModify : UInt64
  userId : String
  asset : UInt32
  percent : UInt32
  payTimes : UInt32
  finishTimes : UInt32
  isCreate : Nat
  balance : String
deriving DecidableEq

structure TorrentPaymentRow where
  paymentId : String
  torrentId : String
  createTime : UInt64
  selttementTime : UInt64
  refundTime : UInt64
  userId : String
  asset : UInt32
  pieces : UInt32
  payedPieces : UInt32
  sizes : UInt64
  percent : UInt32
  isSelttement : Nat
  isRefund : Nat
  signAddress : String
  payPieces : Finmap fun _ : String => UInt32
  selttementTrxId : String
  refundTrxId : String
  receiptTrxId : String
  increaseTrx : Finmap fun _ : String => String
  authorAmount : String
  paymentAmount : String
  transferOnePieceAmount : String
  authorOnePieceAmount : String
  receiverAuthorOnePieceAmount : String
deriving DecidableEq

def amountColumn (env : Environment) (as : SimpleAsset) (amount : String) : String :=
  env.decimals.mpdToSci
    (env.decimals.devideInt64ToMpd (ShareType.ofText amount) as.basePrecision 10) 0

/-- The tuple `append_torrent_create` builds, or `none` where it does not know
the asset. -/
def torrentRow (env : Environment) (b : Torrent) : Option TorrentRow :=
  (assetOf env b.asset).map fun as =>
    { id := b.id
      transactionId := b.transactionId
      createBlock := b.createBlock
      lastModify := b.lastModify
      userId := b.userId
      asset := b.asset
      percent := b.percent
      payTimes := b.payTimes
      finishTimes := b.finishTimes
      isCreate := 1
      balance := amountColumn env as b.balance }

def torrentPaymentRow (env : Environment) (b : TorrentPayment) :
    Option TorrentPaymentRow :=
  (assetOf env b.asset).map fun as =>
    { paymentId := b.paymentId
      torrentId := b.torrentId
      createTime := b.createTime
      selttementTime := b.selttementTime
      refundTime := b.refundTime
      userId := b.userId
      asset := b.asset
      pieces := b.pieces
      payedPieces := b.payedPieces
      sizes := b.sizes
      percent := b.percent
      isSelttement := if b.isSelttement then 1 else 0
      isRefund := if b.isRefund then 1 else 0
      signAddress := b.signAddress
      payPieces := b.payPieces
      selttementTrxId := b.selttementTrxId
      refundTrxId := b.refundTrxId
      receiptTrxId := b.receiptTrxId
      increaseTrx := b.increaseTrx
      authorAmount := amountColumn env as b.authorAmount
      paymentAmount := amountColumn env as b.paymentAmount
      transferOnePieceAmount := amountColumn env as b.transferOnePieceAmount
      authorOnePieceAmount := amountColumn env as b.authorOnePieceAmount
      receiverAuthorOnePieceAmount :=
        amountColumn env as b.receiverAuthorOnePieceAmount }

/-- `g_mysql_task`: for each of the two `REPLACE INTO` texts the tuples collected
under it. An entry that is not in the map is an empty list here. -/
structure MysqlTask where
  torrent : List TorrentRow := []
  torrentPayment : List TorrentPaymentRow := []
deriving DecidableEq

/-- An unknown asset makes the function return before it touches the map; no
caller looks at the returned code. -/
def appendTorrentCreate (env : Environment) (b : Torrent) (task : MysqlTask) : MysqlTask :=
  match torrentRow env b with
  | none => task
  | some row => { task with torrent := task.torrent ++ [row] }

def appendTorrentPayment (env : Environment) (b : TorrentPayment) (task : MysqlTask) :
    MysqlTask :=
  match torrentPaymentRow env b with
  | none => task
  | some row => { task with torrentPayment := task.torrentPayment ++ [row] }

def appendRecord (env : Environment) (record : Message) (task : MysqlTask) : MysqlTask :=
  match record with
  | .torrent t => appendTorrentCreate env t task
  | .torrentPayment tp => appendTorrentPayment env tp task

inductive Statement
  | replaceTorrent (rows : List TorrentRow)
  | replaceTorrentPayment (rows : List TorrentPaymentRow)
deriving DecidableEq

/-- What `MysqlCheckTask::OnTriggeringTask` submits, in the order of the map's
keys: the texts first differ where one has an underscore and the other a
backquote, and the underscore is smaller. -/
def MysqlTask.statements (task : MysqlTask) : List Statement :=
  (if task.torrentPayment = [] then [] else [.replaceTorrentPayment task.torrentPayment]) ++
    (if task.torrent = [] then [] else [.replaceTorrent task.torrent])

def MysqlTask.concat (task more : MysqlTask) : MysqlTask :=
  { torrent := task.torrent ++ more.torrent
    torrentPayment := task.torrentPayment ++ more.torrentPayment }

def Statement.tuples : Statement → MysqlTask
  | .replaceTorrent rows => { torrent := rows }
  | .replaceTorrentPayment rows => { torrentPayment := rows }

structure Tables where
  torrent : String → Option TorrentRow
  torrentPayment : String → Option TorrentPaymentRow

def Tables.empty : Tables := { torrent := fun _ => none, torrentPayment := fun _ => none }

def Tables.execute (tables : Tables) : Statement → Tables
  | .replaceTorrent rows =>
      { tables with torrent := replaceInto TorrentRow.id tables.torrent rows }
  | .replaceTorrentPayment rows =>
      { tables with
        torrentPayment :=
          replaceInto TorrentPaymentRow.paymentId tables.torrentPayment rows }

def Tables.executeAll (tables : Tables) (statements : List Statement) : Tables :=
  statements.foldl Tables.execute tables

def Tables.applyTask (tables : Tables) (task : MysqlTask) : Tables :=
  { torrent := replaceInto TorrentRow.id tables.torrent task.torrent
    torrentPayment :=
      replaceInto TorrentPaymentRow.paymentId tables.torrentPayment task.torrentPayment }

theorem Tables.executeAll_statements (tables : Tables) (task : MysqlTask) :
    tables.executeAll task.statements = tables.applyTask task := by
  obtain ⟨torrent, payment⟩ := task
  cases torrent <;> cases payment <;>
    simp [Tables.executeAll, MysqlTask.statements, Tables.applyTask, Tables.execute]

theorem Tables.executeAll_append (tables : Tables) (statements more : List Statement) :
    tables.executeAll (statements ++ more) =
      (tables.executeAll statements).executeAll more :=
  List.foldl_append

theorem Tables.applyTask_concat (tables : Tables) (task more : MysqlTask) :
    tables.applyTask (task.concat more) = (tables.applyTask task).applyTask more := by
  simp [Tables.applyTask, MysqlTask.concat, replaceInto_append]

theorem appendRecord_eq_concat (env : Environment) (record : Message) (task : MysqlTask) :
    appendRecord env record task = task.concat (appendRecord env record {}) := by
  cases record with
  | torrent t =>
      cases hrow : torrentRow env t <;>
        simp [appendRecord, appendTorrentCreate, MysqlTask.concat, hrow]
  | torrentPayment tp =>
      cases hrow : torrentPaymentRow env tp <;>
        simp [appendRecord, appendTorrentPayment, MysqlTask.concat, hrow]

end TorrentServer.MysqlTables
