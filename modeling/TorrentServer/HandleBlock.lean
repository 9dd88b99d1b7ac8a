import TorrentServer.MysqlTables
import TorrentServer.TorrentDatabase

/-!
`handle_block` of `handle_block.cpp`. A transaction is handled in two parts: a
branch reads the database and decides which records it will write (`Plan`), and
the plan is then carried out effect by effect, each `Put` with the outcome
LevelDB gives it.
-/

namespace TorrentServer.HandleBlock

open TorrentServer.Records
open TorrentServer.ChainLibrary
open TorrentServer.MysqlTables
open TorrentServer.TorrentDatabase
open TorrentServer.Library.KeyValueStore

structure SettlementOperation where
  account : List String
  amount : List ShareType
  businessType : List UInt32

structure TorrentCreateOperation where
  id : HashId
  creator : String
  assetType : UInt32
  amount : ShareType
  percent : UInt32

structure TorrentUpdateOperation where
  id : HashId
  amount : ShareType
  percent : UInt32

structure TorrentPaymentOperation where
  torrentId : HashId
  creator : String
  assetType : UInt32
  amount : ShareType
  pieces : UInt32
  sizes : UInt64
  payedPieces : UInt32
  onePieceAmount : ShareType
  signAddress : String

structure TorrentPaymentSelttementOperation where
  paymentId : HashId

structure TorrentReceiptOperation where
  paymentId : HashId

structure TorrentPaymentRefundOperation where
  paymentId : HashId

structure TorrentPaymentIncreaseOperation where
  paymentId : HashId
  pieces : UInt32
  amount : ShareType

inductive Operation
  | settlement (op : SettlementOperation)
  | torrentCreate (op : TorrentCreateOperation)
  | torrentUpdate (op : TorrentUpdateOperation)
  | torrentPayment (op : TorrentPaymentOperation)
  | torrentPaymentSelttement (op : TorrentPaymentSelttementOperation)
  | torrentReceipt (op : TorrentReceiptOperation)
  | torrentPaymentRefund (op : TorrentPaymentRefundOperation)
  | torrentPaymentIncrease (op : TorrentPaymentIncreaseOperation)
  | other

inductive OperationReason
  | orrOk
  | rejected (code : Nat)
deriving DecidableEq

structure ProcessedTransaction where
  id : HashId
  validateType : UInt32
  proposalTransactionId : Option HashId
  operations : List Operation
  operationResults : List OperationReason

def ProcessedTransaction.accepted (id : HashId) (operation : Operation) :
    ProcessedTransaction where
  id := id
  validateType := 0
  proposalTransactionId := none
  operations := [operation]
  operationResults := [.orrOk]

structure SignedBlock where
  blockNum : UInt64
  transactions : List ProcessedTransaction

/-- The ways the handler leaves a block without returning. -/
inductive Fault
  | proposalMissing
  | indexOutOfRange
  | divisionByZero
deriving DecidableEq

def getRatioValue (env : Environment) (r1 : env.decimals.Mpd) (amount : ShareType)
    (basePrecision : UInt64) (savePrecision : Nat) : ShareType :=
  let amount1 := env.decimals.devideInt64ToMpd amount basePrecision savePrecision
  let amount1 := env.decimals.mpdDiv amount1 r1
  env.decimals.mulMpdToInt64 amount1 basePrecision savePrecision

def getRatio (pieces : UInt32) : String :=
  if pieces < 256 then "0.995"
  else if pieces < 512 then "0.99"
  else if pieces < 1024 then "0.985"
  else if pieces < 2048 then "0.98"
  else if pieces < 4096 then "0.97"
  else "0.96"

def pieceUnit (tp : TorrentPayment) : ShareType :=
  ShareType.ofText tp.transferOnePieceAmount +
    ShareType.ofText tp.receiverAuthorOnePieceAmount

/-- The two writes to `pay_pieces`. An absent account is first set to zero under
its C string, which is another key when the name holds a zero character. -/
def creditPieces (payPieces : Finmap fun _ : String => UInt32) (account : String)
    (piece : UInt64) : Finmap fun _ : String => UInt32 :=
  let payPieces :=
    if account ∈ payPieces then payPieces else payPieces.insert (cStr account) 0
  payPieces.insert account ((payPieces.lookup account).getD 0 + piece.toUInt32)

def settlementEntry (env : Environment) (ratio : env.decimals.Mpd)
    (op : SettlementOperation) (tp : TorrentPayment) (entry : String × Nat) :
    Except Fault TorrentPayment :=
  let (account, i) := entry
  match op.businessType[i]? with
  | none => .error .indexOutOfRange
  | some businessType =>
      if businessType ≠ env.torrentReceiptTransfer then .ok tp
      else
        match op.amount[i]? with
        | none => .error .indexOutOfRange
        | some amount =>
            let t := getRatioValue env ratio amount 1000000000000000000 8
            if pieceUnit tp = 0 then .error .divisionByZero
            else
              let piece := UInt64.ofBitVec ((t / pieceUnit tp).setWidth 64)
              if piece.toBitVec.setWidth 128 * pieceUnit tp ≠ t then .ok tp
              else .ok { tp with payPieces := creditPieces tp.payPieces account piece }

def settle (env : Environment) (op : SettlementOperation) (tp : TorrentPayment) :
    Except Fault TorrentPayment :=
  let ratio := env.decimals.decimal (getRatio tp.pieces) 18
  op.account.zipIdx.foldlM (settlementEntry env ratio op) tp

def createdTorrent (trx : ProcessedTransaction) (blockNum : UInt64)
    (op : TorrentCreateOperation) : Torrent :=
  { id := op.id.str
    transactionId := trx.id.str
    userId := cStr op.creator
    asset := op.assetType
    balance := op.amount.text
    lastModify := blockNum
    percent := op.percent
    payTimes := 0
    finishTimes := 0
    createBlock := blockNum }

def updatedTorrent (blockNum : UInt64) (op : TorrentUpdateOperation) (t : Torrent) :
    Torrent :=
  { t with balance := op.amount.text, lastModify := blockNum, percent := op.percent }

def payedTorrent (t : Torrent) : Torrent :=
  { t with payTimes := t.payTimes + 1 }

def finishedTorrent (t : Torrent) : Torrent :=
  { t with finishTimes := t.finishTimes + 1 }

def authorOnePieceAmount (op : TorrentPaymentOperation) (t : Torrent) : ShareType :=
  ShareType.ofText t.balance / op.pieces.toBitVec.setWidth 128

def authorOnePieceAmountReal (env : Environment) (op : TorrentPaymentOperation)
    (t : Torrent) : ShareType :=
  authorOnePieceAmount op t / env.torrentAuthorPercent.toBitVec.setWidth 128 *
    t.percent.toBitVec.setWidth 128

def receiverAuthorOnePieceAmount (env : Environment) (op : TorrentPaymentOperation)
    (t : Torrent) : ShareType :=
  authorOnePieceAmount op t - authorOnePieceAmountReal env op t

def createdPayment (env : Environment) (trx : ProcessedTransaction) (blockNum : UInt64)
    (op : TorrentPaymentOperation) (t : Torrent) : TorrentPayment :=
  { paymentId := trx.id.str
    torrentId := op.torrentId.str
    userId := cStr op.creator
    asset := op.assetType
    authorAmount := cStr t.balance
    percent := t.percent
    paymentAmount := op.amount.text
    isSelttement := false
    isRefund := false
    payPieces := ∅
    createTime := blockNum
    selttementTime := 0
    refundTime := 0
    pieces := op.pieces
    sizes := op.sizes
    payedPieces := op.payedPieces
    transferOnePieceAmount := op.onePieceAmount.text
    authorOnePieceAmount := (authorOnePieceAmount op t).text
    receiverAuthorOnePieceAmount := (receiverAuthorOnePieceAmount env op t).text
    signAddress := cStr op.signAddress }

def selttedPayment (trx : ProcessedTransaction) (blockNum : UInt64) (tp : TorrentPayment) :
    TorrentPayment :=
  { tp with
    isSelttement := true
    selttementTime := blockNum
    selttementTrxId := trx.id.str }

def receiptedPayment (trx : ProcessedTransaction) (tp : TorrentPayment) : TorrentPayment :=
  { tp with receiptTrxId := trx.id.str }

def refundedPayment (trx : ProcessedTransaction) (blockNum : UInt64) (tp : TorrentPayment) :
    TorrentPayment :=
  { tp with
    isRefund := true
    refundTrxId := trx.id.str
    refundTime := blockNum }

def increasedPayment (trx : ProcessedTransaction) (op : TorrentPaymentIncreaseOperation)
    (tp : TorrentPayment) : TorrentPayment :=
  { tp with
    payedPieces := tp.payedPieces + op.pieces
    paymentAmount := (ShareType.ofText tp.paymentAmount + op.amount).text
    increaseTrx := tp.increaseTrx.insert trx.id.str op.amount.text }

/-- The operation of a transaction that gets past the checks at the head of the
loop: a settlement counts only in a transaction validated as a proposal, every
other operation only with an accepting result. -/
def handledOperation (trx : ProcessedTransaction) : Option Operation :=
  match trx.operations with
  | [operation] =>
      if trx.validateType = 1 then
        match operation with
        | .settlement op => some (.settlement op)
        | _ => none
      else
        match trx.operationResults with
        | [reason] =>
            if reason ≠ .orrOk then none
            else
              match operation with
              | .settlement _ => none
              | .other => none
              | operation => some operation
        | _ => none
  | _ => none

inductive Plan
  | skip
  | saveTorrent (t : Torrent)
  | savePayment (tp : TorrentPayment)
  | savePaymentThenTorrent (tp : TorrentPayment) (t : Torrent)

/-- The branches of the loop body, up to their first `Put`. -/
def transactionPlan (env : Environment) (db : Database) (blockNum : UInt64)
    (trx : ProcessedTransaction) : Except Fault Plan :=
  match handledOperation trx with
  | none => .ok .skip
  | some .other => .ok .skip
  | some (.settlement op) =>
      match trx.proposalTransactionId with
      | none => .error .proposalMissing
      | some proposal =>
          match getTorrentPayment db proposal with
          | none => .ok .skip
          | some tp => (settle env op tp).map .savePayment
  | some (.torrentCreate op) => .ok (.saveTorrent (createdTorrent trx blockNum op))
  | some (.torrentUpdate op) =>
      match getTorrent db op.id.str with
      | none => .ok .skip
      | some t => .ok (.saveTorrent (updatedTorrent blockNum op t))
  | some (.torrentPayment op) =>
      match getTorrent db op.torrentId.str with
      | none => .ok .skip
      | some t =>
          if op.pieces = 0 then .error .divisionByZero
          else
            .ok (.savePaymentThenTorrent (createdPayment env trx blockNum op t)
              (payedTorrent t))
  | some (.torrentPaymentSelttement op) =>
      match getTorrentPayment db op.paymentId with
      | none => .ok .skip
      | some tp =>
          match getTorrent db tp.torrentId with
          | none => .ok .skip
          | some t =>
              .ok (.savePaymentThenTorrent (selttedPayment trx blockNum tp)
                (finishedTorrent t))
  | some (.torrentReceipt op) =>
      match getTorrentPayment db op.paymentId with
      | none => .ok .skip
      | some tp => .ok (.savePayment (receiptedPayment trx tp))
  | some (.torrentPaymentRefund op) =>
      match getTorrentPayment db op.paymentId with
      | none => .ok .skip
      | some tp => .ok (.savePayment (refundedPayment trx blockNum tp))
  | some (.torrentPaymentIncrease op) =>
      match getTorrentPayment db op.paymentId with
      | none => .ok .skip
      | some tp => .ok (.savePayment (increasedPayment trx op tp))

/-- What a plan does to the outside. After a failed `save` that is `required`
the branch goes to the next transaction; the second `Put` of a branch is not
required, its result is not looked at. -/
inductive Effect
  | save (record : Message) (required : Bool)
  | append (record : Message)
deriving DecidableEq

def Effect.isSave : Effect → Bool
  | .save _ _ => true
  | .append _ => false

def Plan.effects : Plan → List Effect
  | .skip => []
  | .saveTorrent t => [.save (.torrent t) true, .append (.torrent t)]
  | .savePayment tp => [.save (.torrentPayment tp) true, .append (.torrentPayment tp)]
  | .savePaymentThenTorrent tp t =>
      [.save (.torrentPayment tp) true, .save (.torrent t) false,
        .append (.torrentPayment tp), .append (.torrent t)]

def Plan.records : Plan → List Message
  | .skip => []
  | .saveTorrent t => [.torrent t]
  | .savePayment tp => [.torrentPayment tp]
  | .savePaymentThenTorrent tp t => [.torrentPayment tp, .torrent t]

structure ServerState where
  db : Database
  mysqlTask : MysqlTask

def ServerState.empty : ServerState := { db := Store.empty, mysqlTask := {} }

/-- The outcome of the `Put` number `i`; those beyond the end of the list
succeed. -/
def putOutcome (puts : List Bool) (i : Nat) : Bool :=
  puts.getD i true

@[simp] theorem putOutcome_tail (puts : List Bool) (i : Nat) :
    putOutcome puts.tail i = putOutcome puts (i + 1) := by
  simp [putOutcome]

def perform (env : Environment) : List Effect → List Bool → ServerState → ServerState
  | [], _, s => s
  | .append record :: rest, puts, s =>
      perform env rest puts { s with mysqlTask := appendRecord env record s.mysqlTask }
  | .save record required :: rest, puts, s =>
      let ok := putOutcome puts 0
      if required && !ok then s
      else perform env rest puts.tail { s with db := saveOrUpdate s.db record ok }

/-- A transaction as the loop meets it, with the outcomes of its `Put`s. -/
structure Step where
  blockNum : UInt64
  trx : ProcessedTransaction
  puts : List Bool

def handleTransaction (env : Environment) (s : ServerState) (step : Step) :
    Except Fault ServerState :=
  (transactionPlan env s.db step.blockNum step.trx).map fun plan =>
    perform env plan.effects step.puts s

def blockSteps (block : SignedBlock) (puts : Nat → List Bool) : List Step :=
  block.transactions.zipIdx.map fun (trx, i) =>
    { blockNum := block.blockNum, trx := trx, puts := puts i }

def handleBlock (env : Environment) (isreal : Bool) (block : SignedBlock)
    (puts : Nat → List Bool) (s : ServerState) : Except Fault ServerState :=
  if isreal = false then .ok s
  -- The assertion on the block type is compiled out: the Makefile sets NDEBUG.
  else (blockSteps block puts).foldlM (handleTransaction env) s

/-- One handled transaction, as a step of the state machine the executor drives.
A transaction that faults ends the process and is no step. -/
def Handles (env : Environment) (s : ServerState) (step : Step) (s' : ServerState) : Prop :=
  handleTransaction env s step = .ok s'

section Sample

def sampleCreateOperation : TorrentCreateOperation where
  id := .ofDigit 'a' rfl
  creator := "author"
  assetType := 1
  amount := 1000
  percent := 10

def samplePaymentOperation : TorrentPaymentOperation where
  torrentId := .ofDigit 'a' rfl
  creator := "reader"
  assetType := 1
  amount := 500
  pieces := 10
  sizes := 4096
  payedPieces := 4
  onePieceAmount := 5
  signAddress := "address"

def sampleCreate : Step where
  blockNum := 1
  trx := .accepted (.ofDigit '1' rfl) (.torrentCreate sampleCreateOperation)
  puts := []

def sampleUpdate : Step where
  blockNum := 2
  trx := .accepted (.ofDigit '5' rfl)
    (.torrentUpdate { id := .ofDigit 'a' rfl, amount := 2000, percent := 20 })
  puts := []

def samplePayment : Step where
  blockNum := 2
  trx := .accepted (.ofDigit '2' rfl) (.torrentPayment samplePaymentOperation)
  puts := []

def sampleRefund : Step where
  blockNum := 3
  trx := .accepted (.ofDigit '3' rfl) (.torrentPaymentRefund { paymentId := .ofDigit '2' rfl })
  puts := []

def sampleIncrease : Step where
  blockNum := 3
  trx := .accepted (.ofDigit '4' rfl)
    (.torrentPaymentIncrease { paymentId := .ofDigit '2' rfl, pieces := 2, amount := 100 })
  puts := []

end Sample

end TorrentServer.HandleBlock
