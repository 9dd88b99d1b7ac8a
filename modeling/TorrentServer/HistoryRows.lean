import TorrentServer.ReplaceStatements

namespace TorrentServer.HistoryRows

open TorrentServer.Records
open TorrentServer.ChainLibrary
open TorrentServer.MysqlTables
open TorrentServer.ReplaceStatements
open TorrentServer.Library.CIntegers
open TorrentServer.Library.MapEntries

inductive ColumnType
  | varchar
  | double
  | bigint
  | int
  | tinyint
  | decimal
  | blob
deriving DecidableEq

/-- The integers a column of an integer type can hold. -/
def ColumnType.Holds (n : Int) : ColumnType → Prop
  | .bigint => -2 ^ 63 ≤ n ∧ n < 2 ^ 63
  | .int => -2 ^ 31 ≤ n ∧ n < 2 ^ 31
  | .tinyint => -2 ^ 7 ≤ n ∧ n < 2 ^ 7
  | _ => False

def torrentSchema : List (String × ColumnType) :=
  [ ("id", .varchar), ("transaction_id", .varchar), ("time", .double), ("create_block", .bigint),
    ("last_modify", .bigint), ("user_id", .varchar), ("asset", .int), ("balance", .decimal),
    ("percent", .int), ("pay_times", .int), ("finish_times", .int), ("is_create", .tinyint) ]

def torrentPaymentSchema : List (String × ColumnType) :=
  [ ("payment_id", .varchar), ("torrent_id", .varchar), ("time", .double),
    ("create_time", .bigint), ("selttement_time", .bigint), ("refund_time", .bigint),
    ("user_id", .varchar), ("asset", .int), ("pieces", .int), ("payed_pieces", .int),
    ("sizes", .bigint), ("percent", .int), ("is_selttement", .tinyint), ("is_refund", .tinyint),
    ("sign_address", .varchar), ("pay_pieces", .blob), ("selttement_trx_id", .varchar),
    ("refund_trx_id", .varchar), ("receipt_trx_id", .varchar), ("increase_trx", .blob),
    ("author_amount", .decimal), ("payment_amount", .decimal),
    ("transfer_one_piece_amount", .decimal), ("author_one_piece_amount", .decimal),
    ("receiver_author_one_piece_amount", .decimal) ]

/-- What lies outside: the text MySQL returns for a value given to a column, and the
functions the rows are read with besides `atoi`. The readers of maps throw where
they return `none`. -/
structure Readers where
  column : ColumnType → String → String
  strtod : String → UInt64
  rstripzero : String → String
  payPieces : String → Option (Entries String UInt32)
  increaseTrx : String → Option (Entries String ShareType)

/-- MySQL returns in decimal the integer it was given if that fits the column. -/
def Readers.ReturnsIntegers (readers : Readers) : Prop :=
  ∀ (type : ColumnType) (n : Int), type.Holds n → readers.column type (intText n) = intText n

/-- `MYSQL_ROW`. -/
abbrev Row := Nat → String

section Select

def torrentSelected : List String :=
  ["id", "transaction_id", "time", "create_block", "last_modify", "user_id", "asset", "balance",
    "percent", "pay_times", "finish_times", "is_create"]

def torrentPaymentSelected : List String :=
  ["payment_id", "torrent_id", "time", "create_time", "selttement_time", "refund_time", "user_id",
    "asset", "pieces", "payed_pieces", "sizes", "percent", "is_selttement", "is_refund",
    "sign_address", "pay_pieces", "author_amount", "payment_amount", "transfer_one_piece_amount",
    "author_one_piece_amount", "receiver_author_one_piece_amount", "selttement_trx_id",
    "refund_trx_id", "receipt_trx_id", "increase_trx"]

/-- The row that is selected after `values` have been written to `columns`. -/
def selectedRow (readers : Readers) (schema : List (String × ColumnType)) (columns : List String)
    (values : List String) (selected : List String) : Row := fun i =>
  let column := selected.getD i ""
  readers.column ((schema.lookup column).getD .blob) (((columns.zip values).lookup column).getD "")

variable (readers : Readers) (env : Environment) (as : SimpleAsset) (now : String)

def torrentValues (b : Torrent) : List String :=
  (torrentParts now b).map (fun part => part.2.text) ++ [amountColumn env as b.balance]

def torrentPaymentValues (b : OrderedPayment) : List String :=
  (torrentPaymentParts now b).map (fun part => part.2.text) ++
    [ amountColumn env as b.payment.authorAmount, amountColumn env as b.payment.paymentAmount,
      amountColumn env as b.payment.transferOnePieceAmount,
      amountColumn env as b.payment.authorOnePieceAmount,
      amountColumn env as b.payment.receiverAuthorOnePieceAmount ]

def torrentHistoryRow (b : Torrent) : Row :=
  selectedRow readers torrentSchema torrentColumns (torrentValues env as now b) torrentSelected

def torrentPaymentHistoryRow (b : OrderedPayment) : Row :=
  selectedRow readers torrentPaymentSchema torrentPaymentColumns
    (torrentPaymentValues env as now b) torrentPaymentSelected

end Select

section Decode

variable (readers : Readers) (row : Row)

/-- The body of the loop in `get_create_history`, on the message all rows share. -/
def decodeTorrent (result : Torrent) : Torrent :=
  { result with
    id := row 0
    transactionId := row 1
    time := readers.strtod (row 2)
    createBlock := atoiUInt64 (row 3)
    lastModify := atoiUInt64 (row 4)
    userId := row 5
    asset := atoiUInt32 (row 6)
    balance := readers.rstripzero (row 7)
    percent := atoiUInt32 (row 8)
    payTimes := atoiUInt32 (row 9)
    finishTimes := atoiUInt32 (row 10)
    isCreate := atoiUInt32 (row 11) != 0 }

/-- The body of the loop in `get_payment_history`. -/
def decodeTorrentPayment (result : TorrentPayment) : Option TorrentPayment :=
  match readers.payPieces (row 15), readers.increaseTrx (row 24) with
  | some payPieces, some increaseTrx =>
      some
        { result with
          paymentId := row 0
          torrentId := row 1
          time := readers.strtod (row 2)
          createTime := atoiUInt64 (row 3)
          selttementTime := atoiUInt64 (row 4)
          refundTime := atoiUInt64 (row 5)
          userId := row 6
          asset := atoiUInt32 (row 7)
          pieces := atoiUInt32 (row 8)
          payedPieces := atoiUInt32 (row 9)
          sizes := atoiUInt64 (row 10)
          percent := atoiUInt32 (row 11)
          isSelttement := atoiUInt32 (row 12) != 0
          isRefund := atoiUInt32 (row 13) != 0
          signAddress := row 14
          payPieces := insertAll payPieces.toList result.payPieces
          authorAmount := row 16
          paymentAmount := row 17
          transferOnePieceAmount := row 18
          authorOnePieceAmount := row 19
          receiverAuthorOnePieceAmount := row 20
          selttementTrxId := row 21
          refundTrxId := row 22
          receiptTrxId := row 23
          increaseTrx :=
            insertAll (increaseTrx.map ShareType.text).toList result.increaseTrx }
  | _, _ => none

end Decode

structure TorrentIntegersKept (b response : Torrent) : Prop where
  createBlock : response.createBlock = b.createBlock
  lastModify : response.lastModify = b.lastModify
  asset : response.asset = b.asset
  percent : response.percent = b.percent
  payTimes : response.payTimes = b.payTimes
  finishTimes : response.finishTimes = b.finishTimes

structure PaymentIntegersKept (b response : TorrentPayment) : Prop where
  createTime : response.createTime = b.createTime
  selttementTime : response.selttementTime = b.selttementTime
  refundTime : response.refundTime = b.refundTime
  sizes : response.sizes = b.sizes
  asset : response.asset = b.asset
  pieces : response.pieces = b.pieces
  payedPieces : response.payedPieces = b.payedPieces
  percent : response.percent = b.percent

variable {readers : Readers} {env : Environment} {as : SimpleAsset} {now : String}

theorem column_formatD (h : readers.ReturnsIntegers) (x : UInt32) :
    readers.column .int (formatD x) = formatD x := by
  have hlow := x.toInt32.le_toInt
  have hhigh := x.toInt32.toInt_lt
  exact h .int _ ⟨hlow, hhigh⟩

theorem column_formatLu (h : readers.ReturnsIntegers) {x : UInt64} (hx : x.toNat < 2 ^ 63) :
    readers.column .bigint (formatLu x) = formatLu x :=
  h .bigint _ ⟨by omega, by exact_mod_cast hx⟩

theorem readBack_formatD (h : readers.ReturnsIntegers) (x : UInt32) :
    atoiUInt32 (readers.column .int (formatD x)) = x := by
  rw [column_formatD h, atoiUInt32_formatD]

theorem readBack_formatLu_iff (h : readers.ReturnsIntegers) {x : UInt64}
    (hx : x.toNat < 2 ^ 63) :
    atoiUInt64 (readers.column .bigint (formatLu x)) = x ↔ x.toNat < 2 ^ 31 := by
  rw [column_formatLu h hx, atoiUInt64_formatLu_iff hx]

theorem torrentIntegersKept_iff (h : readers.ReturnsIntegers) {b : Torrent} (result : Torrent)
    (hcreate : b.createBlock.toNat < 2 ^ 63) (hmodify : b.lastModify.toNat < 2 ^ 63) :
    TorrentIntegersKept b
        (decodeTorrent readers (torrentHistoryRow readers env as now b) result) ↔
      b.createBlock.toNat < 2 ^ 31 ∧ b.lastModify.toNat < 2 ^ 31 := by
  constructor
  · intro hkept
    exact ⟨(readBack_formatLu_iff h hcreate).mp hkept.createBlock,
      (readBack_formatLu_iff h hmodify).mp hkept.lastModify⟩
  · rintro ⟨hcreate', hmodify'⟩
    exact
      { createBlock := (readBack_formatLu_iff h hcreate).mpr hcreate'
        lastModify := (readBack_formatLu_iff h hmodify).mpr hmodify'
        asset := readBack_formatD h _
        percent := readBack_formatD h _
        payTimes := readBack_formatD h _
        finishTimes := readBack_formatD h _ }

theorem paymentIntegersKept_iff (h : readers.ReturnsIntegers) {b : OrderedPayment}
    {result response : TorrentPayment} (hcreate : b.payment.createTime.toNat < 2 ^ 63)
    (hselttement : b.payment.selttementTime.toNat < 2 ^ 63)
    (hrefund : b.payment.refundTime.toNat < 2 ^ 63) (hsizes : b.payment.sizes.toNat < 2 ^ 63)
    (hresponse : decodeTorrentPayment readers (torrentPaymentHistoryRow readers env as now b)
      result = some response) :
    PaymentIntegersKept b.payment response ↔
      b.payment.createTime.toNat < 2 ^ 31 ∧ b.payment.selttementTime.toNat < 2 ^ 31 ∧
        b.payment.refundTime.toNat < 2 ^ 31 ∧ b.payment.sizes.toNat < 2 ^ 31 := by
  unfold decodeTorrentPayment at hresponse
  split at hresponse
  · cases hresponse
    constructor
    · intro hkept
      exact ⟨(readBack_formatLu_iff h hcreate).mp hkept.createTime,
        (readBack_formatLu_iff h hselttement).mp hkept.selttementTime,
        (readBack_formatLu_iff h hrefund).mp hkept.refundTime,
        (readBack_formatLu_iff h hsizes).mp hkept.sizes⟩
    · rintro ⟨hcreate', hselttement', hrefund', hsizes'⟩
      exact
        { createTime := (readBack_formatLu_iff h hcreate).mpr hcreate'
          selttementTime := (readBack_formatLu_iff h hselttement).mpr hselttement'
          refundTime := (readBack_formatLu_iff h hrefund).mpr hrefund'
          sizes := (readBack_formatLu_iff h hsizes).mpr hsizes'
          asset := readBack_formatD h _
          pieces := readBack_formatD h _
          payedPieces := readBack_formatD h _
          percent := readBack_formatD h _ }
  · cases hresponse

/-- The history requests return the integers of a record exactly when its 64-bit
fields fit an `int`; the 32-bit fields always come back. -/
theorem integer_columns_round_trip_iff (h : readers.ReturnsIntegers) :
    (∀ b result : Torrent, b.createBlock.toNat < 2 ^ 63 → b.lastModify.toNat < 2 ^ 63 →
      (TorrentIntegersKept b
          (decodeTorrent readers (torrentHistoryRow readers env as now b) result) ↔
        b.createBlock.toNat < 2 ^ 31 ∧ b.lastModify.toNat < 2 ^ 31)) ∧
    ∀ (b : OrderedPayment) (result response : TorrentPayment),
      b.payment.createTime.toNat < 2 ^ 63 → b.payment.selttementTime.toNat < 2 ^ 63 →
      b.payment.refundTime.toNat < 2 ^ 63 → b.payment.sizes.toNat < 2 ^ 63 →
      decodeTorrentPayment readers (torrentPaymentHistoryRow readers env as now b) result =
        some response →
      (PaymentIntegersKept b.payment response ↔
        b.payment.createTime.toNat < 2 ^ 31 ∧ b.payment.selttementTime.toNat < 2 ^ 31 ∧
          b.payment.refundTime.toNat < 2 ^ 31 ∧ b.payment.sizes.toNat < 2 ^ 31) := by
  constructor
  · intro b result hcreate hmodify
    exact torrentIntegersKept_iff h result hcreate hmodify
  · intro b result response hcreate hselttement hrefund hsizes hresponse
    exact paymentIntegersKept_iff h hcreate hselttement hrefund hsizes hresponse

section Sample

/-- A server that stores every value as it is given, and readers that know empty
maps. -/
def plainReaders : Readers where
  column _ text := text
  strtod _ := 0
  rstripzero text := text
  payPieces text := if text = "[]" then some { toList := [], nodup := List.nodup_nil } else none
  increaseTrx text := if text = "[]" then some { toList := [], nodup := List.nodup_nil } else none

theorem plainReaders_returnsIntegers : plainReaders.ReturnsIntegers :=
  fun _ _ _ => rfl

def paymentOfSizes (sizes : UInt64) : OrderedPayment where
  payment := { createTime := 8, pieces := 10, payedPieces := 4294967295, sizes := sizes }
  payPieces := { toList := [], nodup := List.nodup_nil }
  increaseTrx := { toList := [], nodup := List.nodup_nil }
  payPieces_eq := rfl
  increaseTrx_eq := rfl

def sampleAsset : SimpleAsset := { basePrecision := 100000000 }

def decodePaymentOfSizes (sizes : UInt64) : Option TorrentPayment :=
  decodeTorrentPayment plainReaders
    (torrentPaymentHistoryRow plainReaders .oneAsset sampleAsset "0.000000" (paymentOfSizes sizes))
    {}

theorem integers_of_one_gigabyte_kept :
    ∃ response, decodePaymentOfSizes 1073741824 = some response ∧
      PaymentIntegersKept (paymentOfSizes 1073741824).payment response := by
  refine ⟨_, rfl, ?_⟩
  exact ((integer_columns_round_trip_iff plainReaders_returnsIntegers).2
    (paymentOfSizes 1073741824) {} _ (by decide) (by decide) (by decide) (by decide) rfl).mpr
      (by decide)

theorem three_gigabytes_not_kept :
    ¬ ∀ (readers : Readers) (env : Environment) (as : SimpleAsset) (now : String)
        (b : OrderedPayment) (result response : TorrentPayment),
      readers.ReturnsIntegers → b.payment.createTime.toNat < 2 ^ 63 →
      b.payment.selttementTime.toNat < 2 ^ 63 → b.payment.refundTime.toNat < 2 ^ 63 →
      b.payment.sizes.toNat < 2 ^ 63 →
      decodeTorrentPayment readers (torrentPaymentHistoryRow readers env as now b) result =
        some response → PaymentIntegersKept b.payment response := by
  intro h
  have hkept := h plainReaders .oneAsset sampleAsset "0.000000" (paymentOfSizes 3221225472) {} _
    plainReaders_returnsIntegers (by decide) (by decide) (by decide) (by decide) rfl
  have hsizes := hkept.sizes
  revert hsizes
  decide

end Sample

end TorrentServer.HistoryRows
