import TorrentServer.Library.CIntegers
import TorrentServer.Library.MapEntries
import TorrentServer.Library.SqlLiterals
import TorrentServer.MysqlTables

namespace TorrentServer.ReplaceStatements

open TorrentServer.Records
open TorrentServer.ChainLibrary
open TorrentServer.MysqlTables
open TorrentServer.Library.CIntegers
open TorrentServer.Library.MapEntries
open TorrentServer.Library.SqlLiterals

/-- A conversion of a format with its argument. A `double` is given by its text. -/
inductive Conversion
  | s (text : String)
  | d (x : UInt32)
  | lu (x : UInt64)
  | f (text : String)

def Conversion.text : Conversion → String
  | .s text => cStr text
  | .d x => formatD x
  | .lu x => formatLu x
  | .f text => text

/-- A format as the pieces of text before its conversions and the one after the last. -/
def sdscatprintf (parts : List (String × Conversion)) (last : String) : String :=
  parts.foldr (fun part text => part.1 ++ (part.2.text ++ text)) last

theorem toList_cStr (text : String) : (cStr text).toList = cString text.toList := by
  simp [cStr, cString]

theorem toList_formatD (x : UInt32) :
    (formatD x).toList = (Numeral.ofInt x.toInt32.toInt).text := by
  rw [Numeral.text_ofInt, formatD]

theorem toList_formatLu (x : UInt64) : (formatLu x).toList = (Numeral.ofInt x.toNat).text := by
  rw [Numeral.text_ofInt, formatLu]

def sqlAppendMpd (amount : String) (comma : Bool) : String :=
  sdscatprintf [("'", .s amount)] "'" ++ if comma then ", " else ""

def itos (a : UInt32) : String :=
  formatD a

/-- One turn of the loops that write a map: the text so far and the turns made. -/
def appendEntry (state : String × Nat) (entry : String × String) : String × Nat :=
  let tmp := if state.2 = 0 then "[" else state.1 ++ ","
  (tmp ++ ("[\"" ++ entry.1 ++ "\"," ++ entry.2 ++ "]"), state.2 + 1)

def mapText (entries : List (String × String)) : String :=
  let state := entries.foldl appendEntry ("", 0)
  if state.2 ≠ 0 then state.1 ++ "]" else "[]"

/-- The characters of `["key",value]`. -/
def entryChars (entry : String × String) : List Char :=
  '[' :: '"' :: (entry.1.toList ++ '"' :: ',' :: (entry.2.toList ++ [']']))

theorem foldl_appendEntry (entries : List (String × String)) (text : String) {n : Nat}
    (hn : n ≠ 0) :
    (entries.foldl appendEntry (text, n)).2 ≠ 0 ∧
      (entries.foldl appendEntry (text, n)).1.toList =
        text.toList ++ entries.flatMap fun entry => ',' :: entryChars entry := by
  induction entries generalizing text n with
  | nil => exact ⟨hn, by simp⟩
  | cons entry entries ih =>
      obtain ⟨hcount, htext⟩ :=
        ih (text ++ "," ++ ("[\"" ++ entry.1 ++ "\"," ++ entry.2 ++ "]")) (Nat.succ_ne_zero n)
      simp only [List.foldl_cons, appendEntry, hn, if_false]
      refine ⟨hcount, ?_⟩
      rw [htext]
      simp [entryChars]

theorem mapText_cons (entry : String × String) (entries : List (String × String)) :
    (mapText (entry :: entries)).toList =
      '[' :: (entryChars entry ++
        ((entries.flatMap fun entry => ',' :: entryChars entry) ++ [']'])) := by
  obtain ⟨hcount, htext⟩ := foldl_appendEntry entries
    ("[" ++ ("[\"" ++ entry.1 ++ "\"," ++ entry.2 ++ "]")) (Nat.succ_ne_zero 0)
  have hfirst : appendEntry ("", 0) entry =
      ("[" ++ ("[\"" ++ entry.1 ++ "\"," ++ entry.2 ++ "]"), 0 + 1) := rfl
  simp only [mapText, List.foldl_cons, hfirst]
  rw [if_pos hcount, String.toList_append, htext]
  simp [entryChars]

/-- A payment with the orders in which the loops meet the entries of its maps. -/
structure OrderedPayment where
  payment : TorrentPayment
  payPieces : Entries String UInt32
  increaseTrx : Entries String String
  payPieces_eq : payPieces.toFinmap = payment.payPieces
  increaseTrx_eq : increaseTrx.toFinmap = payment.increaseTrx

def OrderedPayment.fresh (tp : TorrentPayment) (hpieces : tp.payPieces = ∅)
    (hincrease : tp.increaseTrx = ∅) : OrderedPayment where
  payment := tp
  payPieces := .empty
  increaseTrx := .empty
  payPieces_eq := hpieces.symm
  increaseTrx_eq := hincrease.symm

def OrderedPayment.payPiecesText (b : OrderedPayment) : String :=
  mapText (b.payPieces.map itos).toList

def OrderedPayment.increaseTrxText (b : OrderedPayment) : String :=
  mapText b.increaseTrx.toList

section Torrent

def torrentColumns : List String :=
  ["id", "transaction_id", "time", "create_block", "last_modify", "user_id", "asset", "percent",
    "pay_times", "finish_times", "is_create", "balance"]

def torrentType : String :=
  "REPLACE INTO `torrent` (`id`, `transaction_id`, `time`,`create_block`,`last_modify`, " ++
    "`user_id`, `asset`, `percent`,`pay_times`,`finish_times`, `is_create`, `balance`) VALUES "

variable (now : String) (b : Torrent)

/-- The format `('%s', '%s', %f,%lu,%lu, '%s', %d, %d, %d,%d,%d, `. -/
def torrentParts : List (String × Conversion) :=
  [ ("('", .s b.id), ("', '", .s b.transactionId), ("', ", .f now), (",", .lu b.createBlock),
    (",", .lu b.lastModify), (", '", .s b.userId), ("', ", .d b.asset), (", ", .d b.percent),
    (", ", .d b.payTimes), (",", .d b.finishTimes), (",", .d 1) ]

def torrentValue (env : Environment) (as : SimpleAsset) : String :=
  sdscatprintf (torrentParts now b) ", " ++
    sqlAppendMpd (amountColumn env as b.balance) false ++ ")"

end Torrent

section TorrentPayment

def torrentPaymentColumns : List String :=
  ["payment_id", "torrent_id", "time", "create_time", "selttement_time", "refund_time", "user_id",
    "asset", "pieces", "payed_pieces", "sizes", "percent", "is_selttement", "is_refund",
    "sign_address", "pay_pieces", "selttement_trx_id", "refund_trx_id", "receipt_trx_id",
    "increase_trx", "author_amount", "payment_amount", "transfer_one_piece_amount",
    "author_one_piece_amount", "receiver_author_one_piece_amount"]

def torrentPaymentType : String :=
  "REPLACE INTO `torrent_payment` (`payment_id`, `torrent_id`, `time`, `create_time`," ++
    "`selttement_time`,`refund_time`,  `user_id`, `asset`, `pieces`, `payed_pieces`, " ++
    "`sizes`,`percent`,`is_selttement`, `is_refund`, `sign_address`,`pay_pieces`," ++
    "`selttement_trx_id`,`refund_trx_id`,`receipt_trx_id`,`increase_trx`,`author_amount`," ++
    "`payment_amount`, `transfer_one_piece_amount`,`author_one_piece_amount`," ++
    "`receiver_author_one_piece_amount`) VALUES "

variable (now : String) (b : OrderedPayment)

/-- The format `('%s', '%s', %f, %lu, %lu, %lu, '%s', %d, %d, %d , %lu,%d ,%d , %d ,  '%s'`
followed by five times `,'%s'` and a comma. -/
def torrentPaymentParts : List (String × Conversion) :=
  [ ("('", .s b.payment.paymentId), ("', '", .s b.payment.torrentId), ("', ", .f now),
    (", ", .lu b.payment.createTime), (", ", .lu b.payment.selttementTime),
    (", ", .lu b.payment.refundTime), (", '", .s b.payment.userId), ("', ", .d b.payment.asset),
    (", ", .d b.payment.pieces), (", ", .d b.payment.payedPieces), (" , ", .lu b.payment.sizes),
    (",", .d b.payment.percent), (" ,", .d (if b.payment.isSelttement then 1 else 0)),
    (" , ", .d (if b.payment.isRefund then 1 else 0)), (" ,  '", .s b.payment.signAddress),
    ("','", .s b.payPiecesText), ("','", .s b.payment.selttementTrxId),
    ("','", .s b.payment.refundTrxId), ("','", .s b.payment.receiptTrxId),
    ("','", .s b.increaseTrxText) ]

def torrentPaymentValue (env : Environment) (as : SimpleAsset) : String :=
  sdscatprintf (torrentPaymentParts now b) "'," ++
    sqlAppendMpd (amountColumn env as b.payment.authorAmount) true ++
    sqlAppendMpd (amountColumn env as b.payment.paymentAmount) true ++
    sqlAppendMpd (amountColumn env as b.payment.transferOnePieceAmount) true ++
    sqlAppendMpd (amountColumn env as b.payment.authorOnePieceAmount) true ++
    sqlAppendMpd (amountColumn env as b.payment.receiverAuthorOnePieceAmount) false ++ ")"

end TorrentPayment

end TorrentServer.ReplaceStatements
