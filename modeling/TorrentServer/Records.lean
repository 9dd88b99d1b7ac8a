import Mathlib.Data.Finmap
import Mathlib.Data.List.TakeWhile
import TorrentServer.Library.DecimalText

/-!
The records of `service.proto` and the value types they are made of. The types
of the chain library are known here only through what the server uses of them:
a 160-bit id through its text, a `share_type` amount through 128-bit arithmetic
and its decimal conversions.
-/

namespace TorrentServer.Records

open TorrentServer.Library.DecimalText

def isLowerHexDigit (c : Char) : Bool :=
  c.isDigit || (decide ('a' ≤ c) && decide (c ≤ 'f'))

/-- A torrent, payment or transaction id, given by the text its `str()` returns:
forty lower-case hexadecimal digits. -/
structure HashId where
  str : String
  isHex : str.length = 40 ∧ str.toList.all isLowerHexDigit = true
deriving DecidableEq

theorem HashId.str_injective : Function.Injective HashId.str := by
  rintro ⟨a, ha⟩ ⟨b, hb⟩ (rfl : a = b)
  rfl

theorem HashId.str_ne_empty (id : HashId) : id.str ≠ "" := by
  intro hempty
  have hlength := id.isHex.1
  rw [hempty] at hlength
  exact absurd hlength (by decide)

def HashId.ofDigit (c : Char) (hc : isLowerHexDigit c = true) : HashId where
  str := String.ofList (List.replicate 40 c)
  isHex := ⟨by rw [String.length_ofList, List.length_replicate], by simp [hc]⟩

/-- `share_type`: unsigned, 128 bits. -/
abbrev ShareType := BitVec 128

def ShareType.text (amount : ShareType) : String :=
  amount.toNat.repr

/-- `(share_type) std::string`. A text that is no numeral reads as zero. -/
def ShareType.ofText (text : String) : ShareType :=
  BitVec.ofNat 128 ((decimalValue text).getD 0)

@[simp] theorem ShareType.ofText_text (amount : ShareType) :
    ShareType.ofText amount.text = amount := by
  simp [ShareType.ofText, ShareType.text]

/-- `c_str()` handed to a parameter of type `std::string`: the text is cut at
its first zero character. -/
def cStr (text : String) : String :=
  String.ofList (text.toList.takeWhile (· ≠ '\x00'))

theorem cStr_eq_self {text : String} (h : '\x00' ∉ text.toList) : cStr text = text := by
  have hwhile : text.toList.takeWhile (· ≠ '\x00') = text.toList := by
    rw [List.takeWhile_eq_self_iff]
    intro c hc
    simp only [ne_eq, decide_eq_true_eq]
    rintro rfl
    exact h hc
  rw [cStr, hwhile, String.ofList_toList]

theorem zero_notMem_cStr (text : String) : '\x00' ∉ (cStr text).toList := by
  intro hmem
  rw [cStr, String.toList_ofList] at hmem
  simpa using List.mem_takeWhile_imp hmem

@[simp] theorem cStr_text (amount : ShareType) : cStr amount.text = amount.text := by
  apply cStr_eq_self
  intro hzero
  rw [ShareType.text, Nat.toList_repr] at hzero
  have hdigit := Nat.isDigit_of_mem_toDigits (by decide) (by decide) hzero
  exact absurd hdigit (by decide)

/-- `bytetrade_pb::torrent`. The `double` field is kept as its bit pattern. -/
structure Torrent where
  id : String := ""
  transactionId : String := ""
  time : UInt64 := 0
  createBlock : UInt64 := 0
  lastModify : UInt64 := 0
  userId : String := ""
  asset : UInt32 := 0
  balance : String := ""
  percent : UInt32 := 0
  payTimes : UInt32 := 0
  finishTimes : UInt32 := 0
  isCreate : Bool := false
deriving DecidableEq

structure TorrentPayment where
  paymentId : String := ""
  torrentId : String := ""
  time : UInt64 := 0
  createTime : UInt64 := 0
  selttementTime : UInt64 := 0
  refundTime : UInt64 := 0
  userId : String := ""
  asset : UInt32 := 0
  pieces : UInt32 := 0
  payedPieces : UInt32 := 0
  sizes : UInt64 := 0
  percent : UInt32 := 0
  isSelttement : Bool := false
  isRefund : Bool := false
  signAddress : String := ""
  payPieces : Finmap fun _ : String => UInt32 := ∅
  selttementTrxId : String := ""
  refundTrxId : String := ""
  receiptTrxId : String := ""
  increaseTrx : Finmap fun _ : String => String := ∅
  authorAmount : String := ""
  paymentAmount : String := ""
  transferOnePieceAmount : String := ""
  authorOnePieceAmount : String := ""
  receiverAuthorOnePieceAmount : String := ""
deriving DecidableEq

/-- What `SerializeToString` leaves in a value of the database: the bytes of one
of the two messages. Nothing in the bytes says of which. Fields that its kind does
not know, which a record read as the other kind and saved again still has, are none
of a `Message`. -/
inductive Message
  | torrent (t : Torrent)
  | torrentPayment (tp : TorrentPayment)
deriving DecidableEq

def Message.key : Message → String
  | .torrent t => t.id
  | .torrentPayment tp => tp.paymentId

def Message.torrent? : Message → Option Torrent
  | .torrent t => some t
  | .torrentPayment _ => none

def Message.torrentPayment? : Message → Option TorrentPayment
  | .torrent _ => none
  | .torrentPayment tp => some tp

/-- `ParseFromArray` into a `torrent`. The bytes of a `torrent_payment` are read
field number by field number: 1 to 5 and 9 to 12 have the wire type the reader
expects, 6, 7 and 8 have another one and are skipped like those above 12. -/
def Message.parseTorrent : Message → Torrent
  | .torrent t => t
  | .torrentPayment tp =>
      { id := tp.paymentId
        transactionId := tp.torrentId
        time := tp.time
        createBlock := tp.createTime
        lastModify := tp.selttementTime
        percent := tp.pieces
        payTimes := tp.payedPieces
        finishTimes := tp.sizes.toUInt32
        isCreate := tp.percent != 0 }

def Message.parseTorrentPayment : Message → TorrentPayment
  | .torrentPayment tp => tp
  | .torrent t =>
      { paymentId := t.id
        torrentId := t.transactionId
        time := t.time
        createTime := t.createBlock
        selttementTime := t.lastModify
        pieces := t.percent
        payedPieces := t.payTimes
        sizes := t.finishTimes.toUInt64
        percent := if t.isCreate then 1 else 0 }

@[simp] theorem Message.parseTorrent_id (m : Message) : m.parseTorrent.id = m.key := by
  cases m <;> rfl

@[simp] theorem Message.parseTorrentPayment_paymentId (m : Message) :
    m.parseTorrentPayment.paymentId = m.key := by
  cases m <;> rfl

end TorrentServer.Records
