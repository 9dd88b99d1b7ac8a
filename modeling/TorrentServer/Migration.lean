import TorrentServer.Library.MapEntries
import TorrentServer.Library.TextSearch
import TorrentServer.TorrentDatabase

/-!
The tool of `tools/main.cpp`, which rewrites a database of JSON records as one of
protobuf messages. Each turn of its loop deletes a record from the old database,
reads it, translates it and puts it into the new one.
-/

namespace TorrentServer.Migration

open TorrentServer.Records
open TorrentServer.TorrentDatabase
open TorrentServer.Library.KeyValueStore
open TorrentServer.Library.MapEntries
open TorrentServer.Library.TextSearch

/-- `btp::torrent` of `ts_torrent.hpp`. -/
structure OldTorrent where
  id : HashId
  txId : HashId
  creator : String
  amount : ShareType
  assetType : UInt32
  createTime : UInt64
  lastModify : UInt64
  percent : UInt32
  payTimes : UInt32
  finishTimes : UInt32

structure OldTorrentPayment where
  id : HashId
  torrentId : HashId
  creator : String
  assetType : UInt32
  authorAmount : ShareType
  percent : UInt32
  paymentAmount : ShareType
  isSelttement : Bool
  isRefund : Bool
  payPieces : Entries String UInt32
  createTime : UInt64
  selttementTime : UInt64
  refundTime : UInt64
  pieces : UInt32
  sizes : UInt64
  payedPieces : UInt32
  transferOnePieceAmount : ShareType
  authorOnePieceAmount : ShareType
  receiverAuthorOnePieceAmount : ShareType
  signAddress : String
  selttementTrxId : HashId
  refundTrxId : HashId
  receiptTrxId : HashId
  increaseTrx : Entries String ShareType

/-- What the tool uses of `fc::json`: how characters of a string are escaped, how
maps are written, and the readers, which throw where they return `none`. -/
structure FcJson where
  escape : String → String
  payPieces : Entries String UInt32 → String
  increaseTrx : Entries String ShareType → String
  torrent : String → Option OldTorrent
  torrentPayment : String → Option OldTorrentPayment

section Text

/-- A member of an object: its value stands in quotes or bare. -/
inductive JsonValue
  | quoted (body : String)
  | bare (text : String)

def JsonValue.body : JsonValue → String
  | .quoted body => body
  | .bare text => text

def JsonValue.text : JsonValue → String
  | .quoted body => "\"" ++ body ++ "\""
  | .bare text => text

def memberText (member : String × JsonValue) : String :=
  "\"" ++ member.1 ++ "\":" ++ member.2.text

def objectText (members : List (String × JsonValue)) : String :=
  "\x7b" ++ ",".intercalate (members.map memberText) ++ "\x7d"

/-- Integers of more than 32 bits are written in quotes. -/
def numberValue (n : Nat) : JsonValue :=
  if n ≤ 0xffffffff then .bare n.repr else .quoted n.repr

def boolValue (b : Bool) : JsonValue :=
  .bare (if b then "true" else "false")

/-- The members in the order of `FC_REFLECT`. -/
def torrentMembers (json : FcJson) (t : OldTorrent) : List (String × JsonValue) :=
  [ ("id", .quoted t.id.str),
    ("tx_id", .quoted t.txId.str),
    ("creator", .quoted (json.escape t.creator)),
    ("asset_type", numberValue t.assetType.toNat),
    ("amount", .quoted t.amount.text),
    ("create_time", numberValue t.createTime.toNat),
    ("last_modify", numberValue t.lastModify.toNat),
    ("pay_times", numberValue t.payTimes.toNat),
    ("finish_times", numberValue t.finishTimes.toNat),
    ("percent", numberValue t.percent.toNat) ]

def paymentMembers (json : FcJson) (tp : OldTorrentPayment) : List (String × JsonValue) :=
  [ ("id", .quoted tp.id.str),
    ("torrent_id", .quoted tp.torrentId.str),
    ("creator", .quoted (json.escape tp.creator)),
    ("asset_type", numberValue tp.assetType.toNat),
    ("author_amount", .quoted tp.authorAmount.text),
    ("percent", numberValue tp.percent.toNat),
    ("payment_amount", .quoted tp.paymentAmount.text),
    ("is_selttement", boolValue tp.isSelttement),
    ("is_refund", boolValue tp.isRefund),
    ("pay_pieces", .bare (json.payPieces tp.payPieces)),
    ("create_time", numberValue tp.createTime.toNat),
    ("selttement_time", numberValue tp.selttementTime.toNat),
    ("refund_time", numberValue tp.refundTime.toNat),
    ("pieces", numberValue tp.pieces.toNat),
    ("sizes", numberValue tp.sizes.toNat),
    ("payed_pieces", numberValue tp.payedPieces.toNat),
    ("transfer_one_piece_amount", .quoted tp.transferOnePieceAmount.text),
    ("author_one_piece_amount", .quoted tp.authorOnePieceAmount.text),
    ("receiver_author_one_piece_amount", .quoted tp.receiverAuthorOnePieceAmount.text),
    ("sign_address", .quoted (json.escape tp.signAddress)),
    ("selttement_trx_id", .quoted tp.selttementTrxId.str),
    ("refund_trx_id", .quoted tp.refundTrxId.str),
    ("receipt_trx_id", .quoted tp.receiptTrxId.str),
    ("increase_trx", .bare (json.increaseTrx tp.increaseTrx)) ]

def torrentText (json : FcJson) (t : OldTorrent) : String :=
  objectText (torrentMembers json t)

def paymentText (json : FcJson) (tp : OldTorrentPayment) : String :=
  objectText (paymentMembers json tp)

end Text

section Translation

def torrentPb (t : OldTorrent) : Torrent where
  id := t.id.str
  transactionId := t.txId.str
  createBlock := t.createTime
  lastModify := t.lastModify
  userId := t.creator
  asset := t.assetType
  balance := t.amount.text
  percent := t.percent
  payTimes := t.payTimes
  finishTimes := t.finishTimes

def torrentPaymentPb (tp : OldTorrentPayment) : TorrentPayment where
  paymentId := tp.id.str
  torrentId := tp.torrentId.str
  createTime := tp.createTime
  selttementTime := tp.selttementTime
  refundTime := tp.refundTime
  userId := tp.creator
  asset := tp.assetType
  pieces := tp.pieces
  payedPieces := tp.payedPieces
  sizes := tp.sizes
  percent := tp.percent
  isSelttement := tp.isSelttement
  isRefund := tp.isRefund
  signAddress := tp.signAddress
  payPieces := tp.payPieces.toFinmap
  selttementTrxId := tp.selttementTrxId.str
  refundTrxId := tp.refundTrxId.str
  receiptTrxId := tp.receiptTrxId.str
  increaseTrx := (tp.increaseTrx.map ShareType.text).toFinmap
  authorAmount := tp.authorAmount.text
  paymentAmount := tp.paymentAmount.text
  transferOnePieceAmount := tp.transferOnePieceAmount.text
  authorOnePieceAmount := tp.authorOnePieceAmount.text
  receiverAuthorOnePieceAmount := tp.receiverAuthorOnePieceAmount.text

def marker : String := "receiver_author_one_piece_amount"

/-- The message of a value that can be read as what the marker says it is. -/
def translation (json : FcJson) (value : String) : Option Message :=
  if Contains marker value then
    (json.torrentPayment value).map fun tp => .torrentPayment (torrentPaymentPb tp)
  else (json.torrent value).map fun t => .torrent (torrentPb t)

/-- What the outside contributes to a turn of the loop: the outcomes of `Delete` and
`Put`, and what the local structures hold when nothing is read into them. -/
structure Turn where
  deleted : Bool := true
  saved : Bool := true
  t : OldTorrent
  tp : OldTorrentPayment

/-- The message a turn writes. An exception of the reader is swallowed, and the
structure it should have filled is translated as it is. -/
def translated (json : FcJson) (turn : Turn) (value : String) : Message :=
  if Contains marker value then
    .torrentPayment (torrentPaymentPb ((json.torrentPayment value).getD turn.tp))
  else .torrent (torrentPb ((json.torrent value).getD turn.t))

end Translation

/-- The two databases, and the keys that have been written to the second. -/
structure Databases where
  source : Store String
  target : Store Message
  written : List String := []

def Databases.delete (dbs : Databases) (key : String) (turn : Turn) : Databases :=
  { dbs with source := dbs.source.delete key turn.deleted }

def Databases.save (dbs : Databases) (message : Message) (turn : Turn) : Databases :=
  { dbs with
    target := saveOrUpdate dbs.target message turn.saved
    written := if turn.saved then dbs.written ++ [message.key] else dbs.written }

/-- The states of the two databases during the loop over the records `entries`, two
for each turn. A second database that could not be opened is used all the same:
there is no defined state after the first `Put`. -/
def loop (json : FcJson) (opened : Bool) (turns : String → Turn) :
    List (String × String) → Databases → List Databases
  | [], dbs => [dbs]
  | (key, value) :: rest, dbs =>
      let deleted := dbs.delete key (turns key)
      dbs :: deleted ::
        if opened then
          loop json opened turns rest
            (deleted.save (translated json (turns key) value) (turns key))
        else []

/-- After the second open it is the status of the first that is looked at. The
iterator shows the records of the old database as they were when it was made. -/
def main (json : FcJson) (opened openedNew : Bool) (turns : String → Turn)
    (records : Entries String String) (target : Store Message) (sequence : Nat) :
    List Databases :=
  let dbs : Databases :=
    { source := { entries := records.toFinmap, sequence := sequence }, target := target }
  if opened then loop json openedNew turns records.toList dbs else [dbs]

section Classification

/-- The characters between the names and values of an object. -/
def structural : List Char :=
  ['"', ':', ',', '\x7b', '\x7d']

variable {p : List Char} {members : List (String × JsonValue)}

theorem infix_of_infix_text (hp : p ≠ []) (hquote : '"' ∉ p) {value : JsonValue}
    (h : p <:+: value.text.toList) : p <:+: value.body.toList := by
  cases value with
  | bare text => exact h
  | quoted body =>
      have htext : (JsonValue.quoted body).text.toList = '"' :: (body.toList ++ ['"']) := by
        simp [JsonValue.text]
      rw [htext] at h
      exact infix_of_infix_concat hp hquote (infix_of_infix_cons hp hquote h)

theorem infix_of_infix_memberText (hp : p ≠ []) (hstructural : ∀ c ∈ structural, c ∉ p)
    {member : String × JsonValue} (h : p <:+: (memberText member).toList) :
    p <:+: member.1.toList ∨ p <:+: member.2.body.toList := by
  have hquote : '"' ∉ p := hstructural _ (by decide)
  have htext : (memberText member).toList =
      '"' :: (member.1.toList ++ '"' :: (':' :: member.2.text.toList)) := by
    simp [memberText]
  rw [htext] at h
  rcases infix_of_infix_append_cons hquote (infix_of_infix_cons hp hquote h) with hname | hvalue
  · exact .inl hname
  · have hcolon := infix_of_infix_cons hp (hstructural _ (by decide)) hvalue
    exact .inr (infix_of_infix_text hp hquote hcolon)

/-- A word is found in the text of an object only in a name or a value. -/
theorem infix_of_infix_objectText (hp : p ≠ []) (hstructural : ∀ c ∈ structural, c ∉ p)
    (h : p <:+: (objectText members).toList) :
    ∃ member ∈ members, p <:+: member.1.toList ∨ p <:+: member.2.body.toList := by
  have htext : (objectText members).toList =
      '\x7b' :: ([','].intercalate (members.map fun member => (memberText member).toList) ++
        ['\x7d']) := by
    simp [objectText, String.toList_intercalate, List.map_map, Function.comp_def]
  rw [htext] at h
  have hinner := infix_of_infix_concat hp (hstructural _ (by decide))
    (infix_of_infix_cons hp (hstructural _ (by decide)) h)
  obtain ⟨text, hmem, htext⟩ := infix_of_infix_intercalate hp (hstructural _ (by decide)) hinner
  obtain ⟨member, hmember, rfl⟩ := List.mem_map.mp hmem
  exact ⟨member, hmember, infix_of_infix_memberText hp hstructural htext⟩

theorem contains_name {name : String} {value : JsonValue} (h : (name, value) ∈ members) :
    Contains name (objectText members) := by
  have hname : name.toList <:+: (memberText (name, value)).toList :=
    ⟨['"'], ['"', ':'] ++ value.text.toList, by simp [memberText]⟩
  have hmember : (memberText (name, value)).toList <:+:
      (",".intercalate (members.map memberText)).toList := by
    rw [String.toList_intercalate, List.map_map]
    exact infix_intercalate_of_mem _ (List.mem_map.mpr ⟨(name, value), h, rfl⟩)
  refine (hname.trans hmember).trans ?_
  exact ⟨['\x7b'], ['\x7d'], by simp [objectText]⟩

theorem contains_marker_paymentText (json : FcJson) (tp : OldTorrentPayment) :
    Contains marker (paymentText json tp) := by
  have hmember : (marker, .quoted tp.receiverAuthorOnePieceAmount.text) ∈
      paymentMembers json tp := by
    simp [paymentMembers, marker]
  exact contains_name hmember

theorem not_contains_marker_of_all {text : String} {f : Char → Bool} (hf : f 'r' = false)
    (h : text.toList.all f = true) : ¬ Contains marker text := by
  intro hinfix
  have hr : 'r' ∈ text.toList := List.IsInfix.subset hinfix (by decide)
  have hall := List.all_eq_true.mp h _ hr
  rw [hf] at hall
  cases hall

theorem not_contains_marker_repr (n : Nat) : ¬ Contains marker n.repr := by
  apply not_contains_marker_of_all (f := Char.isDigit) (by decide)
  rw [List.all_eq_true, Nat.toList_repr]
  exact fun c hc => Nat.isDigit_of_mem_toDigits (by decide) (by decide) hc

theorem not_contains_marker_numberValue (n : Nat) :
    ¬ Contains marker (numberValue n).body := by
  unfold numberValue
  split
  · exact not_contains_marker_repr n
  · exact not_contains_marker_repr n

theorem not_contains_marker_str (id : HashId) : ¬ Contains marker id.str :=
  not_contains_marker_of_all (by decide) id.isHex.2

theorem structural_notMem_marker : ∀ c ∈ structural, c ∉ marker.toList := by
  simp only [structural, List.forall_mem_cons, List.not_mem_nil, false_implies, implies_true,
    and_true]
  decide

theorem not_contains_marker_torrentText {json : FcJson} {t : OldTorrent}
    (hname : ¬ Contains marker (json.escape t.creator)) :
    ¬ Contains marker (torrentText json t) := by
  intro h
  obtain ⟨member, hmem, hinfix⟩ :=
    infix_of_infix_objectText (by decide) structural_notMem_marker h
  have hnames : ∀ name ∈ (torrentMembers json t).map Prod.fst, ¬ Contains marker name := by
    simp only [torrentMembers, List.map_cons, List.map_nil]
    decide
  have hbodies : ∀ member ∈ torrentMembers json t, ¬ Contains marker member.2.body := by
    simp only [torrentMembers, List.forall_mem_cons]
    exact ⟨not_contains_marker_str _, not_contains_marker_str _, hname,
      not_contains_marker_numberValue _, not_contains_marker_repr t.amount.toNat,
      not_contains_marker_numberValue _, not_contains_marker_numberValue _,
      not_contains_marker_numberValue _, not_contains_marker_numberValue _,
      not_contains_marker_numberValue _, by simp⟩
  rcases hinfix with hinfix | hinfix
  · exact hnames member.1 (List.mem_map_of_mem hmem) hinfix
  · exact hbodies member hmem hinfix

end Classification


section Preservation

variable {json : FcJson} {turns : String → Turn}

/-- A record of the old database. -/
inductive OldRecord
  | torrent (t : OldTorrent)
  | torrentPayment (tp : OldTorrentPayment)

def OldRecord.key : OldRecord → String
  | .torrent t => t.id.str
  | .torrentPayment tp => tp.id.str

def OldRecord.text (json : FcJson) : OldRecord → String
  | .torrent t => torrentText json t
  | .torrentPayment tp => paymentText json tp

/-- The reader gives back what was written, and the name in a torrent's text does
not look like the marker. -/
def OldRecord.Readable (json : FcJson) : OldRecord → Prop
  | .torrent t =>
      json.torrent (torrentText json t) = some t ∧ ¬ Contains marker (json.escape t.creator)
  | .torrentPayment tp => json.torrentPayment (paymentText json tp) = some tp

def OldRecord.message : OldRecord → Message
  | .torrent t => .torrent (torrentPb t)
  | .torrentPayment tp => .torrentPayment (torrentPaymentPb tp)

structure TorrentPreserved (t : OldTorrent) (pb : Torrent) : Prop where
  id : pb.id = t.id.str
  transactionId : pb.transactionId = t.txId.str
  createBlock : pb.createBlock = t.createTime
  lastModify : pb.lastModify = t.lastModify
  userId : pb.userId = t.creator
  asset : pb.asset = t.assetType
  balance : pb.balance = t.amount.text
  percent : pb.percent = t.percent
  payTimes : pb.payTimes = t.payTimes
  finishTimes : pb.finishTimes = t.finishTimes

structure PaymentPreserved (tp : OldTorrentPayment) (pb : TorrentPayment) : Prop where
  paymentId : pb.paymentId = tp.id.str
  torrentId : pb.torrentId = tp.torrentId.str
  userId : pb.userId = tp.creator
  asset : pb.asset = tp.assetType
  authorAmount : pb.authorAmount = tp.authorAmount.text
  percent : pb.percent = tp.percent
  paymentAmount : pb.paymentAmount = tp.paymentAmount.text
  isSelttement : pb.isSelttement = tp.isSelttement
  isRefund : pb.isRefund = tp.isRefund
  payPieces : ∀ account, pb.payPieces.lookup account = tp.payPieces.toList.lookup account
  createTime : pb.createTime = tp.createTime
  selttementTime : pb.selttementTime = tp.selttementTime
  refundTime : pb.refundTime = tp.refundTime
  pieces : pb.pieces = tp.pieces
  sizes : pb.sizes = tp.sizes
  payedPieces : pb.payedPieces = tp.payedPieces
  transferOnePieceAmount : pb.transferOnePieceAmount = tp.transferOnePieceAmount.text
  authorOnePieceAmount : pb.authorOnePieceAmount = tp.authorOnePieceAmount.text
  receiverAuthorOnePieceAmount :
    pb.receiverAuthorOnePieceAmount = tp.receiverAuthorOnePieceAmount.text
  signAddress : pb.signAddress = tp.signAddress
  selttementTrxId : pb.selttementTrxId = tp.selttementTrxId.str
  refundTrxId : pb.refundTrxId = tp.refundTrxId.str
  receiptTrxId : pb.receiptTrxId = tp.receiptTrxId.str
  increaseTrx : ∀ trxId, pb.increaseTrx.lookup trxId =
    (tp.increaseTrx.toList.lookup trxId).map ShareType.text

def OldRecord.Preserved (db : Database) : OldRecord → Prop
  | .torrent t => ∃ pb, getTorrent db t.id.str = some pb ∧ TorrentPreserved t pb
  | .torrentPayment tp => ∃ pb, getTorrentPayment db tp.id = some pb ∧ PaymentPreserved tp pb

theorem torrentPb_preserved (t : OldTorrent) : TorrentPreserved t (torrentPb t) := by
  constructor <;> rfl

theorem torrentPaymentPb_preserved (tp : OldTorrentPayment) :
    PaymentPreserved tp (torrentPaymentPb tp) := by
  constructor
  case payPieces => exact tp.payPieces.lookup_toFinmap
  case increaseTrx =>
      intro trxId
      change ((tp.increaseTrx.map ShareType.text).toFinmap).lookup trxId = _
      rw [Entries.lookup_toFinmap]
      exact lookup_map _ _ _
  all_goals rfl

@[simp] theorem OldRecord.key_message (r : OldRecord) : r.message.key = r.key := by
  cases r <;> rfl

theorem OldRecord.preserved_of_get {db : Database} {r : OldRecord}
    (h : db.get r.key = some r.message) : r.Preserved db := by
  cases r with
  | torrent t =>
      refine ⟨torrentPb t, ?_, torrentPb_preserved t⟩
      rw [getTorrent, show db.get t.id.str = _ from h]
      rfl
  | torrentPayment tp =>
      refine ⟨torrentPaymentPb tp, ?_, torrentPaymentPb_preserved tp⟩
      rw [getTorrentPayment, show db.get tp.id.str = _ from h]
      rfl

theorem translated_text {r : OldRecord} (h : r.Readable json) (turn : Turn) :
    translated json turn (r.text json) = r.message := by
  cases r with
  | torrent t =>
      obtain ⟨hread, hname⟩ := h
      simp only [translated, OldRecord.text, not_contains_marker_torrentText hname, if_false, hread,
        Option.getD_some, OldRecord.message]
  | torrentPayment tp =>
      have hread : json.torrentPayment (paymentText json tp) = some tp := h
      simp only [translated, OldRecord.text, contains_marker_paymentText, if_true, hread,
        Option.getD_some, OldRecord.message]

/-- One turn of the loop with a target that is open. -/
def turnEnd (json : FcJson) (turns : String → Turn) (dbs : Databases) (entry : String × String) :
    Databases :=
  (dbs.delete entry.1 (turns entry.1)).save (translated json (turns entry.1) entry.2)
    (turns entry.1)

theorem getLast?_loop (entries : List (String × String)) (dbs : Databases) :
    (loop json true turns entries dbs).getLast? =
      some (entries.foldl (turnEnd json turns) dbs) := by
  induction entries generalizing dbs with
  | nil => rfl
  | cons entry entries ih =>
      have hrest := ih (turnEnd json turns dbs entry)
      rw [List.foldl_cons, ← hrest]
      change (_ :: _ :: loop json true turns entries (turnEnd json turns dbs entry)).getLast? = _
      obtain ⟨last, hlast⟩ : ∃ last,
          (loop json true turns entries (turnEnd json turns dbs entry)).getLast? = some last :=
        ⟨_, hrest⟩
      simp [List.getLast?_cons, hlast]

/-- When every `Put` succeeds and writes under the key of its record, a key ends up
with the message of its record. -/
theorem get_target_foldl {entries : List (String × String)}
    (hnodup : (entries.map Prod.fst).Nodup) (dbs : Databases)
    (hkeys : ∀ entry ∈ entries, (translated json (turns entry.1) entry.2).key = entry.1)
    (hsaved : ∀ key, (turns key).saved = true) (key : String) :
    (entries.foldl (turnEnd json turns) dbs).target.get key =
      ((entries.lookup key).map (translated json (turns key))).or (dbs.target.get key) := by
  induction entries generalizing dbs with
  | nil => rfl
  | cons entry entries ih =>
      rw [List.map_cons, List.nodup_cons] at hnodup
      rw [List.forall_mem_cons] at hkeys
      rw [List.foldl_cons, ih hnodup.2 _ hkeys.2, List.lookup_cons]
      have htarget : (turnEnd json turns dbs entry).target =
          saveOrUpdate dbs.target (translated json (turns entry.1) entry.2) true := by
        simp only [turnEnd, Databases.save, Databases.delete, hsaved]
      rw [htarget, get_saveOrUpdate, hkeys.1]
      by_cases hkey : key = entry.1
      · subst hkey
        rw [lookup_eq_none_of_notMem hnodup.1]
        simp
      · simp [hkey, beq_false_of_ne hkey]

/-- The tool on an empty target, when every operation of the databases succeeds. -/
theorem migration_preserves_records {records : Entries String String} {sequence : Nat}
    (hrecords : ∀ entry ∈ records.toList, ∃ r : OldRecord, r.Readable json ∧
      entry = (r.key, r.text json))
    (hturns : ∀ key, (turns key).deleted = true ∧ (turns key).saved = true) :
    ∃ dbs, (main json true true turns records .empty sequence).getLast? = some dbs ∧
      (∀ key, (dbs.target.get key).isSome = true ↔ key ∈ records.toList.map Prod.fst) ∧
      ∀ r : OldRecord, r.Readable json → (r.key, r.text json) ∈ records.toList →
        r.Preserved dbs.target := by
  have hkeys : ∀ entry ∈ records.toList,
      (translated json (turns entry.1) entry.2).key = entry.1 := by
    intro entry hentry
    obtain ⟨r, hreadable, rfl⟩ := hrecords entry hentry
    rw [translated_text hreadable, OldRecord.key_message]
  have hget := fun dbs key =>
    get_target_foldl records.nodup dbs hkeys (fun key => (hturns key).2) key
  refine ⟨_, getLast?_loop _ _, ?_, ?_⟩
  · intro key
    rw [hget, ← records.lookup_isSome_iff]
    simp
  · intro r hreadable hmem
    apply OldRecord.preserved_of_get
    rw [hget, records.lookup_of_mem hmem]
    simp [translated_text hreadable]

end Preservation

section Sample

def sampleTorrent : OldTorrent where
  id := .ofDigit 'd' rfl
  txId := .ofDigit 'c' rfl
  creator := "author"
  amount := 1000
  assetType := 1
  createTime := 7
  lastModify := 9
  percent := 10
  payTimes := 2
  finishTimes := 1

def samplePayment : OldTorrentPayment where
  id := .ofDigit 'e' rfl
  torrentId := sampleTorrent.id
  creator := "reader"
  assetType := 1
  authorAmount := 1000
  percent := 10
  paymentAmount := 500
  isSelttement := false
  isRefund := false
  payPieces := { toList := [("seeder", 4)], nodup := by decide }
  createTime := 8
  selttementTime := 0
  refundTime := 0
  pieces := 10
  sizes := 4294967296
  payedPieces := 4
  transferOnePieceAmount := 5
  authorOnePieceAmount := 100
  receiverAuthorOnePieceAmount := 90
  signAddress := "address"
  selttementTrxId := sampleTorrent.txId
  refundTrxId := sampleTorrent.txId
  receiptTrxId := sampleTorrent.txId
  increaseTrx := { toList := [], nodup := by decide }

def sampleWriter : FcJson where
  escape text := text
  payPieces entries :=
    "[" ++ ",".intercalate
      (entries.toList.map fun entry =>
        "[\"" ++ entry.1 ++ "\"," ++ entry.2.toNat.repr ++ "]") ++ "]"
  increaseTrx entries :=
    "[" ++ ",".intercalate
      (entries.toList.map fun entry => "[\"" ++ entry.1 ++ "\",\"" ++ entry.2.text ++ "\"]") ++ "]"
  torrent _ := none
  torrentPayment _ := none

/-- A reader that knows the texts of the two records. -/
def sampleJson : FcJson :=
  { sampleWriter with
    torrent := fun text =>
      if text = torrentText sampleWriter sampleTorrent then some sampleTorrent else none
    torrentPayment := fun text =>
      if text = paymentText sampleWriter samplePayment then some samplePayment else none }

def sampleRecords : Entries String String where
  toList :=
    [ (sampleTorrent.id.str, torrentText sampleJson sampleTorrent),
      (samplePayment.id.str, paymentText sampleJson samplePayment) ]
  nodup := by decide

def sampleTurns : String → Turn :=
  fun _ => { t := sampleTorrent, tp := samplePayment }

theorem sampleTorrent_readable : (OldRecord.torrent sampleTorrent).Readable sampleJson := by
  constructor
  · have htext : torrentText sampleJson sampleTorrent =
        torrentText sampleWriter sampleTorrent := rfl
    simp only [sampleJson] at htext ⊢
    rw [htext, if_pos rfl]
  · decide

theorem samplePayment_readable :
    (OldRecord.torrentPayment samplePayment).Readable sampleJson := by
  have htext : paymentText sampleJson samplePayment = paymentText sampleWriter samplePayment := rfl
  simp only [OldRecord.Readable, sampleJson] at htext ⊢
  rw [htext, if_pos rfl]

theorem sampleRecords_preserved :
    ∃ dbs, (main sampleJson true true sampleTurns sampleRecords .empty 0).getLast? = some dbs ∧
      (OldRecord.torrent sampleTorrent).Preserved dbs.target ∧
      (OldRecord.torrentPayment samplePayment).Preserved dbs.target := by
  have hrecords : ∀ entry ∈ sampleRecords.toList, ∃ r : OldRecord, r.Readable sampleJson ∧
      entry = (r.key, r.text sampleJson) := by
    intro entry hentry
    rcases List.mem_cons.mp hentry with rfl | hentry
    · exact ⟨_, sampleTorrent_readable, rfl⟩
    · exact ⟨_, samplePayment_readable, List.mem_singleton.mp hentry⟩
  have hturns : ∀ key, (sampleTurns key).deleted = true ∧ (sampleTurns key).saved = true :=
    fun _ => ⟨rfl, rfl⟩
  obtain ⟨dbs, hlast, -, hpreserved⟩ := migration_preserves_records hrecords hturns
  refine ⟨dbs, hlast, hpreserved _ sampleTorrent_readable ?_,
    hpreserved _ samplePayment_readable ?_⟩
  · exact List.mem_cons_self
  · exact List.mem_cons_of_mem _ List.mem_cons_self

end Sample

end TorrentServer.Migration
