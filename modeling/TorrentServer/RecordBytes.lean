import TorrentServer.Library.WireFormat
import TorrentServer.ReplaceStatements

namespace TorrentServer.RecordBytes

open TorrentServer.Records
open TorrentServer.ReplaceStatements
open TorrentServer.Library.MapEntries
open TorrentServer.Library.WireFormat

section Messages

/-- `torrent::SerializeToString`. -/
def torrentFields (t : Torrent) : List WireField :=
  [ stringField 1 t.id,
    stringField 2 t.transactionId,
    doubleField 3 t.time,
    uint64Field 4 t.createBlock,
    uint64Field 5 t.lastModify,
    stringField 6 t.userId,
    uint32Field 7 t.asset,
    stringField 8 t.balance,
    uint32Field 9 t.percent,
    uint32Field 10 t.payTimes,
    uint32Field 11 t.finishTimes,
    boolField 12 t.isCreate ].flatten

/-- `torrent::ParseFromArray`, field by field. -/
def takeTorrent (t : Torrent) (f : WireField) : Taken Torrent :=
  match f.number, f.value with
  | 1, .bytes text => takeRead (readText text) fun text => { t with id := text }
  | 2, .bytes text => takeRead (readText text) fun text => { t with transactionId := text }
  | 3, .fixed64 bits => .set { t with time := bits }
  | 4, .varint n => .set { t with createBlock := n }
  | 5, .varint n => .set { t with lastModify := n }
  | 6, .bytes text => takeRead (readText text) fun text => { t with userId := text }
  | 7, .varint n => .set { t with asset := n.toUInt32 }
  | 8, .bytes text => takeRead (readText text) fun text => { t with balance := text }
  | 9, .varint n => .set { t with percent := n.toUInt32 }
  | 10, .varint n => .set { t with payTimes := n.toUInt32 }
  | 11, .varint n => .set { t with finishTimes := n.toUInt32 }
  | 12, .varint n => .set { t with isCreate := n != 0 }
  | _, _ => .unknown

def uint32Value (n : UInt32) : WireValue :=
  .varint n.toUInt64

def takeUint32 : WireValue → Taken UInt32
  | .varint n => .set n.toUInt32
  | _ => .unknown

theorem takeUint32_value (n : UInt32) : takeUint32 (uint32Value n) = .set n := by
  simp [takeUint32, uint32Value]

def stringValue (text : String) : WireValue :=
  .bytes (textBytes text)

def takeString : WireValue → Taken String
  | .bytes text => takeRead (readText text) id
  | _ => .unknown

theorem takeString_value (text : String) : takeString (stringValue text) = .set text := by
  simp [takeString, stringValue, takeRead]

/-- The entries of a map come in whatever order its hash table has them. -/
def paymentFields (b : OrderedPayment) : List WireField :=
  [ stringField 1 b.payment.paymentId,
    stringField 2 b.payment.torrentId,
    doubleField 3 b.payment.time,
    uint64Field 4 b.payment.createTime,
    uint64Field 5 b.payment.selttementTime,
    uint64Field 6 b.payment.refundTime,
    stringField 7 b.payment.userId,
    uint32Field 8 b.payment.asset,
    uint32Field 9 b.payment.pieces,
    uint32Field 10 b.payment.payedPieces,
    uint64Field 11 b.payment.sizes,
    uint32Field 12 b.payment.percent,
    boolField 13 b.payment.isSelttement,
    boolField 14 b.payment.isRefund,
    stringField 15 b.payment.signAddress,
    mapField 17 uint32Value b.payPieces.toList,
    stringField 18 b.payment.selttementTrxId,
    stringField 19 b.payment.refundTrxId,
    stringField 20 b.payment.receiptTrxId,
    mapField 22 stringValue b.increaseTrx.toList,
    stringField 23 b.payment.authorAmount,
    stringField 24 b.payment.paymentAmount,
    stringField 25 b.payment.transferOnePieceAmount,
    stringField 26 b.payment.authorOnePieceAmount,
    stringField 27 b.payment.receiverAuthorOnePieceAmount ].flatten

def takePayment (tp : TorrentPayment) (f : WireField) : Taken TorrentPayment :=
  match f.number, f.value with
  | 1, .bytes text => takeRead (readText text) fun text => { tp with paymentId := text }
  | 2, .bytes text => takeRead (readText text) fun text => { tp with torrentId := text }
  | 3, .fixed64 bits => .set { tp with time := bits }
  | 4, .varint n => .set { tp with createTime := n }
  | 5, .varint n => .set { tp with selttementTime := n }
  | 6, .varint n => .set { tp with refundTime := n }
  | 7, .bytes text => takeRead (readText text) fun text => { tp with userId := text }
  | 8, .varint n => .set { tp with asset := n.toUInt32 }
  | 9, .varint n => .set { tp with pieces := n.toUInt32 }
  | 10, .varint n => .set { tp with payedPieces := n.toUInt32 }
  | 11, .varint n => .set { tp with sizes := n }
  | 12, .varint n => .set { tp with percent := n.toUInt32 }
  | 13, .varint n => .set { tp with isSelttement := n != 0 }
  | 14, .varint n => .set { tp with isRefund := n != 0 }
  | 15, .bytes text => takeRead (readText text) fun text => { tp with signAddress := text }
  | 17, .bytes entry =>
      takeRead (readEntry takeUint32 0 entry) fun entry =>
        { tp with payPieces := tp.payPieces.insert entry.1 entry.2 }
  | 18, .bytes text => takeRead (readText text) fun text => { tp with selttementTrxId := text }
  | 19, .bytes text => takeRead (readText text) fun text => { tp with refundTrxId := text }
  | 20, .bytes text => takeRead (readText text) fun text => { tp with receiptTrxId := text }
  | 22, .bytes entry =>
      takeRead (readEntry takeString "" entry) fun entry =>
        { tp with increaseTrx := tp.increaseTrx.insert entry.1 entry.2 }
  | 23, .bytes text => takeRead (readText text) fun text => { tp with authorAmount := text }
  | 24, .bytes text => takeRead (readText text) fun text => { tp with paymentAmount := text }
  | 25, .bytes text =>
      takeRead (readText text) fun text => { tp with transferOnePieceAmount := text }
  | 26, .bytes text => takeRead (readText text) fun text => { tp with authorOnePieceAmount := text }
  | 27, .bytes text =>
      takeRead (readText text) fun text => { tp with receiverAuthorOnePieceAmount := text }
  | _, _ => .unknown

end Messages

def piecesPart : Part TorrentPayment (Finmap fun _ : String => UInt32) where
  get tp := tp.payPieces
  set tp payPieces := { tp with payPieces := payPieces }
  get_set _ _ := rfl
  set_get _ := rfl
  set_set _ _ _ := rfl

def increasePart : Part TorrentPayment (Finmap fun _ : String => String) where
  get tp := tp.increaseTrx
  set tp increaseTrx := { tp with increaseTrx := increaseTrx }
  get_set _ _ := rfl
  set_get _ := rfl
  set_set _ _ _ := rfl

section Merged

variable {t : Torrent} {b : OrderedPayment} {unknown fields : List WireField}

theorem toUInt64_ne_zero (n : UInt32) : (n.toUInt64 != 0) = (n != 0) := by
  rw [Bool.eq_iff_iff, bne_iff_ne, bne_iff_ne, ne_eq, ne_eq, ← UInt64.toNat_inj, ← UInt32.toNat_inj]
  simp

/-- The fields of a torrent that a payment has with another wire type. -/
def unknownToPayment (t : Torrent) : List WireField :=
  [stringField 6 t.userId, uint32Field 7 t.asset, stringField 8 t.balance].flatten

/-- The fields of a payment that a torrent does not have, or has with another wire type. -/
def unknownToTorrent (b : OrderedPayment) : List WireField :=
  [ uint64Field 6 b.payment.refundTime,
    stringField 7 b.payment.userId,
    uint32Field 8 b.payment.asset,
    boolField 13 b.payment.isSelttement,
    boolField 14 b.payment.isRefund,
    stringField 15 b.payment.signAddress,
    mapField 17 uint32Value b.payPieces.toList,
    stringField 18 b.payment.selttementTrxId,
    stringField 19 b.payment.refundTrxId,
    stringField 20 b.payment.receiptTrxId,
    mapField 22 stringValue b.increaseTrx.toList,
    stringField 23 b.payment.authorAmount,
    stringField 24 b.payment.paymentAmount,
    stringField 25 b.payment.transferOnePieceAmount,
    stringField 26 b.payment.authorOnePieceAmount,
    stringField 27 b.payment.receiverAuthorOnePieceAmount ].flatten

theorem merge_torrent (htime : t.time <<< 1 = 0 → t.time = 0) :
    merge takeTorrent {} unknown (torrentFields t ++ fields) =
      merge takeTorrent t unknown fields := by
  simp only [torrentFields, List.flatten_cons, List.append_assoc, List.flatten_nil, List.nil_append]
  -- The record is put together anew now and then, before its projections pile up.
  refine Eq.trans (merge_string _ (fun _ => rfl) rfl) ?_
  refine Eq.trans (merge_string _ (fun _ => rfl) rfl) ?_
  refine Eq.trans (merge_double htime (fun _ => rfl) rfl) ?_
  refine Eq.trans (merge_uint64 _ (fun _ => rfl) rfl) ?_
  refine Eq.trans (merge_uint64 _ (fun _ => rfl) rfl) ?_
  dsimp only
  refine Eq.trans (merge_string _ (fun _ => rfl) rfl) ?_
  refine Eq.trans (merge_uint64 _ (fun _ => rfl) rfl) ?_
  refine Eq.trans (merge_string _ (fun _ => rfl) rfl) ?_
  refine Eq.trans (merge_uint64 _ (fun _ => rfl) rfl) ?_
  dsimp only
  refine Eq.trans (merge_uint64 _ (fun _ => rfl) rfl) ?_
  refine Eq.trans (merge_uint64 _ (fun _ => rfl) rfl) ?_
  refine Eq.trans (merge_uint64 _ (fun _ => rfl) rfl) ?_
  simp

theorem merge_torrent_as_payment (htime : t.time <<< 1 = 0 → t.time = 0) :
    merge takePayment {} [] (torrentFields t) =
      { message := (Message.torrent t).parseTorrentPayment
        unknown := unknownToPayment t } := by
  simp only [torrentFields, List.flatten_cons]
  refine Eq.trans (merge_string _ (fun _ => rfl) rfl) ?_
  refine Eq.trans (merge_string _ (fun _ => rfl) rfl) ?_
  refine Eq.trans (merge_double htime (fun _ => rfl) rfl) ?_
  refine Eq.trans (merge_uint64 _ (fun _ => rfl) rfl) ?_
  refine Eq.trans (merge_uint64 _ (fun _ => rfl) rfl) ?_
  dsimp only
  refine Eq.trans (merge_unknown rfl) ?_
  refine Eq.trans (merge_unknown rfl) ?_
  refine Eq.trans (merge_unknown rfl) ?_
  refine Eq.trans (merge_uint64 _ (fun _ => rfl) rfl) ?_
  refine Eq.trans (merge_uint64 _ (fun _ => rfl) rfl) ?_
  refine Eq.trans (merge_uint64 _ (fun _ => rfl) rfl) ?_
  refine Eq.trans (merge_uint64 _ (fun _ => rfl) rfl) ?_
  dsimp only
  cases hcreate : t.isCreate <;>
    simp [merge, Message.parseTorrentPayment, hcreate, unknownToPayment, stringField,
      uint32Field, uint64Field]

theorem merge_payment_as_torrent (htime : b.payment.time <<< 1 = 0 → b.payment.time = 0) :
    merge takeTorrent {} [] (paymentFields b) =
      { message := (Message.torrentPayment b.payment).parseTorrent
        unknown := unknownToTorrent b } := by
  simp only [paymentFields, List.flatten_cons]
  refine Eq.trans (merge_string _ (fun _ => rfl) rfl) ?_
  refine Eq.trans (merge_string _ (fun _ => rfl) rfl) ?_
  refine Eq.trans (merge_double htime (fun _ => rfl) rfl) ?_
  refine Eq.trans (merge_uint64 _ (fun _ => rfl) rfl) ?_
  refine Eq.trans (merge_uint64 _ (fun _ => rfl) rfl) ?_
  dsimp only
  refine Eq.trans (merge_unknown rfl) ?_
  refine Eq.trans (merge_unknown rfl) ?_
  refine Eq.trans (merge_unknown rfl) ?_
  refine Eq.trans (merge_uint64 _ (fun _ => rfl) rfl) ?_
  refine Eq.trans (merge_uint64 _ (fun _ => rfl) rfl) ?_
  refine Eq.trans (merge_uint64 _ (fun _ => rfl) rfl) ?_
  refine Eq.trans (merge_uint64 _ (fun _ => rfl) rfl) ?_
  dsimp only
  refine Eq.trans (merge_unknown rfl) ?_
  refine Eq.trans (merge_unknown rfl) ?_
  refine Eq.trans (merge_unknown rfl) ?_
  refine Eq.trans (merge_unknownMap fun _ => rfl) ?_
  refine Eq.trans (merge_unknown rfl) ?_
  refine Eq.trans (merge_unknown rfl) ?_
  refine Eq.trans (merge_unknown rfl) ?_
  refine Eq.trans (merge_unknownMap fun _ => rfl) ?_
  refine Eq.trans (merge_unknown rfl) ?_
  refine Eq.trans (merge_unknown rfl) ?_
  refine Eq.trans (merge_unknown rfl) ?_
  refine Eq.trans (merge_unknown rfl) ?_
  refine Eq.trans (merge_unknown rfl) ?_
  simp [merge, Message.parseTorrent, toUInt64_ne_zero, unknownToTorrent, stringField,
    uint32Field, uint64Field, boolField]

theorem merge_payment (htime : b.payment.time <<< 1 = 0 → b.payment.time = 0)
    (hfits : ∀ f ∈ paymentFields b, f.Fits) :
    merge takePayment {} unknown (paymentFields b ++ fields) =
      merge takePayment b.payment unknown fields := by
  have hpieces : ∀ f ∈ mapField 17 uint32Value b.payPieces.toList, f.Fits := fun f hf =>
    hfits f (List.mem_flatten.mpr ⟨_, by simp, hf⟩)
  have hincrease : ∀ f ∈ mapField 22 stringValue b.increaseTrx.toList, f.Fits := fun f hf =>
    hfits f (List.mem_flatten.mpr ⟨_, by simp, hf⟩)
  have hpayPieces : insertAll b.payPieces.toList ∅ = b.payment.payPieces := b.payPieces_eq
  have hincreaseTrx : insertAll b.increaseTrx.toList ∅ = b.payment.increaseTrx :=
    b.increaseTrx_eq
  simp only [paymentFields, List.flatten_cons, List.append_assoc, List.flatten_nil,
    List.nil_append]
  refine Eq.trans (merge_string _ (fun _ => rfl) rfl) ?_
  refine Eq.trans (merge_string _ (fun _ => rfl) rfl) ?_
  refine Eq.trans (merge_double htime (fun _ => rfl) rfl) ?_
  refine Eq.trans (merge_uint64 _ (fun _ => rfl) rfl) ?_
  refine Eq.trans (merge_uint64 _ (fun _ => rfl) rfl) ?_
  dsimp only
  refine Eq.trans (merge_uint64 _ (fun _ => rfl) rfl) ?_
  refine Eq.trans (merge_string _ (fun _ => rfl) rfl) ?_
  refine Eq.trans (merge_uint64 _ (fun _ => rfl) rfl) ?_
  refine Eq.trans (merge_uint64 _ (fun _ => rfl) rfl) ?_
  dsimp only
  refine Eq.trans (merge_uint64 _ (fun _ => rfl) rfl) ?_
  refine Eq.trans (merge_uint64 _ (fun _ => rfl) rfl) ?_
  refine Eq.trans (merge_uint64 _ (fun _ => rfl) rfl) ?_
  refine Eq.trans (merge_uint64 _ (fun _ => rfl) rfl) ?_
  dsimp only
  refine Eq.trans (merge_uint64 _ (fun _ => rfl) rfl) ?_
  refine Eq.trans (merge_string _ (fun _ => rfl) rfl) ?_
  dsimp only
  refine Eq.trans (merge_map piecesPart (fun _ _ => rfl) takeUint32_value hpieces) ?_
  dsimp only [piecesPart]
  refine Eq.trans (merge_string _ (fun _ => rfl) rfl) ?_
  refine Eq.trans (merge_string _ (fun _ => rfl) rfl) ?_
  refine Eq.trans (merge_string _ (fun _ => rfl) rfl) ?_
  dsimp only
  refine Eq.trans (merge_map increasePart (fun _ _ => rfl) takeString_value hincrease) ?_
  dsimp only [increasePart]
  refine Eq.trans (merge_string _ (fun _ => rfl) rfl) ?_
  refine Eq.trans (merge_string _ (fun _ => rfl) rfl) ?_
  refine Eq.trans (merge_string _ (fun _ => rfl) rfl) ?_
  dsimp only
  refine Eq.trans (merge_string _ (fun _ => rfl) rfl) ?_
  refine Eq.trans (merge_string _ (fun _ => rfl) rfl) ?_
  dsimp only
  simp [hpayPieces, hincreaseTrx]

end Merged

section Bytes

variable {t : Torrent} {b : OrderedPayment} {m : Message} {unknown : List WireField}
  {bytes : Bytes}

theorem numbers_torrentFields {f : WireField} (hf : f ∈ torrentFields t) :
    0 < f.number ∧ f.number < 2 ^ 29 := by
  simp only [torrentFields, List.flatten_cons, List.flatten_nil, List.append_nil,
    List.mem_append] at hf
  rcases hf with h | h | h | h | h | h | h | h | h | h | h | h <;>
    simp [eq_of_mem_fieldUnless h]

theorem numbers_paymentFields {f : WireField} (hf : f ∈ paymentFields b) :
    0 < f.number ∧ f.number < 2 ^ 29 := by
  simp only [paymentFields, List.flatten_cons, List.flatten_nil, List.append_nil,
    List.mem_append] at hf
  rcases hf with h | h | h | h | h | h | h | h | h | h | h | h | h | h | h | h | h | h | h | h |
      h | h | h | h | h <;>
    first
    | simp [eq_of_mem_fieldUnless h]
    | (obtain ⟨bytes, rfl⟩ := eq_of_mem_mapField h; simp)

/-- What `SerializeToString` can leave of a record with the fields its type does not know. All
of it has to stay below two gigabytes. -/
inductive Serialized : Message → List WireField → Bytes → Prop
  | torrent (t : Torrent) (unknown : List WireField)
      (hlength : (encode (torrentFields t ++ unknown)).length < 2 ^ 31) :
      Serialized (.torrent t) unknown (encode (torrentFields t ++ unknown))
  | torrentPayment (b : OrderedPayment) (unknown : List WireField)
      (hlength : (encode (paymentFields b ++ unknown)).length < 2 ^ 31) :
      Serialized (.torrentPayment b.payment) unknown (encode (paymentFields b ++ unknown))

def timeOf : Message → UInt64
  | .torrent t => t.time
  | .torrentPayment tp => tp.time

/-- A time of minus zero is not written. -/
def PlainTime (m : Message) : Prop :=
  timeOf m <<< 1 = 0 → timeOf m = 0

def parseTorrent (bytes : Bytes) : Parsed Torrent :=
  parse takeTorrent {} bytes

def parseTorrentPayment (bytes : Bytes) : Parsed TorrentPayment :=
  parse takePayment {} bytes

/-- Fields that a record of the kind of this one keeps. -/
def ForeignTo : Message → List WireField → Prop
  | .torrent _, unknown => ∀ f ∈ unknown, Foreign takeTorrent f
  | .torrentPayment _, unknown => ∀ f ∈ unknown, Foreign takePayment f

theorem parse_torrent {unknown : List WireField} (htime : PlainTime (.torrent t))
    (hforeign : ∀ f ∈ unknown, Foreign takeTorrent f)
    (hlength : (encode (torrentFields t ++ unknown)).length < 2 ^ 31) :
    parseTorrent (encode (torrentFields t ++ unknown)) = { message := t, unknown := unknown } :=
  parse_own (fun _ _ _ => merge_torrent htime) (fun _ hf => numbers_torrentFields hf) hforeign
    hlength

theorem parse_payment {unknown : List WireField} (htime : PlainTime (.torrentPayment b.payment))
    (hforeign : ∀ f ∈ unknown, Foreign takePayment f)
    (hlength : (encode (paymentFields b ++ unknown)).length < 2 ^ 31) :
    parseTorrentPayment (encode (paymentFields b ++ unknown)) =
      { message := b.payment, unknown := unknown } :=
  parse_own (fun hfits _ _ => merge_payment htime hfits) (fun _ hf => numbers_paymentFields hf)
    hforeign hlength

theorem parse_torrent_as_payment (htime : PlainTime (.torrent t))
    (hlength : (encode (torrentFields t)).length < 2 ^ 31) :
    parseTorrentPayment (encode (torrentFields t)) =
      { message := (Message.torrent t).parseTorrentPayment
        unknown := unknownToPayment t } := by
  rw [parseTorrentPayment,
    parse_encode _ _ (fits_of_length (fun _ hf => numbers_torrentFields hf) hlength)]
  exact merge_torrent_as_payment htime

theorem parse_payment_as_torrent (htime : PlainTime (.torrentPayment b.payment))
    (hlength : (encode (paymentFields b)).length < 2 ^ 31) :
    parseTorrent (encode (paymentFields b)) =
      { message := (Message.torrentPayment b.payment).parseTorrent
        unknown := unknownToTorrent b } := by
  rw [parseTorrent,
    parse_encode _ _ (fits_of_length (fun _ hf => numbers_paymentFields hf) hlength)]
  exact merge_payment_as_torrent htime

theorem foreign_unknownToPayment : ∀ f ∈ unknownToPayment t, Foreign takePayment f := by
  intro f hf
  simp only [unknownToPayment, List.flatten_cons, List.flatten_nil, List.append_nil,
    List.mem_append] at hf
  rcases hf with h | h | h <;>
    (obtain rfl := eq_of_mem_fieldUnless h; exact ⟨by simp, fun _ => rfl⟩)

theorem foreign_unknownToTorrent : ∀ f ∈ unknownToTorrent b, Foreign takeTorrent f := by
  intro f hf
  simp only [unknownToTorrent, List.flatten_cons, List.flatten_nil, List.append_nil,
    List.mem_append] at hf
  rcases hf with h | h | h | h | h | h | h | h | h | h | h | h | h | h | h | h <;>
    first
    | (obtain rfl := eq_of_mem_fieldUnless h; exact ⟨by simp, fun _ => rfl⟩)
    | (obtain ⟨bytes, rfl⟩ := eq_of_mem_mapField h; exact ⟨by simp, fun _ => rfl⟩)

/-- The bytes of a record as either getter reads them: complete, and with the fields it
does not know. -/
theorem serialized_read (h : Serialized m [] bytes) (htime : PlainTime m) :
    (∃ unknown, parseTorrent bytes = { message := m.parseTorrent, unknown := unknown } ∧
      ∀ f ∈ unknown, Foreign takeTorrent f) ∧
    ∃ unknown, parseTorrentPayment bytes =
        { message := m.parseTorrentPayment, unknown := unknown } ∧
      ∀ f ∈ unknown, Foreign takePayment f := by
  generalize hnone : ([] : List WireField) = unknown at h
  cases h with
  | torrent t unknown hlength =>
      subst hnone
      have hown := parse_torrent htime (by simp) hlength
      rw [List.append_nil] at hown hlength ⊢
      exact ⟨⟨_, hown, by simp⟩, _, parse_torrent_as_payment htime hlength,
        foreign_unknownToPayment⟩
  | torrentPayment b unknown hlength =>
      subst hnone
      have hown := parse_payment htime (by simp) hlength
      rw [List.append_nil] at hown hlength ⊢
      exact ⟨⟨_, parse_payment_as_torrent htime hlength, foreign_unknownToTorrent⟩,
        _, hown, by simp⟩

theorem Serialized.own (h : Serialized m unknown bytes) (htime : PlainTime m)
    (hforeign : ForeignTo m unknown) :
    (∀ t, m = .torrent t → parseTorrent bytes = { message := t, unknown := unknown }) ∧
      ∀ tp, m = .torrentPayment tp →
        parseTorrentPayment bytes = { message := tp, unknown := unknown } := by
  cases h with
  | torrent t unknown hlength =>
      refine ⟨?_, by simp⟩
      rintro _ ⟨⟩
      exact parse_torrent htime hforeign hlength
  | torrentPayment b unknown hlength =>
      refine ⟨by simp, ?_⟩
      rintro _ ⟨⟩
      exact parse_payment htime hforeign hlength

theorem timeOf_parseTorrent (m : Message) : timeOf (.torrent m.parseTorrent) = timeOf m := by
  cases m <;> rfl

theorem timeOf_parseTorrentPayment (m : Message) :
    timeOf (.torrentPayment m.parseTorrentPayment) = timeOf m := by
  cases m <;> rfl

/-- Either getter reads the bytes of either kind of record without failing, its own kind as
it was; and what it has read, saved again with the fields it keeps, it reads again. -/
theorem records_read_back (h : Serialized m [] bytes) (htime : PlainTime m) :
    (parseTorrent bytes).message = m.parseTorrent ∧ (parseTorrent bytes).complete = true ∧
    (parseTorrentPayment bytes).message = m.parseTorrentPayment ∧
    (parseTorrentPayment bytes).complete = true ∧
    (∀ again, Serialized (.torrent (parseTorrent bytes).message) (parseTorrent bytes).unknown
      again → parseTorrent again = parseTorrent bytes) ∧
    ∀ again, Serialized (.torrentPayment (parseTorrentPayment bytes).message)
      (parseTorrentPayment bytes).unknown again →
        parseTorrentPayment again = parseTorrentPayment bytes := by
  obtain ⟨⟨unknown, htorrent, hkept⟩, unknown', hpayment, hkept'⟩ := serialized_read h htime
  rw [htorrent, hpayment]
  refine ⟨rfl, rfl, rfl, rfl, fun again hagain => ?_, fun again hagain => ?_⟩
  · refine (hagain.own ?_ hkept).1 _ rfl
    rw [PlainTime, timeOf_parseTorrent]
    exact htime
  · refine (hagain.own ?_ hkept').2 _ rfl
    rw [PlainTime, timeOf_parseTorrentPayment]
    exact htime

def samplePieces : OrderedPayment where
  payment :=
    { paymentId := "payment"
      userId := "kevin"
      pieces := 32
      payPieces := Finmap.singleton "reader" 4 }
  payPieces := { toList := [("reader", 4)], nodup := by simp }
  increaseTrx := { toList := [], nodup := by simp }
  payPieces_eq := rfl
  increaseTrx_eq := rfl

theorem samplePieces_read_back :
    (parseTorrentPayment (encode (paymentFields samplePieces ++ []))).message =
        samplePieces.payment ∧
      (parseTorrent (encode (paymentFields samplePieces ++ []))).message =
        { id := "payment", percent := 32 } := by
  obtain ⟨htorrent, -, hpayment, -⟩ := records_read_back
    (.torrentPayment samplePieces [] (by decide +kernel)) fun _ => rfl
  exact ⟨hpayment, htorrent⟩

end Bytes

end TorrentServer.RecordBytes
