import TorrentServer.TaskTexts

namespace TorrentServer.ReplaceReading

open TorrentServer.Records
open TorrentServer.ChainLibrary
open TorrentServer.MysqlTables
open TorrentServer.ReplaceStatements
open TorrentServer.TaskTexts
open TorrentServer.Library.CIntegers
open TorrentServer.Library.MapEntries
open TorrentServer.Library.SqlText
open TorrentServer.Library.SqlLiterals
open TorrentServer.Library.SqlStatements

section Fields

/-- The amount in units of its asset. -/
def amountText (env : Environment) (asset : UInt32) (amount : String) : String :=
  ((assetOf env asset).map fun as => amountColumn env as amount).getD ""

variable (formatF : UInt64 → Numeral) (env : Environment)

/-- The field of a record that a column is named after. -/
def torrentField (b : Torrent) : String → Value
  | "id" => .string b.id.toList
  | "transaction_id" => .string b.transactionId.toList
  | "time" => .number (formatF b.time)
  | "create_block" => .number (.ofInt b.createBlock.toNat)
  | "last_modify" => .number (.ofInt b.lastModify.toNat)
  | "user_id" => .string b.userId.toList
  | "asset" => .number (.ofInt b.asset.toNat)
  | "percent" => .number (.ofInt b.percent.toNat)
  | "pay_times" => .number (.ofInt b.payTimes.toNat)
  | "finish_times" => .number (.ofInt b.finishTimes.toNat)
  | "is_create" => .number (.ofInt b.isCreate.toInt)
  | "balance" => .string (amountText env b.asset b.balance).toList
  | _ => .null

def torrentTuple (now : UInt64) (b : Torrent) : Tuple where
  first := slotS b.id
  rest :=
    [ (commaBlank, slotS b.transactionId), (commaBlank, .number (formatF now) (formatF b.time)),
      (comma, slotLu b.createBlock), (comma, slotLu b.lastModify), (commaBlank, slotS b.userId),
      (commaBlank, slotD b.asset b.asset.toNat), (commaBlank, slotD b.percent b.percent.toNat),
      (commaBlank, slotD b.payTimes b.payTimes.toNat),
      (comma, slotD b.finishTimes b.finishTimes.toNat), (comma, slotD 1 b.isCreate.toInt),
      (commaBlank, slotS (amountText env b.asset b.balance)) ]
  commas := by simp [comma, commaBlank]

theorem torrentTuple_text {now : UInt64} {b : Torrent} {as : SimpleAsset}
    (h : assetOf env b.asset = some as) :
    (torrentValue (String.ofList (formatF now).text) b env as).toList =
      (torrentTuple formatF env now b).text := by
  simp [torrentValue, torrentParts, sdscatprintf, sqlAppendMpd, Conversion.text, toList_cStr,
    toList_formatD, toList_formatLu, torrentTuple, Tuple.text, textOf, slotS, slotD, slotLu,
    Slot.text, amountText, h, comma, commaBlank]

theorem torrentTupleText_toList (call : UInt64 × Torrent) (text : String)
    (h : torrentTupleText formatF env call.1 call.2 = some text) :
    text.toList = (torrentTuple formatF env call.1 call.2).text := by
  obtain ⟨as, has, rfl⟩ := Option.map_eq_some_iff.mp h
  exact torrentTuple_text formatF env has

def torrentPaymentField (b : OrderedPayment) : String → Value
  | "payment_id" => .string b.payment.paymentId.toList
  | "torrent_id" => .string b.payment.torrentId.toList
  | "time" => .number (formatF b.payment.time)
  | "create_time" => .number (.ofInt b.payment.createTime.toNat)
  | "selttement_time" => .number (.ofInt b.payment.selttementTime.toNat)
  | "refund_time" => .number (.ofInt b.payment.refundTime.toNat)
  | "user_id" => .string b.payment.userId.toList
  | "asset" => .number (.ofInt b.payment.asset.toNat)
  | "pieces" => .number (.ofInt b.payment.pieces.toNat)
  | "payed_pieces" => .number (.ofInt b.payment.payedPieces.toNat)
  | "sizes" => .number (.ofInt b.payment.sizes.toNat)
  | "percent" => .number (.ofInt b.payment.percent.toNat)
  | "is_selttement" => .number (.ofInt b.payment.isSelttement.toInt)
  | "is_refund" => .number (.ofInt b.payment.isRefund.toInt)
  | "sign_address" => .string b.payment.signAddress.toList
  | "pay_pieces" => .string b.payPiecesText.toList
  | "selttement_trx_id" => .string b.payment.selttementTrxId.toList
  | "refund_trx_id" => .string b.payment.refundTrxId.toList
  | "receipt_trx_id" => .string b.payment.receiptTrxId.toList
  | "increase_trx" => .string b.increaseTrxText.toList
  | "author_amount" => .string (amountText env b.payment.asset b.payment.authorAmount).toList
  | "payment_amount" => .string (amountText env b.payment.asset b.payment.paymentAmount).toList
  | "transfer_one_piece_amount" =>
      .string (amountText env b.payment.asset b.payment.transferOnePieceAmount).toList
  | "author_one_piece_amount" =>
      .string (amountText env b.payment.asset b.payment.authorOnePieceAmount).toList
  | "receiver_author_one_piece_amount" =>
      .string (amountText env b.payment.asset b.payment.receiverAuthorOnePieceAmount).toList
  | _ => .null

def torrentPaymentTuple (now : UInt64) (b : OrderedPayment) : Tuple where
  first := slotS b.payment.paymentId
  rest :=
    [ (commaBlank, slotS b.payment.torrentId),
      (commaBlank, .number (formatF now) (formatF b.payment.time)),
      (commaBlank, slotLu b.payment.createTime), (commaBlank, slotLu b.payment.selttementTime),
      (commaBlank, slotLu b.payment.refundTime), (commaBlank, slotS b.payment.userId),
      (commaBlank, slotD b.payment.asset b.payment.asset.toNat),
      (commaBlank, slotD b.payment.pieces b.payment.pieces.toNat),
      (commaBlank, slotD b.payment.payedPieces b.payment.payedPieces.toNat),
      (blankCommaBlank, slotLu b.payment.sizes),
      (comma, slotD b.payment.percent b.payment.percent.toNat),
      (blankComma,
        slotD (if b.payment.isSelttement then 1 else 0) b.payment.isSelttement.toInt),
      (blankCommaBlank, slotD (if b.payment.isRefund then 1 else 0) b.payment.isRefund.toInt),
      (blankCommaBlanks, slotS b.payment.signAddress), (comma, slotS b.payPiecesText),
      (comma, slotS b.payment.selttementTrxId), (comma, slotS b.payment.refundTrxId),
      (comma, slotS b.payment.receiptTrxId), (comma, slotS b.increaseTrxText),
      (comma, slotS (amountText env b.payment.asset b.payment.authorAmount)),
      (commaBlank, slotS (amountText env b.payment.asset b.payment.paymentAmount)),
      (commaBlank, slotS (amountText env b.payment.asset b.payment.transferOnePieceAmount)),
      (commaBlank, slotS (amountText env b.payment.asset b.payment.authorOnePieceAmount)),
      (commaBlank,
        slotS (amountText env b.payment.asset b.payment.receiverAuthorOnePieceAmount)) ]
  commas := by simp [comma, commaBlank, blankComma, blankCommaBlank, blankCommaBlanks]

theorem torrentPaymentTuple_text {now : UInt64} {b : OrderedPayment} {as : SimpleAsset}
    (h : assetOf env b.payment.asset = some as) :
    (torrentPaymentValue (String.ofList (formatF now).text) b env as).toList =
      (torrentPaymentTuple formatF env now b).text := by
  simp [torrentPaymentValue, torrentPaymentParts, sdscatprintf, sqlAppendMpd, Conversion.text,
    toList_cStr, toList_formatD, toList_formatLu, torrentPaymentTuple, Tuple.text, textOf, slotS,
    slotD, slotLu, Slot.text, amountText, h, comma, commaBlank, blankComma, blankCommaBlank,
    blankCommaBlanks]

theorem torrentPaymentTupleText_toList (call : UInt64 × OrderedPayment) (text : String)
    (h : torrentPaymentTupleText formatF env call.1 call.2 = some text) :
    text.toList = (torrentPaymentTuple formatF env call.1 call.2).text := by
  obtain ⟨as, has, rfl⟩ := Option.map_eq_some_iff.mp h
  exact torrentPaymentTuple_text formatF env has

end Fields

section Statements

/-- The text of a type's entry, read by the server. -/
def read (type : String) (task : Texts) : Option (List Token) :=
  (statementText task type).bind fun text => lex text.toList

theorem map_filterMap_eq {ρ : Type*} {value : ρ → Option String} {tuple : ρ → Tuple}
    (h : ∀ record text, value record = some text → text.toList = (tuple record).text)
    (records : List ρ) :
    (records.filterMap value).map String.toList =
      ((records.filter fun record => (value record).isSome).map tuple).map Tuple.text := by
  induction records with
  | nil => rfl
  | cons record records ih =>
      cases hvalue : value record with
      | none => simp [hvalue, ih]
      | some text => simp [hvalue, ih, h record text hvalue]

/-- The statement of a type's entry is the tuples of the records that have one. -/
theorem read_eq_lex {ρ : Type*} {type : String} {head : Fixed} (hhead : head.text = type.toList)
    {value : ρ → Option String} {tuple : ρ → Tuple}
    (htext : ∀ record text, value record = some text → text.toList = (tuple record).text)
    {records : List ρ} {task : Texts}
    (htask : task.lookup type = joined none (records.filterMap value))
    (hrecords : (records.filter fun record => (value record).isSome) ≠ []) :
    read type task =
      lex (tuplesTemplate head
        ((records.filter fun record => (value record).isSome).map tuple)).text := by
  have hmap := map_filterMap_eq htext records
  have hvalues : records.filterMap value ≠ [] := by
    intro hempty
    rw [hempty, List.map_nil, List.map_map] at hmap
    exact hrecords (List.map_eq_nil_iff.mp hmap.symm)
  obtain ⟨text, hjoined, hlist⟩ := joined_none _ hvalues
  rw [read, statementText, htask, hjoined, tuplesTemplate_text head (by simpa using hrecords),
    ← hmap, ← hlist, hhead, ← String.toList_append]
  rfl

end Statements

section Maps

theorem clean_cons_iff {c : Char} (hc : c ∉ ['\'', '\x00', '\\', '%', '_']) (rest : List Char) :
    Clean (c :: rest) ↔ Clean rest := by
  have hsplit := @clean_append_cons_iff [] rest c hc
  rw [List.nil_append] at hsplit
  rw [hsplit]
  exact and_iff_right trivial

theorem clean_entryChars_append_iff (entry : String × String) (rest : List Char) :
    Clean (entryChars entry ++ rest) ↔
      (Clean entry.1.toList ∧ Clean entry.2.toList) ∧ Clean rest := by
  simp only [entryChars, List.cons_append, List.append_assoc, List.nil_append]
  rw [clean_cons_iff (by decide), clean_cons_iff (by decide), clean_append_cons_iff (by decide),
    clean_cons_iff (by decide), clean_append_cons_iff (by decide), and_assoc]

theorem clean_flatMap_append_iff (entries : List (String × String)) (rest : List Char) :
    Clean ((entries.flatMap fun entry => ',' :: entryChars entry) ++ rest) ↔
      (∀ entry ∈ entries, Clean entry.1.toList ∧ Clean entry.2.toList) ∧ Clean rest := by
  induction entries with
  | nil => simp
  | cons entry entries ih =>
      rw [List.flatMap_cons, List.append_assoc, List.cons_append, clean_cons_iff (by decide),
        clean_entryChars_append_iff, ih, List.forall_mem_cons, and_assoc, and_assoc, and_assoc]

theorem clean_mapText_iff (entries : List (String × String)) :
    Clean (mapText entries).toList ↔
      ∀ entry ∈ entries, Clean entry.1.toList ∧ Clean entry.2.toList := by
  cases entries with
  | nil =>
      have hempty : Clean (mapText []).toList := by decide
      simp [hempty]
  | cons entry entries =>
      have hend : Clean [']'] := by decide
      rw [mapText_cons, clean_cons_iff (by decide), clean_entryChars_append_iff,
        clean_flatMap_append_iff, List.forall_mem_cons]
      tauto

end Maps

section Conditions

/-- libmpdec writes numbers with digits, letters, a point and signs. -/
def WritesNumerals (decimals : Decimals) : Prop :=
  ∀ amount fmt, ∀ c ∈ (decimals.mpdToSci amount fmt).toList, isWord c = true ∨ c = '+' ∨ c = '-'

theorem clean_of_isWord {text : List Char}
    (h : ∀ c ∈ text, isWord c = true ∨ c = '+' ∨ c = '-') : Clean text := by
  apply clean_of_forall
  intro c hc
  refine ⟨?_, ?_, ?_⟩
  all_goals
    rintro rfl
    exact absurd (h _ hc) (by decide)

theorem clean_amountText {env : Environment} (h : WritesNumerals env.decimals) (asset : UInt32)
    (amount : String) : Clean (amountText env asset amount).toList := by
  unfold amountText
  cases assetOf env asset with
  | none => exact trivial
  | some as => exact clean_of_isWord (h _ _)

theorem clean_intText (n : Int) : Clean (intText n).toList := by
  apply clean_of_isWord
  intro c hc
  rcases isDigit_or_eq_of_mem_intText hc with hdigit | hdash
  · exact .inl (isWord_of_isDigit hdigit)
  · exact .inr (.inr hdash)

theorem clean_payPiecesText_iff (b : OrderedPayment) :
    Clean b.payPiecesText.toList ↔ ∀ entry ∈ b.payPieces.toList, Clean entry.1.toList := by
  rw [OrderedPayment.payPiecesText, clean_mapText_iff, Entries.map]
  constructor
  · intro h entry hentry
    exact (h (entry.1, itos entry.2) (List.mem_map.mpr ⟨entry, hentry, rfl⟩)).1
  · intro h other hother
    obtain ⟨entry, hentry, rfl⟩ := List.mem_map.mp hother
    exact ⟨h entry hentry, clean_intText _⟩

variable (formatF : UInt64 → Numeral) (env : Environment)

@[mk_iff] structure PaymentReadable (now : UInt64) (b : OrderedPayment) : Prop where
  asset : (assetOf env b.payment.asset).isSome = true
  strings :
    ∀ text ∈ [b.payment.paymentId, b.payment.torrentId, b.payment.userId, b.payment.signAddress,
      b.payment.selttementTrxId, b.payment.refundTrxId, b.payment.receiptTrxId],
      Clean text.toList
  payPieces : ∀ entry ∈ b.payPieces.toList, Clean entry.1.toList
  increaseTrx : ∀ entry ∈ b.increaseTrx.toList, Clean entry.1.toList ∧ Clean entry.2.toList
  integers :
    ∀ x ∈ [b.payment.asset, b.payment.pieces, b.payment.payedPieces, b.payment.percent],
      x.toNat < 2 ^ 31
  time : formatF now = formatF b.payment.time

variable {formatF env}

/-- The statement that says what the appended torrents say. -/
def replaceTorrent (formatF : UInt64 → Numeral) (env : Environment) (appends : List Append) :
    Replace where
  table := "torrent"
  columns := torrentColumns
  tuples :=
    (torrents appends).map fun call => torrentColumns.map (torrentField formatF env call.2)

def replaceTorrentPayment (formatF : UInt64 → Numeral) (env : Environment)
    (appends : List Append) : Replace where
  table := "torrent_payment"
  columns := torrentPaymentColumns
  tuples :=
    (payments appends).map fun call =>
      torrentPaymentColumns.map (torrentPaymentField formatF env call.2)

end Conditions

section Sample

/-- The double `1600000000.0`. -/
def sampleClock : UInt64 := 0x41d7d78400000000

def sampleFormatF (x : UInt64) : Numeral :=
  if x = sampleClock then
    { negative := false
      digits := "1600000000.000000".toList
      digits_ne_nil := by decide
      isWord_digits := List.all_eq_true.mp (by decide) }
  else
    { negative := false
      digits := "0.000000".toList
      digits_ne_nil := by decide
      isWord_digits := List.all_eq_true.mp (by decide) }

theorem scaled_writesNumerals : WritesNumerals Decimals.scaled := by
  have hdigit : ∀ (n : Nat) (c : Char), c ∈ n.repr.toList → isWord c = true := by
    intro n c hc
    rw [Nat.toList_repr] at hc
    exact isWord_of_isDigit (Nat.isDigit_of_mem_toDigits (by decide) (by decide) hc)
  intro amount fmt c hc
  simp only [Decimals.scaled, String.toList_append, String.toList_ofList, List.mem_append] at hc
  rcases hc with (hc | hc) | hc
  · exact .inl (hdigit _ c hc)
  · rw [List.mem_singleton.mp hc]
    exact .inl (by decide)
  · exact .inl (hdigit _ c (List.mem_of_mem_drop hc))

def paymentOfUser (userId : String) : OrderedPayment where
  payment :=
    { paymentId := "03", torrentId := "01", time := sampleClock, createTime := 8, userId := userId,
      asset := 1, pieces := 10, payedPieces := 6, sizes := 4096, percent := 10,
      signAddress := "address", payPieces := insertAll [("alice", 2), ("bob", 1)] ∅,
      increaseTrx := insertAll [("04", "100000000"), ("05", "20")] ∅,
      authorAmount := "100000000", paymentAmount := "200000020" }
  payPieces := ⟨[("alice", 2), ("bob", 1)], by decide⟩
  increaseTrx := ⟨[("04", "100000000"), ("05", "20")], by decide⟩
  payPieces_eq := rfl
  increaseTrx_eq := rfl

theorem paymentOfUser_readable {userId : String} (huser : Clean userId.toList) :
    PaymentReadable sampleFormatF .oneAsset sampleClock (paymentOfUser userId) where
  asset := rfl
  strings := by
    simp only [paymentOfUser, List.forall_mem_cons]
    exact ⟨by decide, by decide, huser, by decide, by decide, by decide, by decide, by simp⟩
  payPieces := by
    simp only [paymentOfUser, List.forall_mem_cons]
    exact ⟨by decide, by decide, by simp⟩
  increaseTrx := by
    simp only [paymentOfUser, List.forall_mem_cons]
    exact ⟨by decide, by decide, by simp⟩
  integers := by simp [paymentOfUser]
  time := rfl

end Sample

end TorrentServer.ReplaceReading
