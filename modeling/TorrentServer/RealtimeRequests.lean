import TorrentServer.HandleBlock
import TorrentServer.UserReplies

namespace TorrentServer.RealtimeRequests

open TorrentServer.Records
open TorrentServer.HandleBlock
open TorrentServer.UserReplies
open TorrentServer.Library.MapEntries

structure GetTorrentRealtimeResponse where
  code : Int32 := 0
  message : String := ""
  result : Option Torrent := none
deriving DecidableEq

section Handlers

variable (libs : Libraries) (database : AccountDatabase) (torrents : TorrentDatabase.Database)

def realtimeTorrent (o pbresult : Torrent) : Torrent :=
  { pbresult with
    id := o.id
    time := o.time
    createBlock := o.createBlock
    lastModify := o.lastModify
    userId := o.userId
    asset := o.asset
    balance := libs.toString o.balance
    percent := o.percent
    payTimes := o.payTimes
    finishTimes := o.finishTimes
    isCreate := o.isCreate }

/-- A parameter is a text with one character for each byte. The pointer to this one is not
looked at before it is used. -/
def getTorrent : Option String → Except RequestFault GetTorrentRealtimeResponse
  | none => .error .nullParameter
  | some torrentId =>
      match TorrentDatabase.getTorrent torrents (cStr torrentId) with
      | none => .ok { code := 1, message := "torrent_id do not exist" }
      | some o => .ok { code := 0, result := some (realtimeTorrent libs o {}) }

/-- The user service is asked, with `reply` for its answer, where no account is found. -/
def getAccount (userId : Option String) (reply : Option (List UInt8))
    (accounts : database.State) : Except RequestFault (GetAccountResponse × database.State) :=
  match userId with
  | none => .ok ({ warning := "user_id error" }, accounts)
  | some userId =>
      if libs.isValidId (cStr userId) = false then .ok ({ warning := "user_id error" }, accounts)
      else
        match database.getAccountById accounts (cStr userId) with
        | none => handleAccountResponse libs database reply {} accounts
        | some o =>
            match getAddress o with
            | some aa => .ok ({ account := aa }, accounts)
            | none => .ok ({ warning := "user id do not exist" }, accounts)

def cachedPayment (o ptp : TorrentPayment) : TorrentPayment :=
  { ptp with
    paymentId := o.paymentId
    torrentId := o.torrentId
    time := o.time
    createTime := o.createTime
    selttementTime := o.selttementTime
    refundTime := o.refundTime
    userId := o.userId
    asset := o.asset
    pieces := o.pieces
    payedPieces := o.payedPieces
    sizes := o.sizes
    percent := o.percent
    isSelttement := o.isSelttement
    isRefund := o.isRefund
    signAddress := o.signAddress
    payPieces := writeAll o.payPieces ptp.payPieces
    authorAmount := o.authorAmount
    paymentAmount := o.paymentAmount
    transferOnePieceAmount := o.transferOnePieceAmount
    authorOnePieceAmount := o.authorOnePieceAmount
    receiverAuthorOnePieceAmount := o.receiverAuthorOnePieceAmount
    selttementTrxId := o.selttementTrxId
    refundTrxId := o.refundTrxId
    receiptTrxId := o.receiptTrxId
    increaseTrx := writeAll o.increaseTrx ptp.increaseTrx }

def cachedTorrent (torrent pt : Torrent) : Torrent :=
  { pt with
    id := torrent.id
    time := torrent.time
    createBlock := torrent.createBlock
    lastModify := torrent.lastModify
    userId := torrent.userId
    asset := torrent.asset
    balance := libs.toString torrent.balance
    percent := torrent.percent
    payTimes := torrent.payTimes
    finishTimes := torrent.finishTimes
    isCreate := torrent.isCreate }

/-- The branch for an account the database has. The body is there before the address
is looked for. -/
def cachedAnswer (o : TorrentPayment) (accounts : database.State) :
    GetTorrentPaymentRealtimeResponse :=
  match database.getAccountById accounts o.userId with
  | none => { code := 10, message := "user do not exist" }
  | some user =>
      match TorrentDatabase.getTorrent torrents o.torrentId with
      | none => { code := 11, message := "user do not exist" }
      | some torrent =>
          match getAddress user with
          | none =>
              { code := 11
                message := "user_id error"
                result := some { torrentPayment := some {} } }
          | some aa =>
              { code := 0
                result :=
                  some
                    { torrentPayment := some (cachedPayment o {})
                      account := aa
                      torrent := some (cachedTorrent libs torrent {}) } }

def getTorrentPayment (paymentHash : Option String) (reply : Option (List UInt8))
    (accounts : database.State) :
    Except RequestFault (GetTorrentPaymentRealtimeResponse × database.State) :=
  match paymentHash with
  | none => .ok ({ code := 1, message := "payment_hash is not valid" }, accounts)
  | some paymentHash =>
      if (cStr paymentHash).length ≠ 40 then
        .ok ({ code := 1, message := "payment_hash is not valid" }, accounts)
      else
        match libs.paymentId paymentHash with
        | none => .error .exceptionEscaped
        | some id =>
            match TorrentDatabase.getTorrentPayment torrents id with
            | none => .ok ({ code := 2, message := "payment_hash do not exist" }, accounts)
            | some o =>
                if database.hasAccountById accounts o.userId = false then
                  handleUserResponse libs database torrents reply {} o accounts
                else .ok (cachedAnswer libs database torrents o accounts, accounts)

end Handlers

section Agreement

variable {libs : Libraries} {database : AccountDatabase} {torrents : TorrentDatabase.Database}

/-- What a client gets of a torrent. -/
def torrentView (libs : Libraries) (t : Torrent) : Torrent :=
  { t with transactionId := "", balance := libs.toString t.balance }

theorem fetchedPayment_empty (o : TorrentPayment) : fetchedPayment o {} = o := by
  simp [fetchedPayment]

theorem cachedPayment_empty (o : TorrentPayment) : cachedPayment o {} = o := by
  simp [cachedPayment]

theorem fetchedTorrent_empty (t : Torrent) : fetchedTorrent libs t {} = torrentView libs t := rfl

theorem cachedTorrent_empty (t : Torrent) : cachedTorrent libs t {} = torrentView libs t := rfl

theorem realtimeTorrent_empty (t : Torrent) : realtimeTorrent libs t {} = torrentView libs t := rfl

/-- A stored payment, its torrent and a reply with its user's account. -/
structure Fetched (libs : Libraries) (torrents : TorrentDatabase.Database) (paymentHash : String)
    (reply : Option (List UInt8)) (o : TorrentPayment) (torrent : Torrent) (ao : AccountObject)
    (address : Address) : Prop where
  length : (cStr paymentHash).length = 40
  payment : ∃ id, libs.paymentId paymentHash = some id ∧
    TorrentDatabase.getTorrentPayment torrents id = some o
  torrent : TorrentDatabase.getTorrent torrents o.torrentId = some torrent
  account : readUserReply libs reply = .ok (.account ao)
  user : ao.id = o.userId
  address : ao.addressAuths = [address]

def fullAnswer (libs : Libraries) (o : TorrentPayment) (torrent : Torrent) (address : Address) :
    GetTorrentPaymentRealtimeResponse :=
  { code := 0
    result :=
      some
        { torrentPayment := some o
          account := address.str
          torrent := some (torrentView libs torrent) } }

variable {paymentHash : String} {reply : Option (List UInt8)} {o : TorrentPayment}
  {torrent : Torrent} {ao : AccountObject} {address : Address} {accounts : database.State}

theorem Fetched.fetching_path (h : Fetched libs torrents paymentHash reply o torrent ao address)
    (huncached : database.hasAccountById accounts o.userId = false) :
    getTorrentPayment libs database torrents (some paymentHash) reply accounts =
      .ok (fullAnswer libs o torrent address, database.saveOrUpdateAccount accounts ao) := by
  obtain ⟨id, hid, hpayment⟩ := h.payment
  simp [getTorrentPayment, h.length, hid, hpayment, huncached, handleUserResponse, h.account,
    getAddress_of_single h.address, h.torrent, Except.map, fetchedPayment_empty,
    fetchedTorrent_empty, fullAnswer]

theorem Fetched.cached_path (h : Fetched libs torrents paymentHash reply o torrent ao address)
    (hcached : database.hasAccountById accounts o.userId = true)
    (haccount : database.getAccountById accounts o.userId = some ao)
    (later : Option (List UInt8)) :
    getTorrentPayment libs database torrents (some paymentHash) later accounts =
      .ok (fullAnswer libs o torrent address, accounts) := by
  obtain ⟨id, hid, hpayment⟩ := h.payment
  simp [getTorrentPayment, h.length, hid, hpayment, hcached, cachedAnswer, haccount, h.torrent,
    getAddress_of_single h.address, cachedPayment_empty, cachedTorrent_empty, fullAnswer]

/-- A payment whose user is not yet known is answered with the user's account, and the
same again once the account is in the database. -/
theorem cached_and_fetching_path_agree (hdatabase : database.Lawful)
    (h : Fetched libs torrents paymentHash reply o torrent ao address)
    (huncached : database.hasAccountById accounts o.userId = false) :
    ∃ response saved,
      getTorrentPayment libs database torrents (some paymentHash) reply accounts =
        .ok (response, saved) ∧
      (∀ later, getTorrentPayment libs database torrents (some paymentHash) later saved =
        .ok (response, saved)) ∧
      response.code = 0 ∧
      response.result =
        some
          { torrentPayment := some o
            account := address.str
            torrent := some (torrentView libs torrent) } := by
  refine ⟨_, _, h.fetching_path huncached, fun later => ?_, rfl, rfl⟩
  apply h.cached_path
  · rw [← h.user]
    exact hdatabase.has_save accounts ao
  · rw [← h.user]
    exact hdatabase.get_save accounts ao

end Agreement

section Hashes

def isHexDigit (c : Char) : Bool :=
  isLowerHexDigit c || (decide ('A' ≤ c) && decide (c ≤ 'F'))

def IsPaymentHash (text : String) : Prop :=
  text.length = 40 ∧ text.toList.all isHexDigit = true

instance (text : String) : Decidable (IsPaymentHash text) :=
  inferInstanceAs (Decidable (_ ∧ _))

/-- The constructor of a payment id throws on a character that is no hexadecimal digit,
and takes forty that are. -/
structure ReadsHashes (libs : Libraries) : Prop where
  throws : ∀ text, (∃ c ∈ text.toList, isHexDigit c = false) → libs.paymentId text = none
  takes : ∀ text, IsPaymentHash text → (libs.paymentId text).isSome = true

theorem isHexDigit_of_isLowerHexDigit {c : Char} (h : isLowerHexDigit c = true) :
    isHexDigit c = true := by
  simp [isHexDigit, h]

theorem isPaymentHash_str (id : HashId) : IsPaymentHash id.str := by
  refine ⟨id.isHex.1, ?_⟩
  rw [List.all_eq_true]
  intro c hc
  exact isHexDigit_of_isLowerHexDigit (List.all_eq_true.mp id.isHex.2 c hc)

theorem IsPaymentHash.no_zero {text : String} (h : IsPaymentHash text) : '\x00' ∉ text.toList := by
  intro hzero
  have hdigit := List.all_eq_true.mp h.2 _ hzero
  exact absurd hdigit (by decide)

end Hashes

section Sample

def sampleHash : HashId := samplePayment.trx.id

/-- Libraries for which every payment hash is the same one. -/
def sampleHashLibraries (ao : AccountObject) : Libraries :=
  { sampleLibraries ao with
    paymentId := fun text => if IsPaymentHash text then some sampleHash else none }

theorem paymentId_sampleHash (ao : AccountObject) :
    (sampleHashLibraries ao).paymentId sampleHash.str = some sampleHash := by
  simp [sampleHashLibraries, isPaymentHash_str]

theorem readsHashes_sample (ao : AccountObject) : ReadsHashes (sampleHashLibraries ao) where
  throws := by
    rintro text ⟨c, hc, hhex⟩
    apply if_neg
    intro hhash
    rw [List.all_eq_true.mp hhash.2 c hc] at hhex
    cases hhex
  takes := by
    intro text htext
    simp [sampleHashLibraries, htext]

theorem sampleDatabase_lawful : sampleDatabase.Lawful where
  get_save := by simp [sampleDatabase]
  has_save := by simp [sampleDatabase]

def sampleAccount : AccountObject where
  id := "1.2.7"
  addressAuths := [sampleAddress 'A']

def sampleStored : TorrentPayment where
  paymentId := sampleHash.str
  torrentId := "torrent"
  createTime := 7
  selttementTime := 9
  userId := "1.2.7"
  asset := 1
  pieces := 10
  payedPieces := 4
  sizes := 4096
  percent := 3
  isSelttement := true
  signAddress := "address"
  payPieces := ((∅ : Finmap fun _ : String => UInt32).insert "reader" 3).insert "author" 1
  selttementTrxId := "selttement"
  receiptTrxId := "receipt"
  increaseTrx := ((∅ : Finmap fun _ : String => String).insert "first" "100").insert "second" "20"
  authorAmount := "15"
  paymentAmount := "620"
  transferOnePieceAmount := "12"
  authorOnePieceAmount := "4"
  receiverAuthorOnePieceAmount := "3"

def sampleShared : Torrent where
  id := "torrent"
  transactionId := "create"
  createBlock := 5
  lastModify := 7
  userId := "1.2.8"
  asset := 1
  balance := "1000"
  percent := 3
  payTimes := 1
  isCreate := true

def sampleTorrents : TorrentDatabase.Database :=
  TorrentDatabase.saveOrUpdate
    (TorrentDatabase.saveOrUpdate .empty (.torrentPayment sampleStored) true)
    (.torrent sampleShared) true

theorem sample_paths_agree :
    ∃ response saved,
      getTorrentPayment (sampleHashLibraries sampleAccount) sampleDatabase sampleTorrents
        (some sampleHash.str) (some (sampleBody sampleAccount)) [] = .ok (response, saved) ∧
      (∀ later, getTorrentPayment (sampleHashLibraries sampleAccount) sampleDatabase
        sampleTorrents (some sampleHash.str) later saved = .ok (response, saved)) ∧
      response.code = 0 ∧
      response.result =
        some
          { torrentPayment := some sampleStored
            account := (sampleAddress 'A').str
            torrent := some (torrentView (sampleHashLibraries sampleAccount) sampleShared) } := by
  have htorrent : TorrentDatabase.getTorrent sampleTorrents "torrent" = some sampleShared := rfl
  have hpayment : TorrentDatabase.getTorrentPayment sampleTorrents sampleHash =
      some sampleStored := by
    have hne : sampleHash.str ≠ "torrent" := by decide
    simp [sampleTorrents, TorrentDatabase.getTorrentPayment, TorrentDatabase.get_saveOrUpdate,
      Message.key, hne, sampleShared, sampleStored, Message.parseTorrentPayment]
  have hfetched : Fetched (sampleHashLibraries sampleAccount) sampleTorrents sampleHash.str
      (some (sampleBody sampleAccount)) sampleStored sampleShared sampleAccount
      (sampleAddress 'A') :=
    { length := by decide
      payment := ⟨sampleHash, paymentId_sampleHash sampleAccount, hpayment⟩
      torrent := htorrent
      account := rfl
      user := rfl
      address := rfl }
  exact cached_and_fetching_path_agree sampleDatabase_lawful hfetched rfl

end Sample

end TorrentServer.RealtimeRequests
