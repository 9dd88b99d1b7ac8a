import TorrentServer.Library.JsonDocuments
import TorrentServer.Library.MapEntries
import TorrentServer.TorrentDatabase

namespace TorrentServer.UserReplies

open TorrentServer.Records
open TorrentServer.TorrentDatabase
open TorrentServer.Library.JsonDocuments
open TorrentServer.Library.MapEntries

structure Address where
  str : String
  str_ne_empty : str ≠ ""

/-- `account_object`, as far as the server looks into it. -/
structure AccountObject where
  id : String
  addressAuths : List Address

def getAddress (o : AccountObject) : Option String :=
  match o.addressAuths with
  | [address] => some address.str
  | _ => none

structure AccountDatabase where
  State : Type
  saveOrUpdateAccount : State → AccountObject → State
  getAccountById : State → String → Option AccountObject
  hasAccountById : State → String → Bool

/-- The database returns under an id the account last saved with it. -/
structure AccountDatabase.Lawful (database : AccountDatabase) : Prop where
  get_save : ∀ accounts ao,
    database.getAccountById (database.saveOrUpdateAccount accounts ao) ao.id = some ao
  has_save : ∀ accounts ao,
    database.hasAccountById (database.saveOrUpdateAccount accounts ao) ao.id = true

/-- What the handlers call outside: jsonxx, `fc::json` into an `account_object`, which
throws where it returns `none`, `to_string` of an amount's text, the check of
a user id, and the constructor of a payment id, which throws too. -/
structure Libraries where
  Number : Type
  toInt : Number → ℤ
  parse : List UInt8 → List (String × Document Number)
  fromString : String → Option AccountObject
  toString : String → String
  isValidId : String → Bool
  paymentId : String → Option HashId

inductive RequestFault
  | nullParameter
  | unguardedGet
  | exceptionEscaped
deriving DecidableEq

section Jsonxx

variable {ν α : Type}

/-- `has<T>`, the type given by its getter. -/
def has (type : Document ν → Option α) (o : List (String × Document ν)) (key : String) : Bool :=
  ((o.lookup key).bind type).isSome

def get (type : Document ν → Option α) (o : List (String × Document ν)) (key : String) :
    Except RequestFault α :=
  match (o.lookup key).bind type with
  | some value => .ok value
  | none => .error .unguardedGet

def getAt (type : Document ν → Option α) (items : List (Document ν)) (i : ℕ) :
    Except RequestFault α :=
  match items[i]?.bind type with
  | some value => .ok value
  | none => .error .unguardedGet

end Jsonxx

/-- The exits of the decision tree both functions walk, before they part. -/
inductive UserReply
  | failed
  | error
  | noTotal
  | notOne
  | notSingle
  | account (ao : AccountObject)
  | noResult

def readAccount (libs : Libraries) (res : List (Document libs.Number)) :
    Except RequestFault UserReply := do
  let r ← getAt Document.string? res 0
  match libs.fromString r with
  | none => .error .exceptionEscaped
  | some ao => .ok (.account ao)

def readResult (libs : Libraries) (result : List (String × Document libs.Number)) :
    Except RequestFault UserReply :=
  if !has Document.number? result "total" then .ok .noTotal
  else do
    let total ← get Document.number? result "total"
    if libs.toInt total ≠ 1 || !has Document.array? result "res" then .ok .notOne
    else
      let res ← get Document.array? result "res"
      if res.length ≠ 1 then .ok .notSingle else readAccount libs res

def readObject (libs : Libraries) (o1 : List (String × Document libs.Number)) :
    Except RequestFault UserReply :=
  if has Document.object? o1 "error" then .ok .error
  else do
    let result ← get Document.object? o1 "result"
    if has Document.object? o1 "result" then readResult libs result else .ok .noResult

/-- The body ends at its first zero byte; no body stands for a call that failed. -/
def readUserReply (libs : Libraries) : Option (List UInt8) → Except RequestFault UserReply
  | none => .ok .failed
  | some attachment => readObject libs (libs.parse (attachment.takeWhile (· ≠ 0)))

section Responses

structure GetAccountResponse where
  warning : String := ""
  account : String := ""
deriving DecidableEq

structure TorrentPaymentRealtimeBody where
  torrentPayment : Option TorrentPayment := none
  account : String := ""
  torrent : Option Torrent := none
deriving DecidableEq

structure GetTorrentPaymentRealtimeResponse where
  code : Int32 := 0
  message : String := ""
  result : Option TorrentPaymentRealtimeBody := none
deriving DecidableEq

end Responses

section Handlers

variable (libs : Libraries) (database : AccountDatabase) (torrents : Database)

def handleAccountResponse (reply : Option (List UInt8)) (response : GetAccountResponse)
    (accounts : database.State) : Except RequestFault (GetAccountResponse × database.State) :=
  (readUserReply libs reply).map fun
    | .failed => ({ response with warning := "failt to send userRequest" }, accounts)
    | .error => ({ response with warning := "id not exists" }, accounts)
    | .noTotal => ({ response with warning := "server error" }, accounts)
    | .notOne => ({ response with warning := "id not exists" }, accounts)
    | .notSingle => ({ response with warning := "id not exists" }, accounts)
    | .account ao =>
        match getAddress ao with
        | some aa =>
            ({ response with account := aa }, database.saveOrUpdateAccount accounts ao)
        | none => (response, accounts)
    | .noResult => ({ response with warning := "server error" }, accounts)

def fetchedPayment (o ptp : TorrentPayment) : TorrentPayment :=
  { ptp with
    paymentId := o.paymentId
    torrentId := o.torrentId
    time := o.time
    createTime := o.createTime
    selttementTime := o.selttementTime
    refundTime := o.refundTime
    userId := o.userId
    asset := o.asset
    pieces := o.pieces
    payedPieces := o.payedPieces
    sizes := o.sizes
    percent := o.percent
    isSelttement := o.isSelttement
    isRefund := o.isRefund
    signAddress := o.signAddress
    payPieces := writeAll o.payPieces ptp.payPieces
    authorAmount := o.authorAmount
    paymentAmount := o.paymentAmount
    transferOnePieceAmount := o.transferOnePieceAmount
    authorOnePieceAmount := o.authorOnePieceAmount
    receiverAuthorOnePieceAmount := o.receiverAuthorOnePieceAmount
    selttementTrxId := o.selttementTrxId
    refundTrxId := o.refundTrxId
    receiptTrxId := o.receiptTrxId
    increaseTrx := writeAll o.increaseTrx ptp.increaseTrx }

def fetchedTorrent (torrent pt : Torrent) : Torrent :=
  { pt with
    id := torrent.id
    time := torrent.time
    createBlock := torrent.createBlock
    lastModify := torrent.lastModify
    userId := torrent.userId
    asset := torrent.asset
    balance := libs.toString torrent.balance
    percent := torrent.percent
    payTimes := torrent.payTimes
    finishTimes := torrent.finishTimes
    isCreate := torrent.isCreate }

def handleUserResponse (reply : Option (List UInt8))
    (response : GetTorrentPaymentRealtimeResponse) (o : TorrentPayment)
    (accounts : database.State) :
    Except RequestFault (GetTorrentPaymentRealtimeResponse × database.State) :=
  (readUserReply libs reply).map fun
    | .failed =>
        ({ response with code := 3, message := "failt to send userRequest" }, accounts)
    | .error => ({ response with code := 4, message := "id not exists" }, accounts)
    | .noTotal => ({ response with code := 5, message := "server error" }, accounts)
    | .notOne => ({ response with code := 6, message := "id not exists" }, accounts)
    | .notSingle => ({ response with code := 7, message := "id not exists" }, accounts)
    | .account ao =>
        match getAddress ao with
        | some aa =>
            let accounts := database.saveOrUpdateAccount accounts ao
            match getTorrent torrents o.torrentId with
            | none =>
                ({ response with code := 21, message := "torrent id not exists" }, accounts)
            | some torrent =>
                let pbresult := response.result.getD {}
                let body :=
                  { pbresult with
                    torrentPayment := some (fetchedPayment o (pbresult.torrentPayment.getD {}))
                    account := aa
                    torrent := some (fetchedTorrent libs torrent (pbresult.torrent.getD {})) }
                ({ response with code := 0, result := some body }, accounts)
        | none => (response, accounts)
    | .noResult => ({ response with code := 30, message := "server error" }, accounts)

/-- The response of `get_account` is an account without a warning, or a warning. -/
def GetAccountResponse.Definite (response : GetAccountResponse) : Prop :=
  response.account ≠ "" ∧ response.warning = "" ∨ response.warning ≠ ""

structure TorrentPaymentRealtimeBody.Filled (body : TorrentPaymentRealtimeBody) : Prop where
  torrentPayment : body.torrentPayment.isSome = true
  account : body.account ≠ ""
  torrent : body.torrent.isSome = true

def GetTorrentPaymentRealtimeResponse.Definite (response : GetTorrentPaymentRealtimeResponse) :
    Prop :=
  (response.code = 0 ∧ ∃ body, response.result = some body ∧ body.Filled) ∨
    (response.code ≠ 0 ∧ response.result = none)

def AccountAnswered (reply : Option (List UInt8)) (accounts : database.State) : Prop :=
  ∃ response saved, handleAccountResponse libs database reply {} accounts = .ok (response, saved) ∧
    response.Definite

def UserAnswered (reply : Option (List UInt8)) (o : TorrentPayment) (accounts : database.State) :
    Prop :=
  ∃ response saved,
    handleUserResponse libs database torrents reply {} o accounts = .ok (response, saved) ∧
      response.Definite

end Handlers

section Readable

variable (libs : Libraries) (p : AccountObject → Prop)

/-- If the result is for one account, it is the text of an account, one with `p`. -/
def ResultReadable (result : List (String × Document libs.Number)) : Prop :=
  ∀ total, (result.lookup "total").bind Document.number? = some total → libs.toInt total = 1 →
    ∀ entry, (result.lookup "res").bind Document.array? = some [entry] →
      ∃ r ao, entry.string? = some r ∧ libs.fromString r = some ao ∧ p ao

/-- The replies that are read to their end, with no account but one with `p`: no reply,
an error, or a result. -/
def Readable : Option (List UInt8) → Prop
  | none => True
  | some attachment =>
      let o1 := libs.parse (attachment.takeWhile (· ≠ 0))
      has Document.object? o1 "error" = true ∨
        ∃ result, (o1.lookup "result").bind Document.object? = some result ∧
          ResultReadable libs p result

end Readable

def OneAddress (ao : AccountObject) : Prop :=
  ∃ address, ao.addressAuths = [address]

section Proofs

variable {libs : Libraries} {database : AccountDatabase} {torrents : Database}
  {reply : Option (List UInt8)} {o : TorrentPayment} {accounts : database.State}
  {p : AccountObject → Prop}

def UserReply.Satisfies (p : AccountObject → Prop) : UserReply → Prop
  | .account ao => p ao
  | _ => True

theorem getAddress_of_single {ao : AccountObject} {address : Address}
    (h : ao.addressAuths = [address]) : getAddress ao = some address.str := by
  simp only [getAddress, h]

theorem getAddress_eq_none {ao : AccountObject} (h : ¬ OneAddress ao) :
    getAddress ao = none := by
  unfold getAddress
  split
  · rename_i address hsingle
    exact absurd ⟨address, hsingle⟩ h
  · rfl

theorem accountAnswered_iff :
    AccountAnswered libs database reply accounts ↔
      ∃ r, readUserReply libs reply = .ok r ∧ r.Satisfies OneAddress := by
  unfold AccountAnswered handleAccountResponse
  cases readUserReply libs reply with
  | error fault => simp [Except.map]
  | ok r =>
      cases r with
      | account ao =>
          by_cases hsingle : OneAddress ao
          · obtain ⟨address, haddress⟩ := hsingle
            simp [Except.map, getAddress_of_single haddress, GetAccountResponse.Definite,
              UserReply.Satisfies, OneAddress, address.str_ne_empty, haddress]
          · simp [Except.map, getAddress_eq_none hsingle, GetAccountResponse.Definite,
              UserReply.Satisfies, hsingle]
      | _ => simp [Except.map, GetAccountResponse.Definite, UserReply.Satisfies]

theorem userAnswered_iff :
    UserAnswered libs database torrents reply o accounts ↔
      ∃ r, readUserReply libs reply = .ok r ∧ r.Satisfies OneAddress := by
  unfold UserAnswered handleUserResponse
  cases readUserReply libs reply with
  | error fault => simp [Except.map]
  | ok r =>
      cases r with
      | account ao =>
          by_cases hsingle : OneAddress ao
          · obtain ⟨address, haddress⟩ := hsingle
            have hfilled : ∀ payment torrent, TorrentPaymentRealtimeBody.Filled
                { torrentPayment := some payment
                  account := address.str
                  torrent := some torrent } :=
              fun _ _ => ⟨rfl, address.str_ne_empty, rfl⟩
            cases getTorrent torrents o.torrentId with
            | none =>
                simp [Except.map, getAddress_of_single haddress,
                  GetTorrentPaymentRealtimeResponse.Definite, UserReply.Satisfies, OneAddress,
                  haddress]
            | some torrent =>
                simp [Except.map, getAddress_of_single haddress, hfilled,
                  GetTorrentPaymentRealtimeResponse.Definite, UserReply.Satisfies, OneAddress,
                  haddress]
          · simp [Except.map, getAddress_eq_none hsingle,
              GetTorrentPaymentRealtimeResponse.Definite, UserReply.Satisfies, hsingle]
      | _ => simp [Except.map, GetTorrentPaymentRealtimeResponse.Definite, UserReply.Satisfies]

theorem readAccount_satisfies_iff (entry : Document libs.Number) :
    (∃ r, readAccount libs [entry] = .ok r ∧ r.Satisfies p) ↔
      ∃ r ao, entry.string? = some r ∧ libs.fromString r = some ao ∧ p ao := by
  unfold readAccount
  cases hstring : entry.string? with
  | none => simp [getAt, hstring, bind, Except.bind]
  | some r =>
      cases haccount : libs.fromString r with
      | none => simp [getAt, hstring, haccount, bind, Except.bind]
      | some ao => simp [getAt, hstring, haccount, bind, Except.bind, UserReply.Satisfies]

theorem readResult_satisfies_iff (result : List (String × Document libs.Number)) :
    (∃ r, readResult libs result = .ok r ∧ r.Satisfies p) ↔ ResultReadable libs p result := by
  unfold readResult ResultReadable
  cases htotal : (result.lookup "total").bind Document.number? with
  | none => simp [has, htotal, UserReply.Satisfies]
  | some total =>
      have hget : get Document.number? result "total" = .ok total := by simp only [get, htotal]
      by_cases hone : libs.toInt total = 1
      · cases hres : (result.lookup "res").bind Document.array? with
        | none => simp [has, htotal, hget, hres, bind, Except.bind, UserReply.Satisfies]
        | some res =>
            have hgetRes : get Document.array? result "res" = .ok res := by simp only [get, hres]
            simp only [has, htotal, hget, hres, hgetRes, hone, bind, Except.bind]
            match res with
            | [] => simp [UserReply.Satisfies]
            | [entry] => simpa [hone] using readAccount_satisfies_iff entry
            | first :: second :: rest => simp [UserReply.Satisfies]
      · simp [has, htotal, hget, hone, bind, Except.bind, UserReply.Satisfies]

theorem readable_iff :
    Readable libs p reply ↔ ∃ r, readUserReply libs reply = .ok r ∧ r.Satisfies p := by
  cases reply with
  | none => simp [Readable, readUserReply, UserReply.Satisfies]
  | some attachment =>
      simp only [Readable, readUserReply]
      generalize libs.parse (attachment.takeWhile (· ≠ 0)) = o1
      unfold readObject
      cases herror : has Document.object? o1 "error" with
      | true => simp [UserReply.Satisfies]
      | false =>
          cases hresult : (o1.lookup "result").bind Document.object? with
          | none => simp [get, hresult, bind, Except.bind]
          | some result =>
              simp [get, has, hresult, bind, Except.bind, readResult_satisfies_iff]

/-- Both functions come to a definite answer on the same replies. -/
theorem replies_answered_iff (libs : Libraries) (database : AccountDatabase)
    (torrents : Database) (reply : Option (List UInt8)) (o : TorrentPayment)
    (accounts : database.State) :
    (AccountAnswered libs database reply accounts ↔ Readable libs OneAddress reply) ∧
      (UserAnswered libs database torrents reply o accounts ↔ Readable libs OneAddress reply) := by
  rw [readable_iff]
  exact ⟨accountAnswered_iff, userAnswered_iff⟩

/-- An account without a single address leaves the response as it was: no error is set
on that path. -/
theorem responses_kept_of_no_address {ao : AccountObject}
    (hread : readUserReply libs reply = .ok (.account ao)) (haddress : getAddress ao = none)
    (response : GetAccountResponse) (response' : GetTorrentPaymentRealtimeResponse) :
    handleAccountResponse libs database reply response accounts = .ok (response, accounts) ∧
      handleUserResponse libs database torrents reply response' o accounts =
        .ok (response', accounts) := by
  simp [handleAccountResponse, handleUserResponse, hread, haddress, Except.map]

end Proofs

section Sample

def sampleAccountText (ao : AccountObject) : String :=
  "\x7b\"id\":\"" ++ ao.id ++ "\",\"active\":\x7b\"address_auths\":[" ++
    ",".intercalate (ao.addressAuths.map fun address => "[\"" ++ address.str ++ "\",1]") ++
    "]\x7d\x7d"

def sampleBody (ao : AccountObject) : List UInt8 :=
  ("\x7b\"result\":\x7b\"total\":1,\"res\":[" ++ (sampleAccountText ao).quote ++
    "]\x7d\x7d").toUTF8.data.toList

def sampleAddress (c : Char) : Address where
  str := String.ofList ['B', 'T', c]
  str_ne_empty := by simp [String.ext_iff]

def sampleLibraries (ao : AccountObject) : Libraries where
  Number := ℤ
  toInt := id
  parse := fun _ =>
    [("result",
      .object [("total", .number 1), ("res", .array [.string (sampleAccountText ao)])])]
  fromString := fun _ => some ao
  toString := id
  isValidId := fun _ => true
  paymentId := fun _ => none

def sampleDatabase : AccountDatabase where
  State := List AccountObject
  saveOrUpdateAccount := fun accounts ao => ao :: accounts
  getAccountById := fun accounts id => accounts.find? (·.id == id)
  hasAccountById := fun accounts id => accounts.any (·.id == id)

theorem readUserReply_sample (ao : AccountObject) (attachment : List UInt8) :
    readUserReply (sampleLibraries ao) (some attachment) = .ok (.account ao) := rfl

/-- The account of the reply has two active addresses. -/
theorem two_addresses_not_answered :
    ¬ ∀ (libs : Libraries) (database : AccountDatabase) (torrents : Database)
      (reply : Option (List UInt8)) (o : TorrentPayment) (accounts : database.State),
      AccountAnswered libs database reply accounts ∧
        UserAnswered libs database torrents reply o accounts := by
  intro h
  let ao : AccountObject :=
    { id := "1.2.7", addressAuths := [sampleAddress 'A', sampleAddress 'B'] }
  have hread := readUserReply_sample ao (sampleBody ao)
  have hkept := @responses_kept_of_no_address _ sampleDatabase .empty _ {} [] ao hread rfl {} {}
  obtain ⟨⟨response, saved, hresponse, hdefinite⟩, -⟩ :=
    h (sampleLibraries ao) sampleDatabase .empty (some (sampleBody ao)) {} []
  rw [hkept.1] at hresponse
  cases hresponse
  simp [GetAccountResponse.Definite] at hdefinite

end Sample

end TorrentServer.UserReplies
