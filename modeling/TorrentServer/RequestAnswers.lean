import TorrentServer.RealtimeRequests
import TorrentServer.TransactionPlans

namespace TorrentServer.RequestAnswers

open TorrentServer.Records
open TorrentServer.ChainLibrary
open TorrentServer.HandleBlock
open TorrentServer.TransactionPlans
open TorrentServer.UserReplies
open TorrentServer.RealtimeRequests
open TorrentServer.Library.Runs

section StoredIds

variable {env : Environment} {db : TorrentDatabase.Database} {blockNum : UInt64}
  {trx : ProcessedTransaction}

def fieldTwo : Message → String
  | .torrent t => t.transactionId
  | .torrentPayment tp => tp.torrentId

structure HashIds (record : Message) : Prop where
  key : ∃ id : HashId, record.key = id.str
  second : ∃ id : HashId, fieldTwo record = id.str

def StoresHashIds (db : TorrentDatabase.Database) : Prop :=
  ∀ key record, db.get key = some record → HashIds record

theorem HashIds.edited {record other : Message} (h : HashIds record)
    (hkey : record.key = other.key) (hsecond : fieldTwo record = fieldTwo other) :
    HashIds other where
  key := hkey ▸ h.key
  second := hsecond ▸ h.second

theorem StoresHashIds.torrent (h : StoresHashIds db) {key : String} {t : Torrent}
    (ht : TorrentDatabase.getTorrent db key = some t) : HashIds (.torrent t) := by
  obtain ⟨record, hget, rfl⟩ := Option.map_eq_some_iff.mp ht
  cases record with
  | torrent t => exact h key _ hget
  | torrentPayment tp => exact (h key _ hget).edited rfl rfl

theorem StoresHashIds.torrentPayment (h : StoresHashIds db) {id : HashId} {tp : TorrentPayment}
    (htp : TorrentDatabase.getTorrentPayment db id = some tp) : HashIds (.torrentPayment tp) := by
  obtain ⟨record, hget, rfl⟩ := Option.map_eq_some_iff.mp htp
  cases record with
  | torrent t => exact (h id.str _ hget).edited rfl rfl
  | torrentPayment tp => exact h id.str _ hget

/-- New records get their ids from the transaction, the others keep the ones they had. -/
theorem hashIds_of_planned (h : StoresHashIds db) {plan : Plan}
    (hplan : Planned env db blockNum trx plan) {record : Message}
    (hrecord : record ∈ plan.records) : HashIds record := by
  cases hplan with
  | skip => simp [Plan.records] at hrecord
  | created op hop =>
      obtain rfl : record = _ := by simpa [Plan.records] using hrecord
      exact ⟨⟨op.id, rfl⟩, ⟨trx.id, rfl⟩⟩
  | updated op t hop ht =>
      obtain rfl : record = _ := by simpa [Plan.records] using hrecord
      exact (h.torrent ht).edited rfl rfl
  | payed op t hop ht hpieces =>
      rcases List.mem_pair.mp hrecord with rfl | rfl
      · exact ⟨⟨trx.id, rfl⟩, ⟨op.torrentId, rfl⟩⟩
      · exact (h.torrent ht).edited rfl rfl
  | seltted op tp t hop htp ht =>
      rcases List.mem_pair.mp hrecord with rfl | rfl
      · exact (h.torrentPayment htp).edited rfl rfl
      · exact (h.torrent ht).edited rfl rfl
  | receipted op tp hop htp =>
      obtain rfl : record = _ := by simpa [Plan.records] using hrecord
      exact (h.torrentPayment htp).edited rfl rfl
  | refunded op tp hop htp =>
      obtain rfl : record = _ := by simpa [Plan.records] using hrecord
      exact (h.torrentPayment htp).edited rfl rfl
  | increased op tp hop htp =>
      obtain rfl : record = _ := by simpa [Plan.records] using hrecord
      exact (h.torrentPayment htp).edited rfl rfl
  | settled op proposal tp tp' hop hproposal htp hsettle =>
      obtain rfl : record = _ := by simpa [Plan.records] using hrecord
      obtain ⟨payPieces, rfl⟩ := settle_eq hsettle
      exact (h.torrentPayment htp).edited rfl rfl

theorem storesHashIds_handles {s s' : ServerState} {step : Step} (h : StoresHashIds s.db)
    (hstep : Handles env s step s') : StoresHashIds s'.db := by
  obtain ⟨plan, hplan, rfl⟩ := planned_of_handles hstep
  intro key record hget
  rcases get_perform_plan plan step.puts s key with hsame | ⟨saved, hsaved, -, hkey⟩
  · exact h key record (hsame ▸ hget)
  · rw [hkey] at hget
    cases hget
    exact hashIds_of_planned h hplan hsaved

theorem storesHashIds_of_run {s : ServerState} {steps : List Step}
    (hrun : Run (Handles env) .empty steps s) : StoresHashIds s.db := by
  refine Run.state_invariant (fun _ => True) (fun s => StoresHashIds s.db) ?_ ?_ hrun
    fun _ _ => trivial
  · intro key record hget
    simp [ServerState.empty] at hget
  · intro _ _ _ _ hinv hstep
    exact storesHashIds_handles hinv hstep

end StoredIds

section Requests

variable (libs : Libraries) (database : AccountDatabase)

structure Stores where
  torrents : TorrentDatabase.Database
  accounts : database.State

/-- The requests with the one parameter each of them reads, and the reply of the user
service should it be asked. -/
inductive Request
  | getTorrent (id : Option String)
  | getAccount (userId : Option String) (reply : Option (List UInt8))
  | getTorrentPayment (paymentHash : Option String) (reply : Option (List UInt8))

inductive Response
  | getTorrent (response : GetTorrentRealtimeResponse)
  | getAccount (response : GetAccountResponse)
  | getTorrentPayment (response : GetTorrentPaymentRealtimeResponse)

def serve (stores : Stores database) : Request → Except RequestFault (Response × Stores database)
  | .getTorrent id =>
      (getTorrent libs stores.torrents id).map fun response => (.getTorrent response, stores)
  | .getAccount userId reply =>
      (getAccount libs database userId reply stores.accounts).map fun (response, accounts) =>
        (.getAccount response, { stores with accounts := accounts })
  | .getTorrentPayment paymentHash reply =>
      (getTorrentPayment libs database stores.torrents paymentHash reply stores.accounts).map
        fun (response, accounts) =>
          (.getTorrentPayment response, { stores with accounts := accounts })

def Response.Refused : Response → Prop
  | .getTorrent response => response.code ≠ 0
  | .getAccount response => response.warning ≠ ""
  | .getTorrentPayment response => response.code ≠ 0

def IsUserId (text : String) : Prop :=
  '\x00' ∉ text.toList ∧ libs.isValidId text = true

def Request.WellFormed : Request → Prop
  | .getTorrent id => ∃ hash : HashId, id = some hash.str
  | .getAccount userId _ => ∃ text, userId = some text ∧ IsUserId libs text
  | .getTorrentPayment paymentHash _ => ∃ text, paymentHash = some text ∧ IsPaymentHash text

/-- The handler comes to its end; a parameter that is missing or malformed is refused,
and nothing is stored then. -/
def Answered (request : Request) (stores : Stores database) : Prop :=
  ∃ response stores', serve libs database stores request = .ok (response, stores') ∧
    (¬ request.WellFormed libs → response.Refused ∧ stores' = stores)

def Request.Servable (stores : Stores database) : Request → Prop
  | .getTorrent id =>
      ∃ text, id = some text ∧
        (TorrentDatabase.hasTorrent stores.torrents (cStr text) = true →
          ∃ hash : HashId, text = hash.str)
  | .getAccount userId reply =>
      ∀ text, userId = some text → libs.isValidId (cStr text) = true →
        match database.getAccountById stores.accounts (cStr text) with
        | some o => '\x00' ∈ text.toList → ¬ OneAddress o
        | none => Readable libs (fun _ => '\x00' ∉ text.toList) reply
  | .getTorrentPayment paymentHash reply =>
      ∀ text, paymentHash = some text → (cStr text).length = 40 →
        IsPaymentHash text ∧
          ∀ id, libs.paymentId text = some id →
            ∀ o, TorrentDatabase.getTorrentPayment stores.torrents id = some o →
              database.hasAccountById stores.accounts o.userId = false →
                Readable libs (fun _ => True) reply

end Requests

section Proofs

variable {libs : Libraries} {database : AccountDatabase} {stores : Stores database}
  {reply : Option (List UInt8)} {text : String}

theorem getTorrent_answered_iff (id : Option String) :
    Answered libs database (.getTorrent id) stores ↔
      (Request.getTorrent id).Servable libs database stores := by
  cases id with
  | none => simp [Answered, serve, getTorrent, Request.Servable, Except.map]
  | some text =>
      cases hget : stores.torrents.get (cStr text) with
      | none =>
          simp [Answered, serve, getTorrent, Request.Servable, Except.map,
            TorrentDatabase.getTorrent, TorrentDatabase.hasTorrent, hget, Response.Refused]
      | some record =>
          simp [Answered, serve, getTorrent, Request.Servable, Request.WellFormed, Except.map,
            TorrentDatabase.getTorrent, TorrentDatabase.hasTorrent, hget, Response.Refused]

theorem isUserId_iff (hvalid : libs.isValidId (cStr text) = true) :
    IsUserId libs text ↔ '\x00' ∉ text.toList := by
  constructor
  · exact And.left
  · intro hzero
    rw [cStr_eq_self hzero] at hvalid
    exact ⟨hzero, hvalid⟩

theorem handleAccountResponse_refuses_iff {accepted : Prop} {accounts : database.State} :
    (∃ response saved,
      handleAccountResponse libs database reply {} accounts = .ok (response, saved) ∧
        (¬ accepted → response.warning ≠ "" ∧ saved = accounts)) ↔
      Readable libs (fun _ => accepted) reply := by
  rw [readable_iff]
  unfold handleAccountResponse
  cases readUserReply libs reply with
  | error fault => simp [Except.map]
  | ok r =>
      cases r with
      | account ao =>
          cases haddress : getAddress ao with
          | none => simp [Except.map, haddress, UserReply.Satisfies]
          | some aa => simp [Except.map, haddress, UserReply.Satisfies]
      | _ => simp [Except.map, UserReply.Satisfies]

theorem getAccount_answered_iff (userId : Option String) :
    Answered libs database (.getAccount userId reply) stores ↔
      (Request.getAccount userId reply).Servable libs database stores := by
  cases userId with
  | none =>
      simp [Answered, serve, getAccount, Request.Servable, Except.map, Response.Refused]
  | some text =>
      cases hvalid : libs.isValidId (cStr text) with
      | false =>
          simp [Answered, serve, getAccount, Request.Servable, Except.map, hvalid, Response.Refused]
      | true =>
          have hwell : Request.WellFormed libs (.getAccount (some text) reply) ↔
              '\x00' ∉ text.toList := by
            simp [Request.WellFormed, isUserId_iff hvalid]
          cases haccount : database.getAccountById stores.accounts (cStr text) with
          | some o =>
              by_cases hone : OneAddress o
              · have ⟨address, haddress⟩ := hone
                simp [Answered, serve, getAccount, Request.Servable, Except.map, hvalid, haccount,
                  getAddress_of_single haddress, Response.Refused, hwell, hone]
              · simp [Answered, serve, getAccount, Request.Servable, Except.map, hvalid, haccount,
                  getAddress_eq_none hone, Response.Refused, hone]
          | none =>
              have hservable :
                  (Request.getAccount (some text) reply).Servable libs database stores ↔
                    Readable libs (fun _ => '\x00' ∉ text.toList) reply := by
                simp [Request.Servable, hvalid, haccount]
              rw [hservable, ← @handleAccountResponse_refuses_iff libs database reply _
                stores.accounts]
              simp only [Answered, serve, getAccount, hvalid, haccount, hwell]
              cases handleAccountResponse libs database reply {} stores.accounts with
              | error fault => simp [Except.map]
              | ok outcome =>
                  obtain ⟨response, accounts⟩ := outcome
                  have hsame : { stores with accounts := accounts } = stores ↔
                      accounts = stores.accounts := by
                    cases stores
                    simp
                  simp [Except.map, Response.Refused, hsame]

theorem handleUserResponse_ends_iff {torrents : TorrentDatabase.Database}
    {response : GetTorrentPaymentRealtimeResponse} {o : TorrentPayment}
    {accounts : database.State} :
    (∃ outcome, handleUserResponse libs database torrents reply response o accounts = .ok outcome) ↔
      Readable libs (fun _ => True) reply := by
  rw [readable_iff]
  unfold handleUserResponse
  cases readUserReply libs reply with
  | error fault => simp [Except.map]
  | ok r => cases r <;> simp [Except.map, UserReply.Satisfies]

theorem paymentId_eq_none (hlibs : ReadsHashes libs) (hlength : (cStr text).length = 40)
    (hhash : ¬ IsPaymentHash text) : libs.paymentId text = none := by
  apply hlibs.throws
  by_contra hall
  push Not at hall
  have hdigits : text.toList.all isHexDigit = true := by
    rw [List.all_eq_true]
    intro c hc
    exact Bool.eq_true_of_not_eq_false (hall c hc)
  have hzero : '\x00' ∉ text.toList := by
    intro hzero
    exact hall _ hzero (by decide)
  rw [cStr_eq_self hzero] at hlength
  exact hhash ⟨hlength, hdigits⟩

theorem getTorrentPayment_answered_iff (hlibs : ReadsHashes libs) (paymentHash : Option String) :
    Answered libs database (.getTorrentPayment paymentHash reply) stores ↔
      (Request.getTorrentPayment paymentHash reply).Servable libs database stores := by
  cases paymentHash with
  | none =>
      simp [Answered, serve, getTorrentPayment, Request.Servable, Except.map, Response.Refused]
  | some text =>
      by_cases hlength : (cStr text).length = 40
      · by_cases hhash : IsPaymentHash text
        · have hwell : Request.WellFormed libs (.getTorrentPayment (some text) reply) :=
            ⟨text, rfl, hhash⟩
          obtain ⟨id, hid⟩ := Option.isSome_iff_exists.mp (hlibs.takes text hhash)
          have hends : Answered libs database (.getTorrentPayment (some text) reply) stores ↔
              ∃ outcome, getTorrentPayment libs database stores.torrents (some text) reply
                stores.accounts = .ok outcome := by
            simp only [Answered, serve, hwell]
            cases getTorrentPayment libs database stores.torrents (some text) reply
                stores.accounts with
            | error fault => simp [Except.map]
            | ok outcome => simp [Except.map]
          rw [hends]
          cases hpayment : TorrentDatabase.getTorrentPayment stores.torrents id with
          | none => simp [getTorrentPayment, Request.Servable, hlength, hhash, hid, hpayment]
          | some o =>
              cases hcached : database.hasAccountById stores.accounts o.userId with
              | true =>
                  simp [getTorrentPayment, Request.Servable, hlength, hhash, hid, hpayment, hcached]
              | false =>
                  simp only [getTorrentPayment, hlength, hid, hpayment, hcached]
                  simp [Request.Servable, hlength, hhash, hid, hpayment, hcached,
                    ← @handleUserResponse_ends_iff libs database reply stores.torrents {} o
                      stores.accounts]
        · simp [Answered, serve, getTorrentPayment, Request.Servable, Except.map, hlength, hhash,
            paymentId_eq_none hlibs hlength hhash]
      · simp [Answered, serve, getTorrentPayment, Request.Servable, Except.map, hlength,
          Response.Refused]

/-- Whatever is stored, a request is answered exactly if it is servable. -/
theorem request_answered_iff (hlibs : ReadsHashes libs) (stores : Stores database)
    (request : Request) :
    Answered libs database request stores ↔ request.Servable libs database stores := by
  cases request with
  | getTorrent id => exact getTorrent_answered_iff id
  | getAccount userId reply => exact getAccount_answered_iff userId
  | getTorrentPayment paymentHash reply =>
      exact getTorrentPayment_answered_iff hlibs paymentHash

theorem sample_request_answered :
    Answered (sampleHashLibraries sampleAccount) sampleDatabase
      (.getAccount (some "1.2.7") (some (sampleBody sampleAccount)))
      { torrents := sampleTorrents, accounts := [] } := by
  rw [request_answered_iff (readsHashes_sample sampleAccount)]
  rintro text htext -
  cases htext
  exact readable_iff.mpr ⟨.account sampleAccount, rfl, by simp [UserReply.Satisfies]⟩

/-- In every state the blocks lead to, all keys are ids: then only a zero byte makes
the answer to a request for a torrent wrong. -/
theorem getTorrent_answered_of_run {env : Environment} {steps : List Step} {s : ServerState}
    (hrun : Run (Handles env) .empty steps s) (hzero : '\x00' ∉ text.toList)
    (accounts : database.State) :
    Answered libs database (.getTorrent (some text))
      { torrents := s.db, accounts := accounts } := by
  apply (getTorrent_answered_iff (some text)).mpr
  refine ⟨text, rfl, fun hstored => ?_⟩
  obtain ⟨record, hget⟩ := Option.isSome_iff_exists.mp hstored
  rw [cStr_eq_self hzero] at hget
  obtain ⟨hash, hhash⟩ := (storesHashIds_of_run hrun text record hget).key
  exact ⟨hash, by rw [← hhash, keyIsId_of_run hrun text record hget]⟩

/-- A request for a torrent without the parameter `id` follows a null pointer. -/
theorem missing_id_not_answered :
    ¬ ∀ (libs : Libraries) (database : AccountDatabase) (stores : Stores database)
      (request : Request), ReadsHashes libs → Answered libs database request stores := by
  intro h
  obtain ⟨response, stores, hserved, -⟩ :=
    h (sampleHashLibraries sampleAccount) sampleDatabase
      { torrents := sampleTorrents, accounts := [] } (.getTorrent none) (readsHashes_sample _)
  cases hserved

end Proofs

end TorrentServer.RequestAnswers
