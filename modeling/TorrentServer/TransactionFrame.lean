import TorrentServer.TransactionPlans

namespace TorrentServer.TransactionFrame

open TorrentServer.Records
open TorrentServer.ChainLibrary
open TorrentServer.TorrentDatabase
open TorrentServer.HandleBlock
open TorrentServer.TransactionPlans
open TorrentServer.Library.KeyValueStore
open TorrentServer.Library.Runs

/-- The keys a transaction addresses in a database. Only the settlement of a
payment finds one of its keys in the database. -/
def addressed (db : Database) (trx : ProcessedTransaction) : List String :=
  match handledOperation trx with
  | none => []
  | some .other => []
  | some (.settlement _) => trx.proposalTransactionId.toList.map HashId.str
  | some (.torrentCreate op) => [op.id.str]
  | some (.torrentUpdate op) => [op.id.str]
  | some (.torrentPayment op) => [trx.id.str, op.torrentId.str]
  | some (.torrentPaymentSelttement op) =>
      op.paymentId.str ::
        (getTorrentPayment db op.paymentId).toList.map TorrentPayment.torrentId
  | some (.torrentReceipt op) => [op.paymentId.str]
  | some (.torrentPaymentRefund op) => [op.paymentId.str]
  | some (.torrentPaymentIncrease op) => [op.paymentId.str]

def addressedAlong (env : Environment) : List Step → ServerState → List String
  | [], _ => []
  | step :: steps, s =>
      addressed s.db step.trx ++
        match handleTransaction env s step with
        | .ok s' => addressedAlong env steps s'
        | .error _ => []

variable {env : Environment} {db : Database} {blockNum : UInt64}
  {trx : ProcessedTransaction}

theorem key_mem_addressed (hkeys : KeyIsId db) {plan : Plan}
    (hplan : Planned env db blockNum trx plan) {record : Message}
    (hrecord : record ∈ plan.records) : record.key ∈ addressed db trx := by
  cases hplan with
  | skip => simp [Plan.records] at hrecord
  | created op hop =>
      obtain rfl : record = _ := by simpa [Plan.records] using hrecord
      simp [addressed, hop, Message.key, createdTorrent]
  | updated op t hop ht =>
      obtain rfl : record = _ := by simpa [Plan.records] using hrecord
      simp [addressed, hop, Message.key, updatedTorrent, hkeys.getTorrent_id ht]
  | payed op t hop ht hpieces =>
      rcases List.mem_pair.mp hrecord with rfl | rfl
      · simp [addressed, hop, Message.key, createdPayment]
      · simp [addressed, hop, Message.key, payedTorrent, hkeys.getTorrent_id ht]
  | seltted op tp t hop htp ht =>
      rcases List.mem_pair.mp hrecord with rfl | rfl
      · simp [addressed, hop, Message.key, selttedPayment,
          hkeys.getTorrentPayment_id htp]
      · simp [addressed, hop, htp, Message.key, finishedTorrent,
          hkeys.getTorrent_id ht]
  | receipted op tp hop htp =>
      obtain rfl : record = _ := by simpa [Plan.records] using hrecord
      simp [addressed, hop, Message.key, receiptedPayment, hkeys.getTorrentPayment_id htp]
  | refunded op tp hop htp =>
      obtain rfl : record = _ := by simpa [Plan.records] using hrecord
      simp [addressed, hop, Message.key, refundedPayment, hkeys.getTorrentPayment_id htp]
  | increased op tp hop htp =>
      obtain rfl : record = _ := by simpa [Plan.records] using hrecord
      simp [addressed, hop, Message.key, increasedPayment, hkeys.getTorrentPayment_id htp]
  | settled op proposal tp tp' hop hproposal htp hsettle =>
      obtain rfl : record = _ := by simpa [Plan.records] using hrecord
      obtain ⟨payPieces, rfl⟩ := settle_eq hsettle
      simp [addressed, hop, hproposal, Message.key, hkeys.getTorrentPayment_id htp]

theorem get_of_not_addressed {s s' : ServerState} {step : Step} {key : String}
    (hkeys : KeyIsId s.db) (hstep : Handles env s step s')
    (hkey : key ∉ addressed s.db step.trx) : s'.db.get key = s.db.get key := by
  obtain ⟨plan, hplan, rfl⟩ := planned_of_handles hstep
  rcases get_perform_plan plan step.puts s key with hsame | ⟨record, hrecord, rfl, _⟩
  · exact hsame
  · exact absurd (key_mem_addressed hkeys hplan hrecord) hkey

theorem get_of_not_addressedAlong {s s' : ServerState} {steps : List Step} {key : String}
    (hkeys : KeyIsId s.db) (hsteps : steps.foldlM (handleTransaction env) s = .ok s')
    (hkey : key ∉ addressedAlong env steps s) : s'.db.get key = s.db.get key := by
  induction steps generalizing s with
  | nil =>
      obtain rfl : s = s' := by simpa [pure, Except.pure] using hsteps
      rfl
  | cons step steps ih =>
      rw [List.foldlM_cons] at hsteps
      cases hstep : handleTransaction env s step with
      | error fault =>
          rw [hstep] at hsteps
          cases hsteps
      | ok next =>
          rw [hstep] at hsteps
          simp only [addressedAlong, hstep, List.mem_append, not_or] at hkey
          rw [ih (keyIsId_handles hkeys hstep) hsteps hkey.2]
          exact get_of_not_addressed hkeys hstep hkey.1

theorem transactionPlan_congr {db' : Database}
    (hagree : ∀ key ∈ addressed db trx, db'.get key = db.get key) :
    transactionPlan env db' blockNum trx = transactionPlan env db blockNum trx := by
  have htorrent : ∀ key ∈ addressed db trx, getTorrent db' key = getTorrent db key := by
    intro key hkey
    rw [getTorrent, hagree key hkey, getTorrent]
  have hpayment : ∀ id : HashId, id.str ∈ addressed db trx →
      getTorrentPayment db' id = getTorrentPayment db id := by
    intro id hid
    rw [getTorrentPayment, hagree id.str hid, getTorrentPayment]
  unfold transactionPlan
  cases hop : handledOperation trx with
  | none => rfl
  | some operation =>
      cases operation with
      | other => rfl
      | torrentCreate op => rfl
      | settlement op =>
          cases hproposal : trx.proposalTransactionId with
          | none => rfl
          | some proposal =>
              simp only [hpayment proposal (by simp [addressed, hop, hproposal])]
      | torrentUpdate op =>
          simp only [htorrent op.id.str (by simp [addressed, hop])]
      | torrentPayment op =>
          simp only [htorrent op.torrentId.str (by simp [addressed, hop])]
      | torrentPaymentSelttement op =>
          simp only [hpayment op.paymentId (by simp [addressed, hop])]
          cases htp : getTorrentPayment db op.paymentId with
          | none => rfl
          | some tp =>
              simp only [htorrent tp.torrentId (by simp [addressed, hop, htp])]
      | torrentReceipt op =>
          simp only [hpayment op.paymentId (by simp [addressed, hop])]
      | torrentPaymentRefund op =>
          simp only [hpayment op.paymentId (by simp [addressed, hop])]
      | torrentPaymentIncrease op =>
          simp only [hpayment op.paymentId (by simp [addressed, hop])]

theorem get_saveRecords_of_not_mem (db : Database) (records : List Message) {key : String}
    (hkey : key ∉ records.map Message.key) :
    (saveRecords db records).get key = db.get key := by
  induction records generalizing db with
  | nil => rfl
  | cons record records ih =>
      simp only [List.map_cons, List.mem_cons, not_or] at hkey
      change (saveRecords (saveOrUpdate db record true) records).get key = _
      rw [ih _ hkey.2]
      exact get_saveOrUpdate_of_ne db record true hkey.1

theorem get_saveRecords_of_mem (db db' : Database) (records : List Message) {key : String}
    (hkey : key ∈ records.map Message.key) :
    (saveRecords db records).get key = (saveRecords db' records).get key := by
  induction records generalizing db db' with
  | nil => simp at hkey
  | cons record records ih =>
      change (saveRecords (saveOrUpdate db record true) records).get key =
        (saveRecords (saveOrUpdate db' record true) records).get key
      by_cases hlater : key ∈ records.map Message.key
      · exact ih _ _ hlater
      · obtain rfl : key = record.key := by simpa [hlater] using hkey
        rw [get_saveRecords_of_not_mem _ _ hlater, get_saveRecords_of_not_mem _ _ hlater,
          get_saveOrUpdate_self, get_saveOrUpdate_self]

theorem saveRecords_comm (db : Database) {records others : List Message}
    (hdisjoint : ∀ key ∈ records.map Message.key, key ∉ others.map Message.key) :
    (saveRecords (saveRecords db records) others).entries =
      (saveRecords (saveRecords db others) records).entries := by
  apply Store.entries_eq_of_get_eq
  intro key
  by_cases hkey : key ∈ records.map Message.key
  · rw [get_saveRecords_of_not_mem _ _ (hdisjoint key hkey)]
    exact get_saveRecords_of_mem _ _ _ hkey
  · rw [get_saveRecords_of_not_mem _ _ hkey]
    by_cases hother : key ∈ others.map Message.key
    · exact get_saveRecords_of_mem _ _ _ hother
    · rw [get_saveRecords_of_not_mem _ _ hother, get_saveRecords_of_not_mem _ _ hother,
        get_saveRecords_of_not_mem _ _ hkey]

/-- The contents two transactions leave behind, handled one after the other, or
`none` when one of them faults. -/
def contentsAfter (env : Environment) (s : ServerState) (steps : List Step) :
    Option (Finmap fun _ : String => Message) :=
  (steps.foldlM (handleTransaction env) s).toOption.map fun s' => s'.db.entries

theorem transactionPlan_after {s s' : ServerState} {step other : Step}
    (hkeys : KeyIsId s.db) (hother : Handles env s other s')
    (hdisjoint : ∀ key ∈ addressed s.db step.trx, key ∉ addressed s.db other.trx) :
    transactionPlan env s'.db step.blockNum step.trx =
      transactionPlan env s.db step.blockNum step.trx :=
  transactionPlan_congr fun key hkey =>
    get_of_not_addressed hkeys hother (hdisjoint key hkey)

theorem handleTransaction_of_plan {s : ServerState} {step : Step} {plan : Plan}
    (hplan : transactionPlan env s.db step.blockNum step.trx = .ok plan) :
    handleTransaction env s step = .ok (perform env plan.effects step.puts s) := by
  rw [handleTransaction, hplan]
  rfl

theorem contentsAfter_pair {s : ServerState} {first second : Step} (hkeys : KeyIsId s.db)
    (hfirst : ∀ i, putOutcome first.puts i = true)
    (hsecond : ∀ i, putOutcome second.puts i = true)
    (hdisjoint : ∀ key ∈ addressed s.db second.trx, key ∉ addressed s.db first.trx) :
    contentsAfter env s [first, second] =
      match transactionPlan env s.db first.blockNum first.trx,
          transactionPlan env s.db second.blockNum second.trx with
      | .ok plan, .ok plan' =>
          some (saveRecords (saveRecords s.db plan.records) plan'.records).entries
      | _, _ => none := by
  unfold contentsAfter
  rw [List.foldlM_cons]
  cases hplan : transactionPlan env s.db first.blockNum first.trx with
  | error fault =>
      rw [handleTransaction, hplan]
      rfl
  | ok plan =>
      have hhandled := handleTransaction_of_plan hplan
      rw [hhandled]
      have hagain := transactionPlan_after hkeys hhandled hdisjoint
      change Option.map _ (Except.toOption
        (List.foldlM (handleTransaction env) (perform env plan.effects first.puts s)
          [second])) = _
      rw [List.foldlM_cons]
      cases hplan' : transactionPlan env s.db second.blockNum second.trx with
      | error fault =>
          rw [handleTransaction, hagain, hplan']
          rfl
      | ok plan' =>
          rw [hplan'] at hagain
          rw [handleTransaction_of_plan hagain]
          have hdb := perform_db_of_success env plan' second.puts
            (perform env plan.effects first.puts s) hsecond
          rw [perform_db_of_success env plan first.puts s hfirst] at hdb
          exact congrArg (fun db => some (Store.entries db)) hdb

theorem contentsAfter_comm {s : ServerState} {a b : Step} (hkeys : KeyIsId s.db)
    (ha : ∀ i, putOutcome a.puts i = true) (hb : ∀ i, putOutcome b.puts i = true)
    (hdisjoint : ∀ key ∈ addressed s.db a.trx, key ∉ addressed s.db b.trx) :
    contentsAfter env s [a, b] = contentsAfter env s [b, a] := by
  have hdisjoint' : ∀ key ∈ addressed s.db b.trx, key ∉ addressed s.db a.trx :=
    fun key hkey hkey' => hdisjoint key hkey' hkey
  rw [contentsAfter_pair hkeys ha hb hdisjoint', contentsAfter_pair hkeys hb ha hdisjoint]
  cases hplan : transactionPlan env s.db a.blockNum a.trx with
  | error fault => cases transactionPlan env s.db b.blockNum b.trx <;> rfl
  | ok plan =>
      cases hplan' : transactionPlan env s.db b.blockNum b.trx with
      | error fault => rfl
      | ok plan' =>
          refine congrArg some (saveRecords_comm s.db ?_)
          intro key hkey hkey'
          obtain ⟨record, hrecord, rfl⟩ := List.mem_map.mp hkey
          obtain ⟨record', hrecord', heq⟩ := List.mem_map.mp hkey'
          refine hdisjoint record.key ?_ (heq ▸ ?_)
          · exact key_mem_addressed hkeys (planned_of_transactionPlan hplan) hrecord
          · exact key_mem_addressed hkeys (planned_of_transactionPlan hplan') hrecord'

/-- In every reachable store a record lies under its own id; a block changes only
keys that one of its transactions addresses in the store it meets; and two
transactions that address different keys leave the same contents in either
order (or fault in either order). -/
theorem transactions_touch_only_what_they_name {steps : List Step} {s : ServerState}
    (hrun : Run (Handles env) .empty steps s) :
    KeyIsId s.db ∧
    (∀ (block : SignedBlock) (puts : Nat → List Bool) (s' : ServerState),
      handleBlock env true block puts s = .ok s' →
      ∀ key ∉ addressedAlong env (blockSteps block puts) s,
        s'.db.get key = s.db.get key) ∧
    (∀ a b : Step, (∀ i, putOutcome a.puts i = true) →
      (∀ i, putOutcome b.puts i = true) →
      (∀ key ∈ addressed s.db a.trx, key ∉ addressed s.db b.trx) →
      contentsAfter env s [a, b] = contentsAfter env s [b, a]) := by
  have hkeys := keyIsId_of_run hrun
  refine ⟨hkeys, ?_, ?_⟩
  · intro block puts s' hblock key hkey
    exact get_of_not_addressedAlong hkeys hblock hkey
  · intro a b ha hb hdisjoint
    exact contentsAfter_comm hkeys ha hb hdisjoint

theorem sample_transactions_commute :
    ∃ s, Run (Handles .oneAsset) .empty [sampleCreate] s ∧
      let other : Step :=
        { sampleCreate with
          trx := .accepted (.ofDigit '3' rfl)
            (.torrentCreate { sampleCreateOperation with id := .ofDigit 'b' rfl }) }
      contentsAfter .oneAsset s [samplePayment, other] =
        contentsAfter .oneAsset s [other, samplePayment] := by
  have hrun : Run (Handles .oneAsset) .empty ([] ++ [sampleCreate]) _ := Run.nil.snoc rfl
  refine ⟨_, hrun, ?_⟩
  exact (transactions_touch_only_what_they_name hrun).2.2 _ _ (fun _ => rfl) (fun _ => rfl)
    (by decide)

end TorrentServer.TransactionFrame
