import TorrentServer.HandleBlock
import TorrentServer.Library.Runs

namespace TorrentServer.TransactionPlans

open TorrentServer.Records
open TorrentServer.ChainLibrary
open TorrentServer.MysqlTables
open TorrentServer.TorrentDatabase
open TorrentServer.HandleBlock
open TorrentServer.Library.Runs

variable {env : Environment} {db : Database} {blockNum : UInt64}
  {trx : ProcessedTransaction}

theorem settlementEntry_eq {ratio : env.decimals.Mpd} {op : SettlementOperation}
    {tp tp' : TorrentPayment} {entry : String × Nat}
    (h : settlementEntry env ratio op tp entry = .ok tp') :
    ∃ payPieces, tp' = { tp with payPieces := payPieces } := by
  obtain ⟨account, i⟩ := entry
  simp only [settlementEntry] at h
  split at h
  · cases h
  · split at h
    · cases h
      exact ⟨_, rfl⟩
    · split at h
      · cases h
      · split at h
        · cases h
        · split at h
          · cases h
            exact ⟨_, rfl⟩
          · cases h
            exact ⟨_, rfl⟩

theorem settle_eq {op : SettlementOperation} {tp tp' : TorrentPayment}
    (h : settle env op tp = .ok tp') :
    ∃ payPieces, tp' = { tp with payPieces := payPieces } := by
  simp only [settle] at h
  generalize env.decimals.decimal (getRatio tp.pieces) 18 = ratio at h
  generalize op.account.zipIdx = entries at h
  induction entries generalizing tp with
  | nil =>
      obtain rfl : tp = tp' := by simpa [pure, Except.pure] using h
      exact ⟨tp.payPieces, rfl⟩
  | cons entry entries ih =>
      rw [List.foldlM_cons] at h
      cases hentry : settlementEntry env ratio op tp entry with
      | error fault =>
          rw [hentry] at h
          cases h
      | ok next =>
          rw [hentry] at h
          obtain ⟨first, rfl⟩ := settlementEntry_eq hentry
          obtain ⟨last, rfl⟩ := ih h
          exact ⟨last, rfl⟩

/-- Why a transaction makes no `Put`: it is none of the handled operations, or a
record it starts from is not stored. -/
inductive Skipped (db : Database) (trx : ProcessedTransaction) : Prop
  | ignored (hop : handledOperation trx = none)
  | other (hop : handledOperation trx = some .other)
  | updateTorrent (op : TorrentUpdateOperation)
      (hop : handledOperation trx = some (.torrentUpdate op))
      (ht : getTorrent db op.id.str = none)
  | paymentTorrent (op : TorrentPaymentOperation)
      (hop : handledOperation trx = some (.torrentPayment op))
      (ht : getTorrent db op.torrentId.str = none)
  | selttementPayment (op : TorrentPaymentSelttementOperation)
      (hop : handledOperation trx = some (.torrentPaymentSelttement op))
      (htp : getTorrentPayment db op.paymentId = none)
  | selttementTorrent (op : TorrentPaymentSelttementOperation) (tp : TorrentPayment)
      (hop : handledOperation trx = some (.torrentPaymentSelttement op))
      (htp : getTorrentPayment db op.paymentId = some tp)
      (ht : getTorrent db tp.torrentId = none)
  | receiptPayment (op : TorrentReceiptOperation)
      (hop : handledOperation trx = some (.torrentReceipt op))
      (htp : getTorrentPayment db op.paymentId = none)
  | refundPayment (op : TorrentPaymentRefundOperation)
      (hop : handledOperation trx = some (.torrentPaymentRefund op))
      (htp : getTorrentPayment db op.paymentId = none)
  | increasePayment (op : TorrentPaymentIncreaseOperation)
      (hop : handledOperation trx = some (.torrentPaymentIncrease op))
      (htp : getTorrentPayment db op.paymentId = none)
  | settlementPayment (op : SettlementOperation) (proposal : HashId)
      (hop : handledOperation trx = some (.settlement op))
      (hproposal : trx.proposalTransactionId = some proposal)
      (htp : getTorrentPayment db proposal = none)

/-- The plans of a transaction, one constructor for each branch of the loop that
reaches its first `Put`. -/
inductive Planned (env : Environment) (db : Database) (blockNum : UInt64)
    (trx : ProcessedTransaction) : Plan → Prop
  | skip (hskip : Skipped db trx) : Planned env db blockNum trx .skip
  | created (op : TorrentCreateOperation)
      (hop : handledOperation trx = some (.torrentCreate op)) :
      Planned env db blockNum trx (.saveTorrent (createdTorrent trx blockNum op))
  | updated (op : TorrentUpdateOperation) (t : Torrent)
      (hop : handledOperation trx = some (.torrentUpdate op))
      (ht : getTorrent db op.id.str = some t) :
      Planned env db blockNum trx (.saveTorrent (updatedTorrent blockNum op t))
  | payed (op : TorrentPaymentOperation) (t : Torrent)
      (hop : handledOperation trx = some (.torrentPayment op))
      (ht : getTorrent db op.torrentId.str = some t) (hpieces : op.pieces ≠ 0) :
      Planned env db blockNum trx
        (.savePaymentThenTorrent (createdPayment env trx blockNum op t) (payedTorrent t))
  | seltted (op : TorrentPaymentSelttementOperation) (tp : TorrentPayment) (t : Torrent)
      (hop : handledOperation trx = some (.torrentPaymentSelttement op))
      (htp : getTorrentPayment db op.paymentId = some tp)
      (ht : getTorrent db tp.torrentId = some t) :
      Planned env db blockNum trx
        (.savePaymentThenTorrent (selttedPayment trx blockNum tp) (finishedTorrent t))
  | receipted (op : TorrentReceiptOperation) (tp : TorrentPayment)
      (hop : handledOperation trx = some (.torrentReceipt op))
      (htp : getTorrentPayment db op.paymentId = some tp) :
      Planned env db blockNum trx (.savePayment (receiptedPayment trx tp))
  | refunded (op : TorrentPaymentRefundOperation) (tp : TorrentPayment)
      (hop : handledOperation trx = some (.torrentPaymentRefund op))
      (htp : getTorrentPayment db op.paymentId = some tp) :
      Planned env db blockNum trx (.savePayment (refundedPayment trx blockNum tp))
  | increased (op : TorrentPaymentIncreaseOperation) (tp : TorrentPayment)
      (hop : handledOperation trx = some (.torrentPaymentIncrease op))
      (htp : getTorrentPayment db op.paymentId = some tp) :
      Planned env db blockNum trx (.savePayment (increasedPayment trx op tp))
  | settled (op : SettlementOperation) (proposal : HashId) (tp tp' : TorrentPayment)
      (hop : handledOperation trx = some (.settlement op))
      (hproposal : trx.proposalTransactionId = some proposal)
      (htp : getTorrentPayment db proposal = some tp)
      (hsettle : settle env op tp = .ok tp') :
      Planned env db blockNum trx (.savePayment tp')

theorem planned_of_transactionPlan {plan : Plan}
    (hplan : transactionPlan env db blockNum trx = .ok plan) :
    Planned env db blockNum trx plan := by
  unfold transactionPlan at hplan
  split at hplan
  case h_1 hop =>
      cases hplan
      exact .skip (.ignored hop)
  case h_2 hop =>
      cases hplan
      exact .skip (.other hop)
  case h_3 op hop =>
      split at hplan
      · cases hplan
      · rename_i proposal hproposal
        split at hplan
        · rename_i htp
          cases hplan
          exact .skip (.settlementPayment op proposal hop hproposal htp)
        · rename_i tp htp
          cases hsettle : settle env op tp with
          | error fault =>
              rw [hsettle] at hplan
              cases hplan
          | ok tp' =>
              rw [hsettle] at hplan
              cases hplan
              exact .settled op proposal tp tp' hop hproposal htp hsettle
  case h_4 op hop =>
      cases hplan
      exact .created op hop
  case h_5 op hop =>
      split at hplan <;> cases hplan
      · exact .skip (.updateTorrent op hop ‹_›)
      · exact .updated op _ hop ‹_›
  case h_6 op hop =>
      split at hplan
      · cases hplan
        exact .skip (.paymentTorrent op hop ‹_›)
      · split at hplan
        · cases hplan
        · cases hplan
          exact .payed op _ hop ‹_› ‹_›
  case h_7 op hop =>
      split at hplan
      · cases hplan
        exact .skip (.selttementPayment op hop ‹_›)
      · rename_i tp htp
        split at hplan <;> cases hplan
        · exact .skip (.selttementTorrent op tp hop htp ‹_›)
        · exact .seltted op tp _ hop htp ‹_›
  case h_8 op hop =>
      split at hplan <;> cases hplan
      · exact .skip (.receiptPayment op hop ‹_›)
      · exact .receipted op _ hop ‹_›
  case h_9 op hop =>
      split at hplan <;> cases hplan
      · exact .skip (.refundPayment op hop ‹_›)
      · exact .refunded op _ hop ‹_›
  case h_10 op hop =>
      split at hplan <;> cases hplan
      · exact .skip (.increasePayment op hop ‹_›)
      · exact .increased op _ hop ‹_›

theorem transactionPlan_of_skipped (h : Skipped db trx) :
    transactionPlan env db blockNum trx = .ok .skip := by
  cases h with
  | settlementPayment op proposal hop hproposal htp =>
      simp [transactionPlan, hop, hproposal, htp]
  | selttementTorrent op tp hop htp ht => simp [transactionPlan, hop, htp, ht]
  | _ => simp [transactionPlan, *]

theorem handles_iff {s s' : ServerState} {step : Step} :
    Handles env s step s' ↔
      ∃ plan, transactionPlan env s.db step.blockNum step.trx = .ok plan ∧
        s' = perform env plan.effects step.puts s := by
  unfold Handles handleTransaction
  cases transactionPlan env s.db step.blockNum step.trx with
  | error fault => simp [Except.map]
  | ok plan => simp [Except.map, eq_comm]

theorem planned_of_handles {s s' : ServerState} {step : Step}
    (h : Handles env s step s') :
    ∃ plan, Planned env s.db step.blockNum step.trx plan ∧
      s' = perform env plan.effects step.puts s := by
  obtain ⟨plan, hplan, hs'⟩ := handles_iff.mp h
  exact ⟨plan, planned_of_transactionPlan hplan, hs'⟩

theorem run_iff_foldlM {steps : List Step} {s s' : ServerState} :
    Run (Handles env) s steps s' ↔ steps.foldlM (handleTransaction env) s = .ok s' := by
  induction steps using List.reverseRecOn generalizing s' with
  | nil =>
      rw [run_nil_iff]
      simp [pure, Except.pure, eq_comm]
  | append_singleton steps step ih =>
      rw [run_snoc_iff, List.foldlM_append]
      cases hfold : steps.foldlM (handleTransaction env) s with
      | error fault =>
          simp only [ih, hfold]
          simp [bind, Except.bind]
      | ok middle =>
          simp only [ih, hfold, Except.ok.injEq, exists_eq_left', Handles]
          change _ ↔ List.foldlM (handleTransaction env) middle [step] = .ok s'
          rw [List.foldlM_cons]
          cases handleTransaction env middle step <;> rfl

theorem mem_records_of_save_mem {plan : Plan} {record : Message} {required : Bool}
    (h : .save record required ∈ plan.effects) : record ∈ plan.records := by
  cases plan <;> simp_all [Plan.effects, Plan.records]
  tauto

/-- Whatever the `Put`s return, a key holds afterwards what it held before or a
record that was to be saved under it. -/
theorem get_perform (effects : List Effect) (puts : List Bool) (s : ServerState)
    (key : String) :
    (perform env effects puts s).db.get key = s.db.get key ∨
      ∃ record required, .save record required ∈ effects ∧ record.key = key ∧
        (perform env effects puts s).db.get key = some record := by
  induction effects generalizing puts s with
  | nil => exact .inl rfl
  | cons effect effects ih =>
      cases effect with
      | append record =>
          rcases ih puts { s with mysqlTask := appendRecord env record s.mysqlTask } with
            hsame | ⟨saved, required, hmem, hkey, hget⟩
          · exact .inl hsame
          · exact .inr ⟨saved, required, List.mem_cons_of_mem _ hmem, hkey, hget⟩
      | save record required =>
          simp only [perform]
          split
          · exact .inl rfl
          · rcases ih puts.tail
                { s with db := saveOrUpdate s.db record (putOutcome puts 0) } with
              hsame | ⟨saved, required', hmem, hkey, hget⟩
            · -- Nothing later wrote the key: either this `Put` did, or no one.
              by_cases hkey : key = record.key
              · cases hok : putOutcome puts 0 with
                | false =>
                    rw [hok] at hsame
                    exact .inl hsame
                | true =>
                    rw [hok] at hsame
                    refine .inr ⟨record, required, by simp, hkey.symm, ?_⟩
                    rw [hsame, hkey]
                    exact get_saveOrUpdate_self s.db record
              · exact .inl (hsame.trans (get_saveOrUpdate_of_ne s.db record _ hkey))
            · exact .inr ⟨saved, required', List.mem_cons_of_mem _ hmem, hkey, hget⟩

theorem perform_single (record : Message) (puts : List Bool) (s : ServerState) :
    perform env [.save record true, .append record] puts s =
      if putOutcome puts 0 then
        { db := saveOrUpdate s.db record true
          mysqlTask := appendRecord env record s.mysqlTask }
      else s := by
  cases h : putOutcome puts 0 <;> simp [perform, h]

theorem perform_pair (first second : Message) (puts : List Bool) (s : ServerState) :
    perform env [.save first true, .save second false, .append first, .append second]
        puts s =
      if putOutcome puts 0 then
        { db := saveOrUpdate (saveOrUpdate s.db first true) second (putOutcome puts 1)
          mysqlTask := appendRecord env second (appendRecord env first s.mysqlTask) }
      else s := by
  cases h : putOutcome puts 0 <;> simp [perform, h]

theorem perform_of_first_failed (plan : Plan) {puts : List Bool} (s : ServerState)
    (hfailed : putOutcome puts 0 = false) : perform env plan.effects puts s = s := by
  cases plan with
  | skip => rfl
  | saveTorrent t => simp [Plan.effects, perform_single, hfailed]
  | savePayment tp => simp [Plan.effects, perform_single, hfailed]
  | savePaymentThenTorrent tp t => simp [Plan.effects, perform_pair, hfailed]

theorem get_perform_plan (plan : Plan) (puts : List Bool) (s : ServerState) (key : String) :
    (perform env plan.effects puts s).db.get key = s.db.get key ∨
      ∃ record ∈ plan.records, record.key = key ∧
        (perform env plan.effects puts s).db.get key = some record := by
  rcases get_perform plan.effects puts s key with
    hsame | ⟨record, required, hmem, hkey, hget⟩
  · exact .inl hsame
  · exact .inr ⟨record, mem_records_of_save_mem hmem, hkey, hget⟩

def saveRecords (db : Database) (records : List Message) : Database :=
  records.foldl (fun db record => saveOrUpdate db record true) db

theorem perform_db_of_success (env : Environment) (plan : Plan) (puts : List Bool)
    (s : ServerState) (hputs : ∀ i, putOutcome puts i = true) :
    (perform env plan.effects puts s).db = saveRecords s.db plan.records := by
  cases plan with
  | skip => rfl
  | saveTorrent t =>
      simp only [Plan.effects, perform_single, hputs]
      rfl
  | savePayment tp =>
      simp only [Plan.effects, perform_single, hputs]
      rfl
  | savePaymentThenTorrent tp t =>
      simp only [Plan.effects, perform_pair, hputs]
      rfl

def KeyIsId (db : Database) : Prop :=
  ∀ key record, db.get key = some record → record.key = key

theorem keyIsId_handles {s s' : ServerState} {step : Step} (h : KeyIsId s.db)
    (hstep : Handles env s step s') : KeyIsId s'.db := by
  obtain ⟨plan, _, rfl⟩ := handles_iff.mp hstep
  intro key record hget
  rcases get_perform_plan plan step.puts s key with hsame | ⟨saved, _, hkey, hsaved⟩
  · exact h key record (hsame ▸ hget)
  · rw [hsaved] at hget
    cases hget
    exact hkey

theorem keyIsId_of_run {s : ServerState} {steps : List Step}
    (hrun : Run (Handles env) .empty steps s) : KeyIsId s.db := by
  refine Run.state_invariant (fun _ => True) (fun s => KeyIsId s.db) ?_ ?_ hrun fun _ _ => trivial
  · intro key record hget
    simp [ServerState.empty] at hget
  · intro _ _ _ _ hinv hstep
    exact keyIsId_handles hinv hstep

theorem KeyIsId.getTorrent_id (h : KeyIsId db) {key : String} {t : Torrent}
    (ht : getTorrent db key = some t) : t.id = key := by
  obtain ⟨record, hget, rfl⟩ := Option.map_eq_some_iff.mp ht
  rw [Message.parseTorrent_id]
  exact h key record hget

theorem KeyIsId.getTorrentPayment_id (h : KeyIsId db) {id : HashId} {tp : TorrentPayment}
    (htp : getTorrentPayment db id = some tp) : tp.paymentId = id.str := by
  obtain ⟨record, hget, rfl⟩ := Option.map_eq_some_iff.mp htp
  rw [Message.parseTorrentPayment_paymentId]
  exact h id.str record hget

end TorrentServer.TransactionPlans
