import TorrentServer.TransactionPlans

namespace TorrentServer.TransactionAtomicity

open TorrentServer.Records
open TorrentServer.ChainLibrary
open TorrentServer.MysqlTables
open TorrentServer.TorrentDatabase
open TorrentServer.HandleBlock
open TorrentServer.TransactionPlans
open TorrentServer.Library.KeyValueStore
open TorrentServer.Library.Runs

def OneTuplePerRecord (env : Environment) (records : List Message)
    (task task' : MysqlTask) : Prop :=
  ∃ torrents payments,
    torrents.map some =
      (records.filterMap Message.torrent?).map (torrentRow env) ∧
    payments.map some =
      (records.filterMap Message.torrentPayment?).map (torrentPaymentRow env) ∧
    task' =
      { torrent := task.torrent ++ torrents
        torrentPayment := task.torrentPayment ++ payments }

/-- Either every record is in LevelDB and has its tuple, or nothing changed. -/
def AllOrNothing (env : Environment) (records : List Message) (s s' : ServerState) : Prop :=
  (s'.db = saveRecords s.db records ∧
    OneTuplePerRecord env records s.mysqlTask s'.mysqlTask) ∨ s' = s

def recordAsset : Message → UInt32
  | .torrent t => t.asset
  | .torrentPayment tp => tp.asset

def AssetKnown (env : Environment) (asset : UInt32) : Prop :=
  (assetOf env asset).isSome

/-- The assets of the records a transaction is about, one for each `Put`: those
named by the operation and those of the stored records it reads. -/
def concernedAssets (db : Database) (trx : ProcessedTransaction) : List UInt32 :=
  let paymentAsset := fun id => ((getTorrentPayment db id).map (·.asset)).toList
  match handledOperation trx with
  | none => []
  | some .other => []
  | some (.settlement _) =>
      match trx.proposalTransactionId with
      | none => []
      | some proposal => paymentAsset proposal
  | some (.torrentCreate op) => [op.assetType]
  | some (.torrentUpdate op) => ((getTorrent db op.id.str).map (·.asset)).toList
  | some (.torrentPayment op) =>
      match getTorrent db op.torrentId.str with
      | none => []
      | some t => [op.assetType, t.asset]
  | some (.torrentPaymentSelttement op) =>
      match getTorrentPayment db op.paymentId with
      | none => []
      | some tp =>
          match getTorrent db tp.torrentId with
          | none => []
          | some t => [tp.asset, t.asset]
  | some (.torrentReceipt op) => paymentAsset op.paymentId
  | some (.torrentPaymentRefund op) => paymentAsset op.paymentId
  | some (.torrentPaymentIncrease op) => paymentAsset op.paymentId

/-- There is no `Put` to make, or the first one fails, or every one succeeds and
every asset is known. -/
def Unbroken (env : Environment) (assets : List UInt32) (puts : List Bool) : Prop :=
  assets = [] ∨ putOutcome puts 0 = false ∨
    ((∀ i < assets.length, putOutcome puts i = true) ∧ ∀ asset ∈ assets, AssetKnown env asset)

variable {env : Environment}

theorem torrentRow_isSome {t : Torrent} :
    (torrentRow env t).isSome ↔ AssetKnown env t.asset := by
  simp [torrentRow, AssetKnown]

theorem torrentPaymentRow_isSome {tp : TorrentPayment} :
    (torrentPaymentRow env tp).isSome ↔ AssetKnown env tp.asset := by
  simp [torrentPaymentRow, AssetKnown]

theorem appendRecord_of_known {record : Message} {task : MysqlTask}
    (h : AssetKnown env (recordAsset record)) :
    OneTuplePerRecord env [record] task (appendRecord env record task) := by
  cases record with
  | torrent t =>
      obtain ⟨row, hrow⟩ := Option.isSome_iff_exists.mp (torrentRow_isSome.mpr h)
      exact ⟨[row], [], by simp [Message.torrent?, hrow], rfl,
        by simp [appendRecord, appendTorrentCreate, hrow]⟩
  | torrentPayment tp =>
      obtain ⟨row, hrow⟩ := Option.isSome_iff_exists.mp (torrentPaymentRow_isSome.mpr h)
      exact ⟨[], [row], rfl, by simp [Message.torrentPayment?, hrow],
        by simp [appendRecord, appendTorrentPayment, hrow]⟩

theorem OneTuplePerRecord.append {records more : List Message}
    {task task' task'' : MysqlTask} (h : OneTuplePerRecord env records task task')
    (hmore : OneTuplePerRecord env more task' task'') :
    OneTuplePerRecord env (records ++ more) task task'' := by
  obtain ⟨torrents, payments, htorrents, hpayments, rfl⟩ := h
  obtain ⟨torrents', payments', htorrents', hpayments', rfl⟩ := hmore
  refine ⟨torrents ++ torrents', payments ++ payments', ?_, ?_, ?_⟩
  · simp [htorrents, htorrents']
  · simp [hpayments, hpayments']
  · simp

theorem known_of_oneTuplePerRecord {records : List Message} {task task' : MysqlTask}
    (h : OneTuplePerRecord env records task task') :
    ∀ asset ∈ records.map recordAsset, AssetKnown env asset := by
  obtain ⟨torrents, payments, htorrents, hpayments, _⟩ := h
  intro asset hasset
  obtain ⟨record, hmem, rfl⟩ := List.mem_map.mp hasset
  cases record with
  | torrent t =>
      have hrow : torrentRow env t ∈ torrents.map some := by
        rw [htorrents]
        exact List.mem_map_of_mem (List.mem_filterMap.mpr ⟨_, hmem, rfl⟩)
      obtain ⟨row, _, hrow⟩ := List.mem_map.mp hrow
      exact torrentRow_isSome.mp (by rw [← hrow]; rfl)
  | torrentPayment tp =>
      have hrow : torrentPaymentRow env tp ∈ payments.map some := by
        rw [hpayments]
        exact List.mem_map_of_mem (List.mem_filterMap.mpr ⟨_, hmem, rfl⟩)
      obtain ⟨row, _, hrow⟩ := List.mem_map.mp hrow
      exact torrentPaymentRow_isSome.mp (by rw [← hrow]; rfl)

theorem allOrNothing_single (record : Message) (puts : List Bool) (s : ServerState) :
    AllOrNothing env [record] s
        (perform env [.save record true, .append record] puts s) ↔
      Unbroken env [recordAsset record] puts := by
  rw [perform_single]
  cases hput : putOutcome puts 0 with
  | false => simp [AllOrNothing, Unbroken, hput]
  | true =>
      have hputs : ∀ i < [recordAsset record].length, putOutcome puts i = true := by
        intro i hi
        obtain rfl : i = 0 := by simpa using hi
        exact hput
      simp only [if_true]
      constructor
      · rintro (⟨_, htuples⟩ | hsame)
        · exact .inr (.inr ⟨hputs, known_of_oneTuplePerRecord htuples⟩)
        · exact absurd (congrArg ServerState.db hsame)
            (s.db.put_true_ne record.key record)
      · rintro (hnil | hfail | ⟨_, hknown⟩)
        · simp at hnil
        · rw [hput] at hfail
          simp at hfail
        · exact .inl ⟨rfl, appendRecord_of_known (hknown _ (by simp))⟩

theorem allOrNothing_pair (first second : Message) (puts : List Bool) (s : ServerState) :
    AllOrNothing env [first, second] s
        (perform env [.save first true, .save second false, .append first,
          .append second] puts s) ↔
      Unbroken env [recordAsset first, recordAsset second] puts := by
  rw [perform_pair]
  cases hput : putOutcome puts 0 with
  | false => simp [AllOrNothing, Unbroken, hput]
  | true =>
      have hputs : putOutcome puts 1 = true →
          ∀ i < [recordAsset first, recordAsset second].length, putOutcome puts i = true := by
        intro hsecond i hi
        match i, hi with
        | 0, _ => exact hput
        | 1, _ => exact hsecond
      simp only [if_true]
      constructor
      · rintro (⟨hdb, htuples⟩ | hsame)
        · refine .inr (.inr ⟨hputs ?_, known_of_oneTuplePerRecord htuples⟩)
          -- The write counter tells one successful `Put` from two.
          by_contra hsecond
          have hsequence := congrArg Store.sequence hdb
          rw [Bool.not_eq_true] at hsecond
          simp [hsecond, saveRecords, saveOrUpdate] at hsequence
        · have hsequence := congrArg (fun s => s.db.sequence) hsame
          cases hsecond : putOutcome puts 1 <;>
            simp [hsecond, saveOrUpdate] at hsequence
          omega
      · rintro (hnil | hfail | ⟨hall, hknown⟩)
        · simp at hnil
        · rw [hput] at hfail
          simp at hfail
        · have hsecond : putOutcome puts 1 = true := hall 1 (by simp)
          refine .inl ⟨by rw [hsecond]; rfl, ?_⟩
          exact (appendRecord_of_known (hknown _ (by simp))).append
            (appendRecord_of_known (hknown _ (by simp)))

theorem concernedAssets_of_skipped {db : Database} {trx : ProcessedTransaction}
    (hskip : Skipped db trx) : concernedAssets db trx = [] := by
  cases hskip with
  | ignored hop => simp [concernedAssets, hop]
  | other hop => simp [concernedAssets, hop]
  | updateTorrent op hop ht => simp [concernedAssets, hop, ht]
  | paymentTorrent op hop ht => simp [concernedAssets, hop, ht]
  | selttementPayment op hop htp => simp [concernedAssets, hop, htp]
  | selttementTorrent op tp hop htp ht => simp [concernedAssets, hop, htp, ht]
  | receiptPayment op hop htp => simp [concernedAssets, hop, htp]
  | refundPayment op hop htp => simp [concernedAssets, hop, htp]
  | increasePayment op hop htp => simp [concernedAssets, hop, htp]
  | settlementPayment op proposal hop hproposal htp =>
      simp [concernedAssets, hop, hproposal, htp]

theorem recordAsset_records {db : Database} {blockNum : UInt64} {trx : ProcessedTransaction}
    {plan : Plan} (hplan : Planned env db blockNum trx plan) :
    plan.records.map recordAsset = concernedAssets db trx := by
  cases hplan with
  | skip hskip => exact (concernedAssets_of_skipped hskip).symm
  | created op hop => simp [concernedAssets, hop, Plan.records, recordAsset, createdTorrent]
  | updated op t hop ht =>
      simp [concernedAssets, hop, ht, Plan.records, recordAsset, updatedTorrent]
  | payed op t hop ht hpieces =>
      simp [concernedAssets, hop, ht, Plan.records, recordAsset, createdPayment, payedTorrent]
  | seltted op tp t hop htp ht =>
      simp [concernedAssets, hop, htp, ht, Plan.records, recordAsset, selttedPayment,
        finishedTorrent]
  | receipted op tp hop htp =>
      simp [concernedAssets, hop, htp, Plan.records, recordAsset, receiptedPayment]
  | refunded op tp hop htp =>
      simp [concernedAssets, hop, htp, Plan.records, recordAsset, refundedPayment]
  | increased op tp hop htp =>
      simp [concernedAssets, hop, htp, Plan.records, recordAsset, increasedPayment]
  | settled op proposal tp tp' hop hproposal htp hsettle =>
      obtain ⟨payPieces, rfl⟩ := settle_eq hsettle
      simp [concernedAssets, hop, hproposal, htp, Plan.records, recordAsset]

/-- A transaction leaves both stores as if it had run completely or not at all
exactly when it has no `Put` to make, the first one fails, or all succeed and
`get_asset_by_id` knows the asset of every record it is about. -/
theorem handleTransaction_allOrNothing_iff {s s' : ServerState} {step : Step} {plan : Plan}
    (hplan : transactionPlan env s.db step.blockNum step.trx = .ok plan)
    (hhandled : handleTransaction env s step = .ok s') :
    AllOrNothing env plan.records s s' ↔
      Unbroken env (concernedAssets s.db step.trx) step.puts := by
  obtain rfl : s' = perform env plan.effects step.puts s := by
    obtain ⟨plan', hplan', hs'⟩ := handles_iff.mp hhandled
    rw [hplan] at hplan'
    cases hplan'
    exact hs'
  rw [← recordAsset_records (planned_of_transactionPlan hplan)]
  cases plan with
  | skip => simp [AllOrNothing, Unbroken, Plan.records, Plan.effects, perform]
  | saveTorrent t => exact allOrNothing_single _ _ _
  | savePayment tp => exact allOrNothing_single _ _ _
  | savePaymentThenTorrent tp t => exact allOrNothing_pair _ _ _ _

theorem samplePayment_allOrNothing :
    ∃ s plan s', Handles .oneAsset .empty sampleCreate s ∧
      transactionPlan .oneAsset s.db 2 samplePayment.trx = .ok plan ∧
      handleTransaction .oneAsset s samplePayment = .ok s' ∧
      (AllOrNothing .oneAsset plan.records s s' ↔
        Unbroken .oneAsset (concernedAssets s.db samplePayment.trx) samplePayment.puts) :=
  ⟨_, _, _, rfl, rfl, rfl, handleTransaction_allOrNothing_iff rfl rfl⟩

/-- The payment is stored, the `Put` of its torrent fails, and both tuples are
appended. -/
theorem payment_half_applied :
    ¬ ∀ (env : Environment) (steps : List Step) (s s' : ServerState) (step : Step)
      (plan : Plan), Run (Handles env) .empty steps s →
      transactionPlan env s.db step.blockNum step.trx = .ok plan →
      handleTransaction env s step = .ok s' → AllOrNothing env plan.records s s' := by
  intro hall
  let step : Step := { samplePayment with puts := [true, false] }
  have hrun : Run (Handles .oneAsset) .empty ([] ++ [sampleCreate]) _ := Run.nil.snoc rfl
  have hboth := hall .oneAsset _ _ _ step _ hrun rfl rfl
  rcases (allOrNothing_pair _ _ _ _).mp hboth with hnil | hfirst | ⟨hputs, _⟩
  · exact absurd hnil (by decide)
  · exact absurd hfirst (by decide)
  · exact absurd (hputs 1 (by decide)) (by decide)

end TorrentServer.TransactionAtomicity
