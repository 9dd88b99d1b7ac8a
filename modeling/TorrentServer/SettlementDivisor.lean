import TorrentServer.TransactionPlans

namespace TorrentServer.SettlementDivisor

open TorrentServer.Records
open TorrentServer.ChainLibrary
open TorrentServer.TorrentDatabase
open TorrentServer.HandleBlock
open TorrentServer.TransactionPlans
open TorrentServer.Library.Runs

/-- What the chain promises of a transaction. -/
def WellFormed (trx : ProcessedTransaction) : Prop :=
  match handledOperation trx with
  | some (.torrentPayment op) => op.pieces ≠ 0
  | some (.settlement op) =>
      trx.proposalTransactionId.isSome = true ∧ op.amount.length = op.account.length ∧
        op.businessType.length = op.account.length
  | _ => True

/-- The id of the payment a transaction starts from. -/
def readPaymentId (trx : ProcessedTransaction) : Option HashId :=
  match handledOperation trx with
  | some (.settlement _) => trx.proposalTransactionId
  | some (.torrentPaymentSelttement op) => some op.paymentId
  | some (.torrentReceipt op) => some op.paymentId
  | some (.torrentPaymentRefund op) => some op.paymentId
  | some (.torrentPaymentIncrease op) => some op.paymentId
  | _ => none

/-- A payment has a price that is not zero when it is made, and what is read as a
payment is not a torrent. -/
structure Priced (env : Environment) (db : Database) (trx : ProcessedTransaction) : Prop where
  price : ∀ op t, handledOperation trx = some (.torrentPayment op) →
    getTorrent db op.torrentId.str = some t →
      op.onePieceAmount + receiverAuthorOnePieceAmount env op t ≠ 0
  payment : ∀ id t, readPaymentId trx = some id → db.get id.str ≠ some (.torrent t)

def PaymentsPriced (db : Database) : Prop :=
  ∀ key tp, db.get key = some (.torrentPayment tp) → pieceUnit tp ≠ 0

section Step

variable {env : Environment} {db : Database} {blockNum : UInt64} {trx : ProcessedTransaction}

theorem pieceUnit_createdPayment (op : TorrentPaymentOperation) (t : Torrent) :
    pieceUnit (createdPayment env trx blockNum op t) =
      op.onePieceAmount + receiverAuthorOnePieceAmount env op t := by
  simp [pieceUnit, createdPayment]

theorem pieceUnit_of_settle {op : SettlementOperation} {tp tp' : TorrentPayment}
    (h : settle env op tp = .ok tp') : pieceUnit tp' = pieceUnit tp := by
  obtain ⟨payPieces, rfl⟩ := settle_eq h
  rfl

theorem PaymentsPriced.pieceUnit_ne_zero (hdb : PaymentsPriced db) (h : Priced env db trx)
    {id : HashId} {tp : TorrentPayment} (hid : readPaymentId trx = some id)
    (htp : getTorrentPayment db id = some tp) : pieceUnit tp ≠ 0 := by
  obtain ⟨record, hget, rfl⟩ := Option.map_eq_some_iff.mp htp
  cases record with
  | torrent t => exact absurd hget (h.payment id t hid)
  | torrentPayment tp => exact hdb id.str tp hget

theorem settlementEntry_ok {ratio : env.decimals.Mpd} {op : SettlementOperation}
    {tp : TorrentPayment} {account : String} {i : ℕ} (hunit : pieceUnit tp ≠ 0)
    (hbusiness : i < op.businessType.length) (hamount : i < op.amount.length) :
    ∃ tp', settlementEntry env ratio op tp (account, i) = .ok tp' := by
  simp only [settlementEntry, List.getElem?_eq_getElem hbusiness,
    List.getElem?_eq_getElem hamount, hunit, if_false]
  split
  · exact ⟨_, rfl⟩
  · split
    · exact ⟨_, rfl⟩
    · exact ⟨_, rfl⟩

theorem settle_ok {op : SettlementOperation} {tp : TorrentPayment} (hunit : pieceUnit tp ≠ 0)
    (hamount : op.amount.length = op.account.length)
    (hbusiness : op.businessType.length = op.account.length) :
    ∃ tp', settle env op tp = .ok tp' := by
  simp only [settle]
  generalize env.decimals.decimal (getRatio tp.pieces) 18 = ratio
  have hindices : ∀ entry ∈ op.account.zipIdx, entry.2 < op.account.length :=
    fun entry hentry => by simpa using (List.mem_zipIdx hentry).2.1
  generalize op.account.zipIdx = entries at hindices ⊢
  induction entries generalizing tp with
  | nil => exact ⟨tp, rfl⟩
  | cons entry entries ih =>
      obtain ⟨account, i⟩ := entry
      have hi : i < op.account.length := hindices (account, i) (by simp)
      obtain ⟨next, hnext⟩ : ∃ next, settlementEntry env ratio op tp (account, i) = .ok next :=
        settlementEntry_ok hunit (by omega) (by omega)
      obtain ⟨payPieces, rfl⟩ := settlementEntry_eq hnext
      rw [List.foldlM_cons, hnext]
      exact ih hunit fun entry hentry => hindices entry (List.mem_cons_of_mem _ hentry)

theorem transactionPlan_ok (hdb : PaymentsPriced db) (hwell : WellFormed trx)
    (hpriced : Priced env db trx) : ∃ plan, transactionPlan env db blockNum trx = .ok plan := by
  unfold transactionPlan
  split
  case h_3 op hop =>
      simp only [WellFormed, hop] at hwell
      obtain ⟨hproposal, hamount, hbusiness⟩ := hwell
      obtain ⟨proposal, hproposal⟩ := Option.isSome_iff_exists.mp hproposal
      simp only [hproposal]
      split
      · exact ⟨_, rfl⟩
      · rename_i tp htp
        have hunit := hdb.pieceUnit_ne_zero hpriced (by simp [readPaymentId, hop, hproposal]) htp
        obtain ⟨tp', htp'⟩ : ∃ tp', settle env op tp = .ok tp' := settle_ok hunit hamount hbusiness
        rw [htp']
        exact ⟨_, rfl⟩
  case h_6 op hop =>
      simp only [WellFormed, hop] at hwell
      split
      · exact ⟨_, rfl⟩
      · rw [if_neg hwell]
        exact ⟨_, rfl⟩
  case h_7 op hop =>
      split
      · exact ⟨_, rfl⟩
      · split
        · exact ⟨_, rfl⟩
        · exact ⟨_, rfl⟩
  case h_1 => exact ⟨_, rfl⟩
  case h_2 => exact ⟨_, rfl⟩
  case h_4 => exact ⟨_, rfl⟩
  -- The branches left start from one record, and skip the transaction without it.
  all_goals
    split
    · exact ⟨_, rfl⟩
    · exact ⟨_, rfl⟩

theorem pieceUnit_ne_zero_of_mem {plan : Plan} {tp : TorrentPayment} (hdb : PaymentsPriced db)
    (hpriced : Priced env db trx) (hplan : Planned env db blockNum trx plan)
    (hmem : .torrentPayment tp ∈ plan.records) : pieceUnit tp ≠ 0 := by
  cases hplan with
  | skip => simp [Plan.records] at hmem
  | created op hop => simp [Plan.records] at hmem
  | updated op t hop ht => simp [Plan.records] at hmem
  | payed op t hop ht hpieces =>
      obtain rfl : tp = createdPayment env trx blockNum op t := by simpa [Plan.records] using hmem
      rw [pieceUnit_createdPayment]
      exact hpriced.price op t hop ht
  | seltted op old t hop hold ht =>
      obtain rfl : tp = selttedPayment trx blockNum old := by simpa [Plan.records] using hmem
      have hunit := hdb.pieceUnit_ne_zero hpriced (by simp [readPaymentId, hop]) hold
      exact hunit
  | receipted op old hop hold =>
      obtain rfl : tp = receiptedPayment trx old := by simpa [Plan.records] using hmem
      have hunit := hdb.pieceUnit_ne_zero hpriced (by simp [readPaymentId, hop]) hold
      exact hunit
  | refunded op old hop hold =>
      obtain rfl : tp = refundedPayment trx blockNum old := by simpa [Plan.records] using hmem
      have hunit := hdb.pieceUnit_ne_zero hpriced (by simp [readPaymentId, hop]) hold
      exact hunit
  | increased op old hop hold =>
      obtain rfl : tp = increasedPayment trx op old := by simpa [Plan.records] using hmem
      have hunit := hdb.pieceUnit_ne_zero hpriced (by simp [readPaymentId, hop]) hold
      exact hunit
  | settled op proposal old tp' hop hproposal hold hsettle =>
      obtain rfl : tp = tp' := by simpa [Plan.records] using hmem
      rw [pieceUnit_of_settle hsettle]
      exact hdb.pieceUnit_ne_zero hpriced (by simp [readPaymentId, hop, hproposal]) hold

theorem paymentsPriced_handles {s s' : ServerState} {step : Step} (hdb : PaymentsPriced s.db)
    (hpriced : Priced env s.db step.trx) (hstep : Handles env s step s') :
    PaymentsPriced s'.db := by
  obtain ⟨plan, hplan, rfl⟩ := planned_of_handles hstep
  intro key tp hget
  rcases get_perform_plan plan step.puts s key with hsame | ⟨record, hmem, -, hnew⟩
  · exact hdb key tp (hsame ▸ hget)
  · obtain rfl : record = .torrentPayment tp := Option.some.inj (hnew.symm.trans hget)
    exact pieceUnit_ne_zero_of_mem hdb hpriced hplan hmem

end Step

/-- Blocks as the executor takes them, each with the outcomes of its `Put`s. -/
abbrev Blocks := List (SignedBlock × (ℕ → List Bool))

def handleBlocks (env : Environment) (blocks : Blocks) (s : ServerState) :
    Except Fault ServerState :=
  blocks.foldlM (fun s block => handleBlock env true block.1 block.2 s) s

def steps (blocks : Blocks) : List Step :=
  blocks.flatMap fun block => blockSteps block.1 block.2

/-- A condition holds of every step in the state in which the handler meets it. -/
def Throughout (env : Environment) (blocks : Blocks)
    (condition : Database → ProcessedTransaction → Prop) : Prop :=
  ∀ before step after s, steps blocks = before ++ step :: after →
    Run (Handles env) .empty before s → condition s.db step.trx

variable {env : Environment} {blocks : Blocks}

theorem handleBlocks_eq (s : ServerState) :
    handleBlocks env blocks s = (steps blocks).foldlM (handleTransaction env) s := by
  unfold handleBlocks steps
  induction blocks generalizing s with
  | nil => rfl
  | cons block blocks ih =>
      rw [List.foldlM_cons, List.flatMap_cons, List.foldlM_append]
      simp only [ih]
      rfl

theorem run_of_prefix (hwell : ∀ step ∈ steps blocks, WellFormed step.trx)
    (hpriced : Throughout env blocks (Priced env)) {before after : List Step}
    (hsteps : steps blocks = before ++ after) :
    ∃ s, Run (Handles env) .empty before s ∧ PaymentsPriced s.db := by
  induction before using List.reverseRecOn generalizing after with
  | nil =>
      refine ⟨.empty, .nil, ?_⟩
      intro key tp hget
      simp [ServerState.empty] at hget
  | append_singleton before step ih =>
      rw [List.append_assoc, List.singleton_append] at hsteps
      obtain ⟨s, hrun, hdb⟩ := ih hsteps
      have hstep := hpriced before step after s hsteps hrun
      obtain ⟨plan, hplan⟩ : ∃ plan, transactionPlan env s.db step.blockNum step.trx = .ok plan :=
        transactionPlan_ok hdb (hwell step (by simp [hsteps])) hstep
      have hhandles : Handles env s step _ := handles_iff.mpr ⟨plan, hplan, rfl⟩
      exact ⟨_, hrun.snoc hhandles, paymentsPriced_handles hdb hstep hhandles⟩

/-- The divisor of every settlement that is reached is not zero, and no block stops
the executor. -/
theorem blocks_never_divide_by_zero (hwell : ∀ step ∈ steps blocks, WellFormed step.trx)
    (hpriced : Throughout env blocks (Priced env)) :
    Throughout env blocks (fun db trx =>
      ∀ op proposal tp, handledOperation trx = some (.settlement op) →
        trx.proposalTransactionId = some proposal → getTorrentPayment db proposal = some tp →
          pieceUnit tp ≠ 0) ∧
      ∃ s, handleBlocks env blocks .empty = .ok s := by
  constructor
  · intro before step after s hsteps hrun op proposal tp hop hproposal htp
    obtain ⟨s', hrun', hdb⟩ := run_of_prefix hwell hpriced hsteps
    obtain rfl : s' = s := by
      rw [run_iff_foldlM] at hrun hrun'
      exact Except.ok.inj (hrun'.symm.trans hrun)
    exact hdb.pieceUnit_ne_zero (hpriced before step after s' hsteps hrun)
      (by simp [readPaymentId, hop, hproposal]) htp
  · obtain ⟨s, hrun, -⟩ := run_of_prefix hwell hpriced (List.append_nil _).symm
    rw [run_iff_foldlM] at hrun
    exact ⟨s, (handleBlocks_eq _).trans hrun⟩

section Sample

def pricedCheck (env : Environment) (db : Database) (trx : ProcessedTransaction) : Bool :=
  (match handledOperation trx with
    | some (.torrentPayment op) =>
        (getTorrent db op.torrentId.str).all fun t =>
          op.onePieceAmount + receiverAuthorOnePieceAmount env op t ≠ 0
    | _ => true) &&
  (readPaymentId trx).all fun id => ((db.get id.str).bind Message.torrent?).isNone

theorem priced_of_pricedCheck {db : Database} {trx : ProcessedTransaction}
    (h : pricedCheck env db trx = true) : Priced env db trx := by
  unfold pricedCheck at h
  rw [Bool.and_eq_true] at h
  obtain ⟨hprice, hpayment⟩ := h
  constructor
  · intro op t hop ht
    simpa [hop, ht] using hprice
  · intro id t hid hget
    simp [hid, hget, Message.torrent?] at hpayment

def throughoutCheck (env : Environment) (check : Database → ProcessedTransaction → Bool) :
    List Step → ServerState → Bool
  | [], _ => true
  | step :: rest, s =>
      check s.db step.trx &&
        match handleTransaction env s step with
        | .ok s' => throughoutCheck env check rest s'
        | .error _ => true

theorem check_of_throughoutCheck {check : Database → ProcessedTransaction → Bool}
    {before after : List Step} {step : Step} {start s : ServerState}
    (h : throughoutCheck env check (before ++ step :: after) start = true)
    (hrun : before.foldlM (handleTransaction env) start = .ok s) :
    check s.db step.trx = true := by
  induction before generalizing start with
  | nil =>
      cases hrun
      simp only [List.nil_append, throughoutCheck, Bool.and_eq_true] at h
      exact h.1
  | cons first before ih =>
      simp only [List.cons_append, throughoutCheck, Bool.and_eq_true] at h
      rw [List.foldlM_cons] at hrun
      cases hfirst : handleTransaction env start first with
      | error fault =>
          rw [hfirst] at hrun
          cases hrun
      | ok next =>
          rw [hfirst] at h hrun
          exact ih h.2 hrun

theorem throughout_of_throughoutCheck
    (h : throughoutCheck env (pricedCheck env) (steps blocks) .empty = true) :
    Throughout env blocks (Priced env) := by
  intro before step after s hsteps hrun
  rw [run_iff_foldlM] at hrun
  rw [hsteps] at h
  exact priced_of_pricedCheck (check_of_throughoutCheck h hrun)

def blockOf (step : Step) : SignedBlock × (ℕ → List Bool) :=
  ({ blockNum := step.blockNum, transactions := [step.trx] }, fun _ => [])

def sampleSettlement : Step where
  blockNum := 3
  trx :=
    { id := sampleRefund.trx.id
      validateType := 1
      proposalTransactionId := some samplePayment.trx.id
      operations := [.settlement { account := ["seeder"], amount := [500], businessType := [1] }]
      operationResults := [] }
  puts := []

def pricedBlocks : Blocks :=
  [blockOf sampleCreate, blockOf samplePayment, blockOf sampleSettlement]

theorem pricedBlocks_handled :
    ∃ s, handleBlocks .oneAsset pricedBlocks .empty = .ok s := by
  have hwell : ∀ step ∈ steps pricedBlocks, WellFormed step.trx := by
    change ∀ step ∈ [sampleCreate, samplePayment, sampleSettlement], WellFormed step.trx
    simp only [List.forall_mem_cons]
    exact ⟨trivial, (by decide : (10 : UInt32) ≠ 0), ⟨rfl, rfl, rfl⟩, by simp⟩
  have hpriced := throughout_of_throughoutCheck
    (show throughoutCheck .oneAsset (pricedCheck .oneAsset) (steps pricedBlocks) .empty = true by
      decide)
  exact (blocks_never_divide_by_zero hwell hpriced).2

def freeCreate : Step :=
  { sampleCreate with
    trx := .accepted sampleCreate.trx.id
      (.torrentCreate { sampleCreateOperation with amount := 0 }) }

def freePayment : Step :=
  { samplePayment with
    trx := .accepted samplePayment.trx.id
      (.torrentPayment { samplePaymentOperation with onePieceAmount := 0 }) }

/-- A torrent without a price, a payment without one, and its settlement. -/
def unpricedBlocks : Blocks :=
  [blockOf freeCreate, blockOf freePayment, blockOf sampleSettlement]

theorem unpriced_payment_stops_executor :
    ¬ ∀ (env : Environment) (blocks : Blocks), (∀ step ∈ steps blocks, WellFormed step.trx) →
      ∃ s, handleBlocks env blocks .empty = .ok s := by
  intro h
  have hwell : ∀ step ∈ steps unpricedBlocks, WellFormed step.trx := by
    change ∀ step ∈ [freeCreate, freePayment, sampleSettlement], WellFormed step.trx
    simp only [List.forall_mem_cons]
    exact ⟨trivial, (by decide : (10 : UInt32) ≠ 0), ⟨rfl, rfl, rfl⟩, by simp⟩
  obtain ⟨s, hs⟩ := h .oneAsset unpricedBlocks hwell
  have hstop : handleBlocks .oneAsset unpricedBlocks .empty = .error .divisionByZero := rfl
  rw [hstop] at hs
  cases hs

end Sample

end TorrentServer.SettlementDivisor
