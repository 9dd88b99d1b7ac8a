import TorrentServer.TypedRuns

namespace TorrentServer.LifeCycle

open TorrentServer.Records
open TorrentServer.ChainLibrary
open TorrentServer.TorrentDatabase
open TorrentServer.HandleBlock
open TorrentServer.TransactionPlans
open TorrentServer.TypedRuns
open TorrentServer.Library.KeyValueStore
open TorrentServer.Library.Runs

/-- The part of a payment that is fixed when it is created. -/
structure PaymentTerms where
  paymentId : String
  torrentId : String
  userId : String
  asset : UInt32
  authorAmount : String
  percent : UInt32
  pieces : UInt32
  sizes : UInt64
  signAddress : String
  createTime : UInt64
  transferOnePieceAmount : String
  authorOnePieceAmount : String
  receiverAuthorOnePieceAmount : String

def paymentTerms (tp : TorrentPayment) : PaymentTerms where
  paymentId := tp.paymentId
  torrentId := tp.torrentId
  userId := tp.userId
  asset := tp.asset
  authorAmount := tp.authorAmount
  percent := tp.percent
  pieces := tp.pieces
  sizes := tp.sizes
  signAddress := tp.signAddress
  createTime := tp.createTime
  transferOnePieceAmount := tp.transferOnePieceAmount
  authorOnePieceAmount := tp.authorOnePieceAmount
  receiverAuthorOnePieceAmount := tp.receiverAuthorOnePieceAmount

structure TorrentTerms where
  id : String
  transactionId : String
  userId : String
  asset : UInt32
  createBlock : UInt64

def torrentTerms (t : Torrent) : TorrentTerms where
  id := t.id
  transactionId := t.transactionId
  userId := t.userId
  asset := t.asset
  createBlock := t.createBlock

/-- A flag of a payment with the transaction id and the time that belong to it. -/
structure Marked (flag : Bool) (trxId : String) (time createTime : UInt64) : Prop where
  flag_iff : flag = true ↔ trxId ≠ ""
  time_of_unset : flag = false → time = 0
  time_of_set : flag = true → createTime ≤ time

structure PaymentWellFormed (tp : TorrentPayment) : Prop where
  selttement : Marked tp.isSelttement tp.selttementTrxId tp.selttementTime tp.createTime
  refund : Marked tp.isRefund tp.refundTrxId tp.refundTime tp.createTime

structure PaymentEvolves (tp tp' : TorrentPayment) : Prop where
  terms : paymentTerms tp' = paymentTerms tp
  selttement : tp.isSelttement = true → tp'.isSelttement = true
  refund : tp.isRefund = true → tp'.isRefund = true

structure TorrentEvolves (t t' : Torrent) : Prop where
  terms : torrentTerms t' = torrentTerms t
  lastModify : t.lastModify ≤ t'.lastModify

theorem PaymentEvolves.refl (tp : TorrentPayment) : PaymentEvolves tp tp :=
  ⟨rfl, id, id⟩

theorem PaymentEvolves.trans {tp tp' tp'' : TorrentPayment} (h : PaymentEvolves tp tp')
    (h' : PaymentEvolves tp' tp'') : PaymentEvolves tp tp'' :=
  ⟨h'.terms.trans h.terms, h'.selttement ∘ h.selttement, h'.refund ∘ h.refund⟩

theorem TorrentEvolves.refl (t : Torrent) : TorrentEvolves t t :=
  ⟨rfl, UInt64.le_refl _⟩

theorem TorrentEvolves.trans {t t' t'' : Torrent} (h : TorrentEvolves t t')
    (h' : TorrentEvolves t' t'') : TorrentEvolves t t'' :=
  ⟨h'.terms.trans h.terms, UInt64.le_trans h.lastModify h'.lastModify⟩

section Edits

variable {env : Environment} {blockNum : UInt64} {trx : ProcessedTransaction}

theorem paymentEdit_evolves {tp tp' : TorrentPayment} (h : PaymentEdit blockNum trx tp tp') :
    PaymentEvolves tp tp' := by
  cases h with
  | receipted => exact ⟨rfl, id, id⟩
  | refunded => exact ⟨rfl, id, fun _ => rfl⟩
  | increased => exact ⟨rfl, id, id⟩
  | settled => exact ⟨rfl, id, id⟩

theorem selttedPayment_evolves (tp : TorrentPayment) :
    PaymentEvolves tp (selttedPayment trx blockNum tp) :=
  ⟨rfl, fun _ => rfl, id⟩

theorem torrentEdit_evolves {t t' : Torrent} (hblock : t.lastModify ≤ blockNum)
    (h : TorrentEdit blockNum t t') : TorrentEvolves t t' := by
  cases h with
  | updated => exact ⟨rfl, hblock⟩
  | payed => exact ⟨rfl, UInt64.le_refl _⟩
  | finished => exact ⟨rfl, UInt64.le_refl _⟩

theorem marked_unset (createTime : UInt64) : Marked false "" 0 createTime :=
  ⟨by simp, fun _ => rfl, by simp⟩

theorem marked_set (trx : ProcessedTransaction) {blockNum createTime : UInt64}
    (hblock : createTime ≤ blockNum) : Marked true trx.id.str blockNum createTime :=
  ⟨by simpa using trx.id.str_ne_empty, by simp, fun _ => hblock⟩

theorem createdPayment_wellFormed (op : TorrentPaymentOperation) (t : Torrent) :
    PaymentWellFormed (createdPayment env trx blockNum op t) :=
  ⟨marked_unset _, marked_unset _⟩

theorem PaymentWellFormed.edited {tp tp' : TorrentPayment} (h : PaymentWellFormed tp)
    (hblock : tp.createTime ≤ blockNum) (hedit : PaymentEdit blockNum trx tp tp') :
    PaymentWellFormed tp' := by
  cases hedit with
  | receipted => exact ⟨h.selttement, h.refund⟩
  | refunded => exact ⟨h.selttement, marked_set trx hblock⟩
  | increased => exact ⟨h.selttement, h.refund⟩
  | settled => exact ⟨h.selttement, h.refund⟩

theorem PaymentWellFormed.seltted {tp : TorrentPayment} (h : PaymentWellFormed tp)
    (hblock : tp.createTime ≤ blockNum) :
    PaymentWellFormed (selttedPayment trx blockNum tp) :=
  ⟨marked_set trx hblock, h.refund⟩

end Edits

/-- The block numbers of a run do not decrease; the transactions of one block
share theirs. -/
def BlocksInOrder (steps : List Step) : Prop :=
  (steps.map Step.blockNum).Pairwise (· ≤ ·)

instance (steps : List Step) : Decidable (BlocksInOrder steps) :=
  inferInstanceAs (Decidable (List.Pairwise _ _))

theorem BlocksInOrder.of_append {steps more : List Step} (h : BlocksInOrder (steps ++ more)) :
    BlocksInOrder steps := by
  unfold BlocksInOrder at h
  rw [List.map_append, List.pairwise_append] at h
  exact h.1

theorem BlocksInOrder.le_last {steps : List Step} {step a : Step}
    (h : BlocksInOrder (steps ++ [step])) (ha : a ∈ steps) : a.blockNum ≤ step.blockNum := by
  unfold BlocksInOrder at h
  rw [List.map_append, List.pairwise_append] at h
  exact h.2.2 _ (List.mem_map_of_mem ha) _ (by simp)

structure ChainOrder (steps : List Step) : Prop where
  created : TorrentsCreatedOnce steps
  distinct : TransactionsDistinct steps
  roles : RolesDisjoint steps
  blocks : BlocksInOrder steps

theorem ChainOrder.of_append {steps more : List Step} (h : ChainOrder (steps ++ more)) :
    ChainOrder steps :=
  ⟨h.created.of_append, h.distinct.of_append, h.roles.of_append, h.blocks.of_append⟩

/-- The stored records are well formed, and the latest time in each of them is
the number of a block of the run. -/
structure Aged (steps : List Step) (db : Database) : Prop where
  payment : ∀ key tp, db.get key = some (.torrentPayment tp) →
    PaymentWellFormed tp ∧ ∃ a ∈ steps, a.blockNum = tp.createTime
  torrent : ∀ key t, db.get key = some (.torrent t) →
    t.createBlock ≤ t.lastModify ∧ ∃ a ∈ steps, a.blockNum = t.lastModify

variable {env : Environment} {steps : List Step} {step : Step} {s : ServerState} {plan : Plan}

theorem Aged.createTime_le (h : Aged steps s.db) (hblocks : BlocksInOrder (steps ++ [step]))
    {key : String} {tp : TorrentPayment} (htp : s.db.get key = some (.torrentPayment tp)) :
    tp.createTime ≤ step.blockNum := by
  obtain ⟨-, a, ha, hblock⟩ := h.payment key tp htp
  exact hblock ▸ hblocks.le_last ha

theorem Aged.lastModify_le (h : Aged steps s.db) (hblocks : BlocksInOrder (steps ++ [step]))
    {key : String} {t : Torrent} (ht : s.db.get key = some (.torrent t)) :
    t.lastModify ≤ step.blockNum := by
  obtain ⟨-, a, ha, hblock⟩ := h.torrent key t ht
  exact hblock ▸ hblocks.le_last ha

theorem Aged.performed (h : Aged steps s.db) (hblocks : BlocksInOrder (steps ++ [step]))
    (hplan : TypedPlan env s.db step.blockNum step.trx plan) :
    Aged (steps ++ [step]) (perform env plan.effects step.puts s).db := by
  have hbefore : ∀ {p : Step → Prop}, (∃ a ∈ steps, p a) → ∃ a ∈ steps ++ [step], p a :=
    fun ⟨a, ha, hp⟩ => ⟨a, List.mem_append_left _ ha, hp⟩
  have hnow : ∃ a ∈ steps ++ [step], a.blockNum = step.blockNum := ⟨step, by simp, rfl⟩
  constructor
  case payment =>
      intro key tp htp
      rcases hplan.payment_origin htp with
        hold | ⟨op, t, hop, -, ht, rfl⟩ | ⟨old, hold, hedit⟩
      · obtain ⟨hwell, htime⟩ := h.payment key tp hold
        exact ⟨hwell, hbefore htime⟩
      · exact ⟨createdPayment_wellFormed op t, hnow⟩
      · obtain ⟨hwell, htime⟩ := h.payment key old hold
        have hblock := h.createTime_le hblocks hold
        rcases hedit with hedit | rfl
        · have hterms := congrArg PaymentTerms.createTime (paymentEdit_evolves hedit).terms
          refine ⟨hwell.edited hblock hedit, hbefore ?_⟩
          rw [show tp.createTime = old.createTime from hterms]
          exact htime
        · exact ⟨hwell.seltted hblock, hbefore htime⟩
  case torrent =>
      intro key t ht
      rcases hplan.torrent_origin ht with hold | ⟨op, hop, -, rfl⟩ | ⟨old, hold, hedit⟩
      · obtain ⟨hwell, htime⟩ := h.torrent key t hold
        exact ⟨hwell, hbefore htime⟩
      · exact ⟨UInt64.le_refl _, hnow⟩
      · obtain ⟨hwell, htime⟩ := h.torrent key old hold
        have hblock := h.lastModify_le hblocks hold
        cases hedit with
        | updated => exact ⟨UInt64.le_trans hwell hblock, hnow⟩
        | payed => exact ⟨hwell, hbefore htime⟩
        | finished => exact ⟨hwell, hbefore htime⟩

theorem payment_evolves (htyped : Typed steps s.db) (hchain : ChainOrder (steps ++ [step]))
    (hplan : TypedPlan env s.db step.blockNum step.trx plan) {key : String}
    {tp : TorrentPayment} (htp : s.db.get key = some (.torrentPayment tp)) :
    ∃ tp', (perform env plan.effects step.puts s).db.get key = some (.torrentPayment tp') ∧
      PaymentEvolves tp tp' := by
  obtain ⟨tp', htp'⟩ := htyped.payment_kept hchain.roles hplan htp
  refine ⟨tp', htp', ?_⟩
  rcases hplan.payment_origin htp' with
    hold | ⟨op, t, hop, rfl, -⟩ | ⟨old, hold, hedit⟩
  · cases htp.symm.trans hold
    exact .refl tp
  · -- A payment is never created over another one.
    have hfree : s.db.get step.trx.id.str = none :=
      htyped.get_createdPaymentId hchain.roles hchain.distinct (by simp [createdPaymentId, hop])
    exact absurd (hfree.symm.trans htp) (by simp)
  · cases htp.symm.trans hold
    rcases hedit with hedit | rfl
    · exact paymentEdit_evolves hedit
    · exact selttedPayment_evolves tp

theorem torrent_evolves (htyped : Typed steps s.db) (haged : Aged steps s.db)
    (hchain : ChainOrder (steps ++ [step]))
    (hplan : TypedPlan env s.db step.blockNum step.trx plan) {key : String} {t : Torrent}
    (ht : s.db.get key = some (.torrent t)) :
    ∃ t', (perform env plan.effects step.puts s).db.get key = some (.torrent t') ∧
      TorrentEvolves t t' := by
  obtain ⟨t', ht'⟩ := htyped.torrent_kept hchain.roles hplan ht
  refine ⟨t', ht', ?_⟩
  rcases hplan.torrent_origin ht' with hold | ⟨op, hop, rfl, -⟩ | ⟨old, hold, hedit⟩
  · cases ht.symm.trans hold
    exact .refl t
  · have hfree : s.db.get op.id.str = none :=
      htyped.get_createdTorrentId hchain.roles hchain.created (by simp [createdTorrentId, hop])
    exact absurd (hfree.symm.trans ht) (by simp)
  · cases ht.symm.trans hold
    exact torrentEdit_evolves (haged.lastModify_le hchain.blocks ht) hedit

theorem aged_of_run (hrun : Run (Handles env) .empty steps s) (hchain : ChainOrder steps) :
    Typed steps s.db ∧ Aged steps s.db := by
  refine typed_run_invariant env ChainOrder (fun steps s => Aged steps s.db)
    (fun _ _ h => h.of_append) (fun _ h => h.roles) typed_empty ?_ ?_ hrun hchain
  · constructor <;> intro key record hget <;> simp [ServerState.empty] at hget
  · intro steps step s plan hchain _ haged _ hplan
    exact haged.performed hchain.blocks hplan

structure Evolves (db db' : Database) : Prop where
  payment : ∀ key tp, db.get key = some (.torrentPayment tp) →
    ∃ tp', db'.get key = some (.torrentPayment tp') ∧ PaymentEvolves tp tp'
  torrent : ∀ key t, db.get key = some (.torrent t) →
    ∃ t', db'.get key = some (.torrent t') ∧ TorrentEvolves t t'

theorem Evolves.performed {db : Database} (h : Evolves db s.db) (htyped : Typed steps s.db)
    (haged : Aged steps s.db) (hchain : ChainOrder (steps ++ [step]))
    (hplan : TypedPlan env s.db step.blockNum step.trx plan) :
    Evolves db (perform env plan.effects step.puts s).db := by
  constructor
  case payment =>
      intro key tp htp
      obtain ⟨tp', htp', hevolves⟩ := h.payment key tp htp
      obtain ⟨tp'', htp'', hnext⟩ := payment_evolves htyped hchain hplan htp'
      exact ⟨tp'', htp'', hevolves.trans hnext⟩
  case torrent =>
      intro key t ht
      obtain ⟨t', ht', hevolves⟩ := h.torrent key t ht
      obtain ⟨t'', ht'', hnext⟩ := torrent_evolves htyped haged hchain hplan ht'
      exact ⟨t'', ht'', hevolves.trans hnext⟩

/-- In every reachable state the stored records are well formed, and after any
further steps each of them is still there with the same terms, its marks and
its last modification not set back. -/
theorem records_live {more : List Step} {s' : ServerState}
    (hrun : Run (Handles env) .empty steps s) (hmore : Run (Handles env) s more s')
    (hchain : ChainOrder (steps ++ more)) :
    (∀ key tp, s.db.get key = some (.torrentPayment tp) → PaymentWellFormed tp) ∧
    (∀ key t, s.db.get key = some (.torrent t) → t.createBlock ≤ t.lastModify) ∧
    Evolves s.db s'.db := by
  obtain ⟨htyped, haged⟩ := aged_of_run hrun hchain.of_append
  refine ⟨fun key tp htp => (haged.payment key tp htp).1,
    fun key t ht => (haged.torrent key t ht).1, ?_⟩
  refine (typed_run_invariant env ChainOrder
    (fun steps s' => Aged steps s'.db ∧ Evolves s.db s'.db) (fun _ _ h => h.of_append)
    (fun _ h => h.roles) htyped ⟨haged, ?_⟩ ?_ hmore hchain).2.2
  · exact ⟨fun key tp htp => ⟨tp, htp, .refl tp⟩, fun key t ht => ⟨t, ht, .refl t⟩⟩
  · rintro steps step s' plan hchain htyped ⟨haged, hevolves⟩ - hplan
    exact ⟨haged.performed hchain.blocks hplan, hevolves.performed htyped haged hchain hplan⟩

theorem sample_records_live :
    ∃ s s', Run (Handles .oneAsset) .empty [sampleCreate, samplePayment] s ∧
      Run (Handles .oneAsset) s [sampleRefund] s' ∧ Evolves s.db s'.db := by
  have hall : Run (Handles .oneAsset) .empty
      ([sampleCreate, samplePayment] ++ [sampleRefund]) _ := run_iff_foldlM.mpr rfl
  obtain ⟨s, hrun, hmore⟩ := run_append_iff.mp hall
  refine ⟨s, _, hrun, hmore, ?_⟩
  exact (records_live hrun hmore ⟨by decide, by decide, by decide, by decide⟩).2.2

end TorrentServer.LifeCycle
