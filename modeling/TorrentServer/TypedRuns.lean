import TorrentServer.TransactionPlans

namespace TorrentServer.TypedRuns

open TorrentServer.Records
open TorrentServer.ChainLibrary
open TorrentServer.TorrentDatabase
open TorrentServer.HandleBlock
open TorrentServer.TransactionPlans
open TorrentServer.Library.KeyValueStore
open TorrentServer.Library.Runs

def torrentIds (trx : ProcessedTransaction) : List String :=
  match handledOperation trx with
  | some (.torrentCreate op) => [op.id.str]
  | some (.torrentUpdate op) => [op.id.str]
  | some (.torrentPayment op) => [op.torrentId.str]
  | _ => []

def paymentIds (trx : ProcessedTransaction) : List String :=
  match handledOperation trx with
  | some (.settlement _) => trx.proposalTransactionId.toList.map HashId.str
  | some (.torrentPayment _) => [trx.id.str]
  | some (.torrentPaymentSelttement op) => [op.paymentId.str]
  | some (.torrentReceipt op) => [op.paymentId.str]
  | some (.torrentPaymentRefund op) => [op.paymentId.str]
  | some (.torrentPaymentIncrease op) => [op.paymentId.str]
  | _ => []

def createdTorrentId (trx : ProcessedTransaction) : Option String :=
  match handledOperation trx with
  | some (.torrentCreate op) => some op.id.str
  | _ => none

def createdPaymentId (trx : ProcessedTransaction) : Option String :=
  match handledOperation trx with
  | some (.torrentPayment _) => some trx.id.str
  | _ => none

/-- No id is used both as a torrent's and as a payment's. -/
def RolesDisjoint (steps : List Step) : Prop :=
  ∀ a ∈ steps, ∀ b ∈ steps, ∀ id ∈ torrentIds a.trx, id ∉ paymentIds b.trx

def TransactionsDistinct (steps : List Step) : Prop :=
  (steps.map fun step => step.trx.id).Nodup

def TorrentsCreatedOnce (steps : List Step) : Prop :=
  (steps.filterMap fun step => createdTorrentId step.trx).Nodup

instance (steps : List Step) : Decidable (RolesDisjoint steps) :=
  inferInstanceAs (Decidable (∀ a ∈ steps, ∀ b ∈ steps, ∀ id ∈ torrentIds a.trx,
    id ∉ paymentIds b.trx))

instance (steps : List Step) : Decidable (TransactionsDistinct steps) :=
  inferInstanceAs (Decidable (List.Nodup _))

instance (steps : List Step) : Decidable (TorrentsCreatedOnce steps) :=
  inferInstanceAs (Decidable (List.Nodup _))

theorem RolesDisjoint.of_append {steps more : List Step}
    (h : RolesDisjoint (steps ++ more)) : RolesDisjoint steps :=
  fun a ha b hb => h a (List.mem_append_left _ ha) b (List.mem_append_left _ hb)

theorem TransactionsDistinct.of_append {steps more : List Step}
    (h : TransactionsDistinct (steps ++ more)) : TransactionsDistinct steps := by
  unfold TransactionsDistinct at h
  rw [List.map_append] at h
  exact h.of_append_left

theorem TorrentsCreatedOnce.of_append {steps more : List Step}
    (h : TorrentsCreatedOnce (steps ++ more)) : TorrentsCreatedOnce steps := by
  unfold TorrentsCreatedOnce at h
  rw [List.filterMap_append] at h
  exact h.of_append_left

theorem createdTorrentId_mem {trx : ProcessedTransaction} {id : String}
    (h : createdTorrentId trx = some id) : id ∈ torrentIds trx := by
  unfold createdTorrentId at h
  split at h
  · rename_i op hop
    cases h
    simp [torrentIds, hop]
  · cases h

theorem createdPaymentId_mem {trx : ProcessedTransaction} {id : String}
    (h : createdPaymentId trx = some id) : id ∈ paymentIds trx := by
  unfold createdPaymentId at h
  split at h
  · rename_i op hop
    cases h
    simp [paymentIds, hop]
  · cases h

theorem createdPaymentId_eq {trx : ProcessedTransaction} {id : String}
    (h : createdPaymentId trx = some id) : id = trx.id.str := by
  unfold createdPaymentId at h
  split at h
  · exact (Option.some.inj h).symm
  · cases h

/-- Where the records of a database come from, in a run of `steps`. -/
structure Typed (steps : List Step) (db : Database) : Prop where
  keyIsId : KeyIsId db
  torrent : ∀ key t, db.get key = some (.torrent t) →
    ∃ a ∈ steps, createdTorrentId a.trx = some key
  payment : ∀ key tp, db.get key = some (.torrentPayment tp) →
    ∃ a ∈ steps, createdPaymentId a.trx = some key
  paymentTorrent : ∀ key tp, db.get key = some (.torrentPayment tp) →
    ∃ t, db.get tp.torrentId = some (.torrent t)

variable {env : Environment} {db : Database} {steps : List Step} {step : Step}

theorem Typed.get_of_getTorrent (h : Typed steps db) (hroles : RolesDisjoint (steps ++ [step]))
    {key : String} {t : Torrent} (hkey : key ∈ torrentIds step.trx)
    (ht : getTorrent db key = some t) : db.get key = some (.torrent t) := by
  obtain ⟨record, hget, rfl⟩ := Option.map_eq_some_iff.mp ht
  cases record with
  | torrent t => exact hget
  | torrentPayment tp =>
      obtain ⟨a, ha, hcreated⟩ := h.payment key tp hget
      exact absurd (createdPaymentId_mem hcreated)
        (hroles step (by simp) a (List.mem_append_left _ ha) key hkey)

theorem Typed.get_of_getTorrentPayment (h : Typed steps db)
    (hroles : RolesDisjoint (steps ++ [step])) {id : HashId} {tp : TorrentPayment}
    (hid : id.str ∈ paymentIds step.trx) (htp : getTorrentPayment db id = some tp) :
    db.get id.str = some (.torrentPayment tp) := by
  obtain ⟨record, hget, rfl⟩ := Option.map_eq_some_iff.mp htp
  cases record with
  | torrentPayment tp => exact hget
  | torrent t =>
      obtain ⟨a, ha, hcreated⟩ := h.torrent id.str t hget
      exact absurd hid
        (hroles a (List.mem_append_left _ ha) step (by simp) id.str
          (createdTorrentId_mem hcreated))

theorem Typed.get_createdTorrentId (h : Typed steps db)
    (hroles : RolesDisjoint (steps ++ [step])) (honce : TorrentsCreatedOnce (steps ++ [step]))
    {key : String} (hcreated : createdTorrentId step.trx = some key) : db.get key = none := by
  cases hget : db.get key with
  | none => rfl
  | some record =>
      cases record with
      | torrent t =>
          obtain ⟨a, ha, hbefore⟩ := h.torrent key t hget
          unfold TorrentsCreatedOnce at honce
          rw [List.filterMap_append, List.nodup_append] at honce
          exact absurd rfl (honce.2.2 key (List.mem_filterMap.mpr ⟨a, ha, hbefore⟩) key
            (List.mem_filterMap.mpr ⟨step, by simp, hcreated⟩))
      | torrentPayment tp =>
          obtain ⟨a, ha, hbefore⟩ := h.payment key tp hget
          exact absurd (createdPaymentId_mem hbefore)
            (hroles step (by simp) a (List.mem_append_left _ ha) key
              (createdTorrentId_mem hcreated))

theorem Typed.get_createdPaymentId (h : Typed steps db)
    (hroles : RolesDisjoint (steps ++ [step]))
    (hdistinct : TransactionsDistinct (steps ++ [step])) {key : String}
    (hcreated : createdPaymentId step.trx = some key) : db.get key = none := by
  cases hget : db.get key with
  | none => rfl
  | some record =>
      cases record with
      | torrent t =>
          obtain ⟨a, ha, hbefore⟩ := h.torrent key t hget
          exact absurd (createdPaymentId_mem hcreated)
            (hroles a (List.mem_append_left _ ha) step (by simp) key
              (createdTorrentId_mem hbefore))
      | torrentPayment tp =>
          obtain ⟨a, ha, hbefore⟩ := h.payment key tp hget
          have hsame : a.trx.id = step.trx.id := HashId.str_injective <|
            (createdPaymentId_eq hbefore).symm.trans (createdPaymentId_eq hcreated)
          unfold TransactionsDistinct at hdistinct
          rw [List.map_append, List.nodup_append] at hdistinct
          exact absurd hsame
            (hdistinct.2.2 _ (List.mem_map.mpr ⟨a, ha, rfl⟩) _ (by simp))

inductive PaymentEdit (blockNum : UInt64) (trx : ProcessedTransaction) (tp : TorrentPayment) :
    TorrentPayment → Prop
  | receipted (op : TorrentReceiptOperation)
      (hop : handledOperation trx = some (.torrentReceipt op)) :
      PaymentEdit blockNum trx tp (receiptedPayment trx tp)
  | refunded (op : TorrentPaymentRefundOperation)
      (hop : handledOperation trx = some (.torrentPaymentRefund op)) :
      PaymentEdit blockNum trx tp (refundedPayment trx blockNum tp)
  | increased (op : TorrentPaymentIncreaseOperation)
      (hop : handledOperation trx = some (.torrentPaymentIncrease op))
      (hid : tp.paymentId = op.paymentId.str) :
      PaymentEdit blockNum trx tp (increasedPayment trx op tp)
  | settled (op : SettlementOperation)
      (hop : handledOperation trx = some (.settlement op))
      (payPieces : Finmap fun _ : String => UInt32) :
      PaymentEdit blockNum trx tp { tp with payPieces := payPieces }

theorem PaymentEdit.ids {blockNum : UInt64} {trx : ProcessedTransaction}
    {tp tp' : TorrentPayment} (h : PaymentEdit blockNum trx tp tp') :
    tp'.paymentId = tp.paymentId ∧ tp'.torrentId = tp.torrentId := by
  cases h <;> exact ⟨rfl, rfl⟩

/-- The plans of a transaction in a typed run: every record it starts from is
stored, as a record of its kind, under its own id. -/
inductive TypedPlan (env : Environment) (db : Database) (blockNum : UInt64)
    (trx : ProcessedTransaction) : Plan → Prop
  | skip : TypedPlan env db blockNum trx .skip
  | created (op : TorrentCreateOperation)
      (hop : handledOperation trx = some (.torrentCreate op)) :
      TypedPlan env db blockNum trx (.saveTorrent (createdTorrent trx blockNum op))
  | updated (op : TorrentUpdateOperation) (t : Torrent)
      (hop : handledOperation trx = some (.torrentUpdate op))
      (ht : db.get t.id = some (.torrent t)) :
      TypedPlan env db blockNum trx (.saveTorrent (updatedTorrent blockNum op t))
  | payed (op : TorrentPaymentOperation) (t : Torrent)
      (hop : handledOperation trx = some (.torrentPayment op))
      (hid : t.id = op.torrentId.str) (ht : db.get t.id = some (.torrent t))
      (hpieces : op.pieces ≠ 0) :
      TypedPlan env db blockNum trx
        (.savePaymentThenTorrent (createdPayment env trx blockNum op t) (payedTorrent t))
  | seltted (op : TorrentPaymentSelttementOperation) (tp : TorrentPayment) (t : Torrent)
      (hop : handledOperation trx = some (.torrentPaymentSelttement op))
      (hpid : tp.paymentId = op.paymentId.str)
      (htp : db.get tp.paymentId = some (.torrentPayment tp))
      (hid : t.id = tp.torrentId) (ht : db.get t.id = some (.torrent t)) :
      TypedPlan env db blockNum trx
        (.savePaymentThenTorrent (selttedPayment trx blockNum tp) (finishedTorrent t))
  | edited (tp tp' : TorrentPayment)
      (htp : db.get tp.paymentId = some (.torrentPayment tp))
      (hedit : PaymentEdit blockNum trx tp tp') :
      TypedPlan env db blockNum trx (.savePayment tp')

theorem Typed.typedPlan (h : Typed steps db) (hroles : RolesDisjoint (steps ++ [step]))
    {plan : Plan} (hplan : Planned env db step.blockNum step.trx plan) :
    TypedPlan env db step.blockNum step.trx plan := by
  -- A payment read by an id of the payment role is stored as such under its own id.
  have hpayment : ∀ {id : HashId} {tp : TorrentPayment}, id.str ∈ paymentIds step.trx →
      getTorrentPayment db id = some tp →
        tp.paymentId = id.str ∧ db.get tp.paymentId = some (.torrentPayment tp) := by
    intro id tp hid htp
    have hkey := h.keyIsId.getTorrentPayment_id htp
    exact ⟨hkey, hkey ▸ h.get_of_getTorrentPayment hroles hid htp⟩
  have htorrent : ∀ {key : String} {t : Torrent}, key ∈ torrentIds step.trx →
      getTorrent db key = some t → t.id = key ∧ db.get t.id = some (.torrent t) := by
    intro key t hid ht
    have hkey := h.keyIsId.getTorrent_id ht
    exact ⟨hkey, hkey ▸ h.get_of_getTorrent hroles hid ht⟩
  cases hplan with
  | skip => exact .skip
  | created op hop => exact .created op hop
  | updated op t hop ht =>
      exact .updated op t hop (htorrent (by simp [torrentIds, hop]) ht).2
  | payed op t hop ht hpieces =>
      obtain ⟨hid, hget⟩ := htorrent (by simp [torrentIds, hop]) ht
      exact .payed op t hop hid hget hpieces
  | seltted op tp t hop htp ht =>
      obtain ⟨hpid, hget⟩ := hpayment (by simp [paymentIds, hop]) htp
      -- The second key comes from the payment; its torrent is known to be stored.
      obtain ⟨t', ht'⟩ := h.paymentTorrent _ _ hget
      obtain rfl : t' = t := by
        simpa [getTorrent, ht', Message.parseTorrent] using ht
      have hid := h.keyIsId _ _ ht'
      exact .seltted op tp t' hop hpid hget hid (by rw [show t'.id = _ from hid]; exact ht')
  | receipted op tp hop htp =>
      exact .edited tp _ (hpayment (by simp [paymentIds, hop]) htp).2 (.receipted op hop)
  | refunded op tp hop htp =>
      exact .edited tp _ (hpayment (by simp [paymentIds, hop]) htp).2 (.refunded op hop)
  | increased op tp hop htp =>
      obtain ⟨hpid, hget⟩ := hpayment (by simp [paymentIds, hop]) htp
      exact .edited tp _ hget (.increased op hop hpid)
  | settled op proposal tp tp' hop hproposal htp hsettle =>
      obtain ⟨payPieces, rfl⟩ := settle_eq hsettle
      exact .edited tp _ (hpayment (by simp [paymentIds, hop, hproposal]) htp).2
        (.settled op hop payPieces)

inductive TorrentEdit (blockNum : UInt64) (t : Torrent) : Torrent → Prop
  | updated (op : TorrentUpdateOperation) : TorrentEdit blockNum t (updatedTorrent blockNum op t)
  | payed : TorrentEdit blockNum t (payedTorrent t)
  | finished : TorrentEdit blockNum t (finishedTorrent t)

variable {blockNum : UInt64} {trx : ProcessedTransaction} {plan : Plan}

theorem TypedPlan.torrent_of_mem (hplan : TypedPlan env db blockNum trx plan) {t : Torrent}
    (hmem : .torrent t ∈ plan.records) :
    (∃ op, handledOperation trx = some (.torrentCreate op) ∧
      t = createdTorrent trx blockNum op) ∨
    ∃ old, db.get t.id = some (.torrent old) ∧ TorrentEdit blockNum old t := by
  cases hplan with
  | skip => simp [Plan.records] at hmem
  | created op hop =>
      obtain rfl : t = createdTorrent trx blockNum op := by
        simpa [Plan.records] using hmem
      exact .inl ⟨op, hop, rfl⟩
  | updated op old hop hold =>
      obtain rfl : t = updatedTorrent blockNum op old := by
        simpa [Plan.records] using hmem
      exact .inr ⟨old, hold, .updated op⟩
  | payed op old hop hid hold hpieces =>
      obtain rfl : t = payedTorrent old := by simpa [Plan.records] using hmem
      exact .inr ⟨old, hold, .payed⟩
  | seltted op tp old hop hpid htp hid hold =>
      obtain rfl : t = finishedTorrent old := by simpa [Plan.records] using hmem
      exact .inr ⟨old, hold, .finished⟩
  | edited tp tp' htp hedit => simp [Plan.records] at hmem

theorem TypedPlan.payment_of_mem (hplan : TypedPlan env db blockNum trx plan)
    {tp : TorrentPayment} (hmem : .torrentPayment tp ∈ plan.records) :
    (∃ op t, handledOperation trx = some (.torrentPayment op) ∧
      db.get op.torrentId.str = some (.torrent t) ∧
        tp = createdPayment env trx blockNum op t) ∨
    ∃ old, db.get tp.paymentId = some (.torrentPayment old) ∧
      (PaymentEdit blockNum trx old tp ∨ tp = selttedPayment trx blockNum old) := by
  cases hplan with
  | skip => simp [Plan.records] at hmem
  | created op hop => simp [Plan.records] at hmem
  | updated op t hop ht => simp [Plan.records] at hmem
  | payed op t hop hid ht hpieces =>
      obtain rfl : tp = createdPayment env trx blockNum op t := by
        simpa [Plan.records] using hmem
      exact .inl ⟨op, t, hop, hid ▸ ht, rfl⟩
  | seltted op old t hop hpid hold hid ht =>
      obtain rfl : tp = selttedPayment trx blockNum old := by
        simpa [Plan.records] using hmem
      exact .inr ⟨old, hold, .inr rfl⟩
  | edited old tp' hold hedit =>
      obtain rfl : tp = tp' := by simpa [Plan.records] using hmem
      exact .inr ⟨old, hedit.ids.1 ▸ hold, .inl hedit⟩

theorem Typed.torrent_stays (h : Typed steps db) (hroles : RolesDisjoint (steps ++ [step]))
    (hplan : TypedPlan env db step.blockNum step.trx plan) {record : Message} {t : Torrent}
    (hmem : record ∈ plan.records) (ht : db.get record.key = some (.torrent t)) :
    ∃ t', record = .torrent t' := by
  cases record with
  | torrent t' => exact ⟨t', rfl⟩
  | torrentPayment tp =>
      rcases hplan.payment_of_mem hmem with ⟨op, t', hop, ht', rfl⟩ | ⟨old, hold, -⟩
      · obtain ⟨a, ha, hcreated⟩ := h.torrent _ t ht
        exact absurd (by simp [paymentIds, hop, Message.key, createdPayment])
          (hroles a (List.mem_append_left _ ha) step (by simp) _ (createdTorrentId_mem hcreated))
      · exact absurd (hold.symm.trans ht) (by simp)

theorem Typed.payment_stays (h : Typed steps db) (hroles : RolesDisjoint (steps ++ [step]))
    (hplan : TypedPlan env db step.blockNum step.trx plan) {record : Message}
    {tp : TorrentPayment} (hmem : record ∈ plan.records)
    (htp : db.get record.key = some (.torrentPayment tp)) :
    ∃ tp', record = .torrentPayment tp' := by
  cases record with
  | torrentPayment tp' => exact ⟨tp', rfl⟩
  | torrent t =>
      rcases hplan.torrent_of_mem hmem with ⟨op, hop, rfl⟩ | ⟨old, hold, -⟩
      · obtain ⟨a, ha, hcreated⟩ := h.payment _ tp htp
        exact absurd (createdPaymentId_mem hcreated)
          (hroles step (by simp) a (List.mem_append_left _ ha) _
            (by simp [torrentIds, hop, Message.key, createdTorrent]))
      · exact absurd (hold.symm.trans htp) (by simp)

section Performed

variable {s : ServerState} {puts : List Bool}

theorem Typed.torrent_kept (h : Typed steps s.db) (hroles : RolesDisjoint (steps ++ [step]))
    (hplan : TypedPlan env s.db step.blockNum step.trx plan) {key : String} {t : Torrent}
    (ht : s.db.get key = some (.torrent t)) :
    ∃ t', (perform env plan.effects puts s).db.get key = some (.torrent t') := by
  rcases @get_perform_plan env plan puts s key with hsame | ⟨record, hmem, rfl, hnew⟩
  · exact ⟨t, hsame.trans ht⟩
  · obtain ⟨t', rfl⟩ := h.torrent_stays hroles hplan hmem ht
    exact ⟨t', hnew⟩

theorem Typed.payment_kept (h : Typed steps s.db) (hroles : RolesDisjoint (steps ++ [step]))
    (hplan : TypedPlan env s.db step.blockNum step.trx plan) {key : String}
    {tp : TorrentPayment} (htp : s.db.get key = some (.torrentPayment tp)) :
    ∃ tp', (perform env plan.effects puts s).db.get key = some (.torrentPayment tp') := by
  rcases @get_perform_plan env plan puts s key with hsame | ⟨record, hmem, rfl, hnew⟩
  · exact ⟨tp, hsame.trans htp⟩
  · obtain ⟨tp', rfl⟩ := h.payment_stays hroles hplan hmem htp
    exact ⟨tp', hnew⟩

theorem TypedPlan.torrent_origin (hplan : TypedPlan env s.db blockNum trx plan) {key : String}
    {t : Torrent} (ht : (perform env plan.effects puts s).db.get key = some (.torrent t)) :
    s.db.get key = some (.torrent t) ∨
    (∃ op, handledOperation trx = some (.torrentCreate op) ∧ key = op.id.str ∧
      t = createdTorrent trx blockNum op) ∨
    ∃ old, s.db.get key = some (.torrent old) ∧ TorrentEdit blockNum old t := by
  rcases @get_perform_plan env plan puts s key with hsame | ⟨record, hmem, rfl, hnew⟩
  · exact .inl (hsame ▸ ht)
  · obtain rfl : record = .torrent t := Option.some.inj (hnew.symm.trans ht)
    rcases hplan.torrent_of_mem hmem with ⟨op, hop, rfl⟩ | hedit
    · exact .inr (.inl ⟨op, hop, rfl, rfl⟩)
    · exact .inr (.inr hedit)

theorem TypedPlan.payment_origin (hplan : TypedPlan env s.db blockNum trx plan) {key : String}
    {tp : TorrentPayment}
    (htp : (perform env plan.effects puts s).db.get key = some (.torrentPayment tp)) :
    s.db.get key = some (.torrentPayment tp) ∨
    (∃ op t, handledOperation trx = some (.torrentPayment op) ∧ key = trx.id.str ∧
      s.db.get op.torrentId.str = some (.torrent t) ∧
        tp = createdPayment env trx blockNum op t) ∨
    ∃ old, s.db.get key = some (.torrentPayment old) ∧
      (PaymentEdit blockNum trx old tp ∨ tp = selttedPayment trx blockNum old) := by
  rcases @get_perform_plan env plan puts s key with hsame | ⟨record, hmem, rfl, hnew⟩
  · exact .inl (hsame ▸ htp)
  · obtain rfl : record = .torrentPayment tp := Option.some.inj (hnew.symm.trans htp)
    rcases hplan.payment_of_mem hmem with ⟨op, t, hop, ht, rfl⟩ | hedit
    · exact .inr (.inl ⟨op, t, hop, rfl, ht, rfl⟩)
    · exact .inr (.inr hedit)

theorem Typed.performed (h : Typed steps s.db) (hroles : RolesDisjoint (steps ++ [step]))
    (hplan : TypedPlan env s.db step.blockNum step.trx plan) :
    Typed (steps ++ [step]) (perform env plan.effects step.puts s).db := by
  have hbefore : ∀ {p : Step → Prop}, (∃ a ∈ steps, p a) → ∃ a ∈ steps ++ [step], p a :=
    fun ⟨a, ha, hp⟩ => ⟨a, List.mem_append_left _ ha, hp⟩
  constructor
  case keyIsId =>
      intro key record hrecord
      rcases @get_perform_plan env plan step.puts s key with hsame | ⟨saved, hmem, hkey, hnew⟩
      · exact h.keyIsId key record (hsame ▸ hrecord)
      · exact Option.some.inj (hnew.symm.trans hrecord) ▸ hkey
  case torrent =>
      intro key t ht
      rcases hplan.torrent_origin ht with hold | ⟨op, hop, hkey, -⟩ | ⟨old, hold, -⟩
      · exact hbefore (h.torrent key t hold)
      · exact ⟨step, by simp, by simp [createdTorrentId, hop, hkey]⟩
      · exact hbefore (h.torrent key old hold)
  case payment =>
      intro key tp htp
      rcases hplan.payment_origin htp with hold | ⟨op, t, hop, hkey, -⟩ | ⟨old, hold, -⟩
      · exact hbefore (h.payment key tp hold)
      · exact ⟨step, by simp, by simp [createdPaymentId, hop, hkey]⟩
      · exact hbefore (h.payment key old hold)
  case paymentTorrent =>
      intro key tp htp
      rcases hplan.payment_origin htp with
        hold | ⟨op, t, -, -, ht, rfl⟩ | ⟨old, hold, hedit⟩
      · obtain ⟨t, ht⟩ := h.paymentTorrent key tp hold
        exact h.torrent_kept hroles hplan ht
      · exact h.torrent_kept hroles hplan ht
      · obtain ⟨t, ht⟩ := h.paymentTorrent key old hold
        have hsame : tp.torrentId = old.torrentId := by
          rcases hedit with hedit | rfl
          · exact hedit.ids.2
          · rfl
        exact hsame ▸ h.torrent_kept hroles hplan ht

end Performed

theorem typed_empty : Typed [] ServerState.empty.db := by
  constructor <;> intro key record hget <;> simp [ServerState.empty] at hget

/-- The invariant rule for runs in which the two roles are disjoint: a step is
one of the typed plans, carried out with arbitrary outcomes of its `Put`s. The
run may start where another one, of the steps `before`, has ended. -/
theorem typed_run_invariant (env : Environment) (Assumption : List Step → Prop)
    (Inv : List Step → ServerState → Prop)
    (hshorter : ∀ steps step, Assumption (steps ++ [step]) → Assumption steps)
    (hroles : ∀ steps, Assumption steps → RolesDisjoint steps)
    {before : List Step} {start : ServerState} (htyped : Typed before start.db)
    (hstart : Inv before start)
    (hstep : ∀ steps step s plan, Assumption (steps ++ [step]) → Typed steps s.db →
      Inv steps s → transactionPlan env s.db step.blockNum step.trx = .ok plan →
      TypedPlan env s.db step.blockNum step.trx plan →
        Inv (steps ++ [step]) (perform env plan.effects step.puts s))
    {steps : List Step} {s : ServerState} (hrun : Run (Handles env) start steps s)
    (hsteps : Assumption (before ++ steps)) :
    Typed (before ++ steps) s.db ∧ Inv (before ++ steps) s := by
  refine Run.invariant (fun steps => Assumption (before ++ steps))
    (fun steps s => Typed (before ++ steps) s.db ∧ Inv (before ++ steps) s) ?_ ?_ ?_ hrun hsteps
  · intro steps step h
    rw [← List.append_assoc] at h
    exact hshorter _ step h
  · rw [List.append_nil]
    exact ⟨htyped, hstart⟩
  · rintro steps step s s' hassumption - ⟨htyped, hinv⟩ hhandles
    rw [← List.append_assoc] at hassumption ⊢
    obtain ⟨plan, hplanned, rfl⟩ := handles_iff.mp hhandles
    have hdisjoint := hroles _ hassumption
    have hplan := htyped.typedPlan hdisjoint (planned_of_transactionPlan hplanned)
    exact ⟨htyped.performed hdisjoint hplan,
      hstep _ step s plan hassumption htyped hinv hplanned hplan⟩

end TorrentServer.TypedRuns
