import TorrentServer.TypedRuns

namespace TorrentServer.Counters

open TorrentServer.Records
open TorrentServer.ChainLibrary
open TorrentServer.TorrentDatabase
open TorrentServer.HandleBlock
open TorrentServer.TransactionPlans
open TorrentServer.TypedRuns
open TorrentServer.Library.KeyValueStore
open TorrentServer.Library.Runs

def isPaymentFor (id : String) : Message → Bool
  | .torrentPayment tp => decide (tp.torrentId = id)
  | .torrent _ => false

def isSelttedPaymentFor (id : String) : Message → Bool
  | .torrentPayment tp => decide (tp.torrentId = id) && tp.isSelttement
  | .torrent _ => false

def selttementId (trx : ProcessedTransaction) : Option String :=
  match handledOperation trx with
  | some (.torrentPaymentSelttement op) => some op.paymentId.str
  | _ => none

def SelttedOnce (steps : List Step) : Prop :=
  (steps.filterMap fun step => selttementId step.trx).Nodup

instance (steps : List Step) : Decidable (SelttedOnce steps) :=
  inferInstanceAs (Decidable (List.Nodup _))

def PutsSucceed (steps : List Step) : Prop :=
  ∀ step ∈ steps, ∀ i, putOutcome step.puts i = true

/-- The counters and what they count, and that a payment is marked only after it
has been named. -/
structure Counted (steps : List Step) (db : Database) : Prop where
  payTimes : ∀ id t, db.get id = some (.torrent t) →
    t.payTimes = UInt32.ofNat (db.count (isPaymentFor id))
  finishTimes : ∀ id t, db.get id = some (.torrent t) →
    t.finishTimes = UInt32.ofNat (db.count (isSelttedPaymentFor id))
  named : ∀ key tp, db.get key = some (.torrentPayment tp) → tp.isSelttement = true →
    key ∈ steps.filterMap fun step => selttementId step.trx

variable {env : Environment} {db : Database} {steps : List Step} {step : Step}

theorem count_save_torrent {p : Message → Bool} {t : Torrent} (hp : p (.torrent t) = false)
    (hkey : (db.get t.id).any p = false) :
    (saveOrUpdate db (.torrent t) true).count p = db.count p := by
  have hcount := db.count_put p t.id (.torrent t)
  rw [hkey, hp] at hcount
  exact hcount

theorem count_save_payment {p : Message → Bool} {tp : TorrentPayment} {n : Nat}
    (hmove : (p (.torrentPayment tp)).toNat = ((db.get tp.paymentId).any p).toNat + n) :
    (saveOrUpdate db (.torrentPayment tp) true).count p = db.count p + n := by
  have hcount := db.count_put p tp.paymentId (.torrentPayment tp)
  change (db.put tp.paymentId (.torrentPayment tp) true).count p = _
  omega

/-- The invariant is kept where the counters of every torrent move by as much as
the counts do. -/
theorem Counted.of_moves {db' : Database} (h : Counted steps db) (pay finish : String → Nat)
    (htorrent : ∀ id t', db'.get id = some (.torrent t') →
      ∃ t, db.get id = some (.torrent t) ∧
        t'.payTimes = t.payTimes + UInt32.ofNat (pay id) ∧
        t'.finishTimes = t.finishTimes + UInt32.ofNat (finish id))
    (hpay : ∀ id, db'.count (isPaymentFor id) = db.count (isPaymentFor id) + pay id)
    (hfinish : ∀ id, db'.count (isSelttedPaymentFor id) =
      db.count (isSelttedPaymentFor id) + finish id)
    (hnamed : ∀ key tp', db'.get key = some (.torrentPayment tp') → tp'.isSelttement = true →
      (∃ tp, db.get key = some (.torrentPayment tp) ∧ tp.isSelttement = true) ∨
        selttementId step.trx = some key) :
    Counted (steps ++ [step]) db' := by
  constructor
  case payTimes =>
      intro id t' ht'
      obtain ⟨t, ht, hmoved, -⟩ := htorrent id t' ht'
      rw [hmoved, hpay, h.payTimes id t ht, UInt32.ofNat_add]
  case finishTimes =>
      intro id t' ht'
      obtain ⟨t, ht, -, hmoved⟩ := htorrent id t' ht'
      rw [hmoved, hfinish, h.finishTimes id t ht, UInt32.ofNat_add]
  case named =>
      intro key tp' htp' hset
      rw [List.filterMap_append]
      rcases hnamed key tp' htp' hset with ⟨tp, htp, hbefore⟩ | hnow
      · exact List.mem_append_left _ (h.named key tp htp hbefore)
      · exact List.mem_append_right _ (List.mem_filterMap.mpr ⟨step, by simp, hnow⟩)

theorem Counted.save_torrent (h : Counted steps db) {t t' : Torrent}
    (ht : db.get t'.id = some (.torrent t)) (hpay : t'.payTimes = t.payTimes)
    (hfinish : t'.finishTimes = t.finishTimes) :
    Counted (steps ++ [step]) (saveOrUpdate db (.torrent t') true) := by
  refine h.of_moves (fun _ => 0) (fun _ => 0) ?_ ?_ ?_ ?_
  · intro id saved hsaved
    rw [get_saveOrUpdate] at hsaved
    split at hsaved
    · rename_i hid
      cases hsaved
      exact ⟨t, hid ▸ ht, by simpa using hpay, by simpa using hfinish⟩
    · exact ⟨saved, hsaved, by simp, by simp⟩
  · intro id
    exact count_save_torrent rfl (by rw [ht]; rfl)
  · intro id
    exact count_save_torrent rfl (by rw [ht]; rfl)
  · intro key tp htp hset
    rw [get_saveOrUpdate] at htp
    split at htp
    · cases htp
    · exact .inl ⟨tp, htp, hset⟩

theorem PaymentEdit.isSelttement_eq {blockNum : UInt64} {trx : ProcessedTransaction}
    {tp tp' : TorrentPayment} (h : PaymentEdit blockNum trx tp tp') :
    tp'.isSelttement = tp.isSelttement := by
  cases h <;> rfl

theorem Counted.save_payment (h : Counted steps db) {tp tp' : TorrentPayment}
    (htp : db.get tp'.paymentId = some (.torrentPayment tp))
    (htorrent : tp'.torrentId = tp.torrentId) (hset : tp'.isSelttement = tp.isSelttement) :
    Counted (steps ++ [step]) (saveOrUpdate db (.torrentPayment tp') true) := by
  refine h.of_moves (fun _ => 0) (fun _ => 0) ?_ ?_ ?_ ?_
  · intro id t ht
    rw [get_saveOrUpdate] at ht
    split at ht
    · cases ht
    · exact ⟨t, ht, by simp, by simp⟩
  · intro id
    exact count_save_payment (by simp [htp, isPaymentFor, htorrent])
  · intro id
    exact count_save_payment (by simp [htp, isSelttedPaymentFor, htorrent, hset])
  · intro key saved hsaved hmark
    rw [get_saveOrUpdate] at hsaved
    split at hsaved
    · rename_i hkey
      cases hsaved
      exact .inl ⟨tp, hkey ▸ htp, hset ▸ hmark⟩
    · exact .inl ⟨saved, hsaved, hmark⟩

theorem count_isSelttedPaymentFor_le (db : Database) (id : String) :
    db.count (isSelttedPaymentFor id) ≤ db.count (isPaymentFor id) := by
  refine db.count_le_count fun record hrecord => ?_
  cases record with
  | torrent t => exact hrecord
  | torrentPayment tp =>
      rw [isSelttedPaymentFor, Bool.and_eq_true] at hrecord
      exact hrecord.1

theorem count_isPaymentFor_free (htyped : Typed steps db) {id : String}
    (hfree : db.get id = none) : db.count (isPaymentFor id) = 0 := by
  refine Store.count_eq_zero fun key record hrecord => ?_
  cases record with
  | torrent t => rfl
  | torrentPayment tp =>
      obtain ⟨t, ht⟩ := htyped.paymentTorrent key tp hrecord
      refine decide_eq_false fun hid => ?_
      rw [hid, hfree] at ht
      cases ht

theorem Counted.save_created (h : Counted steps db) (htyped : Typed steps db) {t : Torrent}
    (hfree : db.get t.id = none) (hpay : t.payTimes = 0) (hfinish : t.finishTimes = 0) :
    Counted (steps ++ [step]) (saveOrUpdate db (.torrent t) true) := by
  have hsame : ∀ p : Message → Bool, p (.torrent t) = false →
      (saveOrUpdate db (.torrent t) true).count p = db.count p := fun p hp =>
    count_save_torrent hp (by rw [hfree]; rfl)
  have hpayZero := count_isPaymentFor_free htyped hfree
  have hfinishZero := Nat.le_zero.mp (hpayZero ▸ count_isSelttedPaymentFor_le db t.id)
  constructor
  case payTimes =>
      intro id saved hsaved
      rw [hsame _ rfl]
      rw [get_saveOrUpdate] at hsaved
      split at hsaved
      · rename_i hid
        cases hsaved
        obtain rfl : id = t.id := hid
        rw [hpay, hpayZero]
        rfl
      · exact h.payTimes id saved hsaved
  case finishTimes =>
      intro id saved hsaved
      rw [hsame _ rfl]
      rw [get_saveOrUpdate] at hsaved
      split at hsaved
      · rename_i hid
        cases hsaved
        obtain rfl : id = t.id := hid
        rw [hfinish, hfinishZero]
        rfl
      · exact h.finishTimes id saved hsaved
  case named =>
      intro key tp htp hset
      rw [get_saveOrUpdate] at htp
      split at htp
      · cases htp
      · rw [List.filterMap_append]
        exact List.mem_append_left _ (h.named key tp htp hset)

theorem Counted.save_pair (h : Counted steps db) {tp : TorrentPayment} {t t' : Torrent}
    (pay finish : Nat) (ht : db.get t'.id = some (.torrent t))
    (hne : t'.id ≠ tp.paymentId)
    (hpay : t'.payTimes = t.payTimes + UInt32.ofNat pay)
    (hfinish : t'.finishTimes = t.finishTimes + UInt32.ofNat finish)
    (hpayMove : ∀ id, (isPaymentFor id (.torrentPayment tp)).toNat =
      ((db.get tp.paymentId).any (isPaymentFor id)).toNat + if id = t'.id then pay else 0)
    (hfinishMove : ∀ id, (isSelttedPaymentFor id (.torrentPayment tp)).toNat =
      ((db.get tp.paymentId).any (isSelttedPaymentFor id)).toNat +
        if id = t'.id then finish else 0)
    (hnamed : tp.isSelttement = true → selttementId step.trx = some tp.paymentId) :
    Counted (steps ++ [step])
      (saveOrUpdate (saveOrUpdate db (.torrentPayment tp) true) (.torrent t') true) := by
  have hthere : (saveOrUpdate db (.torrentPayment tp) true).get t'.id = some (.torrent t) :=
    (get_saveOrUpdate_of_ne db _ true hne).trans ht
  refine h.of_moves (fun id => if id = t'.id then pay else 0)
    (fun id => if id = t'.id then finish else 0) ?_ ?_ ?_ ?_
  · intro id saved hsaved
    rw [get_saveOrUpdate] at hsaved
    split at hsaved
    · rename_i hkey
      cases hsaved
      obtain rfl : id = t'.id := hkey
      exact ⟨t, ht, by simpa using hpay, by simpa using hfinish⟩
    · rename_i hkey
      rw [get_saveOrUpdate] at hsaved
      split at hsaved
      · cases hsaved
      · have hother : id ≠ t'.id := hkey
        exact ⟨saved, hsaved, by simp [hother], by simp [hother]⟩
  · intro id
    rw [count_save_torrent rfl (by rw [hthere]; rfl), count_save_payment (hpayMove id)]
  · intro id
    rw [count_save_torrent rfl (by rw [hthere]; rfl), count_save_payment (hfinishMove id)]
  · intro key saved hsaved hmark
    rw [get_saveOrUpdate] at hsaved
    split at hsaved
    · cases hsaved
    · rw [get_saveOrUpdate] at hsaved
      split at hsaved
      · rename_i hkey
        cases hsaved
        exact .inr (by rw [hnamed hmark, hkey]; rfl)
      · exact .inl ⟨saved, hsaved, hmark⟩

theorem Counted.not_marked (h : Counted steps db) (honce : SelttedOnce (steps ++ [step]))
    {key : String} {tp : TorrentPayment} (htp : db.get key = some (.torrentPayment tp))
    (hnamed : selttementId step.trx = some key) : tp.isSelttement = false := by
  refine Bool.eq_false_iff.mpr fun hmark => ?_
  unfold SelttedOnce at honce
  rw [List.filterMap_append, List.nodup_append] at honce
  exact honce.2.2 key (h.named key tp htp hmark) key
    (List.mem_filterMap.mpr ⟨step, by simp, hnamed⟩) rfl

theorem Counted.performed {s : ServerState} {plan : Plan} (h : Counted steps s.db)
    (htyped : Typed steps s.db) (hcreated : TorrentsCreatedOnce (steps ++ [step]))
    (hdistinct : TransactionsDistinct (steps ++ [step]))
    (hroles : RolesDisjoint (steps ++ [step])) (hseltted : SelttedOnce (steps ++ [step]))
    (hputs : ∀ i, putOutcome step.puts i = true)
    (hplan : TypedPlan env s.db step.blockNum step.trx plan) :
    Counted (steps ++ [step]) (perform env plan.effects step.puts s).db := by
  rw [perform_db_of_success env plan step.puts s hputs]
  cases hplan with
  | skip =>
      refine h.of_moves (fun _ => 0) (fun _ => 0) ?_ (fun _ => rfl) (fun _ => rfl) ?_
      · exact fun id t ht => ⟨t, ht, by simp, by simp⟩
      · exact fun key tp htp hmark => .inl ⟨tp, htp, hmark⟩
  | created op hop =>
      have hfree : s.db.get op.id.str = none :=
        htyped.get_createdTorrentId hroles hcreated (by simp [createdTorrentId, hop])
      exact h.save_created htyped hfree rfl rfl
  | updated op t hop ht => exact h.save_torrent ht rfl rfl
  | edited tp tp' htp hedit =>
      exact h.save_payment (hedit.ids.1 ▸ htp) hedit.ids.2 (PaymentEdit.isSelttement_eq hedit)
  | payed op t hop hid ht hpieces =>
      have hfree : s.db.get step.trx.id.str = none :=
        htyped.get_createdPaymentId hroles hdistinct (by simp [createdPaymentId, hop])
      have hthere : s.db.get (payedTorrent t).id = some (.torrent t) := ht
      have hfor : op.torrentId.str = (payedTorrent t).id := hid.symm
      refine h.save_pair 1 0 hthere ?_ rfl (by simp [payedTorrent]) ?_ ?_ (by simp [createdPayment])
      · rintro hsame
        rw [hsame] at hthere
        exact absurd (hfree.symm.trans hthere) (by simp)
      · intro id
        simp only [createdPayment, hfree, isPaymentFor, hfor]
        by_cases hsame : id = (payedTorrent t).id
        · simp [hsame]
        · simp [hsame, Ne.symm hsame]
      · intro id
        simp [createdPayment, hfree, isSelttedPaymentFor]
  | seltted op tp t hop hpid htp hid ht =>
      have hnamed : selttementId step.trx = some tp.paymentId := by
        simp [selttementId, hop, hpid]
      have hmark := h.not_marked hseltted htp hnamed
      have hthere : s.db.get (finishedTorrent t).id = some (.torrent t) := ht
      have hfor : tp.torrentId = (finishedTorrent t).id := hid.symm
      have hstored : s.db.get (selttedPayment step.trx step.blockNum tp).paymentId =
        some (.torrentPayment tp) := htp
      refine h.save_pair 0 1 hthere ?_ (by simp [finishedTorrent]) rfl ?_ ?_ (fun _ => hnamed)
      · intro hsame
        rw [hsame, hstored] at hthere
        cases hthere
      · intro id
        rw [hstored]
        split <;> rfl
      · intro id
        rw [hstored]
        simp only [isSelttedPaymentFor, selttedPayment, hfor, hmark, Option.any_some]
        by_cases hsame : id = (finishedTorrent t).id
        · simp [hsame]
        · simp [hsame, Ne.symm hsame]

theorem SelttedOnce.of_append {more : List Step} (h : SelttedOnce (steps ++ more)) :
    SelttedOnce steps := by
  unfold SelttedOnce at h
  rw [List.filterMap_append] at h
  exact h.of_append_left

theorem PutsSucceed.of_append {more : List Step} (h : PutsSucceed (steps ++ more)) :
    PutsSucceed steps :=
  fun step hstep => h step (List.mem_append_left _ hstep)

theorem counted_of_run {s : ServerState} (hrun : Run (Handles env) .empty steps s)
    (hputs : PutsSucceed steps) (hcreated : TorrentsCreatedOnce steps)
    (hdistinct : TransactionsDistinct steps) (hroles : RolesDisjoint steps)
    (hseltted : SelttedOnce steps) : Typed steps s.db ∧ Counted steps s.db := by
  refine typed_run_invariant env
    (fun steps => PutsSucceed steps ∧ TorrentsCreatedOnce steps ∧ TransactionsDistinct steps ∧
      RolesDisjoint steps ∧ SelttedOnce steps)
    (fun steps s => Counted steps s.db) ?_ ?_ typed_empty ?_ ?_ hrun
    ⟨hputs, hcreated, hdistinct, hroles, hseltted⟩
  · rintro steps step ⟨hputs, hcreated, hdistinct, hroles, hseltted⟩
    exact ⟨hputs.of_append, hcreated.of_append, hdistinct.of_append, hroles.of_append,
      hseltted.of_append⟩
  · exact fun steps h => h.2.2.2.1
  · constructor <;> intro key record hget <;> simp [ServerState.empty] at hget
  · rintro steps step s plan ⟨hputs, hcreated, hdistinct, hroles, hseltted⟩ htyped h - hplan
    exact h.performed htyped hcreated hdistinct hroles hseltted (hputs step (by simp)) hplan

/-- The counters of every stored torrent are exact, as long as the payments for it
can be counted in 32 bits. -/
theorem counters_exact {s : ServerState} (hrun : Run (Handles env) .empty steps s)
    (hputs : PutsSucceed steps) (hcreated : TorrentsCreatedOnce steps)
    (hdistinct : TransactionsDistinct steps) (hroles : RolesDisjoint steps)
    (hseltted : SelttedOnce steps) (key : String) {t : Torrent}
    (ht : s.db.get key = some (.torrent t))
    (hcount : s.db.count (isPaymentFor t.id) < 2 ^ 32) :
    t.payTimes.toNat = s.db.count (isPaymentFor t.id) ∧
      t.finishTimes.toNat = s.db.count (isSelttedPaymentFor t.id) ∧
      t.finishTimes ≤ t.payTimes := by
  obtain ⟨htyped, h⟩ := counted_of_run hrun hputs hcreated hdistinct hroles hseltted
  obtain rfl : t.id = key := htyped.keyIsId key _ ht
  have hle := count_isSelttedPaymentFor_le s.db t.id
  have hpay : t.payTimes.toNat = s.db.count (isPaymentFor t.id) := by
    rw [h.payTimes _ t ht]
    exact UInt32.toNat_ofNat_of_lt' hcount
  have hfinish : t.finishTimes.toNat = s.db.count (isSelttedPaymentFor t.id) := by
    rw [h.finishTimes _ t ht]
    exact UInt32.toNat_ofNat_of_lt' (hle.trans_lt hcount)
  refine ⟨hpay, hfinish, UInt32.le_iff_toNat_le.mpr ?_⟩
  rw [hpay, hfinish]
  exact hle

theorem sample_counters_exact :
    ∃ s t, Run (Handles .oneAsset) .empty [sampleCreate, samplePayment] s ∧
      s.db.get sampleCreateOperation.id.str = some (.torrent t) ∧
      t.payTimes.toNat = s.db.count (isPaymentFor t.id) ∧
      t.finishTimes.toNat = s.db.count (isSelttedPaymentFor t.id) ∧
      t.finishTimes ≤ t.payTimes := by
  have hrun : Run (Handles .oneAsset) .empty [sampleCreate, samplePayment] _ :=
    run_iff_foldlM.mpr rfl
  refine ⟨_, _, hrun, rfl, ?_⟩
  exact counters_exact hrun (by simp [PutsSucceed, sampleCreate, samplePayment, putOutcome])
    (by decide) (by decide) (by decide) (by decide) sampleCreateOperation.id.str
    rfl (by decide)

end TorrentServer.Counters
