import TorrentServer.TypedRuns

namespace TorrentServer.AuthorSplit

open TorrentServer.Records
open TorrentServer.ChainLibrary
open TorrentServer.TorrentDatabase
open TorrentServer.HandleBlock
open TorrentServer.TransactionPlans
open TorrentServer.TypedRuns
open TorrentServer.Library.Runs

/-- What chain validation guarantees of the numbers of an operation. -/
def Validated (env : Environment) (trx : ProcessedTransaction) : Prop :=
  match handledOperation trx with
  | some (.torrentCreate op) => op.percent ≤ env.torrentAuthorPercent
  | some (.torrentUpdate op) => op.percent ≤ env.torrentAuthorPercent
  | some (.torrentPayment op) => 1 ≤ op.pieces
  | _ => True

/-- The three amounts of a payment as integers: the total is cut into equal pieces,
and one piece into the author's part and the receiver's. -/
structure Split (env : Environment) (tp : TorrentPayment)
    (amount onePiece receiver : ShareType) : Prop where
  authorAmount : tp.authorAmount = amount.text
  authorOnePieceAmount : tp.authorOnePieceAmount = onePiece.text
  receiverAuthorOnePieceAmount : tp.receiverAuthorOnePieceAmount = receiver.text
  pieces_le : tp.pieces.toNat * onePiece.toNat ≤ amount.toNat
  lt_pieces : amount.toNat < tp.pieces.toNat * (onePiece.toNat + 1)
  receiver_add : receiver.toNat +
    onePiece.toNat / env.torrentAuthorPercent.toNat * tp.percent.toNat = onePiece.toNat

variable {env : Environment} {tp : TorrentPayment} {amount onePiece receiver : ShareType}

theorem Split.receiver_le (h : Split env tp amount onePiece receiver) :
    receiver.toNat ≤ onePiece.toNat := by
  have hadd := h.receiver_add
  omega

theorem Split.receivers_le (h : Split env tp amount onePiece receiver) :
    tp.pieces.toNat * receiver.toNat ≤ amount.toNat :=
  (Nat.mul_le_mul_left _ h.receiver_le).trans h.pieces_le

section Arithmetic

variable {op : TorrentPaymentOperation} {t : Torrent}

theorem toNat_setWidth (x : UInt32) : (x.toBitVec.setWidth 128).toNat = x.toNat := by
  rw [BitVec.toNat_setWidth, UInt32.toNat_toBitVec]
  exact Nat.mod_eq_of_lt (x.toNat_lt.trans (by decide))

theorem toNat_authorOnePieceAmount :
    (authorOnePieceAmount op t).toNat = (ShareType.ofText t.balance).toNat / op.pieces.toNat := by
  rw [authorOnePieceAmount, BitVec.toNat_udiv, toNat_setWidth]

/-- The author's part is at most the piece, so the product does not overflow. -/
theorem toNat_authorOnePieceAmountReal (hpercent : t.percent ≤ env.torrentAuthorPercent) :
    (authorOnePieceAmountReal env op t).toNat =
        (authorOnePieceAmount op t).toNat / env.torrentAuthorPercent.toNat * t.percent.toNat ∧
      (authorOnePieceAmountReal env op t).toNat ≤ (authorOnePieceAmount op t).toNat := by
  have hle : (authorOnePieceAmount op t).toNat / env.torrentAuthorPercent.toNat *
      t.percent.toNat ≤ (authorOnePieceAmount op t).toNat :=
    calc
      _ ≤ (authorOnePieceAmount op t).toNat / env.torrentAuthorPercent.toNat *
          env.torrentAuthorPercent.toNat :=
        Nat.mul_le_mul_left _ (UInt32.le_iff_toNat_le.mp hpercent)
      _ ≤ (authorOnePieceAmount op t).toNat := Nat.div_mul_le_self _ _
  have hreal : (authorOnePieceAmountReal env op t).toNat =
      (authorOnePieceAmount op t).toNat / env.torrentAuthorPercent.toNat * t.percent.toNat := by
    rw [authorOnePieceAmountReal, BitVec.toNat_mul, BitVec.toNat_udiv, toNat_setWidth,
      toNat_setWidth]
    exact Nat.mod_eq_of_lt (hle.trans_lt (authorOnePieceAmount op t).isLt)
  exact ⟨hreal, hreal ▸ hle⟩

theorem split_createdPayment {trx : ProcessedTransaction} {blockNum : UInt64}
    {balance : ShareType} (hbalance : t.balance = balance.text)
    (hpercent : t.percent ≤ env.torrentAuthorPercent) (hpieces : 1 ≤ op.pieces) :
    Split env (createdPayment env trx blockNum op t) balance (authorOnePieceAmount op t)
      (receiverAuthorOnePieceAmount env op t) := by
  obtain ⟨hreal, hle⟩ := @toNat_authorOnePieceAmountReal env op t hpercent
  have hpiece : (authorOnePieceAmount op t).toNat = balance.toNat / op.pieces.toNat := by
    rw [toNat_authorOnePieceAmount, hbalance, ShareType.ofText_text]
  have hpos : 0 < op.pieces.toNat := UInt32.le_iff_toNat_le.mp hpieces
  constructor
  case authorAmount => simp [createdPayment, hbalance]
  case authorOnePieceAmount => rfl
  case receiverAuthorOnePieceAmount => rfl
  case pieces_le =>
      rw [hpiece]
      exact Nat.mul_div_le _ _
  case lt_pieces =>
      rw [hpiece]
      exact Nat.lt_mul_div_succ _ hpos
  case receiver_add =>
      change (receiverAuthorOnePieceAmount env op t).toNat +
        _ / _ * t.percent.toNat = _
      have hsub : (receiverAuthorOnePieceAmount env op t).toNat =
          (authorOnePieceAmount op t).toNat - (authorOnePieceAmountReal env op t).toNat :=
        BitVec.toNat_sub_of_le (BitVec.le_def.mpr hle)
      rw [hsub, ← hreal]
      omega

end Arithmetic

def Shared (env : Environment) : Message → Prop
  | .torrent t =>
      (∃ balance : ShareType, t.balance = balance.text) ∧ t.percent ≤ env.torrentAuthorPercent
  | .torrentPayment tp => ∃ amount onePiece receiver, Split env tp amount onePiece receiver

theorem Split.edited {blockNum : UInt64} {trx : ProcessedTransaction} {tp' : TorrentPayment}
    (h : Split env tp amount onePiece receiver) (hedit : PaymentEdit blockNum trx tp tp') :
    Split env tp' amount onePiece receiver := by
  obtain ⟨hamount, hpiece, hreceiver, hle, hlt, hadd⟩ := h
  cases hedit with
  | receipted => exact ⟨hamount, hpiece, hreceiver, hle, hlt, hadd⟩
  | refunded => exact ⟨hamount, hpiece, hreceiver, hle, hlt, hadd⟩
  | increased => exact ⟨hamount, hpiece, hreceiver, hle, hlt, hadd⟩
  | settled => exact ⟨hamount, hpiece, hreceiver, hle, hlt, hadd⟩

theorem shared_of_mem {db : Database} {blockNum : UInt64} {trx : ProcessedTransaction}
    {plan : Plan} {record : Message} (hvalid : Validated env trx)
    (hdb : ∀ key stored, db.get key = some stored → Shared env stored)
    (hplan : TypedPlan env db blockNum trx plan) (hmem : record ∈ plan.records) :
    Shared env record := by
  cases hplan with
  | skip => simp [Plan.records] at hmem
  | created op hop =>
      obtain rfl : record = .torrent (createdTorrent trx blockNum op) := by
        simpa [Plan.records] using hmem
      simp only [Validated, hop] at hvalid
      exact ⟨⟨op.amount, rfl⟩, hvalid⟩
  | updated op t hop ht =>
      obtain rfl : record = .torrent (updatedTorrent blockNum op t) := by
        simpa [Plan.records] using hmem
      simp only [Validated, hop] at hvalid
      exact ⟨⟨op.amount, rfl⟩, hvalid⟩
  | payed op t hop hid ht hpieces =>
      obtain ⟨⟨balance, hbalance⟩, hpercent⟩ := hdb _ _ ht
      simp only [Validated, hop] at hvalid
      rcases List.mem_pair.mp hmem with rfl | rfl
      · exact ⟨_, _, _, split_createdPayment hbalance hpercent hvalid⟩
      · exact ⟨⟨balance, hbalance⟩, hpercent⟩
  | seltted op tp t hop hpid htp hid ht =>
      rcases List.mem_pair.mp hmem with rfl | rfl
      · obtain ⟨amount, onePiece, receiver, hsplit⟩ := hdb _ _ htp
        obtain ⟨hamount, hpiece, hreceiver, hle, hlt, hadd⟩ := hsplit
        exact ⟨amount, onePiece, receiver, hamount, hpiece, hreceiver, hle, hlt, hadd⟩
      · obtain ⟨hbalance, hpercent⟩ := hdb _ _ ht
        exact ⟨hbalance, hpercent⟩
  | edited tp tp' htp hedit =>
      obtain rfl : record = .torrentPayment tp' := by simpa [Plan.records] using hmem
      obtain ⟨amount, onePiece, receiver, hsplit⟩ := hdb _ _ htp
      exact ⟨amount, onePiece, receiver, hsplit.edited hedit⟩

variable {steps : List Step} {s : ServerState}

/-- In every reachable state, whatever was updated and whichever `Put`s failed: the
amounts of each payment are split without loss or overflow, and the receivers of
all pieces together get no more than the author's amount. -/
theorem author_split_bounded (hrun : Run (Handles env) .empty steps s)
    (hvalid : ∀ step ∈ steps, Validated env step.trx) (hroles : RolesDisjoint steps)
    (key : String) {tp : TorrentPayment} (htp : s.db.get key = some (.torrentPayment tp)) :
    ∃ amount onePiece receiver, Split env tp amount onePiece receiver ∧
      receiver.toNat ≤ onePiece.toNat ∧
        tp.pieces.toNat * receiver.toNat ≤ amount.toNat := by
  have hshared := typed_run_invariant env
    (fun steps => (∀ step ∈ steps, Validated env step.trx) ∧ RolesDisjoint steps)
    (fun _ s => ∀ key stored, s.db.get key = some stored → Shared env stored) ?_
    (fun _ h => h.2) typed_empty ?_ ?_ hrun ⟨hvalid, hroles⟩
  · obtain ⟨amount, onePiece, receiver, hsplit⟩ := hshared.2 key _ htp
    exact ⟨amount, onePiece, receiver, hsplit, hsplit.receiver_le, hsplit.receivers_le⟩
  · rintro steps step ⟨hvalid, hroles⟩
    exact ⟨fun step hstep => hvalid step (List.mem_append_left _ hstep), hroles.of_append⟩
  · intro key stored hget
    simp [ServerState.empty] at hget
  · rintro steps step s plan ⟨hvalid, -⟩ - hdb - hplan key stored hget
    rcases @get_perform_plan env plan step.puts s key with hsame | ⟨record, hmem, -, hnew⟩
    · exact hdb key stored (hsame ▸ hget)
    · obtain rfl : record = stored := Option.some.inj (hnew.symm.trans hget)
      exact shared_of_mem (hvalid step (by simp)) hdb hplan hmem

theorem sample_author_split_bounded :
    ∃ s tp, Run (Handles .oneAsset) .empty [sampleCreate, samplePayment] s ∧
      s.db.get samplePayment.trx.id.str = some (.torrentPayment tp) ∧
      ∃ amount onePiece receiver, Split .oneAsset tp amount onePiece receiver ∧
        receiver.toNat ≤ onePiece.toNat ∧
          tp.pieces.toNat * receiver.toNat ≤ amount.toNat := by
  have hrun : Run (Handles .oneAsset) .empty [sampleCreate, samplePayment] _ :=
    run_iff_foldlM.mpr rfl
  have hvalid : ∀ step ∈ [sampleCreate, samplePayment], Validated .oneAsset step.trx := by
    simp only [List.forall_mem_cons]
    exact ⟨(by decide : (10 : UInt32) ≤ 100), (by decide : (1 : UInt32) ≤ 10), by simp⟩
  refine ⟨_, _, hrun, rfl, ?_⟩
  exact author_split_bounded hrun hvalid (by decide) samplePayment.trx.id.str rfl

end TorrentServer.AuthorSplit
