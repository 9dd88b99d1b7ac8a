import Mathlib.Data.UInt
import TorrentServer.TypedRuns

namespace TorrentServer.PaidAmounts

open TorrentServer.Records
open TorrentServer.ChainLibrary
open TorrentServer.TorrentDatabase
open TorrentServer.HandleBlock
open TorrentServer.TransactionPlans
open TorrentServer.TypedRuns
open TorrentServer.Library.KeyValueStore
open TorrentServer.Library.Runs

def increaseOf (trx : ProcessedTransaction) : Option TorrentPaymentIncreaseOperation :=
  match handledOperation trx with
  | some (.torrentPaymentIncrease op) => some op
  | _ => none

/-- The increase a step saves for the payment `key`: the payment is there and the
`Put` succeeds. -/
def savedIncrease (s : ServerState) (key : String) (step : Step) :
    Option (String × TorrentPaymentIncreaseOperation) :=
  match increaseOf step.trx with
  | none => none
  | some op =>
      if op.paymentId.str = key ∧ hasTorrentPayment s.db key = true ∧
          putOutcome step.puts 0 = true then
        some (step.trx.id.str, op)
      else none

/-- All increases a run from `s` saves for the payment `key`, with the ids of their
transactions. -/
def savedIncreases (env : Environment) (key : String) :
    ServerState → List Step → List (String × TorrentPaymentIncreaseOperation)
  | _, [] => []
  | s, step :: rest =>
      match handleTransaction env s step with
      | .error _ => []
      | .ok s' => (savedIncrease s key step).toList ++ savedIncreases env key s' rest

def increasesIn (steps : List Step) (ids : Finmap fun _ : String => String) :
    List TorrentPaymentIncreaseOperation :=
  steps.filterMap fun step =>
    if step.trx.id.str ∈ ids then increaseOf step.trx else none

variable {env : Environment} {key : String} {steps : List Step} {step : Step}
  {s s' : ServerState}

theorem savedIncreases_snoc {start : ServerState} (hrun : Run (Handles env) start steps s)
    (hstep : Handles env s step s') :
    savedIncreases env key start (steps ++ [step]) =
      savedIncreases env key start steps ++ (savedIncrease s key step).toList := by
  rw [run_iff_foldlM] at hrun
  induction steps generalizing start with
  | nil =>
      obtain rfl : start = s := by simpa [pure, Except.pure] using hrun
      simp only [List.nil_append, savedIncreases,
        show handleTransaction env start step = _ from hstep]
      simp
  | cons first rest ih =>
      rw [List.foldlM_cons] at hrun
      cases hfirst : handleTransaction env start first with
      | error fault =>
          rw [hfirst] at hrun
          cases hrun
      | ok next =>
          rw [hfirst] at hrun
          simp only [List.cons_append, savedIncreases, hfirst, ih hrun, List.append_assoc]

theorem increaseOf_of_savedIncrease {id : String} {op : TorrentPaymentIncreaseOperation}
    (h : savedIncrease s key step = some (id, op)) :
    increaseOf step.trx = some op ∧ id = step.trx.id.str ∧ op.paymentId.str = key ∧
      hasTorrentPayment s.db key = true ∧ putOutcome step.puts 0 = true := by
  unfold savedIncrease at h
  split at h
  · cases h
  · rename_i found hfound
    split at h
    · rename_i hsaved
      cases h
      exact ⟨hfound, rfl, hsaved⟩
    · cases h

theorem mem_savedIncreases {start : ServerState} {id : String}
    {op : TorrentPaymentIncreaseOperation}
    (h : (id, op) ∈ savedIncreases env key start steps) :
    ∃ a ∈ steps, a.trx.id.str = id := by
  induction steps generalizing start with
  | nil => simp [savedIncreases] at h
  | cons first rest ih =>
      unfold savedIncreases at h
      split at h
      · simp at h
      · rcases List.mem_append.mp h with hnow | hlater
        · have hid := (increaseOf_of_savedIncrease (Option.mem_toList.mp hnow)).2.1
          exact ⟨first, by simp, hid.symm⟩
        · obtain ⟨a, ha, hid⟩ := ih hlater
          exact ⟨a, List.mem_cons_of_mem _ ha, hid⟩

structure Paid (env : Environment) (steps : List Step) (key : String) (tp : TorrentPayment) :
    Prop where
  amounts : ∃ a ∈ steps, ∃ op, handledOperation a.trx = some (.torrentPayment op) ∧
    a.trx.id.str = key ∧
    tp.paymentAmount = (op.amount + total tp.increaseTrx ShareType.ofText).text ∧
    tp.payedPieces = op.payedPieces + ((increasesIn steps tp.increaseTrx).map (·.pieces)).sum
  entries : ∀ id amount, tp.increaseTrx.lookup id = some amount ↔
    ∃ op, (id, op) ∈ savedIncreases env key .empty steps ∧ amount = op.amount.text

theorem Paid.fresh {tp : TorrentPayment} (h : Paid env steps key tp)
    (hdistinct : TransactionsDistinct (steps ++ [step])) :
    step.trx.id.str ∉ tp.increaseTrx := by
  intro hmem
  obtain ⟨amount, hamount⟩ := Finmap.mem_iff.mp hmem
  obtain ⟨op, hop, -⟩ := (h.entries _ amount).mp hamount
  obtain ⟨a, ha, hid⟩ := mem_savedIncreases hop
  unfold TransactionsDistinct at hdistinct
  rw [List.map_append, List.nodup_append] at hdistinct
  exact hdistinct.2.2 _ (List.mem_map_of_mem ha) _ (by simp) (HashId.str_injective hid)

theorem increasesIn_snoc_of_not_mem {ids : Finmap fun _ : String => String}
    (hfresh : step.trx.id.str ∉ ids) :
    increasesIn (steps ++ [step]) ids = increasesIn steps ids := by
  simp [increasesIn, hfresh]

theorem increasesIn_snoc_insert {ids : Finmap fun _ : String => String}
    {op : TorrentPaymentIncreaseOperation} (amount : String)
    (hdistinct : TransactionsDistinct (steps ++ [step])) (hop : increaseOf step.trx = some op) :
    increasesIn (steps ++ [step]) (ids.insert step.trx.id.str amount) =
      increasesIn steps ids ++ [op] := by
  unfold TransactionsDistinct at hdistinct
  rw [List.map_append, List.nodup_append] at hdistinct
  have hearlier : increasesIn steps (ids.insert step.trx.id.str amount) =
      increasesIn steps ids := by
    refine List.filterMap_congr fun a ha => ?_
    have hne : a.trx.id.str ≠ step.trx.id.str := fun hsame =>
      hdistinct.2.2 _ (List.mem_map_of_mem ha) _ (by simp) (HashId.str_injective hsame)
    simp [hne]
  rw [← hearlier]
  simp [increasesIn, hop]

theorem Paid.increased {tp : TorrentPayment} {op : TorrentPaymentIncreaseOperation}
    (h : Paid env steps key tp) (hdistinct : TransactionsDistinct (steps ++ [step]))
    (hop : increaseOf step.trx = some op)
    (hsaved : savedIncreases env key .empty (steps ++ [step]) =
      savedIncreases env key .empty steps ++ [(step.trx.id.str, op)]) :
    Paid env (steps ++ [step]) key (increasedPayment step.trx op tp) := by
  have hfresh := h.fresh hdistinct
  constructor
  case amounts =>
      obtain ⟨a, ha, created, hcreated, hkey, hamount, hpieces⟩ := h.amounts
      refine ⟨a, List.mem_append_left _ ha, created, hcreated, hkey, ?_, ?_⟩
      · simp only [increasedPayment]
        rw [total_insert _ _ _ hfresh, hamount, ShareType.ofText_text, ShareType.ofText_text,
          add_assoc]
      · simp only [increasedPayment]
        rw [increasesIn_snoc_insert _ hdistinct hop, hpieces, List.map_append, List.sum_append,
          UInt32.add_assoc]
        simp
  case entries =>
      intro id amount
      simp only [increasedPayment, hsaved, List.mem_append, List.mem_singleton]
      by_cases hid : id = step.trx.id.str
      · -- The new entry: the transaction was not in the history before.
        have hnone : ∀ op', (id, op') ∉ savedIncreases env key .empty steps := by
          intro op' hmem
          refine hfresh (Finmap.mem_iff.mpr ⟨op'.amount.text, ?_⟩)
          exact hid ▸ (h.entries id _).mpr ⟨op', hmem, rfl⟩
        rw [hid, Finmap.lookup_insert]
        simp [← hid, hnone, eq_comm]
      · rw [Finmap.lookup_insert_of_ne _ hid, h.entries]
        simp [hid]

theorem Paid.same {tp tp' : TorrentPayment} (h : Paid env steps key tp)
    (hdistinct : TransactionsDistinct (steps ++ [step]))
    (hamount : tp'.paymentAmount = tp.paymentAmount) (hpieces : tp'.payedPieces = tp.payedPieces)
    (htrx : tp'.increaseTrx = tp.increaseTrx)
    (hsaved : savedIncreases env key .empty (steps ++ [step]) =
      savedIncreases env key .empty steps) :
    Paid env (steps ++ [step]) key tp' := by
  constructor
  case amounts =>
      obtain ⟨a, ha, op, hop, hkey, hcreated⟩ := h.amounts
      refine ⟨a, List.mem_append_left _ ha, op, hop, hkey, ?_⟩
      rw [hamount, hpieces, htrx, increasesIn_snoc_of_not_mem (h.fresh hdistinct)]
      exact hcreated
  case entries =>
      rw [htrx, hsaved]
      exact h.entries

theorem paid_created {op : TorrentPaymentOperation} {t : Torrent}
    (hop : handledOperation step.trx = some (.torrentPayment op))
    (hkey : key = step.trx.id.str)
    (hsaved : savedIncreases env key .empty (steps ++ [step]) = []) :
    Paid env (steps ++ [step]) key (createdPayment env step.trx step.blockNum op t) := by
  constructor
  case amounts =>
      refine ⟨step, by simp, op, hop, hkey.symm, ?_, ?_⟩
      · simp [createdPayment]
      · have hnone : increasesIn (steps ++ [step]) ∅ = [] :=
          List.filterMap_eq_nil_iff.mpr fun a _ => if_neg Finmap.notMem_empty
        simp [createdPayment, hnone]
  case entries => simp [createdPayment, hsaved]

/-- The accounts of all stored payments; where nothing is stored yet, no increase
has been saved. -/
structure Accounts (env : Environment) (steps : List Step) (db : Database) : Prop where
  paid : ∀ key tp, db.get key = some (.torrentPayment tp) → Paid env steps key tp
  free : ∀ key, db.get key = none → savedIncreases env key .empty steps = []

theorem savedIncrease_of_free (hfree : s.db.get key = none) :
    savedIncrease s key step = none := by
  cases hsaved : savedIncrease s key step with
  | none => rfl
  | some saved =>
      obtain ⟨-, -, -, hhas, -⟩ := increaseOf_of_savedIncrease hsaved
      simp [hasTorrentPayment, hfree] at hhas

theorem handledOperation_of_increaseOf {trx : ProcessedTransaction}
    {op : TorrentPaymentIncreaseOperation} (h : increaseOf trx = some op) :
    handledOperation trx = some (.torrentPaymentIncrease op) := by
  unfold increaseOf at h
  split at h
  · cases h
    assumption
  · cases h

theorem perform_of_savedIncrease {plan : Plan} {id : String} {tp : TorrentPayment}
    {op : TorrentPaymentIncreaseOperation}
    (hsaved : savedIncrease s key step = some (id, op))
    (htp : s.db.get key = some (.torrentPayment tp))
    (hplan : transactionPlan env s.db step.blockNum step.trx = .ok plan) :
    (perform env plan.effects step.puts s).db =
      saveOrUpdate s.db (.torrentPayment (increasedPayment step.trx op tp)) true := by
  obtain ⟨hincrease, -, rfl, -, hput⟩ := increaseOf_of_savedIncrease hsaved
  have hread : getTorrentPayment s.db op.paymentId = some tp := by
    simp [getTorrentPayment, htp, Message.parseTorrentPayment]
  simp only [transactionPlan, handledOperation_of_increaseOf hincrease, hread] at hplan
  cases hplan
  simp [Plan.effects, perform_single, hput]

theorem account_of_not_saved {plan : Plan} {tp : TorrentPayment} (hkeys : KeyIsId s.db)
    (hsaved : savedIncrease s key step = none)
    (hplan : TypedPlan env s.db step.blockNum step.trx plan)
    (htp : (perform env plan.effects step.puts s).db.get key = some (.torrentPayment tp)) :
    (∃ old, s.db.get key = some (.torrentPayment old) ∧
      tp.paymentAmount = old.paymentAmount ∧ tp.payedPieces = old.payedPieces ∧
        tp.increaseTrx = old.increaseTrx) ∨
    ∃ op t, handledOperation step.trx = some (.torrentPayment op) ∧ key = step.trx.id.str ∧
      tp = createdPayment env step.trx step.blockNum op t := by
  cases hput : putOutcome step.puts 0 with
  | false =>
      rw [perform_of_first_failed plan s hput] at htp
      exact .inl ⟨tp, htp, rfl, rfl, rfl⟩
  | true =>
      rcases hplan.payment_origin htp with
        hold | ⟨op, t, hop, hkey, -, hcreated⟩ | ⟨old, hold, hedit | rfl⟩
      · exact .inl ⟨tp, hold, rfl, rfl, rfl⟩
      · exact .inr ⟨op, t, hop, hkey, hcreated⟩
      · cases hedit with
        | receipted => exact .inl ⟨old, hold, rfl, rfl, rfl⟩
        | refunded => exact .inl ⟨old, hold, rfl, rfl, rfl⟩
        | settled => exact .inl ⟨old, hold, rfl, rfl, rfl⟩
        | increased op hop hid =>
            -- This increase was saved, against the assumption.
            have hkey : op.paymentId.str = key := hid.symm.trans (hkeys key _ hold)
            simp [savedIncrease, increaseOf, hop, hkey, hasTorrentPayment, hold, hput] at hsaved
      · exact .inl ⟨old, hold, rfl, rfl, rfl⟩

theorem Accounts.performed {plan : Plan} (h : Accounts env steps s.db)
    (hrun : Run (Handles env) .empty steps s) (htyped : Typed steps s.db)
    (hdistinct : TransactionsDistinct (steps ++ [step]))
    (hroles : RolesDisjoint (steps ++ [step]))
    (hplanned : transactionPlan env s.db step.blockNum step.trx = .ok plan)
    (hplan : TypedPlan env s.db step.blockNum step.trx plan) :
    Accounts env (steps ++ [step]) (perform env plan.effects step.puts s).db := by
  have hsnoc : ∀ key, savedIncreases env key .empty (steps ++ [step]) =
      savedIncreases env key .empty steps ++ (savedIncrease s key step).toList := fun key =>
    savedIncreases_snoc hrun (handles_iff.mpr ⟨plan, hplanned, rfl⟩)
  have hfree : ∀ key, s.db.get key = none →
      savedIncreases env key .empty (steps ++ [step]) = [] := by
    intro key hkey
    rw [hsnoc, h.free key hkey, savedIncrease_of_free hkey]
    rfl
  constructor
  case free =>
      intro key hkey
      rcases @get_perform_plan env plan step.puts s key with hsame | ⟨record, -, -, hnew⟩
      · exact hfree key (hsame ▸ hkey)
      · exact absurd (hnew.symm.trans hkey) (by simp)
  case paid =>
      intro key tp htp
      cases hsaved : savedIncrease s key step with
      | none =>
          have hnone : savedIncreases env key .empty (steps ++ [step]) =
              savedIncreases env key .empty steps := by
            rw [hsnoc, hsaved]
            exact List.append_nil _
          rcases account_of_not_saved htyped.keyIsId hsaved hplan htp with
            ⟨old, hold, hamount, hpieces, htrx⟩ | ⟨op, t, hop, hkey, rfl⟩
          · exact (h.paid key old hold).same hdistinct hamount hpieces htrx hnone
          · have hnew : s.db.get key = none := htyped.get_createdPaymentId hroles hdistinct
              (by simp [createdPaymentId, hop, hkey])
            exact paid_created hop hkey (hfree key hnew)
      | some saved =>
          obtain ⟨id, op⟩ := saved
          obtain ⟨hincrease, rfl, rfl, hhas, -⟩ := increaseOf_of_savedIncrease hsaved
          have hop := handledOperation_of_increaseOf hincrease
          obtain ⟨record, hrecord⟩ := Option.isSome_iff_exists.mp hhas
          have hold := htyped.get_of_getTorrentPayment hroles
            (by simp [paymentIds, hop]) (Option.map_eq_some_iff.mpr ⟨record, hrecord, rfl⟩)
          have hid : op.paymentId.str = (Message.torrentPayment
              (increasedPayment step.trx op record.parseTorrentPayment)).key :=
            (htyped.keyIsId _ _ hold).symm
          rw [perform_of_savedIncrease hsaved hold hplanned, get_saveOrUpdate, if_pos hid] at htp
          cases htp
          exact (h.paid _ _ hold).increased hdistinct hincrease (by rw [hsnoc, hsaved]; rfl)

/-- In every reachable state, whatever `Put`s failed on the way, the total of each
stored payment is what it was created with plus its history, and the history
is the increases saved for it. -/
theorem paid_amounts_add_up (hrun : Run (Handles env) .empty steps s)
    (hdistinct : TransactionsDistinct steps) (hroles : RolesDisjoint steps)
    (key : String) {tp : TorrentPayment}
    (htp : s.db.get key = some (.torrentPayment tp)) : Paid env steps key tp := by
  have haccounts := typed_run_invariant env
    (fun steps => TransactionsDistinct steps ∧ RolesDisjoint steps)
    (fun steps s => Run (Handles env) .empty steps s ∧ Accounts env steps s.db)
    (fun _ _ h => ⟨h.1.of_append, h.2.of_append⟩) (fun _ h => h.2) typed_empty
    ⟨.nil, fun _ _ hget => by simp [ServerState.empty] at hget, fun _ _ => rfl⟩ ?_ hrun
    ⟨hdistinct, hroles⟩
  · exact haccounts.2.2.paid key tp htp
  · rintro steps step s plan ⟨hdistinct, hroles⟩ htyped ⟨hrun, h⟩ hplanned hplan
    exact ⟨hrun.snoc (handles_iff.mpr ⟨plan, hplanned, rfl⟩),
      h.performed hrun htyped hdistinct hroles hplanned hplan⟩

theorem sample_paid_amounts_add_up :
    ∃ s tp, Run (Handles .oneAsset) .empty [sampleCreate, samplePayment, sampleIncrease] s ∧
      s.db.get samplePayment.trx.id.str = some (.torrentPayment tp) ∧
      Paid .oneAsset [sampleCreate, samplePayment, sampleIncrease]
        samplePayment.trx.id.str tp := by
  have hrun : Run (Handles .oneAsset) .empty
      [sampleCreate, samplePayment, sampleIncrease] _ := run_iff_foldlM.mpr rfl
  refine ⟨_, _, hrun, rfl, ?_⟩
  exact paid_amounts_add_up hrun (by decide) (by decide) samplePayment.trx.id.str rfl

end TorrentServer.PaidAmounts
