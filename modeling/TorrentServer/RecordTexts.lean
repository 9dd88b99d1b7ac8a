import TorrentServer.BatchReading
import TorrentServer.TorrentViews

namespace TorrentServer.RecordTexts

open TorrentServer.Records
open TorrentServer.ChainLibrary
open TorrentServer.MysqlTables
open TorrentServer.HandleBlock
open TorrentServer.TransactionPlans
open TorrentServer.TableMirror
open TorrentServer.TaskTexts (Append)
open TorrentServer.RowReading
open TorrentServer.TorrentViews
open TorrentServer.Library.Runs
open TorrentServer.Library.SqlLiterals

variable {env : Environment} {s s' : ServerState} {steps : List Step} {step : Step}

section Appended

/-- The records a transaction hands to the `append` functions. -/
def appendedBy (env : Environment) (s : ServerState) (step : Step) : List Message :=
  match transactionPlan env s.db step.blockNum step.trx with
  | .error _ => []
  | .ok plan => if putOutcome step.puts 0 then plan.records else []

def appendedRecords (env : Environment) : ServerState → List Step → List Message
  | _, [] => []
  | s, step :: rest =>
      match handleTransaction env s step with
      | .error _ => []
      | .ok s' => appendedBy env s step ++ appendedRecords env s' rest

theorem appendedRecords_snoc {start : ServerState} (hrun : Run (Handles env) start steps s)
    (hstep : Handles env s step s') :
    appendedRecords env start (steps ++ [step]) =
      appendedRecords env start steps ++ appendedBy env s step := by
  rw [run_iff_foldlM] at hrun
  induction steps generalizing start with
  | nil =>
      obtain rfl : start = s := by simpa [pure, Except.pure] using hrun
      simp only [List.nil_append, appendedRecords,
        show handleTransaction env start step = _ from hstep]
      simp
  | cons first rest ih =>
      rw [List.foldlM_cons] at hrun
      cases hfirst : handleTransaction env start first with
      | error fault =>
          rw [hfirst] at hrun
          cases hrun
      | ok next =>
          rw [hfirst] at hrun
          simp only [List.cons_append, appendedRecords, hfirst, ih hrun, List.append_assoc]

theorem appendAll_append (records more : List Message) (task : MysqlTask) :
    appendAll env (records ++ more) task = appendAll env more (appendAll env records task) :=
  List.foldl_append

theorem mysqlTask_handles (hstep : Handles env s step s') :
    s'.mysqlTask = appendAll env (appendedBy env s step) s.mysqlTask := by
  obtain ⟨plan, hplan, rfl⟩ := handles_iff.mp hstep
  rw [mysqlTask_perform, appendedBy, hplan]
  split <;> rfl

/-- `g_mysql_task` without flushes holds the rows of all appended records. -/
theorem mysqlTask_of_run (hrun : Run (Handles env) .empty steps s) :
    s.mysqlTask = appendAll env (appendedRecords env .empty steps) {} := by
  induction hrun with
  | nil => rfl
  | snoc hrun hstep ih =>
      rw [appendedRecords_snoc hrun hstep, appendAll_append, ← ih]
      exact mysqlTask_handles hstep

theorem rowTask_eq_appendAll (calls : List Append) :
    rowTask env calls = appendAll env (calls.map record) {} := by
  rw [rowTask, appendAll, List.foldl_map]

/-- What every planned record has, provided the stored ones have it, all records of a run
have: the stored ones and the appended ones. -/
theorem records_of_run {P : Message → Prop} {Good : Step → Prop}
    (hplanned : ∀ (db : TorrentDatabase.Database) (step : Step) (plan : Plan), Good step →
      (∀ key record, db.get key = some record → P record) →
        Planned env db step.blockNum step.trx plan → ∀ record ∈ plan.records, P record)
    (hrun : Run (Handles env) .empty steps s) (hgood : ∀ step ∈ steps, Good step) :
    (∀ key record, s.db.get key = some record → P record) ∧
      ∀ record ∈ appendedRecords env .empty steps, P record := by
  induction hrun with
  | nil =>
      refine ⟨fun key record hget => ?_, by simp [appendedRecords]⟩
      simp [ServerState.empty] at hget
  | @snoc steps step s s' hrun hstep ih =>
      obtain ⟨hstored, happended⟩ := ih fun other hother => hgood other (by simp [hother])
      obtain ⟨plan, hplan, rfl⟩ := handles_iff.mp hstep
      have hrecords := hplanned s.db step plan (hgood step (by simp)) hstored
        (planned_of_transactionPlan hplan)
      constructor
      · intro key record hget
        rcases get_perform_plan plan step.puts s key with hsame | ⟨saved, hsaved, -, hkey⟩
        · exact hstored key record (hsame ▸ hget)
        · rw [hkey] at hget
          cases hget
          exact hrecords _ hsaved
      · intro record hrecord
        rw [appendedRecords_snoc hrun hstep, List.mem_append] at hrecord
        rcases hrecord with hrecord | hrecord
        · exact happended record hrecord
        · rw [appendedBy, hplan] at hrecord
          dsimp only at hrecord
          split at hrecord
          · exact hrecords record hrecord
          · cases hrecord

end Appended

section Clean

/-- The texts a transaction brings in beside its ids and amounts. -/
def namesOf (trx : ProcessedTransaction) : List String :=
  match handledOperation trx with
  | some (.torrentCreate op) => [op.creator]
  | some (.torrentPayment op) => [op.creator, op.signAddress]
  | some (.settlement op) => op.account
  | _ => []

def CleanNames (trx : ProcessedTransaction) : Prop :=
  ∀ name ∈ namesOf trx, Clean name.toList

structure PaymentTexts (tp : TorrentPayment) : Prop where
  strings :
    ∀ text ∈ [tp.paymentId, tp.torrentId, tp.userId, tp.signAddress, tp.selttementTrxId,
      tp.refundTrxId, tp.receiptTrxId], Clean text.toList
  payPieces : ∀ account ∈ tp.payPieces, Clean account.toList
  increaseTrx : ∀ key amount, tp.increaseTrx.lookup key = some amount →
    Clean key.toList ∧ Clean amount.toList

/-- None of the texts of a record needs escaping. -/
def CleanRecord : Message → Prop
  | .torrent t => TorrentClean t
  | .torrentPayment tp => PaymentTexts tp

theorem clean_hash (id : HashId) : Clean id.str.toList := by
  apply clean_of_forall
  intro c hc
  have hhex := List.all_eq_true.mp id.isHex.2 c hc
  refine ⟨?_, ?_, ?_⟩ <;> rintro rfl <;> exact absurd hhex (by decide)

theorem clean_empty : Clean "".toList := trivial

-- From here on nothing is read off the characters of a text.
attribute [local irreducible] Clean

theorem clean_text (amount : ShareType) : Clean amount.text.toList := by
  apply ReplaceReading.clean_of_isWord
  intro c hc
  rw [ShareType.text, Nat.toList_repr] at hc
  exact .inl (isWord_of_isDigit (Nat.isDigit_of_mem_toDigits (by decide) (by decide) hc))

theorem clean_cStr {text : String} (h : Clean text.toList) : Clean (cStr text).toList := by
  rw [ReplaceStatements.toList_cStr, cString_of_clean h]
  exact h

theorem PaymentTexts.parsed {m : Message} (h : CleanRecord m) :
    PaymentTexts m.parseTorrentPayment := by
  cases m with
  | torrentPayment tp => exact h
  | torrent t =>
      simp only [CleanRecord, TorrentClean, List.forall_mem_cons] at h
      constructor
      · simp only [Message.parseTorrentPayment, List.forall_mem_cons]
        exact ⟨h.1, h.2.1, clean_empty, clean_empty, clean_empty, clean_empty, clean_empty, by simp⟩
      · intro account haccount
        exact absurd haccount Finmap.notMem_empty
      · intro key amount hlookup
        simp [Message.parseTorrentPayment] at hlookup

theorem TorrentClean.parsed {m : Message} (h : CleanRecord m) : TorrentClean m.parseTorrent := by
  cases m with
  | torrent t => exact h
  | torrentPayment tp =>
      have hstrings := h.strings
      simp only [List.forall_mem_cons] at hstrings
      simp only [TorrentClean, Message.parseTorrent, List.forall_mem_cons]
      exact ⟨hstrings.1, hstrings.2.1, clean_empty, by simp⟩

theorem mem_creditPieces {payPieces : Finmap fun _ : String => UInt32} {account name : String}
    {piece : UInt64} (h : name ∈ creditPieces payPieces account piece) :
    name ∈ payPieces ∨ name = account ∨ name = cStr account := by
  unfold creditPieces at h
  rw [Finmap.mem_insert] at h
  rcases h with rfl | h
  · exact .inr (.inl rfl)
  · split at h
    · exact .inl h
    · rcases Finmap.mem_insert.mp h with rfl | h
      · exact .inr (.inr rfl)
      · exact .inl h

theorem settlementEntry_accounts {ratio : env.decimals.Mpd} {op : SettlementOperation}
    {tp tp' : TorrentPayment} {entry : String × Nat}
    (h : settlementEntry env ratio op tp entry = .ok tp') {name : String}
    (hname : name ∈ tp'.payPieces) :
    name ∈ tp.payPieces ∨ name = entry.1 ∨ name = cStr entry.1 := by
  obtain ⟨account, i⟩ := entry
  simp only [settlementEntry] at h
  split at h
  · cases h
  · split at h
    · cases h
      exact .inl hname
    · split at h
      · cases h
      · split at h
        · cases h
        · split at h
          · cases h
            exact .inl hname
          · cases h
            exact mem_creditPieces hname

theorem settle_accounts {op : SettlementOperation} {tp tp' : TorrentPayment}
    (h : settle env op tp = .ok tp') {name : String} (hname : name ∈ tp'.payPieces) :
    name ∈ tp.payPieces ∨ ∃ account ∈ op.account, name = account ∨ name = cStr account := by
  have hentries : ∀ entry ∈ op.account.zipIdx, entry.1 ∈ op.account := fun entry hentry =>
    List.fst_mem_of_mem_zipIdx hentry
  simp only [settle] at h
  generalize env.decimals.decimal (getRatio tp.pieces) 18 = ratio at h
  generalize op.account.zipIdx = entries at h hentries
  induction entries generalizing tp with
  | nil =>
      obtain rfl : tp = tp' := by simpa [pure, Except.pure] using h
      exact .inl hname
  | cons entry entries ih =>
      rw [List.forall_mem_cons] at hentries
      rw [List.foldlM_cons] at h
      cases hentry : settlementEntry env ratio op tp entry with
      | error fault =>
          rw [hentry] at h
          cases h
      | ok next =>
          rw [hentry] at h
          rcases ih h hentries.2 with hnext | hlater
          · rcases settlementEntry_accounts hentry hnext with hold | hnew
            · exact .inl hold
            · exact .inr ⟨entry.1, hentries.1, hnew⟩
          · exact .inr hlater

/-- Clean records and clean names make clean records. -/
theorem cleanRecord_of_planned {db : TorrentDatabase.Database} {step : Step} {plan : Plan}
    (hnames : CleanNames step.trx)
    (hstored : ∀ key record, db.get key = some record → CleanRecord record)
    (hplan : Planned env db step.blockNum step.trx plan) :
    ∀ record ∈ plan.records, CleanRecord record := by
  have htorrent : ∀ {key : String} {t : Torrent}, TorrentDatabase.getTorrent db key = some t →
      TorrentClean t := by
    intro key t ht
    obtain ⟨m, hm, rfl⟩ := Option.map_eq_some_iff.mp ht
    exact TorrentClean.parsed (hstored key m hm)
  have hpayment : ∀ {id : HashId} {tp : TorrentPayment},
      TorrentDatabase.getTorrentPayment db id = some tp → PaymentTexts tp := by
    intro id tp htp
    obtain ⟨m, hm, rfl⟩ := Option.map_eq_some_iff.mp htp
    exact PaymentTexts.parsed (hstored id.str m hm)
  cases hplan with
  | skip => simp [Plan.records]
  | created op hop =>
      simp only [CleanNames, namesOf, hop, List.forall_mem_singleton] at hnames
      have huser := clean_cStr hnames
      simp only [Plan.records, List.forall_mem_singleton, CleanRecord, TorrentClean,
        createdTorrent, List.forall_mem_cons]
      exact ⟨clean_hash op.id, clean_hash step.trx.id, huser⟩
  | updated op t hop ht =>
      have hclean : TorrentClean t := htorrent ht
      simp only [Plan.records, List.forall_mem_singleton]
      exact hclean
  | payed op t hop ht hpieces =>
      simp only [CleanNames, namesOf, hop, List.forall_mem_cons] at hnames
      have huser := clean_cStr hnames.1
      have haddress := clean_cStr hnames.2.1
      have htorrentClean : TorrentClean t := htorrent ht
      simp only [Plan.records, List.forall_mem_cons]
      refine ⟨?_, htorrentClean, by simp⟩
      constructor
      · simp only [createdPayment, List.forall_mem_cons]
        exact ⟨clean_hash step.trx.id, clean_hash op.torrentId, huser, haddress, clean_empty,
          clean_empty, clean_empty, by simp⟩
      · exact fun account haccount => absurd haccount Finmap.notMem_empty
      · exact fun key amount hlookup => by simp [createdPayment] at hlookup
  | seltted op tp t hop htp ht =>
      have htorrentClean : TorrentClean t := htorrent ht
      have hclean := hpayment htp
      have hstrings := hclean.strings
      simp only [List.forall_mem_cons] at hstrings
      simp only [Plan.records, List.forall_mem_cons]
      refine ⟨⟨?_, hclean.payPieces, hclean.increaseTrx⟩, htorrentClean, by simp⟩
      simp only [selttedPayment, List.forall_mem_cons]
      exact ⟨hstrings.1, hstrings.2.1, hstrings.2.2.1, hstrings.2.2.2.1, clean_hash step.trx.id,
        hstrings.2.2.2.2.2⟩
  | receipted op tp hop htp =>
      have hclean := hpayment htp
      have hstrings := hclean.strings
      simp only [List.forall_mem_cons] at hstrings
      simp only [Plan.records, List.forall_mem_singleton]
      refine ⟨?_, hclean.payPieces, hclean.increaseTrx⟩
      simp only [receiptedPayment, List.forall_mem_cons]
      exact ⟨hstrings.1, hstrings.2.1, hstrings.2.2.1, hstrings.2.2.2.1, hstrings.2.2.2.2.1,
        hstrings.2.2.2.2.2.1, clean_hash step.trx.id, by simp⟩
  | refunded op tp hop htp =>
      have hclean := hpayment htp
      have hstrings := hclean.strings
      simp only [List.forall_mem_cons] at hstrings
      simp only [Plan.records, List.forall_mem_singleton]
      refine ⟨?_, hclean.payPieces, hclean.increaseTrx⟩
      simp only [refundedPayment, List.forall_mem_cons]
      exact ⟨hstrings.1, hstrings.2.1, hstrings.2.2.1, hstrings.2.2.2.1, hstrings.2.2.2.2.1,
        clean_hash step.trx.id, hstrings.2.2.2.2.2.2.1, by simp⟩
  | increased op tp hop htp =>
      have hclean := hpayment htp
      simp only [Plan.records, List.forall_mem_singleton]
      refine ⟨hclean.strings, hclean.payPieces, ?_⟩
      intro key amount hlookup
      by_cases hkey : key = step.trx.id.str
      · subst hkey
        rw [increasedPayment, Finmap.lookup_insert] at hlookup
        cases hlookup
        exact ⟨clean_hash step.trx.id, clean_text op.amount⟩
      · rw [increasedPayment, Finmap.lookup_insert_of_ne _ hkey] at hlookup
        exact hclean.increaseTrx key amount hlookup
  | settled op proposal tp tp' hop hproposal htp hsettle =>
      simp only [CleanNames, namesOf, hop] at hnames
      have hclean := hpayment htp
      obtain ⟨payPieces, rfl⟩ := settle_eq hsettle
      simp only [Plan.records, List.forall_mem_singleton]
      refine ⟨hclean.strings, ?_, hclean.increaseTrx⟩
      intro name hname
      rcases settle_accounts hsettle hname with hold | ⟨account, haccount, rfl | rfl⟩
      · exact hclean.payPieces name hold
      · exact hnames name haccount
      · exact clean_cStr (hnames account haccount)

/-- While no name in the blocks needs escaping, no text of a record does. -/
theorem records_clean_of_run (hrun : Run (Handles env) .empty steps s)
    (hnames : ∀ step ∈ steps, CleanNames step.trx) :
    (∀ key record, s.db.get key = some record → CleanRecord record) ∧
      ∀ record ∈ appendedRecords env .empty steps, CleanRecord record :=
  records_of_run (fun _ _ _ => cleanRecord_of_planned) hrun hnames

end Clean

end TorrentServer.RecordTexts
