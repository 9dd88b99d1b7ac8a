import TorrentServer.HistoryRows
import TorrentServer.RequestAnswers
import TorrentServer.TableMirror

namespace TorrentServer.TorrentViews

open TorrentServer.Records
open TorrentServer.ChainLibrary
open TorrentServer.MysqlTables
open TorrentServer.HandleBlock
open TorrentServer.TransactionPlans
open TorrentServer.TransactionAtomicity
open TorrentServer.TableMirror
open TorrentServer.ReplaceStatements
open TorrentServer.HistoryRows
open TorrentServer.UserReplies
open TorrentServer.RealtimeRequests
open TorrentServer.RequestAnswers
open TorrentServer.Library.CIntegers
open TorrentServer.Library.KeyedTable
open TorrentServer.Library.Runs

/-- MySQL returns a text that fits its column as it was given; forty ASCII characters
fit the column of an id. -/
def ReturnsTexts (readers : Readers) : Prop :=
  ∀ text : String, text.length ≤ 40 → (∀ c ∈ text.toList, c.toNat < 128) →
    readers.column .varchar text = text

section Rows

variable (readers : Readers) (now : String)

def torrentRowTexts (row : TorrentRow) : List String :=
  [cStr row.id, cStr row.transactionId, now, formatLu row.createBlock, formatLu row.lastModify,
    cStr row.userId, formatD row.asset, formatD row.percent, formatD row.payTimes,
    formatD row.finishTimes, formatD (UInt32.ofNat row.isCreate), row.balance]

def historyRow (row : TorrentRow) : Row :=
  selectedRow readers torrentSchema torrentColumns (torrentRowTexts now row) torrentSelected

theorem torrentHistoryRow_eq {env : Environment} {as : SimpleAsset} {b : Torrent}
    {row : TorrentRow} (has : assetOf env b.asset = some as) (hrow : torrentRow env b = some row) :
    torrentHistoryRow readers env as now b = historyRow readers now row := by
  rw [torrentRow, has] at hrow
  cases hrow
  rfl

end Rows

structure SameFields (view response : Torrent) : Prop where
  id : view.id = response.id
  createBlock : view.createBlock = response.createBlock
  lastModify : view.lastModify = response.lastModify
  userId : view.userId = response.userId
  asset : view.asset = response.asset
  percent : view.percent = response.percent
  payTimes : view.payTimes = response.payTimes
  finishTimes : view.finishTimes = response.finishTimes

structure SameTorrent (view response : Torrent) : Prop extends SameFields view response where
  transactionId : view.transactionId = response.transactionId
  isCreate : view.isCreate = response.isCreate

def ViewsAgree (libs : Libraries) (readers : Readers) (now : String) (s : ServerState)
    (key : String) : Prop :=
  ∃ row view, (Tables.empty.applyTask s.mysqlTask).torrent key = some row ∧
    getTorrent libs s.db (some key) = .ok { code := 0, result := some view } ∧
    SameTorrent view (decodeTorrent readers (historyRow readers now row) {})

section Differ

variable {libs : Libraries} {readers : Readers} {now : String} {env : Environment}
  {s s' : ServerState} {steps : List Step} {step : Step}

theorem HashId.ascii (id : HashId) : ∀ c ∈ id.str.toList, c.toNat < 128 := by
  intro c hc
  have hhex := List.all_eq_true.mp id.isHex.2 c hc
  simp only [isLowerHexDigit, Char.isDigit, Bool.or_eq_true, Bool.and_eq_true,
    decide_eq_true_eq] at hhex
  rcases hhex with ⟨-, hnine⟩ | ⟨-, hf⟩
  · have hle : c.toNat ≤ 57 := hnine
    omega
  · have hle : c.toNat ≤ 102 := hf
    omega

theorem ReturnsTexts.str (h : ReturnsTexts readers) (id : HashId) :
    readers.column .varchar (cStr id.str) = id.str := by
  rw [cStr_eq_self (isPaymentHash_str id).no_zero]
  exact h id.str id.isHex.1.le (HashId.ascii id)

def AppendsHashIds (task : MysqlTask) : Prop :=
  ∀ row ∈ task.torrent, ∃ id : HashId, row.transactionId = id.str

theorem AppendsHashIds.append {task : MysqlTask} (h : AppendsHashIds task) {record : Message}
    (hrecord : HashIds record) : AppendsHashIds (appendRecord env record task) := by
  cases record with
  | torrentPayment tp =>
      cases hrow : torrentPaymentRow env tp with
      | none => simpa [appendRecord, appendTorrentPayment, hrow] using h
      | some row =>
          intro other hother
          exact h other (by simpa [appendRecord, appendTorrentPayment, hrow] using hother)
  | torrent t =>
      cases hrow : torrentRow env t with
      | none => simpa [appendRecord, appendTorrentCreate, hrow] using h
      | some row =>
          obtain ⟨as, -, rfl⟩ := Option.map_eq_some_iff.mp hrow
          intro other hother
          simp only [appendRecord, appendTorrentCreate, hrow, List.mem_append,
            List.mem_singleton] at hother
          rcases hother with hother | rfl
          · exact h other hother
          · exact hrecord.second

/-- A transaction appends its records to the task if its first `Put` succeeds. -/
theorem mysqlTask_perform (plan : Plan) (puts : List Bool) (s : ServerState) :
    (perform env plan.effects puts s).mysqlTask =
      if putOutcome puts 0 then appendAll env plan.records s.mysqlTask else s.mysqlTask := by
  cases plan with
  | skip => simp [Plan.effects, Plan.records, perform, appendAll]
  | saveTorrent t =>
      rw [Plan.effects, perform_single]
      split <;> rfl
  | savePayment tp =>
      rw [Plan.effects, perform_single]
      split <;> rfl
  | savePaymentThenTorrent tp t =>
      rw [Plan.effects, perform_pair]
      split <;> rfl

theorem AppendsHashIds.appendAll {task : MysqlTask} (h : AppendsHashIds task)
    {records : List Message} (hrecords : ∀ record ∈ records, HashIds record) :
    AppendsHashIds (appendAll env records task) := by
  induction records generalizing task with
  | nil => exact h
  | cons record records ih =>
      rw [List.forall_mem_cons] at hrecords
      exact ih (h.append hrecords.1) hrecords.2

theorem appendsHashIds_handles (hids : StoresHashIds s.db) (h : AppendsHashIds s.mysqlTask)
    (hstep : Handles env s step s') : AppendsHashIds s'.mysqlTask := by
  obtain ⟨plan, hplan, rfl⟩ := planned_of_handles hstep
  rw [mysqlTask_perform]
  split
  · exact h.appendAll fun record hrecord => hashIds_of_planned hids hplan hrecord
  · exact h

theorem appendsHashIds_of_run (hrun : Run (Handles env) .empty steps s) :
    AppendsHashIds s.mysqlTask := by
  induction hrun with
  | nil => exact fun row hrow => by cases hrow
  | snoc hrun hstep ih => exact appendsHashIds_handles (storesHashIds_of_run hrun) ih hstep

theorem row_transactionId (hrun : Run (Handles env) .empty steps s) {key : String}
    {row : TorrentRow} (hrow : (Tables.empty.applyTask s.mysqlTask).torrent key = some row) :
    ∃ id : HashId, row.transactionId = id.str := by
  rcases mem_of_replaceInto _ _ hrow with hmem | hempty
  · exact appendsHashIds_of_run hrun row hmem
  · cases hempty

theorem not_sameTorrent (hreaders : ReturnsTexts readers) (t : Torrent) {row : TorrentRow}
    {id : HashId} (hid : row.transactionId = id.str) :
    ¬ SameTorrent (torrentView libs t) (decodeTorrent readers (historyRow readers now row) {}) := by
  intro hsame
  have htransaction : "" = readers.column .varchar (cStr row.transactionId) := hsame.transactionId
  rw [hid, hreaders.str] at htransaction
  exact id.str_ne_empty htransaction.symm

theorem getTorrent_stored (hrun : Run (Handles env) .empty steps s) {key : String} {t : Torrent}
    (ht : s.db.get key = some (.torrent t)) :
    getTorrent libs s.db (some key) = .ok { code := 0, result := some (torrentView libs t) } := by
  obtain ⟨id, hid⟩ := (storesHashIds_of_run hrun key _ ht).key
  rw [keyIsId_of_run hrun key _ ht] at hid
  have hkey : cStr key = key := by
    rw [hid]
    exact cStr_eq_self (isPaymentHash_str id).no_zero
  simp [getTorrent, hkey, TorrentDatabase.getTorrent, ht, Message.parseTorrent,
    realtimeTorrent_empty]

/-- No torrent of any run is shown alike by the two requests. -/
theorem views_never_agree (hreaders : ReturnsTexts readers)
    (hrun : Run (Handles env) .empty steps s) {key : String} {t : Torrent}
    (ht : s.db.get key = some (.torrent t)) : ¬ ViewsAgree libs readers now s key := by
  rintro ⟨row, view, hrow, hview, hsame⟩
  rw [getTorrent_stored hrun ht] at hview
  cases hview
  obtain ⟨id, hid⟩ := row_transactionId hrun hrow
  exact not_sameTorrent hreaders t hid hsame

theorem plainReaders_returnsTexts : ReturnsTexts plainReaders :=
  fun _ _ _ => rfl

theorem sample_views_never_agree :
    ∃ s t, Run (Handles .oneAsset) .empty [sampleCreate] s ∧
      s.db.get sampleCreateOperation.id.str = some (.torrent t) ∧
      ((Tables.empty.applyTask s.mysqlTask).torrent sampleCreateOperation.id.str).isSome = true ∧
      ¬ ViewsAgree (sampleLibraries sampleAccount) plainReaders "0.000000" s
        sampleCreateOperation.id.str := by
  have hrun : Run (Handles .oneAsset) .empty ([] ++ [sampleCreate]) _ := Run.nil.snoc rfl
  refine ⟨_, _, hrun, TorrentDatabase.get_saveOrUpdate_self _ (.torrent _), ?_, ?_⟩
  · rfl
  · exact views_never_agree plainReaders_returnsTexts hrun
      (TorrentDatabase.get_saveOrUpdate_self _ (.torrent _))

theorem created_torrent_shown_differently :
    ¬ ∀ (libs : Libraries) (readers : Readers) (now : String) (env : Environment)
      (steps : List Step) (s : ServerState) (key : String) (t : Torrent),
      ReturnsTexts readers → readers.ReturnsIntegers → Run (Handles env) .empty steps s →
      (∀ step ∈ steps, ∀ i, putOutcome step.puts i = true) → s.db.get key = some (.torrent t) →
      t.createBlock.toNat < 2 ^ 31 → t.lastModify.toNat < 2 ^ 31 →
        ViewsAgree libs readers now s key := by
  intro h
  have hrun : Run (Handles .oneAsset) .empty ([] ++ [sampleCreate]) _ := Run.nil.snoc rfl
  obtain ⟨row, view, hrow, hview, hsame⟩ :=
    h (sampleLibraries sampleAccount) plainReaders "0.000000" .oneAsset _ _ _ _
      plainReaders_returnsTexts plainReaders_returnsIntegers hrun
      (by simp [sampleCreate, putOutcome])
      (TorrentDatabase.get_saveOrUpdate_self _ (.torrent _)) (by decide) (by decide)
  rw [getTorrent_stored hrun (TorrentDatabase.get_saveOrUpdate_self _ (.torrent _))] at hview
  cases hview
  obtain ⟨id, hid⟩ := row_transactionId hrun hrow
  exact not_sameTorrent plainReaders_returnsTexts _ hid hsame

end Differ

section Elsewhere

variable {libs : Libraries} {readers : Readers} {now : String} {env : Environment}
  {db : TorrentDatabase.Database} {s s' : ServerState} {steps : List Step} {step : Step}

def KindsKept (db : TorrentDatabase.Database) : List Message → Prop
  | [] => True
  | record :: records =>
      (db.get record.key).all (sameKind record) = true ∧
        KindsKept (TorrentDatabase.saveOrUpdate db record true) records

/-- A transaction whose writes succeed, keep the kinds and know their assets. -/
structure MirrorHandles (env : Environment) (s : ServerState) (step : Step) (s' : ServerState) :
    Prop where
  handles : Handles env s step s'
  puts : ∀ i, putOutcome step.puts i = true
  kinds : ∀ plan, transactionPlan env s.db step.blockNum step.trx = .ok plan →
    KindsKept s.db plan.records
  assets : ∀ plan, transactionPlan env s.db step.blockNum step.trx = .ok plan →
    ∀ record ∈ plan.records, AssetKnown env (recordAsset record)

theorem projected_saveRecords {records : List Message} (hkinds : KindsKept db records)
    (hassets : ∀ record ∈ records, AssetKnown env (recordAsset record)) :
    projected env (saveRecords db records) =
      (projected env db).applyTask (appendAll env records {}) := by
  induction records generalizing db with
  | nil => rfl
  | cons record records ih =>
      rw [List.forall_mem_cons] at hassets
      have hsplit : appendAll env (record :: records) {} =
          (appendRecord env record {}).concat (appendAll env records {}) :=
        appendAll_eq_concat records (appendRecord env record {})
      rw [hsplit, Tables.applyTask_concat, ← projected_saveOrUpdate hkinds.1 hassets.1]
      exact ih hkinds.2 hassets.2

/-- After such a run every record has its row, and the row is that of the record as it is. -/
theorem rows_projected_of_run (hrun : Run (MirrorHandles env) .empty steps s) :
    Tables.empty.applyTask s.mysqlTask = projected env s.db := by
  induction hrun with
  | nil => rfl
  | snoc hrun hstep ih =>
      obtain ⟨plan, hplan, rfl⟩ := handles_iff.mp hstep.handles
      rw [mysqlTask_perform, if_pos (hstep.puts 0), perform_db_of_success env plan _ _ hstep.puts,
        projected_saveRecords (hstep.kinds plan hplan) (hstep.assets plan hplan), ← ih,
        appendAll_eq_concat, Tables.applyTask_concat]

structure FitsColumns (t : Torrent) : Prop where
  createBlock : t.createBlock.toNat < 2 ^ 31
  lastModify : t.lastModify.toNat < 2 ^ 31
  userId : t.userId.length ≤ 40
  userIdAscii : ∀ c ∈ t.userId.toList, c.toNat < 128
  userIdZero : '\x00' ∉ t.userId.toList

theorem sameFields_of_row (hreaders : ReturnsTexts readers) (hints : readers.ReturnsIntegers)
    {t : Torrent} {row : TorrentRow} (hrow : torrentRow env t = some row) {id : HashId}
    (hid : t.id = id.str) (hfits : FitsColumns t) :
    SameFields (torrentView libs t) (decodeTorrent readers (historyRow readers now row) {}) := by
  have hrow' := hrow
  obtain ⟨as, has, rfl⟩ := Option.map_eq_some_iff.mp hrow'
  have hkept := (@torrentIntegersKept_iff readers env as now hints t {}
    (hfits.createBlock.trans (by norm_num)) (hfits.lastModify.trans (by norm_num))).mpr
    ⟨hfits.createBlock, hfits.lastModify⟩
  rw [torrentHistoryRow_eq readers now has hrow] at hkept
  have hids : readers.column .varchar (cStr t.id) = t.id := by
    rw [hid]
    exact hreaders.str id
  have husers : readers.column .varchar (cStr t.userId) = t.userId := by
    rw [cStr_eq_self hfits.userIdZero]
    exact hreaders t.userId hfits.userId hfits.userIdAscii
  exact
    { id := hids.symm
      createBlock := hkept.createBlock.symm
      lastModify := hkept.lastModify.symm
      userId := husers.symm
      asset := hkept.asset.symm
      percent := hkept.percent.symm
      payTimes := hkept.payTimes.symm
      finishTimes := hkept.finishTimes.symm }

/-- In the other eight fields the two requests agree. -/
theorem views_agree_elsewhere (hreaders : ReturnsTexts readers) (hints : readers.ReturnsIntegers)
    (hrun : Run (MirrorHandles env) .empty steps s) {key : String} {t : Torrent}
    (ht : s.db.get key = some (.torrent t)) (hasset : AssetKnown env t.asset)
    (hfits : FitsColumns t) :
    ∃ row view, (Tables.empty.applyTask s.mysqlTask).torrent key = some row ∧
      getTorrent libs s.db (some key) = .ok { code := 0, result := some view } ∧
      SameFields view (decodeTorrent readers (historyRow readers now row) {}) := by
  have hhandles : Run (Handles env) .empty steps s :=
    hrun.imp fun _ _ _ _ hstep => hstep.handles
  obtain ⟨row, hrow⟩ := Option.isSome_iff_exists.mp (torrentRow_isSome.mpr hasset)
  obtain ⟨id, hid⟩ := (storesHashIds_of_run hhandles key _ ht).key
  refine ⟨row, torrentView libs t, ?_, getTorrent_stored hhandles ht,
    sameFields_of_row hreaders hints hrow hid hfits⟩
  rw [rows_projected_of_run hrun]
  simp [projected, ht, Message.torrent?, hrow]

end Elsewhere

end TorrentServer.TorrentViews
