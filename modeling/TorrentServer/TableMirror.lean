import TorrentServer.ServerMachine
import TorrentServer.TransactionAtomicity

namespace TorrentServer.TableMirror

open TorrentServer.Records
open TorrentServer.ChainLibrary
open TorrentServer.MysqlTables
open TorrentServer.TorrentDatabase
open TorrentServer.HandleBlock
open TorrentServer.TransactionAtomicity
open TorrentServer.ServerMachine
open TorrentServer.Library.KeyedTable
open TorrentServer.Library.KeyValueStore
open TorrentServer.Library.Runs
open TorrentServer.Library.TaskQueues

/-- The tables a database should be mirrored by: each record has its row in the
table of its kind and none in the other. -/
def projected (env : Environment) (db : Database) : Tables where
  torrent key := ((db.get key).bind Message.torrent?).bind (torrentRow env)
  torrentPayment key :=
    ((db.get key).bind Message.torrentPayment?).bind (torrentPaymentRow env)

/-- The tables once everything queued and pending has been written. -/
def settledTables (s : Server) : Tables :=
  (s.tables.executeAll s.batchQueue.pending).applyTask s.mysqlTask

def recordOf : Effect → Message
  | .save record _ => record
  | .append record => record

def sameKind : Message → Message → Bool
  | .torrent _, .torrent _ => true
  | .torrentPayment _, .torrentPayment _ => true
  | _, _ => false

/-- No restart, no failing `Put`, a connection for every statement, and the asset of
every record is known. -/
def undisturbed (env : Environment) (s : Server) : Event → Bool
  | .effect ok =>
      ok && (effectsOf s.executor).head?.all fun effect =>
        (assetOf env (recordAsset (recordOf effect))).isSome
  | .execute connected => connected
  | .restart => false
  | _ => true

/-- A `Put` about to be made finds its key free or a record of its own kind. -/
def keepsKind (s : Server) : Event → Bool
  | .effect _ =>
      match (effectsOf s.executor).head? with
      | some (.save record _) => (s.torrents.get record.key).all (sameKind record)
      | _ => true
  | _ => true

/-- Steps among which no `Put` replaces a record by one of the other kind. Such a `Put` would
also keep the fields that the other kind does not know, which a `Message` has not. -/
def KindSteps (env : Environment) (config : Config) (s : Server) (event : Event)
    (s' : Server) : Prop :=
  s.Steps env config event s' ∧ keepsKind s event = true

def UndisturbedSteps (env : Environment) (config : Config) (s : Server) (event : Event)
    (s' : Server) : Prop :=
  s.Steps env config event s' ∧ undisturbed env s event = true

def MirrorSteps (env : Environment) (config : Config) (s : Server) (event : Event)
    (s' : Server) : Prop :=
  UndisturbedSteps env config s event s' ∧ keepsKind s event = true

inductive Owed : List Effect → List Message → Prop
  | done : Owed [] []
  | single (record : Message) : Owed [.save record true, .append record] []
  | pair (first second : Message) :
      Owed [.save first true, .save second false, .append first, .append second] []
  | second (first second : Message) :
      Owed [.save second false, .append first, .append second] [first]
  | appends (first second : Message) :
      Owed [.append first, .append second] [first, second]
  | append (record : Message) : Owed [.append record] [record]

/-- The records saved whose append is still to come. A plan appends in the order in
which it saves. -/
def unappended (effects : List Effect) : List Message :=
  let appends := effects.filter fun effect => !effect.isSave
  (appends.take (appends.length - effects.countP Effect.isSave)).map recordOf

def appendAll (env : Environment) (records : List Message) (task : MysqlTask) : MysqlTask :=
  records.foldl (fun task record => appendRecord env record task) task

variable {env : Environment} {config : Config} {s s' : Server} {db : Database}

theorem owed_effects (plan : Plan) : Owed plan.effects [] := by
  cases plan with
  | skip => exact .done
  | saveTorrent t => exact .single _
  | savePayment tp => exact .single _
  | savePaymentThenTorrent tp t => exact .pair _ _

theorem Owed.saved {record : Message} {required : Bool} {effects : List Effect}
    {records : List Message} (h : Owed (.save record required :: effects) records) :
    Owed effects (records ++ [record]) := by
  cases h with
  | single => exact .append record
  | pair _ second => exact .second record second
  | second first => exact .appends first record

theorem Owed.appended {record : Message} {effects : List Effect} {records : List Message}
    (h : Owed (.append record :: effects) records) :
    ∃ rest, records = record :: rest ∧ Owed effects rest := by
  cases h with
  | appends _ second => exact ⟨[second], rfl, .append second⟩
  | append => exact ⟨[], rfl, .done⟩

theorem appendAll_eq_concat (records : List Message) (task : MysqlTask) :
    appendAll env records task = task.concat (appendAll env records {}) := by
  induction records using List.reverseRecOn with
  | nil => simp [appendAll, MysqlTask.concat]
  | append_singleton records record ih =>
      simp only [appendAll, List.foldl_append, List.foldl_cons, List.foldl_nil] at ih ⊢
      rw [appendRecord_eq_concat, ih, appendRecord_eq_concat env record (List.foldl _ _ _)]
      simp [MysqlTask.concat]

theorem torrentRow_id {t : Torrent} {row : TorrentRow} (h : torrentRow env t = some row) :
    row.id = t.id := by
  obtain ⟨as, -, rfl⟩ := Option.map_eq_some_iff.mp h
  rfl

theorem torrentPaymentRow_paymentId {tp : TorrentPayment} {row : TorrentPaymentRow}
    (h : torrentPaymentRow env tp = some row) : row.paymentId = tp.paymentId := by
  obtain ⟨as, -, rfl⟩ := Option.map_eq_some_iff.mp h
  rfl

theorem projected_saveOrUpdate {record : Message}
    (hkind : (db.get record.key).all (sameKind record) = true)
    (hknown : AssetKnown env (recordAsset record)) :
    projected env (saveOrUpdate db record true) =
      (projected env db).applyTask (appendRecord env record {}) := by
  have hother : ∀ key, key ≠ record.key → (saveOrUpdate db record true).get key = db.get key :=
    fun key hkey => get_saveOrUpdate_of_ne db record true hkey
  have hself := get_saveOrUpdate_self db record
  cases record with
  | torrent t =>
      obtain ⟨row, hrow⟩ := Option.isSome_iff_exists.mp (torrentRow_isSome.mpr hknown)
      have hid := torrentRow_id hrow
      simp only [Message.key] at hkind hother hself
      simp only [appendRecord, appendTorrentCreate, hrow, Tables.applyTask, List.nil_append,
        replaceInto_singleton, replaceInto_nil, projected, Tables.mk.injEq, hid]
      constructor
      · funext key
        by_cases hkey : key = t.id
        · simp [hkey, hself, Message.torrent?, hrow]
        · simp [hkey, hother key hkey]
      · funext key
        by_cases hkey : key = t.id
        · -- Nothing of the other kind was there.
          rcases hget : db.get t.id with _ | (stored | stored)
          · simp [hkey, hself, hget, Message.torrentPayment?]
          · simp [hkey, hself, hget, Message.torrentPayment?]
          · simp [hget, sameKind] at hkind
        · simp [hother key hkey]
  | torrentPayment tp =>
      obtain ⟨row, hrow⟩ := Option.isSome_iff_exists.mp (torrentPaymentRow_isSome.mpr hknown)
      have hid := torrentPaymentRow_paymentId hrow
      simp only [Message.key] at hkind hother hself
      simp only [appendRecord, appendTorrentPayment, hrow, Tables.applyTask, List.nil_append,
        replaceInto_singleton, replaceInto_nil, projected, Tables.mk.injEq, hid]
      constructor
      · funext key
        by_cases hkey : key = tp.paymentId
        · rcases hget : db.get tp.paymentId with _ | (stored | stored)
          · simp [hkey, hself, hget, Message.torrent?]
          · simp [hget, sameKind] at hkind
          · simp [hkey, hself, hget, Message.torrent?]
        · simp [hother key hkey]
      · funext key
        by_cases hkey : key = tp.paymentId
        · simp [hkey, hself, Message.torrentPayment?, hrow]
        · simp [hkey, hother key hkey]

/-- The simulation: the tables with all that is queued, pending and still to be
appended written into them are the projection of the database. -/
structure Mirrored (env : Environment) (s : Server) : Prop where
  running : s.batchQueue.stopped = false
  tables : ∃ records, Owed (effectsOf s.executor) records ∧
    (s.tables.executeAll s.batchQueue.pending).applyTask (appendAll env records s.mysqlTask) =
      projected env s.torrents

theorem Mirrored.congr (h : Mirrored env s)
    (hexecutor : effectsOf s'.executor = effectsOf s.executor) (htables : s'.tables = s.tables)
    (hqueue : s'.batchQueue = s.batchQueue) (htask : s'.mysqlTask = s.mysqlTask)
    (htorrents : s'.torrents = s.torrents) : Mirrored env s' := by
  constructor
  · rw [hqueue]
    exact h.running
  · rw [hexecutor, htables, hqueue, htask, htorrents]
    exact h.tables

theorem Mirrored.flushed (h : Mirrored env s) : Mirrored env s.flush := by
  obtain ⟨records, howed, htables⟩ := h.tables
  refine ⟨by simpa [Server.flush] using h.running, records, howed, ?_⟩
  have hpending := ExecutionQueue.pending_executeAll h.running s.mysqlTask.statements
  rw [appendAll_eq_concat, Tables.applyTask_concat] at htables
  change ((s.tables.executeAll (s.batchQueue.executeAll _).pending).applyTask
    (appendAll env records {})) = projected env s.torrents
  rw [hpending, Tables.executeAll_append, Tables.executeAll_statements]
  exact htables

theorem Mirrored.saved {block : SignedBlock} {record : Message} {required : Bool}
    {effects : List Effect} {rest : List ProcessedTransaction} (h : Mirrored env s)
    (hexecutor : s.executor = .handling block (.save record required :: effects) rest)
    (hkind : (s.torrents.get record.key).all (sameKind record) = true)
    (hknown : AssetKnown env (recordAsset record)) :
    Mirrored env
      { s with
        executor := .handling block effects rest
        torrents := saveOrUpdate s.torrents record true } := by
  obtain ⟨records, howed, htables⟩ := h.tables
  rw [hexecutor] at howed
  refine ⟨h.running, records ++ [record], howed.saved, ?_⟩
  have hlast : appendAll env (records ++ [record]) s.mysqlTask =
      (appendAll env records s.mysqlTask).concat (appendRecord env record {}) := by
    rw [← appendRecord_eq_concat]
    simp [appendAll]
  rw [hlast, Tables.applyTask_concat, htables]
  exact (projected_saveOrUpdate hkind hknown).symm

theorem mirrored_step {event : Event} (h : Mirrored env s)
    (hstep : MirrorSteps env config s event s') : Mirrored env s' := by
  obtain ⟨⟨hstep, hquiet⟩, hkind⟩ := hstep
  cases transition_of_steps hstep with
  | requested => exact h.congr rfl rfl rfl rfl rfl
  | replied => exact h.congr rfl rfl rfl rfl rfl
  | exhausted => exact h.congr rfl rfl rfl rfl rfl
  | skipped => exact h.congr rfl rfl rfl rfl rfl
  | refused => exact h.congr rfl rfl rfl rfl rfl
  | accepted => exact h.congr rfl rfl rfl rfl rfl
  | handedOver => exact h.congr rfl rfl rfl rfl rfl
  | begun hexecutor => exact h.congr (by rw [hexecutor]; rfl) rfl rfl rfl rfl
  | @planned block trx rest plan hexecutor hplan =>
      obtain ⟨records, howed, htables⟩ := h.tables
      rw [hexecutor] at howed
      cases howed
      exact ⟨h.running, [], owed_effects plan, htables⟩
  | appended ok hexecutor =>
      obtain ⟨records, howed, htables⟩ := h.tables
      rw [hexecutor] at howed
      obtain ⟨left, rfl, howed'⟩ := howed.appended
      exact ⟨h.running, left, howed', htables⟩
  | saved ok hexecutor =>
      simp only [undisturbed, hexecutor, effectsOf, List.head?_cons, Option.all_some,
        Bool.and_eq_true] at hquiet
      simp only [keepsKind, hexecutor, effectsOf, List.head?_cons] at hkind
      obtain ⟨rfl, hknown⟩ := hquiet
      exact (h.saved hexecutor hkind hknown).congr (by simp [effectsOf]) rfl rfl rfl rfl
  | ended hexecutor => exact h.congr (by rw [hexecutor]; rfl) rfl rfl rfl rfl
  | flushed => exact h.flushed
  | executed hpending =>
      obtain ⟨records, howed, htables⟩ := h.tables
      rw [hpending] at htables
      exact ⟨h.running, records, howed, htables⟩
  | unconnected => simp [undisturbed] at hquiet
  | restarted => simp [undisturbed] at hquiet

theorem mirrored_of_run {db : Store String} {events : List Event}
    (hrun : Run (MirrorSteps env config) (Server.boot db) events s) : Mirrored env s := by
  refine Run.state_invariant (fun _ => True) (Mirrored env) ?_ ?_ hrun fun _ _ => trivial
  · exact ⟨rfl, [], .done, rfl⟩
  · exact fun _ _ _ _ h hstep => mirrored_step h hstep

theorem Owed.eq_unappended {effects : List Effect} {records : List Message}
    (h : Owed effects records) : records = unappended effects := by
  cases h <;> rfl

/-- In every state of every interleaving in which no `Put` replaces a record of the
other kind: the tables, with the queued statements, then the pending tuples and
then those of the records saved but not appended yet written into them, are the
projection of LevelDB. Between a save and its append the last part is one
record or two, elsewhere there is none. -/
theorem tables_mirror_leveldb {db : Store String} {events : List Event}
    (hrun : Run (MirrorSteps env config) (Server.boot db) events s) :
    (settledTables s).applyTask
        (appendAll env (unappended (effectsOf s.executor)) {}) = projected env s.torrents ∧
      (unappended (effectsOf s.executor) = [] →
        settledTables s = projected env s.torrents ∧
          (s.batchQueue.pending = [] → s.mysqlTask = {} →
            s.tables = projected env s.torrents)) := by
  obtain ⟨records, howed, htables⟩ := (mirrored_of_run hrun).tables
  obtain rfl := howed.eq_unappended
  rw [appendAll_eq_concat, Tables.applyTask_concat] at htables
  refine ⟨htables, fun hnone => ?_⟩
  have hsettled : settledTables s = projected env s.torrents := by
    rw [hnone] at htables
    exact htables
  refine ⟨hsettled, fun hqueue htask => ?_⟩
  rw [← hsettled, settledTables, hqueue, htask]
  rfl

section Sample

/-- A torrent is created, changed and payed for, its first row flushed before the change. -/
def mirrorBlock : SignedBlock where
  blockNum := 1
  transactions := [sampleCreate.trx, sampleUpdate.trx, samplePayment.trx]

def mirrorEvents : List Event :=
  [.request, .reply (.result 7 [.block mirrorBlock]), .scan true, .putBlockExeQueue,
    .beginBlock, .beginTransaction, .effect true, .effect true, .flush,
    .beginTransaction, .effect true, .effect true, .execute true,
    .beginTransaction, .effect true, .effect true, .effect true, .flush, .effect true,
    .endBlock, .execute true, .execute true, .flush, .execute true]

theorem sample_tables_mirror_leveldb :
    ∃ s, Run (MirrorSteps .oneAsset sampleConfig) (Server.boot Store.empty) mirrorEvents s ∧
      s.tables = projected .oneAsset s.torrents ∧
      (s.tables.torrent sampleCreateOperation.id.str).map (fun row => (row.percent, row.payTimes)) =
        some (20, 1) ∧
      (s.tables.torrentPayment samplePayment.trx.id.str).isSome = true := by
  have hchecked : Run (fun s event s' => s.Steps .oneAsset sampleConfig event s' ∧
      (undisturbed .oneAsset s event && keepsKind s event) = true) (Server.boot Store.empty)
      mirrorEvents _ := run_of_checked rfl
  have hrun : Run (MirrorSteps .oneAsset sampleConfig) (Server.boot Store.empty) mirrorEvents _ :=
    hchecked.imp fun event _ s s' hstep => by
      rw [Bool.and_eq_true] at hstep
      exact ⟨⟨hstep.1, hstep.2.1⟩, hstep.2.2⟩
  exact ⟨_, hrun, ((tables_mirror_leveldb hrun).2 rfl).2 rfl rfl, rfl, rfl⟩

end Sample

section OtherKind

def otherKindBlock : SignedBlock where
  blockNum := 1
  transactions :=
    [sampleCreate.trx, samplePayment.trx,
      .accepted (.ofDigit '6' rfl)
        (.torrentCreate { sampleCreateOperation with id := samplePayment.trx.id })]

def otherKindEvents : List Event :=
  [.request, .reply (.result 7 [.block otherKindBlock]), .scan true, .putBlockExeQueue,
    .beginBlock, .beginTransaction, .effect true, .effect true,
    .beginTransaction, .effect true, .effect true, .effect true, .effect true,
    .beginTransaction, .effect true, .effect true]

/-- The torrent takes the payment's place in LevelDB; the payment keeps its row. -/
theorem stale_payment_row :
    ¬ ∀ (env : Environment) (config : Config) (db : Store String) (events : List Event)
      (s : Server), Run (UndisturbedSteps env config) (Server.boot db) events s →
      unappended (effectsOf s.executor) = [] →
      settledTables s = projected env s.torrents := by
  intro hall
  have hrun : Run (UndisturbedSteps .oneAsset sampleConfig) (Server.boot Store.empty)
      otherKindEvents _ := run_of_checked rfl
  have hmirror := hall .oneAsset sampleConfig Store.empty otherKindEvents _ hrun rfl
  have hrow := congrArg
    (fun tables => (tables.torrentPayment samplePayment.trx.id.str).isSome) hmirror
  exact absurd hrow (by decide)

end OtherKind

end TorrentServer.TableMirror
