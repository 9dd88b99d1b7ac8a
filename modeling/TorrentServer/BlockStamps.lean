import TorrentServer.BlockOrder
import TorrentServer.TableMirror
import TorrentServer.TransactionPlans

namespace TorrentServer.BlockStamps

open TorrentServer.Records
open TorrentServer.ChainLibrary
open TorrentServer.MysqlTables
open TorrentServer.TorrentDatabase
open TorrentServer.HandleBlock
open TorrentServer.TransactionPlans
open TorrentServer.Checkpoint
open TorrentServer.ServerMachine
open TorrentServer.BlockOrder
open TorrentServer.TableMirror
open TorrentServer.Library.KeyedTable
open TorrentServer.Library.KeyValueStore
open TorrentServer.Library.Runs
open TorrentServer.Library.TaskQueues

variable {env : Environment} {config : Config} {s s' : Server} {P Q : Message → Prop}

section Kept

/-- The row of a record with the property. -/
def TorrentRowOf (env : Environment) (P : Message → Prop) (row : TorrentRow) : Prop :=
  ∃ t, P (.torrent t) ∧ torrentRow env t = some row

def PaymentRowOf (env : Environment) (P : Message → Prop) (row : TorrentPaymentRow) : Prop :=
  ∃ tp, P (.torrentPayment tp) ∧ torrentPaymentRow env tp = some row

structure RowsOf (env : Environment) (P : Message → Prop) (task : MysqlTask) : Prop where
  torrent : ∀ row ∈ task.torrent, TorrentRowOf env P row
  torrentPayment : ∀ row ∈ task.torrentPayment, PaymentRowOf env P row

structure TablesOf (env : Environment) (P : Message → Prop) (tables : Tables) : Prop where
  torrent : ∀ id row, tables.torrent id = some row → TorrentRowOf env P row
  torrentPayment : ∀ id row, tables.torrentPayment id = some row → PaymentRowOf env P row

/-- Wherever the server keeps a record or a row of one, the record has the property. -/
structure Kept (env : Environment) (P : Message → Prop) (s : Server) : Prop where
  stored : ∀ key record, s.torrents.get key = some record → P record
  effects : ∀ effect ∈ effectsOf s.executor, P (recordOf effect)
  task : RowsOf env P s.mysqlTask
  queued : ∀ statement ∈ s.batchQueue.pending, RowsOf env P statement.tuples
  tables : TablesOf env P s.tables

theorem RowsOf.mono (himp : ∀ record, P record → Q record) {task : MysqlTask}
    (h : RowsOf env P task) : RowsOf env Q task where
  torrent row hrow := by
    obtain ⟨t, ht, heq⟩ := h.torrent row hrow
    exact ⟨t, himp _ ht, heq⟩
  torrentPayment row hrow := by
    obtain ⟨tp, htp, heq⟩ := h.torrentPayment row hrow
    exact ⟨tp, himp _ htp, heq⟩

theorem Kept.mono (himp : ∀ record, P record → Q record) (h : Kept env P s) : Kept env Q s where
  stored key record hget := himp _ (h.stored key record hget)
  effects effect heffect := himp _ (h.effects effect heffect)
  task := h.task.mono himp
  queued statement hstatement := (h.queued statement hstatement).mono himp
  tables :=
    { torrent := fun id row hrow => by
        obtain ⟨t, ht, heq⟩ := h.tables.torrent id row hrow
        exact ⟨t, himp _ ht, heq⟩
      torrentPayment := fun id row hrow => by
        obtain ⟨tp, htp, heq⟩ := h.tables.torrentPayment id row hrow
        exact ⟨tp, himp _ htp, heq⟩ }

theorem RowsOf.empty : RowsOf env P {} := ⟨by simp, by simp⟩

theorem RowsOf.append {record : Message} {task : MysqlTask} (hrecord : P record)
    (h : RowsOf env P task) : RowsOf env P (appendRecord env record task) := by
  cases record with
  | torrent t =>
      cases hrow : torrentRow env t with
      | none => simpa only [appendRecord, appendTorrentCreate, hrow] using h
      | some row =>
          simp only [appendRecord, appendTorrentCreate, hrow]
          refine ⟨fun other hother => ?_, h.torrentPayment⟩
          rcases List.mem_append.mp hother with hother | hother
          · exact h.torrent other hother
          · rw [List.mem_singleton.mp hother]
            exact ⟨t, hrecord, hrow⟩
  | torrentPayment tp =>
      cases hrow : torrentPaymentRow env tp with
      | none => simpa only [appendRecord, appendTorrentPayment, hrow] using h
      | some row =>
          simp only [appendRecord, appendTorrentPayment, hrow]
          refine ⟨h.torrent, fun other hother => ?_⟩
          rcases List.mem_append.mp hother with hother | hother
          · exact h.torrentPayment other hother
          · rw [List.mem_singleton.mp hother]
            exact ⟨tp, hrecord, hrow⟩

theorem RowsOf.statements {task : MysqlTask} (h : RowsOf env P task) :
    ∀ statement ∈ task.statements, RowsOf env P statement.tuples := by
  intro statement hstatement
  simp only [MysqlTask.statements, List.mem_append, List.mem_ite_nil_left,
    List.mem_singleton] at hstatement
  rcases hstatement with ⟨-, rfl⟩ | ⟨-, rfl⟩
  · exact ⟨by simp [Statement.tuples], h.torrentPayment⟩
  · exact ⟨h.torrent, by simp [Statement.tuples]⟩

theorem TablesOf.execute {tables : Tables} {statement : Statement} (h : TablesOf env P tables)
    (hrows : RowsOf env P statement.tuples) : TablesOf env P (tables.execute statement) := by
  cases statement with
  | replaceTorrent rows =>
      refine ⟨fun id row hrow => ?_, h.torrentPayment⟩
      rcases mem_of_replaceInto _ _ hrow with hmem | hold
      · exact hrows.torrent row hmem
      · exact h.torrent id row hold
  | replaceTorrentPayment rows =>
      refine ⟨h.torrent, fun id row hrow => ?_⟩
      rcases mem_of_replaceInto _ _ hrow with hmem | hold
      · exact hrows.torrentPayment row hmem
      · exact h.torrentPayment id row hold

theorem Kept.congr (h : Kept env P s) (htorrents : s'.torrents = s.torrents)
    (hexecutor : effectsOf s'.executor = effectsOf s.executor)
    (htask : s'.mysqlTask = s.mysqlTask) (hqueue : s'.batchQueue = s.batchQueue)
    (htables : s'.tables = s.tables) : Kept env P s' where
  stored := htorrents ▸ h.stored
  effects := hexecutor ▸ h.effects
  task := htask ▸ h.task
  queued := hqueue ▸ h.queued
  tables := htables ▸ h.tables

theorem recordOf_effects {plan : Plan} {effect : Effect} (h : effect ∈ plan.effects) :
    recordOf effect ∈ plan.records := by
  cases plan with
  | skip => cases h
  | saveTorrent t =>
      simp only [Plan.effects, List.mem_cons, List.not_mem_nil, or_false] at h
      rcases h with rfl | rfl <;> simp [Plan.records, recordOf]
  | savePayment tp =>
      simp only [Plan.effects, List.mem_cons, List.not_mem_nil, or_false] at h
      rcases h with rfl | rfl <;> simp [Plan.records, recordOf]
  | savePaymentThenTorrent tp t =>
      simp only [Plan.effects, List.mem_cons, List.not_mem_nil, or_false] at h
      rcases h with rfl | rfl | rfl | rfl <;> simp [Plan.records, recordOf]

theorem stored_saveOrUpdate {db : Database} {record other : Message} {ok : Bool} {key : String}
    (hget : (saveOrUpdate db record ok).get key = some other) :
    db.get key = some other ∨ other = record ∧ key = record.key := by
  cases ok with
  | false => exact .inl hget
  | true =>
      rw [get_saveOrUpdate] at hget
      split at hget
      · exact .inr ⟨(Option.some.inj hget).symm, ‹_›⟩
      · exact .inl hget

/-- A step keeps a property that is kept by planning: no other step makes a record. -/
theorem kept_step {event : Event}
    (hplanned : ∀ block trx rest plan, s.executor = .handling block [] (trx :: rest) →
      Planned env s.torrents block.blockNum trx plan → ∀ record ∈ plan.records, P record)
    (h : Kept env P s) (hstep : s.Steps env config event s') : Kept env P s' := by
  cases transition_of_steps hstep with
  | requested => exact h.congr rfl rfl rfl rfl rfl
  | replied => exact h.congr rfl rfl rfl rfl rfl
  | exhausted => exact h.congr rfl rfl rfl rfl rfl
  | skipped => exact h.congr rfl rfl rfl rfl rfl
  | refused => exact h.congr rfl rfl rfl rfl rfl
  | accepted => exact h.congr rfl rfl rfl rfl rfl
  | handedOver => exact h.congr rfl rfl rfl rfl rfl
  | begun hexecutor => exact h.congr rfl (by rw [hexecutor]; rfl) rfl rfl rfl
  | @planned block trx rest plan hexecutor hplan =>
      refine ⟨h.stored, fun effect heffect => ?_, h.task, h.queued, h.tables⟩
      exact hplanned block trx rest plan hexecutor (planned_of_transactionPlan hplan) _
        (recordOf_effects heffect)
  | @appended block record effects rest ok hexecutor =>
      have heffects := h.effects
      rw [hexecutor, effectsOf, List.forall_mem_cons] at heffects
      exact ⟨h.stored, heffects.2, h.task.append heffects.1, h.queued, h.tables⟩
  | @saved block record required effects rest ok hexecutor =>
      have heffects := h.effects
      rw [hexecutor, effectsOf, List.forall_mem_cons] at heffects
      refine ⟨fun key other hget => ?_, fun effect heffect => ?_, h.task, h.queued, h.tables⟩
      · rcases stored_saveOrUpdate hget with hold | ⟨rfl, -⟩
        · exact h.stored key other hold
        · exact heffects.1
      · apply heffects.2
        by_cases hfailed : (required && !ok) = true
        · simp [effectsOf, hfailed] at heffect
        · simpa [effectsOf, hfailed] using heffect
  | ended hexecutor => exact h.congr rfl (by rw [hexecutor]; rfl) rfl rfl rfl
  | flushed =>
      refine ⟨h.stored, h.effects, .empty, fun statement hstatement => ?_, h.tables⟩
      rcases ExecutionQueue.mem_pending_executeAll hstatement with hold | hnew
      · exact h.queued statement hold
      · exact h.task.statements statement hnew
  | executed hpending =>
      have hqueued := h.queued
      rw [hpending, List.forall_mem_cons] at hqueued
      exact ⟨h.stored, h.effects, h.task, hqueued.2, h.tables.execute hqueued.1⟩
  | unconnected hpending =>
      have hqueued := h.queued
      rw [hpending, List.forall_mem_cons] at hqueued
      exact ⟨h.stored, h.effects, h.task, hqueued.2, h.tables⟩
  | restarted =>
      refine ⟨h.stored, fun effect heffect => ?_, .empty, fun statement hstatement => ?_, h.tables⟩
      · cases heffect
      · cases hstatement

theorem kept_boot (db : Store String) : Kept env P (Server.boot db) := by
  refine ⟨fun key record hget => ?_, fun effect heffect => ?_, .empty,
    fun statement hstatement => ?_, ⟨fun id row hrow => ?_, fun id row hrow => ?_⟩⟩
  · simp [Server.boot] at hget
  · cases heffect
  · cases hstatement
  · cases hrow
  · cases hrow

end Kept

section Stamps

variable {begun : List SignedBlock} {blockNum : UInt64} {db : Database}
  {trx : ProcessedTransaction} {plan : Plan}

/-- The block numbers in a record. -/
def stampsOf : Message → List UInt64
  | .torrent t => [t.createBlock, t.lastModify]
  | .torrentPayment tp => [tp.createTime, tp.selttementTime, tp.refundTime]

/-- No stamp yet, or the number of one of the blocks. -/
def Stamp (begun : List SignedBlock) (stamp : UInt64) : Prop :=
  stamp = 0 ∨ ∃ b ∈ begun, b.blockNum = stamp

def StampedBy (begun : List SignedBlock) (record : Message) : Prop :=
  ∀ stamp ∈ stampsOf record, Stamp begun stamp

theorem Stamp.zero : Stamp begun 0 := .inl rfl

theorem stamp_append {stamp : UInt64} {b : SignedBlock} (h : Stamp begun stamp) :
    Stamp (begun ++ [b]) stamp :=
  h.imp_right fun ⟨other, hother, hnum⟩ => ⟨other, List.mem_append_left _ hother, hnum⟩

theorem stampedBy_torrent {t : Torrent} : StampedBy begun (.torrent t) ↔
    Stamp begun t.createBlock ∧ Stamp begun t.lastModify := by
  simp [StampedBy, stampsOf]

theorem stampedBy_payment {tp : TorrentPayment} : StampedBy begun (.torrentPayment tp) ↔
    Stamp begun tp.createTime ∧ Stamp begun tp.selttementTime ∧ Stamp begun tp.refundTime := by
  simp [StampedBy, stampsOf]

/-- The stamps of the one kind have the field numbers of those of the other. -/
theorem StampedBy.parsedTorrent {m : Message} (h : StampedBy begun m) :
    StampedBy begun (.torrent m.parseTorrent) := by
  cases m with
  | torrent t => exact h
  | torrentPayment tp =>
      obtain ⟨hcreate, hselttement, -⟩ := stampedBy_payment.mp h
      exact stampedBy_torrent.mpr ⟨hcreate, hselttement⟩

theorem StampedBy.parsedPayment {m : Message} (h : StampedBy begun m) :
    StampedBy begun (.torrentPayment m.parseTorrentPayment) := by
  cases m with
  | torrentPayment tp => exact h
  | torrent t =>
      obtain ⟨hcreate, hmodify⟩ := stampedBy_torrent.mp h
      exact stampedBy_payment.mpr ⟨hcreate, hmodify, .zero⟩

/-- A transaction stamps with the number of its block or leaves what is there. -/
theorem stamped_of_planned (hblock : Stamp begun blockNum)
    (hstored : ∀ key record, db.get key = some record → StampedBy begun record)
    (hplan : Planned env db blockNum trx plan) :
    ∀ record ∈ plan.records, StampedBy begun record := by
  have htorrent : ∀ {key : String} {t : Torrent}, getTorrent db key = some t →
      StampedBy begun (.torrent t) := by
    intro key t ht
    obtain ⟨m, hm, rfl⟩ := Option.map_eq_some_iff.mp ht
    exact (hstored key m hm).parsedTorrent
  have hpayment : ∀ {id : HashId} {tp : TorrentPayment}, getTorrentPayment db id = some tp →
      StampedBy begun (.torrentPayment tp) := by
    intro id tp htp
    obtain ⟨m, hm, rfl⟩ := Option.map_eq_some_iff.mp htp
    exact (hstored id.str m hm).parsedPayment
  cases hplan with
  | skip => simp [Plan.records]
  | created op hop =>
      rw [Plan.records, List.forall_mem_singleton]
      exact stampedBy_torrent.mpr ⟨hblock, hblock⟩
  | updated op t hop ht =>
      rw [Plan.records, List.forall_mem_singleton]
      exact stampedBy_torrent.mpr ⟨(stampedBy_torrent.mp (htorrent ht)).1, hblock⟩
  | payed op t hop ht hpieces =>
      have hold := stampedBy_torrent.mp (htorrent ht)
      rw [Plan.records, List.forall_mem_cons, List.forall_mem_singleton]
      exact ⟨stampedBy_payment.mpr ⟨hblock, .zero, .zero⟩, stampedBy_torrent.mpr hold⟩
  | seltted op tp t hop htp ht =>
      have hold := stampedBy_torrent.mp (htorrent ht)
      obtain ⟨hcreate, -, hrefund⟩ := stampedBy_payment.mp (hpayment htp)
      rw [Plan.records, List.forall_mem_cons, List.forall_mem_singleton]
      exact ⟨stampedBy_payment.mpr ⟨hcreate, hblock, hrefund⟩, stampedBy_torrent.mpr hold⟩
  | receipted op tp hop htp =>
      have hold := stampedBy_payment.mp (hpayment htp)
      rw [Plan.records, List.forall_mem_singleton]
      exact stampedBy_payment.mpr hold
  | refunded op tp hop htp =>
      obtain ⟨hcreate, hselttement, -⟩ := stampedBy_payment.mp (hpayment htp)
      rw [Plan.records, List.forall_mem_singleton]
      exact stampedBy_payment.mpr ⟨hcreate, hselttement, hblock⟩
  | increased op tp hop htp =>
      have hold := stampedBy_payment.mp (hpayment htp)
      rw [Plan.records, List.forall_mem_singleton]
      exact stampedBy_payment.mpr hold
  | settled op proposal tp tp' hop hproposal htp hsettle =>
      have hold := stampedBy_payment.mp (hpayment htp)
      obtain ⟨payPieces, rfl⟩ := settle_eq hsettle
      rw [Plan.records, List.forall_mem_singleton]
      exact stampedBy_payment.mpr hold

/-- The block at hand has been begun, and all records carry stamps of begun blocks. -/
structure Stamped (env : Environment) (s : Server) : Prop where
  handling : ∀ block effects rest, s.executor = .handling block effects rest →
    block ∈ s.history.begun
  kept : Kept env (StampedBy s.history.begun) s

theorem stamped_step {event : Event} (h : Stamped env s)
    (hstep : s.Steps env config event s') : Stamped env s' := by
  have hkept : Kept env (StampedBy s.history.begun) s' :=
    kept_step (fun block trx rest plan hexecutor hplan =>
      stamped_of_planned (.inr ⟨block, h.handling _ _ _ hexecutor, rfl⟩) h.kept.stored hplan)
      h.kept hstep
  have hsame : s'.executor = s.executor → s'.history.begun = s.history.begun → Stamped env s' := by
    intro hexecutor hbegun
    refine ⟨?_, hbegun ▸ hkept⟩
    rw [hexecutor, hbegun]
    exact h.handling
  cases transition_of_steps hstep with
  | begun hexecutor hpending =>
      refine ⟨?_, hkept.mono fun record hrecord stamp hstamp => stamp_append (hrecord stamp hstamp)⟩
      rintro block effects rest heq
      cases heq
      simp
  | planned hexecutor hplan =>
      refine ⟨?_, hkept⟩
      rintro block effects rest heq
      cases heq
      exact h.handling _ _ _ hexecutor
  | appended ok hexecutor =>
      refine ⟨?_, hkept⟩
      rintro block effects rest heq
      cases heq
      exact h.handling _ _ _ hexecutor
  | saved ok hexecutor =>
      refine ⟨?_, hkept⟩
      rintro block effects rest heq
      cases heq
      exact h.handling _ _ _ hexecutor
  | ended hexecutor => exact ⟨by simp, hkept⟩
  | restarted => exact ⟨by simp [Server.restart, Server.boot], hkept⟩
  | _ => exact hsame rfl rfl

theorem stamped_of_run {db : Store String} {events : List Event}
    (hrun : Run (Server.Steps env config) (Server.boot db) events s) : Stamped env s := by
  refine Run.state_invariant (fun _ => True) (Stamped env) ?_ ?_ hrun fun _ _ => trivial
  · exact ⟨by simp [Server.boot], kept_boot db⟩
  · exact fun _ _ _ _ h hstep => stamped_step h hstep

/-- No stamp yet, or the number of a block whose handling has begun, which the checkpoint
is past. -/
def Handled (s : Server) (stamp : UInt64) : Prop :=
  stamp = 0 ∨ (∃ b ∈ s.history.begun, b.blockNum = stamp) ∧
    stamp.toNat < persistedTotal s.blocks.db

theorem handled_of_stamp {n : Nat} (hordered : Ordered config s n) {stamp : UInt64}
    (h : Stamp s.history.begun stamp) : Handled s stamp := by
  refine h.imp_right fun ⟨b, hb, hnum⟩ => ⟨⟨b, hb, hnum⟩, ?_⟩
  have henqueued : b ∈ s.history.enqueued :=
    hordered.handled.subset (List.mem_append_left _ hb)
  have hbelow := hordered.below b (List.mem_append_left _ henqueued)
  rwa [persistedTotal_of_stored hordered.holds.stored, ← hnum]

/-- As long as the two kinds of records are not mixed, nothing in LevelDB or MySQL is stamped
with a block that has not been handed over, or ahead of the checkpoint: not after any
crash, any failed write or any lost statement. -/
theorem stamps_below_checkpoint {db : Store String} {events : List Event} {n : Nat}
    (hdb : Stored db n) (hrun : Run (KindSteps env config) (Server.boot db) events s)
    (hevents : ∀ event ∈ events, NumbersBelow event) :
    (∀ key record, s.torrents.get key = some record → ∀ stamp ∈ stampsOf record,
      Handled s stamp) ∧
    (∀ id row, s.tables.torrent id = some row →
      Handled s row.createBlock ∧ Handled s row.lastModify) ∧
    ∀ id row, s.tables.torrentPayment id = some row →
      Handled s row.createTime ∧ Handled s row.selttementTime ∧ Handled s row.refundTime := by
  have hserver : Run (Server.Steps env config) (Server.boot db) events s :=
    hrun.imp fun _ _ _ _ hstep => hstep.1
  obtain ⟨n', hordered⟩ := ordered_of_run hdb hserver hevents
  have hkept := (stamped_of_run hserver).kept
  refine ⟨fun key record hget stamp hstamp => ?_, fun id row hrow => ?_, fun id row hrow => ?_⟩
  · exact handled_of_stamp hordered (hkept.stored key record hget stamp hstamp)
  · obtain ⟨t, ht, hof⟩ := hkept.tables.torrent id row hrow
    obtain ⟨as, -, rfl⟩ := Option.map_eq_some_iff.mp hof
    obtain ⟨hcreate, hmodify⟩ := stampedBy_torrent.mp ht
    exact ⟨handled_of_stamp hordered hcreate, handled_of_stamp hordered hmodify⟩
  · obtain ⟨tp, htp, hof⟩ := hkept.tables.torrentPayment id row hrow
    obtain ⟨as, -, rfl⟩ := Option.map_eq_some_iff.mp hof
    obtain ⟨hcreate, hselttement, hrefund⟩ := stampedBy_payment.mp htp
    exact ⟨handled_of_stamp hordered hcreate, handled_of_stamp hordered hselttement,
      handled_of_stamp hordered hrefund⟩

theorem sample_stamps_below_checkpoint :
    ∃ s row, Run (KindSteps .oneAsset sampleConfig) (Server.boot Store.empty)
        (sampleAccept ++ [.putBlockExeQueue] ++ sampleHandle ++ [.flush, .execute true, .restart])
        s ∧ s.tables.torrent sampleCreateOperation.id.str = some row ∧
      Handled s row.lastModify := by
  have hrun : Run (KindSteps .oneAsset sampleConfig) (Server.boot Store.empty)
      (sampleAccept ++ [.putBlockExeQueue] ++ sampleHandle ++ [.flush, .execute true, .restart])
      _ := run_of_checked rfl
  have hdb : Stored Store.empty 0 := ⟨by norm_num, .inr ⟨rfl, rfl⟩⟩
  refine ⟨_, _, hrun, rfl, ((stamps_below_checkpoint hdb hrun ?_).2.1
    sampleCreateOperation.id.str _ rfl).2⟩
  simp [sampleAccept, sampleHandle, NumbersBelow, Below, sampleBlock]

end Stamps

end TorrentServer.BlockStamps
