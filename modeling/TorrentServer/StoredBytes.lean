import TorrentServer.RecordBytes
import TorrentServer.TableMirror
import TorrentServer.TypedRuns

/-!
`torrent_database` on the bytes it stores, and `handle_block` over it. A run on bytes is one
of `HandleBlock`, where a value of the database is the record it was written from, as long as
no record is read as one of the other kind.
-/

namespace TorrentServer.StoredBytes

open TorrentServer.Records
open TorrentServer.ChainLibrary
open TorrentServer.MysqlTables
open TorrentServer.TorrentDatabase
open TorrentServer.HandleBlock
open TorrentServer.TransactionPlans
open TorrentServer.ReplaceStatements (OrderedPayment)
open TorrentServer.TypedRuns
open TorrentServer.TableMirror (sameKind)
open TorrentServer.RecordBytes
open TorrentServer.Library.KeyValueStore
open TorrentServer.Library.Runs
open TorrentServer.Library.WireFormat

section Machine

abbrev ByteDatabase := Store Bytes

def getTorrent (db : ByteDatabase) (torrentId : String) : Option Torrent :=
  (db.get torrentId).map fun bytes => (parseTorrent bytes).message

def hasTorrent (db : ByteDatabase) (torrentId : String) : Bool :=
  (db.get torrentId).isSome

def getTorrentPayment (db : ByteDatabase) (torrentPaymentId : HashId) : Option TorrentPayment :=
  (db.get torrentPaymentId.str).map fun bytes => (parseTorrentPayment bytes).message

def hasTorrentPayment (db : ByteDatabase) (torrentPaymentId : String) : Bool :=
  (db.get torrentPaymentId).isSome

structure ByteState where
  db : ByteDatabase
  mysqlTask : MysqlTask

def ByteState.empty : ByteState := { db := Store.empty, mysqlTask := {} }

def unknownIn (bytes : Bytes) : Message → List WireField
  | .torrent _ => (parseTorrent bytes).unknown
  | .torrentPayment _ => (parseTorrentPayment bytes).unknown

/-- A record that was read from the database is saved with the fields its kind did not know.
Before its version 3.5 the library dropped them. -/
def Keeps (start : ByteDatabase) (record : Message) (unknown : List WireField) : Prop :=
  unknown = [] ∨ ∃ bytes, start.get record.key = some bytes ∧ unknown = unknownIn bytes record

/-- The effects of a branch that has read from `start`, each save with one of the texts its
record is serialized to. -/
inductive Performs (env : Environment) (start : ByteDatabase) :
    List Effect → List Bool → ByteState → ByteState → Prop
  | done (puts : List Bool) (s : ByteState) : Performs env start [] puts s s
  | append {record : Message} {rest : List Effect} {puts : List Bool} {s s' : ByteState}
      (hrest : Performs env start rest puts
        { s with mysqlTask := appendRecord env record s.mysqlTask } s') :
      Performs env start (.append record :: rest) puts s s'
  | failed (record : Message) (rest : List Effect) {puts : List Bool} (s : ByteState)
      (hput : putOutcome puts 0 = false) :
      Performs env start (.save record true :: rest) puts s s
  | save {record : Message} {required : Bool} {rest : List Effect} {puts : List Bool}
      {s s' : ByteState} {unknown : List WireField} {bytes : Bytes}
      (hkeeps : Keeps start record unknown) (hbytes : Serialized record unknown bytes)
      (hgoes : (required && !putOutcome puts 0) = false)
      (hrest : Performs env start rest puts.tail
        { s with db := s.db.put record.key bytes (putOutcome puts 0) } s') :
      Performs env start (.save record required :: rest) puts s s'

/-- A database of records that answers both getters alike. A branch sees nothing else of it. -/
structure ReadsAs (bytes : ByteDatabase) (db : Database) : Prop where
  torrent : ∀ id, getTorrent bytes id = TorrentDatabase.getTorrent db id
  payment : ∀ id, getTorrentPayment bytes id = TorrentDatabase.getTorrentPayment db id

/-- One transaction: a branch is taken on what the two getters return, and carried out. -/
def HandlesBytes (env : Environment) (s : ByteState) (step : Step) (s' : ByteState) : Prop :=
  ∃ db plan, ReadsAs s.db db ∧ transactionPlan env db step.blockNum step.trx = .ok plan ∧
    Performs env s.db plan.effects step.puts s s'

end Machine

section Simulation

variable {env : Environment} {bytes : ByteDatabase} {db db' : Database} {s s' : ByteState}
  {state : ServerState} {effects : List Effect} {puts : List Bool} {step : Step}

/-- The server never sets the time of a record. -/
def Untimed (m : Message) : Prop := timeOf m = 0

/-- Under a key there is nothing, or a record and its bytes. -/
def Stores (bytes : ByteDatabase) (db : Database) : Prop :=
  ∀ key, Option.Rel (fun text m => Serialized m [] text ∧ Untimed m) (bytes.get key) (db.get key)

theorem stores_empty : Stores Store.empty Store.empty := fun _ => .none

theorem Stores.isSome (h : Stores bytes db) (key : String) :
    (bytes.get key).isSome = (db.get key).isSome := by
  generalize bytes.get key = text, db.get key = m, h key = hrel
  cases hrel <;> rfl

theorem Stores.untimed (h : Stores bytes db) {key : String} {record : Message}
    (hget : db.get key = some record) : Untimed record := by
  have hrel := h key
  rw [hget] at hrel
  generalize bytes.get key = text at hrel
  cases hrel with
  | some hsome => exact hsome.2

theorem Untimed.plainTime {m : Message} (h : Untimed m) : PlainTime m := fun _ => h

theorem Stores.readsAs (h : Stores bytes db) : ReadsAs bytes db := by
  constructor
  · intro id
    unfold getTorrent TorrentDatabase.getTorrent
    generalize bytes.get id = text, db.get id = m, h id = hrel
    cases hrel with
    | none => rfl
    | some hsome =>
        obtain ⟨⟨unknown, hread, -⟩, -⟩ := serialized_read hsome.1 hsome.2.plainTime
        simp [hread]
  · intro id
    unfold getTorrentPayment TorrentDatabase.getTorrentPayment
    generalize bytes.get id.str = text, db.get id.str = m, h id.str = hrel
    cases hrel with
    | none => rfl
    | some hsome =>
        obtain ⟨-, unknown, hread, -⟩ := serialized_read hsome.1 hsome.2.plainTime
        simp [hread]

theorem Stores.put (h : Stores bytes db) {record : Message} {text : Bytes}
    (hbytes : Serialized record [] text) (htime : Untimed record) (ok : Bool) :
    Stores (bytes.put record.key text ok) (saveOrUpdate db record ok) := by
  cases ok with
  | false => exact h
  | true =>
      intro key
      rw [Store.get_put, get_saveOrUpdate]
      split
      · exact .some ⟨hbytes, htime⟩
      · exact h key

theorem transactionPlan_of_reads {blockNum : UInt64} {trx : ProcessedTransaction}
    (htorrent : ∀ id, TorrentDatabase.getTorrent db' id = TorrentDatabase.getTorrent db id)
    (hpayment : ∀ id,
      TorrentDatabase.getTorrentPayment db' id = TorrentDatabase.getTorrentPayment db id) :
    transactionPlan env db' blockNum trx = transactionPlan env db blockNum trx := by
  unfold transactionPlan
  simp only [htorrent, hpayment]

theorem untimed_of_getTorrent (hstored : ∀ key record, db.get key = some record → Untimed record)
    {key : String} {t : Torrent} (ht : TorrentDatabase.getTorrent db key = some t) :
    t.time = 0 := by
  obtain ⟨m, hm, rfl⟩ := Option.map_eq_some_iff.mp ht
  rw [← hstored key m hm]
  exact timeOf_parseTorrent m

theorem untimed_of_getTorrentPayment
    (hstored : ∀ key record, db.get key = some record → Untimed record)
    {id : HashId} {tp : TorrentPayment}
    (htp : TorrentDatabase.getTorrentPayment db id = some tp) : tp.time = 0 := by
  obtain ⟨m, hm, rfl⟩ := Option.map_eq_some_iff.mp htp
  rw [← hstored id.str m hm]
  exact timeOf_parseTorrentPayment m

theorem untimed_of_planned {blockNum : UInt64} {trx : ProcessedTransaction} {plan : Plan}
    (hstored : ∀ key record, db.get key = some record → Untimed record)
    (hplan : Planned env db blockNum trx plan) : ∀ record ∈ plan.records, Untimed record := by
  cases hplan with
  | skip => simp [Plan.records]
  | created op hop => exact List.forall_mem_singleton.mpr rfl
  | updated op t hop ht =>
      have htime := untimed_of_getTorrent hstored ht
      rw [Plan.records, List.forall_mem_singleton]
      exact htime
  | payed op t hop ht hpieces =>
      have htime := untimed_of_getTorrent hstored ht
      rw [Plan.records, List.forall_mem_cons, List.forall_mem_singleton]
      exact ⟨rfl, htime⟩
  | seltted op tp t hop htp ht =>
      have hpaymentTime := untimed_of_getTorrentPayment hstored htp
      have htorrentTime := untimed_of_getTorrent hstored ht
      rw [Plan.records, List.forall_mem_cons, List.forall_mem_singleton]
      exact ⟨hpaymentTime, htorrentTime⟩
  | receipted op tp hop htp | refunded op tp hop htp | increased op tp hop htp =>
      have htime := untimed_of_getTorrentPayment hstored htp
      rw [Plan.records, List.forall_mem_singleton]
      exact htime
  | settled op proposal tp tp' hop hproposal htp hsettle =>
      obtain ⟨payPieces, rfl⟩ := settle_eq hsettle
      have htime := untimed_of_getTorrentPayment hstored htp
      rw [Plan.records, List.forall_mem_singleton]
      exact htime

/-- The states of the two levels belong together. -/
structure Simulates (s : ByteState) (state : ServerState) : Prop where
  db : Stores s.db state.db
  mysqlTask : s.mysqlTask = state.mysqlTask

theorem Simulates.performs {start : ByteDatabase} (h : Simulates s state)
    (hperforms : Performs env start effects puts s s')
    (htimes : ∀ record required, .save record required ∈ effects → Untimed record)
    (hkept : ∀ record required, .save record required ∈ effects →
      ∀ unknown, Keeps start record unknown → unknown = []) :
    Simulates s' (perform env effects puts state) := by
  induction hperforms generalizing state with
  | done puts s => exact h
  | append hrest ih =>
      refine ih ⟨h.db, ?_⟩ (fun record required hmem => htimes record required ?_)
        fun record required hmem => hkept record required ?_
      · rw [h.mysqlTask]
      · exact List.mem_cons_of_mem _ hmem
      · exact List.mem_cons_of_mem _ hmem
  | failed record rest s hput => simpa [perform, hput] using h
  | @save record required rest puts s s' unknown text hkeeps hbytes hgoes hrest ih =>
      obtain rfl := hkept record required List.mem_cons_self unknown hkeeps
      rw [perform]
      simp only [hgoes, Bool.false_eq_true, if_false]
      refine ih ⟨h.db.put hbytes (htimes record required List.mem_cons_self) _, h.mysqlTask⟩
        (fun other required hmem => htimes other required ?_)
        fun other required hmem => hkept other required ?_
      · exact List.mem_cons_of_mem _ hmem
      · exact List.mem_cons_of_mem _ hmem

/-- A record of the kind that is stored under its key has read no field it does not know. -/
theorem Stores.keeps_nil (h : Stores bytes db) {record : Message}
    (hkind : ∀ m, db.get record.key = some m → sameKind record m = true)
    {unknown : List WireField} (hkeeps : Keeps bytes record unknown) : unknown = [] := by
  rcases hkeeps with hnone | ⟨text, htext, rfl⟩
  · exact hnone
  · have hrel := h record.key
    rw [htext] at hrel
    generalize hm : db.get record.key = stored at hrel
    cases hrel with
    | @some _ m hsome =>
        obtain ⟨hserialized, htime⟩ := hsome
        have hsame := hkind m hm
        have hforeign : ForeignTo m [] := by cases m <;> simp [ForeignTo]
        obtain ⟨htorrent, hpayment⟩ := hserialized.own htime.plainTime hforeign
        cases record with
        | torrent t =>
            cases m with
            | torrent stored => rw [unknownIn, htorrent stored rfl]
            | torrentPayment stored => simp [sameKind] at hsame
        | torrentPayment tp =>
            cases m with
            | torrent stored => simp [sameKind] at hsame
            | torrentPayment stored => rw [unknownIn, hpayment stored rfl]

theorem Simulates.handles {steps : List Step} (h : Simulates s state)
    (htyped : Typed steps state.db) (hroles : RolesDisjoint (steps ++ [step]))
    (hstep : HandlesBytes env s step s') :
    ∃ state', Handles env state step state' ∧ Simulates s' state' ∧
      Typed (steps ++ [step]) state'.db := by
  obtain ⟨db, plan, hreads, hplan, hperforms⟩ := hstep
  have hagree := h.db.readsAs
  rw [transactionPlan_of_reads (fun id => (hreads.torrent id).symm.trans (hagree.torrent id))
    fun id => (hreads.payment id).symm.trans (hagree.payment id)] at hplan
  have hplanned := planned_of_transactionPlan hplan
  have htypedPlan := htyped.typedPlan hroles hplanned
  refine ⟨_, handles_iff.mpr ⟨plan, hplan, rfl⟩, h.performs hperforms ?_ ?_,
    htyped.performed hroles htypedPlan⟩
  · intro record required hmem
    exact untimed_of_planned (fun _ _ => h.db.untimed) hplanned record
      (mem_records_of_save_mem hmem)
  · intro record required hmem unknown hkeeps
    refine h.db.keeps_nil (fun m hm => ?_) hkeeps
    have hrecord := mem_records_of_save_mem hmem
    cases m with
    | torrent t =>
        obtain ⟨t', rfl⟩ := htyped.torrent_stays hroles htypedPlan hrecord hm
        rfl
    | torrentPayment tp =>
        obtain ⟨tp', rfl⟩ := htyped.payment_stays hroles htypedPlan hrecord hm
        rfl

theorem simulated_of_run {steps : List Step} (hrun : Run (HandlesBytes env) .empty steps s)
    (hroles : RolesDisjoint steps) :
    ∃ state, Run (Handles env) .empty steps state ∧ Simulates s state ∧
      Typed steps state.db := by
  refine Run.invariant RolesDisjoint (fun steps s => ∃ state, Run (Handles env) .empty steps state ∧
    Simulates s state ∧ Typed steps state.db) (fun _ _ => RolesDisjoint.of_append) ?_ ?_ hrun hroles
  · exact ⟨.empty, .nil, ⟨stores_empty, rfl⟩, typed_empty⟩
  · rintro steps step s s' hroles - ⟨state, hstate, hsimulates, htyped⟩ hstep
    obtain ⟨state', hhandles, hsimulates', htyped'⟩ := hsimulates.handles htyped hroles hstep
    exact ⟨state', hstate.snoc hhandles, hsimulates', htyped'⟩

/-- Every run on bytes, whatever the outcomes of the `Put`s and the orders in which maps are
serialized, is a run on records: with the same `g_mysql_task`, and with a database that
answers all four functions alike. -/
theorem runs_on_bytes_are_runs {steps : List Step}
    (hrun : Run (HandlesBytes env) .empty steps s) (hroles : RolesDisjoint steps) :
    ∃ state, Run (Handles env) .empty steps state ∧ s.mysqlTask = state.mysqlTask ∧
      (∀ id, getTorrent s.db id = TorrentDatabase.getTorrent state.db id) ∧
      (∀ id, getTorrentPayment s.db id = TorrentDatabase.getTorrentPayment state.db id) ∧
      ∀ id, hasTorrent s.db id = TorrentDatabase.hasTorrent state.db id ∧
        hasTorrentPayment s.db id = TorrentDatabase.hasTorrentPayment state.db id := by
  obtain ⟨state, hstate, hsimulates, -⟩ := simulated_of_run hrun hroles
  have hreads := hsimulates.db.readsAs
  have hhas := hsimulates.db.isSome
  exact ⟨state, hstate, hsimulates.mysqlTask, hreads.torrent, hreads.payment,
    fun id => ⟨hhas id, hhas id⟩⟩

/-- Records below two gigabytes can be saved, whatever the outcomes. -/
theorem performs_of_serialized {start : ByteDatabase}
    (hserialized : ∀ record required, .save record required ∈ effects →
      ∃ text, Serialized record [] text) (puts : List Bool) (s : ByteState) :
    ∃ s', Performs env start effects puts s s' := by
  induction effects generalizing puts s with
  | nil => exact ⟨s, .done puts s⟩
  | cons effect rest ih =>
      have hrest : ∀ record required, .save record required ∈ rest →
          ∃ text, Serialized record [] text := fun record required hmem =>
        hserialized record required (List.mem_cons_of_mem effect hmem)
      cases effect with
      | append record =>
          obtain ⟨s', hperforms⟩ :=
            ih hrest puts { s with mysqlTask := appendRecord env record s.mysqlTask }
          exact ⟨s', .append hperforms⟩
      | save record required =>
          obtain ⟨text, htext⟩ := hserialized record required List.mem_cons_self
          cases hgoes : required && !putOutcome puts 0 with
          | true =>
              obtain ⟨rfl, hput⟩ : required = true ∧ putOutcome puts 0 = false := by
                simpa using hgoes
              exact ⟨s, .failed record rest s hput⟩
          | false =>
              obtain ⟨s', hperforms⟩ :=
                ih hrest puts.tail { s with db := s.db.put record.key text (putOutcome puts 0) }
              exact ⟨s', .save (.inl rfl) htext hgoes hperforms⟩

/-- The other way round, a transaction over records can be handled on their bytes. -/
theorem exists_longer_run (step : Step) (plan : Plan) {steps : List Step}
    (hrun : Run (HandlesBytes env) .empty steps s) (hroles : RolesDisjoint steps)
    (hstate : Run (Handles env) .empty steps state)
    (hplan : transactionPlan env state.db step.blockNum step.trx = .ok plan)
    (hserialized : ∀ record ∈ plan.records, ∃ text, Serialized record [] text) :
    ∃ s', Run (HandlesBytes env) .empty (steps ++ [step]) s' := by
  obtain ⟨other, hother, hsimulates, -⟩ := simulated_of_run hrun hroles
  cases (run_iff_foldlM.mp hstate).symm.trans (run_iff_foldlM.mp hother)
  obtain ⟨s', hperforms⟩ := @performs_of_serialized env plan.effects s.db
    (fun record required hmem => hserialized record (mem_records_of_save_mem hmem)) step.puts s
  exact ⟨s', hrun.snoc ⟨state.db, plan, hsimulates.db.readsAs, hplan, hperforms⟩⟩

end Simulation

section Sample

def sampleTorrent : Torrent :=
  createdTorrent sampleCreate.trx 1 sampleCreateOperation

def samplePayed : OrderedPayment :=
  .fresh (createdPayment .oneAsset samplePayment.trx 2 samplePaymentOperation sampleTorrent) rfl rfl

def sampleUpdated : Torrent :=
  updatedTorrent 2 { id := sampleCreateOperation.id, amount := 2000, percent := 20 }
    (payedTorrent sampleTorrent)

/-- The torrent is changed after a payment for it has come. -/
def sampleSteps : List Step :=
  [sampleCreate, samplePayment, sampleUpdate]

theorem rolesDisjoint_sampleSteps : RolesDisjoint sampleSteps := by
  have htorrent : ∀ step ∈ sampleSteps,
      torrentIds step.trx = [sampleCreateOperation.id.str] := by
    simp only [sampleSteps, List.forall_mem_cons]
    exact ⟨rfl, rfl, rfl, by simp⟩
  have hpayment : ∀ step ∈ sampleSteps, ∀ id ∈ paymentIds step.trx,
      id = samplePayment.trx.id.str := by
    simp only [sampleSteps, List.forall_mem_cons]
    exact ⟨by simp [paymentIds, sampleCreate, ProcessedTransaction.accepted, handledOperation],
      List.forall_mem_singleton.mpr rfl,
      by simp [paymentIds, sampleUpdate, ProcessedTransaction.accepted, handledOperation], by simp⟩
  intro a ha b hb id hid hmem
  rw [htorrent a ha, List.mem_singleton] at hid
  rw [hid] at hmem
  exact absurd (hpayment b hb _ hmem) (by decide)

theorem sampleSteps_handled :
    ∃ s, Run (HandlesBytes .oneAsset) .empty sampleSteps s := by
  have hroles : RolesDisjoint ([sampleCreate, samplePayment] ++ [sampleUpdate]) :=
    rolesDisjoint_sampleSteps
  have hroles' : RolesDisjoint ([sampleCreate] ++ [samplePayment]) := hroles.of_append
  have htorrent : ∃ text, Serialized (.torrent sampleTorrent) [] text :=
    ⟨_, .torrent _ [] (by decide +kernel)⟩
  have hpayed : ∃ text, Serialized (.torrentPayment samplePayed.payment) [] text :=
    ⟨_, .torrentPayment samplePayed [] (by decide +kernel)⟩
  have hcounted : ∃ text, Serialized (.torrent (payedTorrent sampleTorrent)) [] text :=
    ⟨_, .torrent _ [] (by decide +kernel)⟩
  have hupdated : ∃ text, Serialized (.torrent sampleUpdated) [] text :=
    ⟨_, .torrent _ [] (by decide +kernel)⟩
  obtain ⟨s₁, hfirst⟩ := @exists_longer_run .oneAsset _ _ sampleCreate
    (.saveTorrent sampleTorrent) [] .nil (fun a ha => absurd ha List.not_mem_nil) .nil rfl
    (List.forall_mem_singleton.mpr htorrent)
  obtain ⟨s₂, hsecond⟩ := exists_longer_run samplePayment
    (.savePaymentThenTorrent samplePayed.payment (payedTorrent sampleTorrent)) hfirst
    hroles'.of_append (Run.cons rfl .nil) rfl
    (List.forall_mem_cons.mpr ⟨hpayed, List.forall_mem_singleton.mpr hcounted⟩)
  exact exists_longer_run sampleUpdate (.saveTorrent sampleUpdated) hsecond hroles.of_append
    (Run.cons rfl (Run.cons rfl .nil)) rfl (List.forall_mem_singleton.mpr hupdated)

theorem sampleSteps_records :
    ∃ state, sampleSteps.foldlM (handleTransaction .oneAsset) .empty = .ok state ∧
      TorrentDatabase.getTorrent state.db sampleCreateOperation.id.str = some sampleUpdated ∧
      TorrentDatabase.getTorrentPayment state.db samplePayment.trx.id = some samplePayed.payment :=
  ⟨_, rfl, rfl, rfl⟩

theorem sampleCreate_on_bytes_is_run :
    ∃ s state, Run (HandlesBytes .oneAsset) .empty sampleSteps s ∧
      Run (Handles .oneAsset) .empty sampleSteps state ∧ s.mysqlTask = state.mysqlTask ∧
      getTorrent s.db sampleCreateOperation.id.str = some sampleUpdated ∧
      getTorrentPayment s.db samplePayment.trx.id = some samplePayed.payment := by
  obtain ⟨s, hrun⟩ := sampleSteps_handled
  obtain ⟨state, hstate, htask, htorrent, hpayment, -⟩ :=
    runs_on_bytes_are_runs hrun rolesDisjoint_sampleSteps
  obtain ⟨known, hknown, hupdated, hpayed⟩ := sampleSteps_records
  obtain rfl : known = state := Except.ok.inj (hknown.symm.trans (run_iff_foldlM.mp hstate))
  exact ⟨s, known, hrun, hstate, htask, (htorrent _).trans hupdated, (hpayment _).trans hpayed⟩

end Sample

end TorrentServer.StoredBytes
