import TorrentServer.BlockStamps
import TorrentServer.Shutdown

namespace TorrentServer.TorrentVersions

open TorrentServer.Records
open TorrentServer.ChainLibrary
open TorrentServer.MysqlTables
open TorrentServer.TorrentDatabase
open TorrentServer.HandleBlock
open TorrentServer.TransactionPlans
open TorrentServer.Checkpoint
open TorrentServer.ServerMachine
open TorrentServer.BlockOrder
open TorrentServer.TableMirror
open TorrentServer.BlockStamps
open TorrentServer.Shutdown (tuplesOf tuplesOf_cons tuplesOf_append tuplesOf_statements)
open TorrentServer.Library.KeyedTable
open TorrentServer.Library.KeyValueStore
open TorrentServer.Library.Runs
open TorrentServer.Library.TaskQueues

variable {env : Environment} {config : Config} {s s' : Server} {db : Database}
  {record : Message} {row : TorrentRow} {t : Torrent} {effects : List Effect}

def version (row : TorrentRow) : ℕ := row.lastModify.toNat

def rowsOnWay (s : Server) : List TorrentRow :=
  (tuplesOf s.batchQueue.pending).torrent ++ s.mysqlTask.torrent

section Stored

def NoOlder (db : Database) (t : Torrent) : Prop :=
  ∀ old, db.get t.id = some (.torrent old) → old.lastModify.toNat ≤ t.lastModify.toNat

/-- The row is that of a stored torrent, or of an older version of it. -/
def NotAhead (db : Database) (row : TorrentRow) : Prop :=
  ∃ t, db.get row.id = some (.torrent t) ∧ version row ≤ t.lastModify.toNat

def UpToDate (db : Database) (t : Torrent) : Prop :=
  ∃ stored, db.get t.id = some (.torrent stored) ∧ stored.lastModify = t.lastModify

def Unchanged (db : Database) (t : Torrent) : Prop :=
  (db.get t.id).isSome ∧
    ∀ stored, db.get t.id = some (.torrent stored) → stored.lastModify = t.lastModify

/-- What has to hold of the effects at hand. A branch that does not stamp the torrent it
saves goes on without the `Put` if it fails. -/
inductive Due (db : Database) : List Effect → Prop
  | done : Due db []
  | torrent (t : Torrent) (hold : NoOlder db t) :
      Due db [.save (.torrent t) true, .append (.torrent t)]
  | payment (tp : TorrentPayment) :
      Due db [.save (.torrentPayment tp) true, .append (.torrentPayment tp)]
  | paymentSaved (tp : TorrentPayment) : Due db [.append (.torrentPayment tp)]
  | pair (tp : TorrentPayment) (t : Torrent) (hsame : Unchanged db t) :
      Due db [.save (.torrentPayment tp) true, .save (.torrent t) false,
        .append (.torrentPayment tp), .append (.torrent t)]
  | second (tp : TorrentPayment) (t : Torrent) (hsame : Unchanged db t) :
      Due db [.save (.torrent t) false, .append (.torrentPayment tp), .append (.torrent t)]
  | appends (tp : TorrentPayment) (t : Torrent) (hsame : UpToDate db t) :
      Due db [.append (.torrentPayment tp), .append (.torrent t)]
  | last (t : Torrent) (hsame : UpToDate db t) : Due db [.append (.torrent t)]

theorem UpToDate.saved : UpToDate (saveOrUpdate db (.torrent t) true) t :=
  ⟨t, get_saveOrUpdate_self db (.torrent t), rfl⟩

theorem Unchanged.upToDate (h : Unchanged db t)
    (hkind : (db.get t.id).all (sameKind (.torrent t)) = true) : UpToDate db t := by
  obtain ⟨m, hm⟩ := Option.isSome_iff_exists.mp h.1
  rw [hm] at hkind
  cases m with
  | torrent stored => exact ⟨stored, hm, h.2 stored hm⟩
  | torrentPayment tp => simp [sameKind] at hkind

/-- A payment comes under its own key, or under one that is no torrent's any more. -/
theorem Unchanged.payment (h : Unchanged db t) (tp : TorrentPayment) :
    Unchanged (saveOrUpdate db (.torrentPayment tp) true) t := by
  unfold Unchanged
  rw [get_saveOrUpdate]
  split
  · exact ⟨rfl, by simp⟩
  · exact h

theorem NotAhead.saved {ok : Bool} (h : NotAhead db row)
    (hkind : (db.get record.key).all (sameKind record) = true)
    (hrecord : ∀ t, record = .torrent t → NoOlder db t) :
    NotAhead (saveOrUpdate db record ok) row := by
  obtain ⟨stored, hstored, hle⟩ := h
  by_cases hkey : row.id = record.key
  · cases ok with
    | false => exact ⟨stored, hstored, hle⟩
    | true =>
        rw [← hkey, hstored] at hkind
        cases record with
        | torrentPayment tp => simp [sameKind] at hkind
        | torrent t =>
            refine ⟨t, by rw [hkey, get_saveOrUpdate_self], hle.trans ?_⟩
            exact hrecord t rfl stored (by rw [← hstored, hkey]; rfl)
  · exact ⟨stored, by rw [get_saveOrUpdate_of_ne db record ok hkey, hstored], hle⟩

theorem Due.saved {required ok : Bool} (h : Due db (.save record required :: effects))
    (hkind : (db.get record.key).all (sameKind record) = true) :
    (∀ t, record = .torrent t → NoOlder db t) ∧
      Due (saveOrUpdate db record ok) (if required && !ok then [] else effects) := by
  cases h with
  | torrent t hold =>
      refine ⟨fun other hother => ?_, ?_⟩
      · cases hother
        exact hold
      · cases ok with
        | false => exact .done
        | true => exact .last t .saved
  | payment tp =>
      refine ⟨by simp, ?_⟩
      cases ok with
      | false => exact .done
      | true => exact .paymentSaved tp
  | pair tp t hsame =>
      refine ⟨by simp, ?_⟩
      cases ok with
      | false => exact .done
      | true => exact .second tp t (hsame.payment tp)
  | second tp t hsame =>
      refine ⟨fun other hother => ?_, ?_⟩
      · cases hother
        exact fun old hold => (congrArg UInt64.toNat (hsame.2 old hold)).le
      · cases ok with
        | false => exact .appends tp t (hsame.upToDate hkind)
        | true => exact .appends tp t .saved

theorem Due.appended (h : Due db (.append record :: effects)) :
    (∀ t, record = .torrent t → UpToDate db t) ∧ Due db effects := by
  cases h with
  | paymentSaved tp => exact ⟨by simp, .done⟩
  | appends tp t hsame => exact ⟨by simp, .last t hsame⟩
  | last t hsame =>
      refine ⟨fun other hother => ?_, .done⟩
      cases hother
      exact hsame

end Stored

section Planning

variable {block : SignedBlock} {trx : ProcessedTransaction} {plan : Plan}

/-- What a branch plans is due: it stamps with the present block, which is no older than
any stamp, or leaves the version alone. -/
theorem due_of_planned (hkeys : KeyIsId s.torrents)
    (hstamps : ∀ key record, s.torrents.get key = some record →
      ∀ stamp ∈ stampsOf record, stamp.toNat ≤ block.blockNum.toNat)
    (hplan : Planned env s.torrents block.blockNum trx plan) : Due s.torrents plan.effects := by
  have hnoOlder : ∀ t : Torrent, t.lastModify = block.blockNum → NoOlder s.torrents t := by
    intro t ht old hold
    rw [ht]
    exact hstamps t.id (.torrent old) hold old.lastModify (by simp [stampsOf])
  have hunchanged : ∀ {key : String} {t : Torrent}, getTorrent s.torrents key = some t →
      ∀ t' : Torrent, t'.id = t.id → t'.lastModify = t.lastModify → Unchanged s.torrents t' := by
    intro key t ht t' hid hmodify
    have hkey := hkeys.getTorrent_id ht
    obtain ⟨m, hm, rfl⟩ := Option.map_eq_some_iff.mp ht
    unfold Unchanged
    rw [hid, hkey, hm, hmodify]
    refine ⟨rfl, fun stored hstored => ?_⟩
    cases hstored
    rfl
  cases hplan with
  | skip => exact .done
  | created op hop => exact .torrent _ (hnoOlder _ rfl)
  | updated op t hop ht => exact .torrent _ (hnoOlder _ rfl)
  | payed op t hop ht hpieces => exact .pair _ _ (hunchanged ht _ rfl rfl)
  | seltted op tp t hop htp ht => exact .pair _ _ (hunchanged ht _ rfl rfl)
  | receipted op tp hop htp => exact .payment _
  | refunded op tp hop htp => exact .payment _
  | increased op tp hop htp => exact .payment _
  | settled op proposal tp tp' hop hproposal htp hsettle => exact .payment _

end Planning

section Machine

/-- The versions of a torrent, from its row in MySQL over those on the way to LevelDB. -/
structure Versioned (s : Server) : Prop where
  keys : KeyIsId s.torrents
  current : ∀ block effects rest, s.executor = .handling block effects rest →
    s.history.begun.getLast? = some block
  ascending : Ascending TorrentRow.id version (rowsOnWay s)
  tables : NoNewer TorrentRow.id version s.tables.torrent (rowsOnWay s)
  onWay : ∀ row ∈ rowsOnWay s, NotAhead s.torrents row
  shown : ∀ id row, s.tables.torrent id = some row → NotAhead s.torrents row
  due : Due s.torrents (effectsOf s.executor)

theorem Versioned.congr (h : Versioned s) (htorrents : s'.torrents = s.torrents)
    (hexecutor : s'.executor = s.executor) (hbegun : s'.history.begun = s.history.begun)
    (htask : s'.mysqlTask = s.mysqlTask) (hqueue : s'.batchQueue = s.batchQueue)
    (htables : s'.tables = s.tables) : Versioned s' := by
  have hway : rowsOnWay s' = rowsOnWay s := by rw [rowsOnWay, rowsOnWay, htask, hqueue]
  constructor
  case keys => rw [htorrents]; exact h.keys
  case current => rw [hexecutor, hbegun]; exact h.current
  case ascending => rw [hway]; exact h.ascending
  case tables => rw [hway, htables]; exact h.tables
  case onWay => rw [hway, htorrents]; exact h.onWay
  case shown => rw [htables, htorrents]; exact h.shown
  case due => rw [hexecutor, htorrents]; exact h.due

theorem Versioned.executing (h : Versioned s) {executor : Executor}
    (hcurrent : ∀ block effects rest, executor = .handling block effects rest →
      s.history.begun.getLast? = some block)
    (hdue : Due s.torrents (effectsOf executor)) : Versioned { s with executor := executor } :=
  ⟨h.keys, hcurrent, h.ascending, h.tables, h.onWay, h.shown, hdue⟩

theorem Versioned.sublist (h : Versioned s) (htorrents : s'.torrents = s.torrents)
    (hexecutor : s'.executor = s.executor) (hbegun : s'.history.begun = s.history.begun)
    (htables : s'.tables = s.tables) (hway : (rowsOnWay s').Sublist (rowsOnWay s)) :
    Versioned s' := by
  constructor
  case keys => rw [htorrents]; exact h.keys
  case current => rw [hexecutor, hbegun]; exact h.current
  case ascending => exact h.ascending.sublist hway
  case tables =>
      rw [htables]
      intro id row hrow
      obtain ⟨hid, hlater⟩ := h.tables id row hrow
      exact ⟨hid, fun later hmem => hlater later (hway.subset hmem)⟩
  case onWay => rw [htorrents]; exact fun row hrow => h.onWay row (hway.subset hrow)
  case shown => rw [htables, htorrents]; exact h.shown
  case due => rw [hexecutor, htorrents]; exact h.due

theorem NotAhead.le (h : NotAhead db row) (ht : UpToDate db t) (hid : row.id = t.id) :
    version row ≤ t.lastModify.toNat := by
  obtain ⟨stored, hstored, hle⟩ := h
  obtain ⟨other, hother, hsame⟩ := ht
  rw [hid, hother] at hstored
  cases hstored
  rwa [← hsame]

theorem torrent_appendRecord (record : Message) (task : MysqlTask) :
    (appendRecord env record task).torrent = task.torrent ∨
      ∃ t row, record = .torrent t ∧ torrentRow env t = some row ∧
        (appendRecord env record task).torrent = task.torrent ++ [row] := by
  cases record with
  | torrentPayment tp =>
      cases hrow : torrentPaymentRow env tp <;>
        simp [appendRecord, appendTorrentPayment, hrow]
  | torrent t =>
      cases hrow : torrentRow env t <;> simp [appendRecord, appendTorrentCreate, hrow]

theorem torrentRow_version (hrow : torrentRow env t = some row) :
    version row = t.lastModify.toNat := by
  obtain ⟨as, -, rfl⟩ := Option.map_eq_some_iff.mp hrow
  rfl

theorem Versioned.joined (h : Versioned s) (ht : UpToDate s.torrents t)
    (hrow : torrentRow env t = some row) {task : MysqlTask}
    (htask : task.torrent = s.mysqlTask.torrent ++ [row]) :
    Versioned { s with mysqlTask := task } := by
  have hid := torrentRow_id hrow
  have hversion := torrentRow_version hrow
  have hway : rowsOnWay { s with mysqlTask := task } = rowsOnWay s ++ [row] := by
    rw [rowsOnWay, htask, ← List.append_assoc]
    rfl
  constructor
  case keys => exact h.keys
  case current => exact h.current
  case ascending =>
      rw [hway]
      refine List.pairwise_append.mpr ⟨h.ascending, List.pairwise_singleton _ _, ?_⟩
      intro earlier hearlier later hlater hsame
      rw [List.mem_singleton.mp hlater] at hsame ⊢
      rw [hversion]
      exact (h.onWay earlier hearlier).le ht (hsame.trans hid)
  case tables =>
      intro id shown hshown
      obtain ⟨hkey, hlater⟩ := h.tables id shown hshown
      refine ⟨hkey, fun later hmem hsame => ?_⟩
      rw [hway, List.mem_append, List.mem_singleton] at hmem
      rcases hmem with hmem | rfl
      · exact hlater later hmem hsame
      · rw [hversion]
        exact (h.shown id shown hshown).le ht (by rw [hkey, ← hsame, hid])
  case onWay =>
      rw [hway, List.forall_mem_append, List.forall_mem_singleton]
      obtain ⟨stored, hstored, hmodify⟩ := ht
      exact ⟨h.onWay, stored, hid ▸ hstored, by rw [hversion, hmodify]⟩
  case shown => exact h.shown
  case due => exact h.due

theorem Versioned.appended {block : SignedBlock} {rest : List ProcessedTransaction}
    (h : Versioned s) (hexecutor : s.executor = .handling block (.append record :: effects) rest) :
    Versioned
      { s with
        executor := .handling block effects rest
        mysqlTask := appendRecord env record s.mysqlTask } := by
  have hdue := h.due
  rw [hexecutor] at hdue
  obtain ⟨hrecord, hnext⟩ := hdue.appended
  have hcurrent : ∀ block' effects' rest',
      Executor.handling block effects rest = .handling block' effects' rest' →
        s.history.begun.getLast? = some block' := by
    rintro block' effects' rest' heq
    cases heq
    exact h.current _ _ _ hexecutor
  rcases @torrent_appendRecord env record s.mysqlTask with
    hsame | ⟨t, row, rfl, hrow, htask⟩
  · have hexecuting := h.executing hcurrent hnext
    refine hexecuting.sublist rfl rfl rfl rfl ?_
    rw [rowsOnWay, rowsOnWay, hsame]
  · exact (h.joined (hrecord t rfl) hrow htask).executing hcurrent hnext

theorem Versioned.saved {block : SignedBlock} {rest : List ProcessedTransaction}
    {required ok : Bool} (h : Versioned s)
    (hexecutor : s.executor = .handling block (.save record required :: effects) rest)
    (hkind : (s.torrents.get record.key).all (sameKind record) = true) :
    Versioned
      { s with
        executor := .handling block (if required && !ok then [] else effects) rest
        torrents := saveOrUpdate s.torrents record ok
        history := { s.history with outcomes := s.history.outcomes ++ [ok] } } := by
  have hdue := h.due
  rw [hexecutor] at hdue
  obtain ⟨hrecord, hnext⟩ := @Due.saved _ _ _ _ ok hdue hkind
  constructor
  case keys =>
      intro key other hget
      rcases stored_saveOrUpdate hget with hold | ⟨rfl, rfl⟩
      · exact h.keys key other hold
      · rfl
  case current =>
      rintro block' effects' rest' heq
      cases heq
      exact h.current _ _ _ hexecutor
  case ascending => exact h.ascending
  case tables => exact h.tables
  case onWay => exact fun row hrow => (h.onWay row hrow).saved hkind hrecord
  case shown => exact fun id row hrow => (h.shown id row hrow).saved hkind hrecord
  case due => exact hnext

theorem Versioned.executed (h : Versioned s) {statement : Statement} {pending : List Statement}
    (hpending : s.batchQueue.pending = statement :: pending) :
    Versioned
      { s with
        batchQueue := { s.batchQueue with pending := pending }
        tables := s.tables.execute statement } := by
  cases statement with
  | replaceTorrentPayment rows =>
      have hway : rowsOnWay { s with batchQueue := { s.batchQueue with pending := pending } } =
          rowsOnWay s := by
        rw [rowsOnWay, rowsOnWay, hpending]
        rfl
      exact
        { keys := h.keys
          current := h.current
          ascending := hway ▸ h.ascending
          tables := hway ▸ h.tables
          onWay := hway ▸ h.onWay
          shown := h.shown
          due := h.due }
  | replaceTorrent rows =>
      have hway : rowsOnWay s =
          rows ++ rowsOnWay { s with batchQueue := { s.batchQueue with pending := pending } } := by
        rw [rowsOnWay, rowsOnWay, hpending, ← List.append_assoc]
        rfl
      have hascending := h.ascending
      have htables := h.tables
      have honWay := h.onWay
      rw [hway] at hascending htables honWay
      rw [List.forall_mem_append] at honWay
      constructor
      case keys => exact h.keys
      case current => exact h.current
      case ascending => exact hascending.sublist (List.sublist_append_right _ _)
      case tables => exact htables.replaceInto hascending
      case onWay => exact honWay.2
      case shown =>
          intro id row hrow
          exact (mem_of_replaceInto _ _ hrow).elim (honWay.1 row) (h.shown id row)
      case due => exact h.due

theorem Versioned.flushed (h : Versioned s) : Versioned s.flush := by
  refine h.sublist rfl rfl rfl rfl ?_
  cases hstopped : s.batchQueue.stopped with
  | false =>
      simp only [rowsOnWay, Server.flush, ExecutionQueue.pending_executeAll hstopped,
        tuplesOf_append, tuplesOf_statements, MysqlTask.concat]
      simp
  | true =>
      simp [rowsOnWay, Server.flush, ExecutionQueue.executeAll_of_stopped hstopped]

/-- The block at hand is the latest, so that no stamp is past it. -/
theorem stamp_le {n : ℕ} (hordered : Ordered config s n) {block : SignedBlock}
    (hlast : s.history.begun.getLast? = some block) {stamp : UInt64}
    (hstamp : Stamp s.history.begun stamp) : stamp.toNat ≤ block.blockNum.toNat := by
  obtain ⟨init, hinit⟩ := List.getLast?_eq_some_iff.mp hlast
  rcases hstamp with rfl | ⟨b, hb, rfl⟩
  · exact Nat.zero_le _
  · have hbegun : s.history.begun.Sublist (s.history.enqueued ++ s.fetch.inHand) :=
      ((List.sublist_append_left _ _).trans hordered.handled).trans (List.sublist_append_left _ _)
    have hincreasing := hordered.increasing.sublist (hbegun.map fun b => b.blockNum.toNat)
    rw [hinit] at hb hincreasing
    rw [List.map_append, List.pairwise_append] at hincreasing
    rcases List.mem_append.mp hb with hb | hb
    · exact (hincreasing.2.2 _ (List.mem_map_of_mem hb) _ (by simp)).le
    · rw [List.mem_singleton.mp hb]

theorem versioned_step {n : ℕ} {event : Event} (hordered : Ordered config s n)
    (hstamped : Stamped env s) (h : Versioned s) (hstep : KindSteps env config s event s') :
    Versioned s' := by
  obtain ⟨hstep, hkind⟩ := hstep
  cases transition_of_steps hstep with
  | begun hexecutor hpending =>
      refine ⟨h.keys, ?_, h.ascending, h.tables, h.onWay, h.shown, .done⟩
      rintro block effects rest heq
      cases heq
      simp
  | @planned block trx rest plan hexecutor hplan =>
      have hcurrent := h.current _ _ _ hexecutor
      refine h.executing ?_ (due_of_planned h.keys ?_ (planned_of_transactionPlan hplan))
      · rintro block' effects' rest' heq
        cases heq
        exact hcurrent
      · intro key record hget stamp hstamp
        exact stamp_le hordered hcurrent (hstamped.kept.stored key record hget stamp hstamp)
  | appended ok hexecutor => exact (h.appended hexecutor).congr rfl rfl rfl rfl rfl rfl
  | saved ok hexecutor =>
      simp only [keepsKind, hexecutor, effectsOf, List.head?_cons] at hkind
      exact h.saved hexecutor hkind
  | ended hexecutor =>
      refine (h.executing ?_ .done).congr rfl rfl rfl rfl rfl rfl
      rintro block effects rest heq
      cases heq
  | flushed => exact h.flushed
  | executed hpending => exact (h.executed hpending).congr rfl rfl rfl rfl rfl rfl
  | unconnected hpending =>
      refine h.sublist rfl rfl rfl rfl ?_
      rw [rowsOnWay, rowsOnWay, hpending, tuplesOf_cons]
      exact (List.sublist_append_right _ _).append_right _
  | restarted =>
      have hidle : Versioned { s with executor := .idle } := by
        refine h.executing ?_ .done
        rintro block effects rest heq
        cases heq
      exact hidle.sublist rfl rfl rfl rfl (List.nil_sublist _)
  | _ => exact h.congr rfl rfl rfl rfl rfl rfl

theorem versioned_of_run {db : Store String} {events : List Event} {n : ℕ} (hdb : Stored db n)
    (hrun : Run (KindSteps env config) (Server.boot db) events s)
    (hevents : ∀ event ∈ events, NumbersBelow event) : Versioned s := by
  have hall : (∃ n, Ordered config s n) ∧ Stamped env s ∧ Versioned s := by
    refine Run.state_invariant NumbersBelow
      (fun s => (∃ n, Ordered config s n) ∧ Stamped env s ∧ Versioned s) ?_ ?_ hrun hevents
    · refine ⟨⟨n, ordered_boot hdb⟩, ⟨by simp [Server.boot], kept_boot db⟩, ?_⟩
      exact
        { keys := fun key record hget => by simp [Server.boot] at hget
          current := fun block effects rest heq => by cases heq
          ascending := List.Pairwise.nil
          tables := fun id row hrow => by cases hrow
          onWay := fun row hrow => by cases hrow
          shown := fun id row hrow => by cases hrow
          due := .done }
    · rintro event s s' hevent ⟨⟨n, hordered⟩, hstamped, h⟩ hstep
      exact ⟨ordered_step hordered hevent hstep.1, stamped_step hstamped hstep.1,
        versioned_step hordered hstamped h hstep⟩
  exact hall.2.2

theorem Versioned.version_le {event : Event} (h : Versioned s)
    (hstep : s.Steps env config event s') {id : String} (hrow : s.tables.torrent id = some row) :
    ∃ row', s'.tables.torrent id = some row' ∧ version row ≤ version row' := by
  cases transition_of_steps hstep with
  | @executed statement pending hpending =>
      cases statement with
      | replaceTorrentPayment rows => exact ⟨row, hrow, le_rfl⟩
      | replaceTorrent rows =>
          have hway : rowsOnWay s =
              rows ++ ((tuplesOf pending).torrent ++ s.mysqlTask.torrent) := by
            rw [rowsOnWay, hpending, ← List.append_assoc]
            rfl
          have hascending := h.ascending
          have htables := h.tables
          rw [hway] at hascending htables
          refine NoNewer.version_le (hascending.sublist (List.sublist_append_left _ _)) ?_ hrow
          intro id row hrow
          obtain ⟨hkey, hlater⟩ := htables id row hrow
          exact ⟨hkey, fun later hmem => hlater later (List.mem_append_left _ hmem)⟩
  | _ => exact ⟨row, hrow, le_rfl⟩

/-- From one state of a run to a later one the `last_modify` of a torrent in MySQL does not
decrease, and that of LevelDB is never behind: lost statements, failed writes and crashes
leave versions out, but none comes back. -/
theorem versions_never_decrease {db : Store String} {events more : List Event} {n : ℕ}
    (hdb : Stored db n) (hrun : Run (KindSteps env config) (Server.boot db) events s)
    (hmore : Run (KindSteps env config) s more s')
    (hevents : ∀ event ∈ events ++ more, NumbersBelow event) {id : String}
    (hrow : s.tables.torrent id = some row) :
    ∃ row' t', s'.tables.torrent id = some row' ∧ s'.torrents.get id = some (.torrent t') ∧
      row.lastModify.toNat ≤ row'.lastModify.toNat ∧
      row'.lastModify.toNat ≤ t'.lastModify.toNat := by
  obtain ⟨row', hrow', hle⟩ : ∃ row', s'.tables.torrent id = some row' ∧
      version row ≤ version row' := by
    induction hmore with
    | nil => exact ⟨row, hrow, le_rfl⟩
    | @snoc more last middle s' hmore hlast ih =>
        have hbefore : ∀ event ∈ events ++ more, NumbersBelow event := fun event hevent =>
          hevents event (by rw [← List.append_assoc]; exact List.mem_append_left _ hevent)
        obtain ⟨between, hbetween, hle⟩ := ih hbefore
        have hversioned := versioned_of_run hdb (hrun.append hmore) hbefore
        obtain ⟨row', hrow', hle'⟩ := hversioned.version_le hlast.1 hbetween
        exact ⟨row', hrow', hle.trans hle'⟩
  have hversioned := versioned_of_run hdb (hrun.append hmore) hevents
  obtain ⟨t', ht', hle'⟩ := hversioned.shown id row' hrow'
  rw [(hversioned.tables id row' hrow').1] at ht'
  exact ⟨row', t', hrow', ht', hle, hle'⟩

end Machine

section Sample

def createEvents : List Event :=
  sampleAccept ++ [.putBlockExeQueue] ++ sampleHandle ++ [.flush, .execute true]

def updateBlock : SignedBlock where
  blockNum := 2
  transactions := [sampleUpdate.trx]

/-- The statement of the update is lost in a crash. -/
def updateEvents : List Event :=
  [.scan true, .request, .reply (.result 7 [.block updateBlock]), .scan true,
    .putBlockExeQueue] ++ sampleHandle ++ [.flush, .restart]

def created : Server :=
  (createEvents.foldlM (Server.step .oneAsset sampleConfig) (Server.boot Store.empty)).getD
    (Server.boot Store.empty)

theorem sample_versions_never_decrease :
    ∃ s' row' t', Run (KindSteps .oneAsset sampleConfig) (Server.boot Store.empty)
        (createEvents ++ updateEvents) s' ∧
      s'.tables.torrent sampleCreateOperation.id.str = some row' ∧
      s'.torrents.get sampleCreateOperation.id.str = some (.torrent t') ∧
      row'.lastModify.toNat ≤ t'.lastModify.toNat := by
  have hrun : Run (KindSteps .oneAsset sampleConfig) (Server.boot Store.empty) createEvents
      created := run_of_checked rfl
  have hmore : Run (KindSteps .oneAsset sampleConfig) created updateEvents _ :=
    run_of_checked rfl
  have hdb : Stored Store.empty 0 := ⟨by norm_num, .inr ⟨rfl, rfl⟩⟩
  have hevents : ∀ event ∈ createEvents ++ updateEvents, NumbersBelow event := by
    simp [createEvents, updateEvents, sampleAccept, sampleHandle, NumbersBelow, Below,
      sampleBlock, updateBlock]
  have hrow : created.tables.torrent sampleCreateOperation.id.str = some _ := rfl
  obtain ⟨row', t', hrow', ht', -, hle⟩ := versions_never_decrease hdb hrun hmore hevents hrow
  exact ⟨_, row', t', hrun.append hmore, hrow', ht', hle⟩

end Sample

end TorrentServer.TorrentVersions
