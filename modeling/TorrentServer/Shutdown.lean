import TorrentServer.CrashRecovery

/-!
The way out of `main`: after `RunUntilAskedToQuit` the queues are stopped and the
databases closed one after the other, without a join, while the two periodic
tasks and the two executors go on. A step that would use a closed database or a
destroyed mutex is undefined and not part of the machine.
-/

namespace TorrentServer.Shutdown

open TorrentServer.ChainLibrary
open TorrentServer.MysqlTables
open TorrentServer.HandleBlock
open TorrentServer.Checkpoint
open TorrentServer.ServerMachine
open TorrentServer.BlockOrder
open TorrentServer.CrashRecovery
open TorrentServer.Library.KeyValueStore
open TorrentServer.Library.Runs
open TorrentServer.Library.TaskQueues

inductive Phase
  | running
  | blockQueueStopped
  | blocksClosed
  | torrentsClosed
  | batchQueueStopped
  | poolDrained
  | mutexDestroyed
  | returned
deriving DecidableEq

def Phase.blocksOpen : Phase → Bool
  | .running | .blockQueueStopped => true
  | _ => false

def Phase.torrentsOpen : Phase → Bool
  | .running | .blockQueueStopped | .blocksClosed => true
  | _ => false

def Phase.batchOpen : Phase → Bool
  | .running | .blockQueueStopped | .blocksClosed | .torrentsClosed => true
  | _ => false

def Phase.mutexAlive : Phase → Bool
  | .mutexDestroyed | .returned => false
  | _ => true

/-- `handledOpen` keeps the blocks `handle_block` had returned from when the
torrent database was closed. -/
structure Process where
  server : Server
  phase : Phase
  handledOpen : List SignedBlock

def Process.boot (db : Store String) : Process where
  server := Server.boot db
  phase := .running
  handledOpen := []

inductive ProcessEvent
  | server (event : Event)
  | fini

/-- The next call in the three functions after `RunUntilAskedToQuit`. -/
def Process.fini (p : Process) : Option Process :=
  match p.phase with
  | .running =>
      some
        { p with
          server := { p.server with blockQueue := p.server.blockQueue.stop }
          phase := .blockQueueStopped }
  | .blockQueueStopped => some { p with phase := .blocksClosed }
  | .blocksClosed =>
      some { p with phase := .torrentsClosed, handledOpen := p.server.history.completed }
  | .torrentsClosed =>
      some
        { p with
          server := { p.server with batchQueue := p.server.batchQueue.stop }
          phase := .batchQueueStopped }
  | .batchQueueStopped => some { p with phase := .poolDrained }
  | .poolDrained => some { p with phase := .mutexDestroyed }
  | .mutexDestroyed => some { p with phase := .returned }
  | .returned => none

variable (env : Environment) (config : Config)

def expectsEntry (s : Server) : Bool :=
  match s.fetch with
  | .scanning (.block b :: _) =>
      (getStartBlockNum config.startNum s.blocks).any fun start => start.1 == b.blockNum
  | _ => false

/-- Steps that read or write the block database; a filled cache saves the read. -/
def touchesBlocks (s : Server) : Event → Bool
  | .request => s.blocks.totalnum == 0
  | .scan _ =>
      match s.fetch with
      | .scanning (.block _ :: _) => s.blocks.totalnum == 0 || expectsEntry config s
      | _ => false
  | _ => false

def touchesTorrents (s : Server) : Event → Bool
  | .beginTransaction =>
      match s.executor with
      | .handling _ _ (trx :: _) => (handledOperation trx).isSome
      | _ => false
  | .effect _ =>
      match s.executor with
      | .handling _ (.save _ _ :: _) _ => true
      | _ => false
  | _ => false

def locksMutex (s : Server) : Event → Bool
  | .flush => true
  | .effect _ =>
      match s.executor with
      | .handling _ (.append _ :: _) _ => true
      | _ => false
  | _ => false

def Process.allowed (p : Process) (event : Event) : Bool :=
  p.phase ≠ .returned && (p.phase.blocksOpen || !touchesBlocks config p.server event) &&
    (p.phase.torrentsOpen || !touchesTorrents p.server event) &&
    (p.phase.mutexAlive || !locksMutex p.server event)

def Process.step (p : Process) : ProcessEvent → Option Process
  | .fini => p.fini
  | .server .restart =>
      some { server := p.server.restart, phase := .running, handledOpen := [] }
  | .server event =>
      if p.allowed config event then
        (p.server.step env config event).map fun s => { p with server := s }
      else none

def tuplesOf (statements : List Statement) : MysqlTask :=
  statements.foldr (fun statement task => statement.tuples.concat task) {}

/-- Every accepted block is handled or on its way, in this order. -/
def Conserved (s : Server) : Prop :=
  s.history.completed ++ s.inFlight = s.history.accepted

/-- Every tuple appended so far is executed, queued or pending, in this order. -/
def TuplesConserved (s : Server) : Prop :=
  s.history.executed.concat ((tuplesOf s.batchQueue.pending).concat s.mysqlTask) =
    s.history.appended

def quiet (s : Server) : Bool :=
  s.inFlight.isEmpty && decide (s.mysqlTask = {}) && s.batchQueue.pending.isEmpty

/-- The order in which nothing is lost: no accepted block waits for the block queue
when it is stopped and none is accepted afterwards; every block is handled
before the torrent database is closed; `g_mysql_task` is empty when the batch
queue is stopped, and the batch queue when `main` returns. A statement must find
a connection, and a crash nothing on its way. -/
def orderly (p : Process) : ProcessEvent → Bool
  | .fini =>
      match p.phase with
      | .running => p.server.fetch.inHand.isEmpty
      | .blocksClosed => p.server.inFlight.isEmpty
      | .torrentsClosed => decide (p.server.mysqlTask = {})
      | .mutexDestroyed => p.server.batchQueue.pending.isEmpty
      | _ => true
  | .server .restart => quiet p.server
  | .server (.scan true) => decide (p.phase = .running) || !expectsEntry config p.server
  | .server (.execute connected) => connected
  | .server _ => true

def OrderlySteps (p : Process) (event : ProcessEvent) (p' : Process) : Prop :=
  p.step env config event = some p' ∧ orderly config p event = true

variable {env config} {s s' : Server}

section Tuples

theorem concat_assoc (a b c : MysqlTask) : (a.concat b).concat c = a.concat (b.concat c) := by
  simp [MysqlTask.concat]

theorem concat_empty (a : MysqlTask) : a.concat {} = a := by
  simp [MysqlTask.concat]

theorem empty_concat (a : MysqlTask) : MysqlTask.concat {} a = a := by
  simp [MysqlTask.concat]

theorem tuplesOf_cons (statement : Statement) (statements : List Statement) :
    tuplesOf (statement :: statements) = statement.tuples.concat (tuplesOf statements) := rfl

theorem tuplesOf_append (statements more : List Statement) :
    tuplesOf (statements ++ more) = (tuplesOf statements).concat (tuplesOf more) := by
  induction statements with
  | nil => exact (empty_concat _).symm
  | cons statement statements ih =>
      rw [List.cons_append, tuplesOf_cons, tuplesOf_cons, ih, concat_assoc]

theorem tuplesOf_statements (task : MysqlTask) : tuplesOf task.statements = task := by
  obtain ⟨torrent, payment⟩ := task
  cases torrent <;> cases payment <;>
    simp [tuplesOf, MysqlTask.statements, Statement.tuples, MysqlTask.concat]

theorem tuples_step {event : Event} (h : TuplesConserved s)
    (hflush : event = .flush → s.batchQueue.stopped = false ∨ s.mysqlTask = {})
    (hconnected : event ≠ .execute false)
    (hquiet : event = .restart → s.mysqlTask = {} ∧ s.batchQueue.pending = [])
    (hstep : s.Steps env config event s') : TuplesConserved s' := by
  cases transition_of_steps hstep with
  | appended ok hexecutor =>
      unfold TuplesConserved at h ⊢
      dsimp only
      rw [appendRecord_eq_concat env _ s.mysqlTask,
        appendRecord_eq_concat env _ s.history.appended, ← h, concat_assoc, concat_assoc]
  | flushed =>
      unfold TuplesConserved at h ⊢
      rcases hflush rfl with hrunning | hempty
      · have hpending := ExecutionQueue.pending_executeAll hrunning s.mysqlTask.statements
        simp only [Server.flush, hpending, tuplesOf_append, tuplesOf_statements, concat_empty]
        exact h
      · have hsame : s.flush = s := by
          obtain ⟨blocks, fetch, blockQueue, executor, torrents, task, batchQueue, tables,
            history⟩ := s
          obtain rfl : task = {} := hempty
          rfl
        rw [hsame]
        exact h
  | executed hpending =>
      unfold TuplesConserved at h ⊢
      rw [hpending] at h
      dsimp only
      rw [← h, tuplesOf_cons, concat_assoc, concat_assoc]
  | unconnected => exact absurd rfl hconnected
  | restarted =>
      obtain ⟨htask, hpending⟩ := hquiet rfl
      unfold TuplesConserved at h ⊢
      rw [htask, hpending] at h
      exact h
  | _ => exact h

end Tuples

section Blocks

theorem Conserved.congr (h : Conserved s)
    (hcompleted : s'.history.completed = s.history.completed)
    (haccepted : s'.history.accepted = s.history.accepted)
    (hflight : s'.inFlight = s.inFlight) : Conserved s' := by
  unfold Conserved at h ⊢
  rw [hcompleted, haccepted, hflight, h]

theorem conserved_boot (db : Store String) : Conserved (Server.boot db) := rfl

theorem conserved_step {event : Event} (h : Conserved s)
    (hrunning : event = .putBlockExeQueue → s.blockQueue.stopped = false)
    (hstill : event = .restart → s.inFlight = []) (hstep : s.Steps env config event s') :
    Conserved s' := by
  cases transition_of_steps hstep with
  | requested hfetch => exact h.congr rfl rfl (by simp [Server.inFlight, hfetch])
  | replied r hfetch => exact h.congr rfl rfl (by simp [Server.inFlight, hfetch])
  | exhausted ok hfetch => exact h.congr rfl rfl (by simp [Server.inFlight, hfetch])
  | skipped ok hfetch => exact h.congr rfl rfl (by simp [Server.inFlight, hfetch])
  | refused ok hfetch => exact h.congr rfl rfl (by simp [Server.inFlight, hfetch])
  | accepted hfetch =>
      unfold Conserved at h ⊢
      simp only [← h, Server.inFlight, hfetch, Fetch.inHand_scanning, Fetch.inHand_accepted,
        List.append_nil, List.append_assoc]
  | handedOver hfetch =>
      have hpending := ExecutionQueue.pending_execute (hrunning rfl)
      exact h.congr rfl rfl (by simp [Server.inFlight, hfetch, hpending])
  | begun hexecutor hpending =>
      exact h.congr rfl rfl (by simp [Server.inFlight, hexecutor, hpending, Executor.inFlight])
  | planned hexecutor =>
      exact h.congr rfl rfl (by simp [Server.inFlight, hexecutor, Executor.inFlight])
  | appended ok hexecutor =>
      exact h.congr rfl rfl (by simp [Server.inFlight, hexecutor, Executor.inFlight])
  | saved ok hexecutor =>
      exact h.congr rfl rfl (by simp [Server.inFlight, hexecutor, Executor.inFlight])
  | ended hexecutor =>
      unfold Conserved at h ⊢
      rw [← h]
      simp [Server.inFlight, hexecutor, Executor.inFlight]
  | flushed => exact h.congr rfl rfl rfl
  | executed => exact h.congr rfl rfl rfl
  | unconnected => exact h.congr rfl rfl rfl
  | restarted => exact h.congr rfl rfl (hstill rfl).symm

end Blocks

section Still

theorem inFlight_eq_nil_iff :
    s.inFlight = [] ↔ s.executor = .idle ∧ s.blockQueue.pending = [] ∧ s.fetch.inHand = [] := by
  have hexecutor : s.executor.inFlight = [] ↔ s.executor = .idle := by
    cases s.executor <;> simp [Executor.inFlight]
  simp [Server.inFlight, hexecutor]

theorem inHand_step {event : Event} (hhand : s.fetch.inHand = [])
    (hexpects : event = .scan true → expectsEntry config s = false)
    (hstep : s.Steps env config event s') : s'.fetch.inHand = [] := by
  cases transition_of_steps hstep with
  | requested => rfl
  | replied r => exact afterReply_inHand r
  | exhausted => rfl
  | skipped => rfl
  | refused => rfl
  | accepted hfetch hstart hnum =>
      have hnone := hexpects rfl
      simp [expectsEntry, hfetch, hstart, hnum] at hnone
  | handedOver => rfl
  | restarted => rfl
  | _ => exact hhand

/-- With nothing on its way and no block accepted, only flushes and statements
are left. -/
theorem still_step {event : Event} (hstill : s.inFlight = []) (hrestart : event ≠ .restart)
    (hexpects : event = .scan true → expectsEntry config s = false)
    (hstep : s.Steps env config event s') :
    s'.inFlight = [] ∧ s'.history.completed = s.history.completed ∧
      (s.mysqlTask = {} → s'.mysqlTask = {}) := by
  obtain ⟨hidle, hpending, hhand⟩ := inFlight_eq_nil_iff.mp hstill
  have hhand' := inHand_step hhand hexpects hstep
  rw [inFlight_eq_nil_iff]
  cases transition_of_steps hstep with
  | requested => exact ⟨⟨hidle, hpending, hhand'⟩, rfl, id⟩
  | replied => exact ⟨⟨hidle, hpending, hhand'⟩, rfl, id⟩
  | exhausted => exact ⟨⟨hidle, hpending, hhand'⟩, rfl, id⟩
  | skipped => exact ⟨⟨hidle, hpending, hhand'⟩, rfl, id⟩
  | refused => exact ⟨⟨hidle, hpending, hhand'⟩, rfl, id⟩
  | accepted => exact ⟨⟨hidle, hpending, hhand'⟩, rfl, id⟩
  | handedOver hfetch => simp [hfetch] at hhand
  | begun hexecutor hsome => simp [hsome] at hpending
  | planned hexecutor => simp [hexecutor] at hidle
  | appended ok hexecutor => simp [hexecutor] at hidle
  | saved ok hexecutor => simp [hexecutor] at hidle
  | ended hexecutor => simp [hexecutor] at hidle
  | flushed => exact ⟨⟨hidle, hpending, hhand'⟩, rfl, fun _ => rfl⟩
  | executed => exact ⟨⟨hidle, hpending, hhand'⟩, rfl, id⟩
  | unconnected => exact ⟨⟨hidle, hpending, hhand'⟩, rfl, id⟩
  | restarted => exact absurd rfl hrestart

theorem batchStopped_step {event : Event} (hrestart : event ≠ .restart)
    (hstep : s.Steps env config event s') :
    s'.batchQueue.stopped = s.batchQueue.stopped := by
  cases transition_of_steps hstep with
  | flushed => exact ExecutionQueue.stopped_executeAll _ _
  | restarted => exact absurd rfl hrestart
  | _ => rfl

end Still

structure Accounted (config : Config) (s : Server) : Prop where
  ordered : ∃ n, Ordered config s n
  accepted : AcceptedInOrder config s
  conserved : Conserved s
  tuples : TuplesConserved s

theorem Accounted.boot : Accounted config (Server.boot Store.empty) where
  ordered := ⟨0, ordered_boot ⟨by norm_num, .inr ⟨rfl, rfl⟩⟩⟩
  accepted := accepted_boot
  conserved := conserved_boot _
  tuples := rfl

theorem Accounted.stopped (h : Accounted config s) {blockQueue : ExecutionQueue SignedBlock}
    {batchQueue : ExecutionQueue Statement} (hblock : blockQueue.pending = s.blockQueue.pending)
    (hbatch : batchQueue.pending = s.batchQueue.pending) :
    Accounted config { s with blockQueue := blockQueue, batchQueue := batchQueue } := by
  obtain ⟨n, hordered⟩ := h.ordered
  have htuples := h.tuples
  constructor
  case ordered => exact ⟨n, hordered.congr rfl rfl hblock rfl rfl rfl rfl⟩
  case accepted => exact h.accepted.congr rfl rfl
  case conserved => exact h.conserved.congr rfl rfl (by simp [Server.inFlight, hblock])
  case tuples =>
      unfold TuplesConserved at htuples ⊢
      rw [← htuples, hbatch]

theorem Accounted.restarted (h : Accounted config s) (hquiet : quiet s = true) :
    Accounted config s.restart := by
  simp only [quiet, Bool.and_eq_true, List.isEmpty_iff, decide_eq_true_eq] at hquiet
  obtain ⟨⟨hflight, htask⟩, hpending⟩ := hquiet
  obtain ⟨n, hordered⟩ := h.ordered
  have htuples := h.tuples
  constructor
  case ordered => exact ⟨n, hordered.restarted⟩
  case accepted => exact h.accepted.congr rfl rfl
  case conserved => exact h.conserved.congr rfl rfl hflight.symm
  case tuples =>
      unfold TuplesConserved at htuples ⊢
      rw [htask, hpending] at htuples
      exact htuples

/-- Which of the queues still take tasks and what is already empty, phase by phase. -/
structure Orderly (config : Config) (p : Process) : Prop where
  accounted : Accounted config p.server
  running : p.phase = .running → p.server.blockQueue.stopped = false
  handed : p.phase ≠ .running → p.server.fetch.inHand = []
  drained : p.phase.torrentsOpen = false →
    p.server.inFlight = [] ∧ p.handledOpen = p.server.history.completed
  batch : p.phase.batchOpen = true → p.server.batchQueue.stopped = false
  flushed : p.phase.batchOpen = false → p.server.mysqlTask = {}
  executed : p.phase = .returned → p.server.batchQueue.pending = []

theorem torrentsOpen_of_batchOpen {phase : Phase} (h : phase.batchOpen = false) :
    phase.torrentsOpen = false := by
  cases phase <;> simp_all [Phase.batchOpen, Phase.torrentsOpen]

theorem Orderly.server_step {p : Process} {event : Event} (h : Orderly config p)
    (hevent : NumbersBelow event) (hrestart : event ≠ .restart)
    (hreturned : p.phase ≠ .returned) (hconnected : event ≠ .execute false)
    (hexpects : p.phase ≠ .running → event = .scan true →
      expectsEntry config p.server = false)
    (hstep : p.server.Steps env config event s') :
    Orderly config { p with server := s' } := by
  obtain ⟨n, hordered⟩ := h.accounted.ordered
  have hqueue : event = .putBlockExeQueue → p.server.blockQueue.stopped = false := by
    rintro rfl
    by_cases hphase : p.phase = .running
    · exact h.running hphase
    · cases transition_of_steps hstep with
      | handedOver hfetch =>
          have hhand := h.handed hphase
          simp [hfetch] at hhand
  have hflush : event = .flush →
      p.server.batchQueue.stopped = false ∨ p.server.mysqlTask = {} := by
    intro _
    cases hopen : p.phase.batchOpen with
    | true => exact .inl (h.batch hopen)
    | false => exact .inr (h.flushed hopen)
  have hphase : p.phase.torrentsOpen = false → p.phase ≠ .running := by
    intro hclosed hrunning
    simp [hrunning, Phase.torrentsOpen] at hclosed
  constructor
  case accounted =>
      exact ⟨ordered_step hordered hevent hstep, accepted_step h.accounted.accepted hordered hstep,
        conserved_step h.accounted.conserved hqueue (fun hcrash => absurd hcrash hrestart) hstep,
        tuples_step h.accounted.tuples hflush hconnected (fun hcrash => absurd hcrash hrestart)
          hstep⟩
  case running => exact fun hrunning => stopped_step (h.running hrunning) hstep
  case handed => exact fun hleft => inHand_step (h.handed hleft) (hexpects hleft) hstep
  case drained =>
      intro hclosed
      obtain ⟨hstill, hhandled⟩ := h.drained hclosed
      obtain ⟨hstill', hsame, -⟩ :=
        still_step hstill hrestart (hexpects (hphase hclosed)) hstep
      exact ⟨hstill', hhandled.trans hsame.symm⟩
  case batch => exact fun hopen => (batchStopped_step hrestart hstep).trans (h.batch hopen)
  case flushed =>
      intro hclosed
      have htorrents := torrentsOpen_of_batchOpen hclosed
      exact (still_step (h.drained htorrents).1 hrestart (hexpects (hphase htorrents)) hstep).2.2
        (h.flushed hclosed)
  case executed => exact fun hback => absurd hback hreturned

theorem Orderly.fresh (h : Accounted config s) (hblock : s.blockQueue.stopped = false)
    (hbatch : s.batchQueue.stopped = false) :
    Orderly config { server := s, phase := .running, handledOpen := [] } where
  accounted := h
  running := fun _ => hblock
  handed := fun hleft => absurd rfl hleft
  drained := by simp [Phase.torrentsOpen]
  batch := fun _ => hbatch
  flushed := by simp [Phase.batchOpen]
  executed := by simp

theorem Orderly.fini_step {p p' : Process} (h : Orderly config p)
    (horderly : orderly config p .fini = true) (hstep : p.fini = some p') :
    Orderly config p' := by
  obtain ⟨server, phase, handledOpen⟩ := p
  obtain ⟨haccounted, -, hhanded, hdrained, hbatch, hflushed, -⟩ := h
  cases phase with
  | running =>
      cases hstep
      simp only [orderly, List.isEmpty_iff] at horderly
      exact ⟨haccounted.stopped rfl rfl, by simp, fun _ => horderly,
        by simp [Phase.torrentsOpen], fun _ => hbatch rfl, by simp [Phase.batchOpen], by simp⟩
  | blockQueueStopped =>
      cases hstep
      exact ⟨haccounted, by simp, fun _ => hhanded (by simp), by simp [Phase.torrentsOpen],
        fun _ => hbatch rfl, by simp [Phase.batchOpen], by simp⟩
  | blocksClosed =>
      cases hstep
      simp only [orderly, List.isEmpty_iff] at horderly
      exact ⟨haccounted, by simp, fun _ => hhanded (by simp), fun _ => ⟨horderly, rfl⟩,
        fun _ => hbatch rfl, by simp [Phase.batchOpen], by simp⟩
  | torrentsClosed =>
      cases hstep
      simp only [orderly, decide_eq_true_eq] at horderly
      exact ⟨haccounted.stopped rfl rfl, by simp, fun _ => hhanded (by simp),
        fun _ => hdrained rfl, by simp [Phase.batchOpen], fun _ => horderly, by simp⟩
  | batchQueueStopped =>
      cases hstep
      exact ⟨haccounted, by simp, fun _ => hhanded (by simp), fun _ => hdrained rfl,
        by simp [Phase.batchOpen], fun _ => hflushed rfl, by simp⟩
  | poolDrained =>
      cases hstep
      exact ⟨haccounted, by simp, fun _ => hhanded (by simp), fun _ => hdrained rfl,
        by simp [Phase.batchOpen], fun _ => hflushed rfl, by simp⟩
  | mutexDestroyed =>
      cases hstep
      simp only [orderly, List.isEmpty_iff] at horderly
      exact ⟨haccounted, by simp, fun _ => hhanded (by simp), fun _ => hdrained rfl,
        by simp [Phase.batchOpen], fun _ => hflushed rfl, fun _ => horderly⟩
  | returned => cases hstep

def EventBelow : ProcessEvent → Prop
  | .server event => NumbersBelow event
  | .fini => True

theorem orderly_step {p p' : Process} {event : ProcessEvent} (h : Orderly config p)
    (hevent : EventBelow event) (hstep : OrderlySteps env config p event p') :
    Orderly config p' := by
  obtain ⟨hstep, horderly⟩ := hstep
  cases event with
  | fini => exact h.fini_step horderly hstep
  | server event =>
      by_cases hrestart : event = .restart
      · subst hrestart
        cases hstep
        exact .fresh (h.accounted.restarted horderly) rfl rfl
      · have hserver : p.step env config (.server event) =
            if p.allowed config event then
              (p.server.step env config event).map fun s => { p with server := s }
            else none := by
          cases event <;> first | rfl | exact absurd rfl hrestart
        rw [hserver] at hstep
        split at hstep
        · rename_i hallowed
          obtain ⟨s', hs', rfl⟩ := Option.map_eq_some_iff.mp hstep
          refine h.server_step hevent hrestart ?_ ?_ ?_ hs'
          · intro hreturned
            simp [Process.allowed, hreturned] at hallowed
          · rintro rfl
            simp [orderly] at horderly
          · rintro hphase rfl
            simpa [orderly, hphase] using horderly
        · cases hstep

theorem orderly_of_run {events : List ProcessEvent} {p : Process}
    (hrun : Run (OrderlySteps env config) (Process.boot Store.empty) events p)
    (hevents : ∀ event ∈ events, EventBelow event) : Orderly config p := by
  refine Run.state_invariant EventBelow (Orderly config) (.fresh .boot rfl rfl) ?_ hrun hevents
  intro event p p' hevent h hstep
  exact orderly_step h hevent hstep

/-- What a clean shutdown must leave behind: every block below the checkpoint was
handled while the torrent database was open, and every tuple ever appended has
been executed. -/
structure NothingLost (config : Config) (p : Process) : Prop where
  blocks : ∀ m, config.startNum.toNat ≤ m → m < persistedTotal p.server.blocks.db →
    m ∈ numbers p.handledOpen
  tuples : p.server.history.executed = p.server.history.appended

/-- An orderly run that comes to the end of `main` has lost nothing. -/
theorem nothing_lost_of_orderly {events : List ProcessEvent} {p : Process}
    (hrun : Run (OrderlySteps env config) (Process.boot Store.empty) events p)
    (hevents : ∀ event ∈ events, EventBelow event) (hreturned : p.phase = .returned) :
    NothingLost config p := by
  have h := orderly_of_run hrun hevents
  obtain ⟨hstill, hhandled⟩ := h.drained (by rw [hreturned]; rfl)
  constructor
  case blocks =>
      intro m hstart hbelow
      have haccepted := h.accounted.accepted
      have hconserved := h.accounted.conserved
      unfold AcceptedInOrder nextNumber at haccepted
      unfold Conserved at hconserved
      rw [hstill, List.append_nil] at hconserved
      rw [hhandled, hconserved, haccepted, List.mem_range'_1]
      omega
  case tuples =>
      have htuples := h.accounted.tuples
      unfold TuplesConserved at htuples
      rw [h.executed hreturned, h.flushed (by rw [hreturned]; rfl)] at htuples
      exact (concat_empty _).symm.trans htuples

section Sample

def sampleFini : List ProcessEvent :=
  List.replicate 7 .fini

def sampleOrderly : List ProcessEvent :=
  (sampleAccept ++ [Event.putBlockExeQueue] ++ sampleHandle ++
    [Event.flush, Event.execute true]).map .server ++ sampleFini

def sampleHasty : List ProcessEvent :=
  (sampleAccept ++ [Event.putBlockExeQueue]).map .server ++ sampleFini

theorem sample_nothing_lost :
    ∃ p, Run (OrderlySteps .oneAsset sampleConfig) (Process.boot Store.empty) sampleOrderly p ∧
      p.phase = .returned ∧ persistedTotal p.server.blocks.db = 2 ∧
      NothingLost sampleConfig p := by
  have hrun : Run (OrderlySteps .oneAsset sampleConfig) (Process.boot Store.empty)
      sampleOrderly _ := run_of_checked rfl
  refine ⟨_, hrun, rfl, rfl, nothing_lost_of_orderly hrun ?_ rfl⟩
  simp [sampleOrderly, sampleFini, sampleAccept, sampleHandle, EventBelow, NumbersBelow, Below,
    sampleBlock]

/-- The queue is not joined: the block stays in it when `main` returns, with the
checkpoint past its number. -/
theorem queued_block_lost_at_exit :
    ¬ ∀ (env : Environment) (config : Config) (events : List ProcessEvent) (p : Process),
      Run (fun p event p' => p.step env config event = some p') (Process.boot Store.empty)
        events p →
      (∀ event ∈ events, EventBelow event) → p.phase = .returned → NothingLost config p := by
  intro hall
  have hrun : Run (fun p event p' => p.step .oneAsset sampleConfig event = some p')
      (Process.boot Store.empty) sampleHasty _ := run_of_foldlM rfl
  have hlost := hall .oneAsset sampleConfig sampleHasty _ hrun
    (by simp [sampleHasty, sampleFini, sampleAccept, EventBelow, NumbersBelow, Below, sampleBlock])
    rfl
  exact absurd (hlost.blocks 1 (by decide) (by decide)) (by decide)

end Sample

end TorrentServer.Shutdown
