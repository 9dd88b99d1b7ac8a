import TorrentServer.Checkpoint
import TorrentServer.Library.TaskQueues

/-!
The running server as one machine: the fetching task of `fullnode.cpp`, the block
queue and its executor, the flushing task and the batch executor, over the
three stores that survive a restart. The steps are the points between which the
threads interleave and the process can die.
-/

namespace TorrentServer.ServerMachine

open TorrentServer.Records
open TorrentServer.ChainLibrary
open TorrentServer.MysqlTables
open TorrentServer.TorrentDatabase
open TorrentServer.HandleBlock
open TorrentServer.Checkpoint
open TorrentServer.Library.KeyValueStore
open TorrentServer.Library.TaskQueues

structure Config where
  startNum : UInt64
  chainType : UInt64

/-- An element of the array `blocks` of a reply: it parses as a block, or parsing
throws an `fc::exception`. -/
inductive Entry
  | malformed
  | block (b : SignedBlock)

inductive Reply
  | failed
  | error
  | result (chainType : UInt64) (blocks : List Entry)

/-- Where `OnTriggeringTask` stands: not running, waiting for the reply to a
request, in the loop over the entries, or between `store_totalnum` of a block
and `put_block_exe_queue` of it. -/
inductive Fetch
  | idle
  | waiting (blockNum : UInt64)
  | scanning (rest : List Entry)
  | accepted (b : SignedBlock) (rest : List Entry)

/-- Where `block_queue_exe` stands: `handle_block` is called for a block, with the
effects still to come of the transaction at hand and the transactions after it. -/
inductive Executor
  | idle
  | handling (block : SignedBlock) (effects : List Effect)
      (rest : List ProcessedTransaction)

/-- What has happened so far: the blocks the checkpoint was written for, those put into
the queue, begun and returned from, and the outcome of every `Put` into the torrent
database. The statements speak about it; no step reads it. -/
structure History where
  accepted : List SignedBlock := []
  enqueued : List SignedBlock := []
  session : List SignedBlock := []
  opened : Nat := 0
  begun : List SignedBlock := []
  completed : List SignedBlock := []
  outcomes : List Bool := []
  appended : MysqlTask := {}
  executed : MysqlTask := {}

structure Server where
  blocks : BlockLeveldb
  fetch : Fetch
  blockQueue : ExecutionQueue SignedBlock
  executor : Executor
  torrents : Database
  mysqlTask : MysqlTask
  batchQueue : ExecutionQueue Statement
  tables : Tables
  history : History

def Fetch.inHand : Fetch → List SignedBlock
  | .accepted b _ => [b]
  | _ => []

@[simp] theorem Fetch.inHand_idle : Fetch.idle.inHand = [] := rfl

@[simp] theorem Fetch.inHand_waiting (blockNum : UInt64) :
    (Fetch.waiting blockNum).inHand = [] := rfl

@[simp] theorem Fetch.inHand_scanning (rest : List Entry) :
    (Fetch.scanning rest).inHand = [] := rfl

@[simp] theorem Fetch.inHand_accepted (b : SignedBlock) (rest : List Entry) :
    (Fetch.accepted b rest).inHand = [b] := rfl

def Executor.inFlight : Executor → List SignedBlock
  | .idle => []
  | .handling block _ _ => [block]

/-- The accepted blocks that `handle_block` has not returned from, in order. -/
def Server.inFlight (s : Server) : List SignedBlock :=
  s.executor.inFlight ++ (s.blockQueue.pending ++ s.fetch.inHand)

def effectsOf : Executor → List Effect
  | .idle => []
  | .handling _ effects _ => effects

def Server.boot (db : Store String) : Server where
  blocks := openAt db
  fetch := .idle
  blockQueue := {}
  executor := .idle
  torrents := Store.empty
  mysqlTask := {}
  batchQueue := {}
  tables := .empty
  history := { opened := persistedTotal db }

inductive Event
  | request
  | reply (r : Reply)
  | scan (ok : Bool)
  | putBlockExeQueue
  | beginBlock
  | beginTransaction
  | effect (ok : Bool)
  | endBlock
  | flush
  | execute (connected : Bool)
  | restart

variable (env : Environment) (config : Config)

def Server.request (s : Server) : Option Server :=
  match s.fetch with
  | .idle =>
      (getStartBlockNum config.startNum s.blocks).map fun (start, blocks) =>
        { s with blocks := blocks, fetch := .waiting start }
  | _ => none

def afterReply : Reply → Fetch
  | .failed => .idle
  | .error => .idle
  | .result chainType blocks =>
      if chainType ≠ config.chainType then .idle else .scanning blocks

def Server.reply (s : Server) (r : Reply) : Option Server :=
  match s.fetch with
  | .waiting _ => some { s with fetch := afterReply config r }
  | _ => none

/-- One turn of the loop over the entries; `ok` is the outcome of the write. -/
def Server.scan (s : Server) (ok : Bool) : Option Server :=
  match s.fetch with
  | .scanning [] => some { s with fetch := .idle }
  | .scanning (.malformed :: rest) => some { s with fetch := .scanning rest }
  | .scanning (.block b :: rest) =>
      (getStartBlockNum config.startNum s.blocks).map fun (start, blocks) =>
        if b.blockNum = start then
          { s with
            blocks := storeTotalnum blocks b ok
            fetch := if ok then .accepted b rest else .idle
            history :=
              if ok then { s.history with accepted := s.history.accepted ++ [b] }
              else s.history }
        else { s with blocks := blocks, fetch := .idle }
  | _ => none

def Server.putBlockExeQueue (s : Server) : Option Server :=
  match s.fetch with
  | .accepted b rest =>
      some
        { s with
          fetch := .scanning rest
          blockQueue := s.blockQueue.execute b
          history :=
            { s.history with
              enqueued := s.history.enqueued ++ [b]
              session := s.history.session ++ [b] } }
  | _ => none

def Server.beginBlock (s : Server) : Option Server :=
  match s.executor, s.blockQueue.pending with
  | .idle, b :: pending =>
      some
        { s with
          executor := .handling b [] b.transactions
          blockQueue := { s.blockQueue with pending := pending }
          history := { s.history with begun := s.history.begun ++ [b] } }
  | _, _ => none

/-- A transaction that faults ends the process: there is no such step. -/
def Server.beginTransaction (s : Server) : Option Server :=
  match s.executor with
  | .handling block [] (trx :: rest) =>
      (transactionPlan env s.torrents block.blockNum trx).toOption.map fun plan =>
        { s with executor := .handling block plan.effects rest }
  | _ => none

def Server.effect (s : Server) (ok : Bool) : Option Server :=
  match s.executor with
  | .handling block (.append record :: effects) rest =>
      some
        { s with
          executor := .handling block effects rest
          mysqlTask := appendRecord env record s.mysqlTask
          history :=
            { s.history with appended := appendRecord env record s.history.appended } }
  | .handling block (.save record required :: effects) rest =>
      some
        { s with
          executor := .handling block (if required && !ok then [] else effects) rest
          torrents := saveOrUpdate s.torrents record ok
          history := { s.history with outcomes := s.history.outcomes ++ [ok] } }
  | _ => none

def Server.endBlock (s : Server) : Option Server :=
  match s.executor with
  | .handling block [] [] =>
      some
        { s with
          executor := .idle
          history := { s.history with completed := s.history.completed ++ [block] } }
  | _ => none

def Server.flush (s : Server) : Server :=
  { s with
    batchQueue := s.batchQueue.executeAll s.mysqlTask.statements
    mysqlTask := {} }

/-- `mysql_queue_exe_batch` at its next statement, which it repeats until it has been
executed. Without a connection it returns with the iterator on the statement,
which is then never handed out again. -/
def Server.execute (s : Server) (connected : Bool) : Option Server :=
  match s.batchQueue.pending with
  | statement :: pending =>
      let s := { s with batchQueue := { s.batchQueue with pending := pending } }
      if connected then
        some
          { s with
            tables := s.tables.execute statement
            history :=
              { s.history with executed := s.history.executed.concat statement.tuples } }
      else some s
  | [] => none

/-- The process dies and is started again on its databases. -/
def Server.restart (s : Server) : Server :=
  { Server.boot s.blocks.db with
    torrents := s.torrents
    tables := s.tables
    history :=
      { s.history with
        session := []
        opened := persistedTotal s.blocks.db } }

@[simp] theorem Server.restart_fetch (s : Server) : s.restart.fetch = .idle := rfl

@[simp] theorem Server.restart_blockQueue (s : Server) : s.restart.blockQueue = {} := rfl

@[simp] theorem Server.restart_enqueued (s : Server) :
    s.restart.history.enqueued = s.history.enqueued := rfl

@[simp] theorem Server.restart_begun (s : Server) :
    s.restart.history.begun = s.history.begun := rfl

def Server.step (s : Server) : Event → Option Server
  | .request => s.request config
  | .reply r => s.reply config r
  | .scan ok => s.scan config ok
  | .putBlockExeQueue => s.putBlockExeQueue
  | .beginBlock => s.beginBlock
  | .beginTransaction => s.beginTransaction env
  | .effect ok => s.effect env ok
  | .endBlock => s.endBlock
  | .flush => some s.flush
  | .execute connected => s.execute connected
  | .restart => some s.restart

def Server.Steps (s : Server) (event : Event) (s' : Server) : Prop :=
  s.step env config event = some s'

/-- What a step can do, one constructor for each outcome of each event. -/
inductive Transition (s : Server) : Event → Server → Prop
  | requested {start : UInt64} {blocks : BlockLeveldb} (hfetch : s.fetch = .idle)
      (hstart : getStartBlockNum config.startNum s.blocks = some (start, blocks)) :
      Transition s .request { s with blocks := blocks, fetch := .waiting start }
  | replied {blockNum : UInt64} (r : Reply) (hfetch : s.fetch = .waiting blockNum) :
      Transition s (.reply r) { s with fetch := afterReply config r }
  | exhausted (ok : Bool) (hfetch : s.fetch = .scanning []) :
      Transition s (.scan ok) { s with fetch := .idle }
  | skipped {rest : List Entry} (ok : Bool)
      (hfetch : s.fetch = .scanning (.malformed :: rest)) :
      Transition s (.scan ok) { s with fetch := .scanning rest }
  | refused {b : SignedBlock} {rest : List Entry} {start : UInt64} {blocks : BlockLeveldb}
      (ok : Bool) (hfetch : s.fetch = .scanning (.block b :: rest))
      (hstart : getStartBlockNum config.startNum s.blocks = some (start, blocks)) :
      Transition s (.scan ok) { s with blocks := blocks, fetch := .idle }
  | accepted {b : SignedBlock} {rest : List Entry} {start : UInt64} {blocks : BlockLeveldb}
      (hfetch : s.fetch = .scanning (.block b :: rest))
      (hstart : getStartBlockNum config.startNum s.blocks = some (start, blocks))
      (hnum : b.blockNum = start) :
      Transition s (.scan true)
        { s with
          blocks := storeTotalnum blocks b true
          fetch := .accepted b rest
          history := { s.history with accepted := s.history.accepted ++ [b] } }
  | handedOver {b : SignedBlock} {rest : List Entry} (hfetch : s.fetch = .accepted b rest) :
      Transition s .putBlockExeQueue
        { s with
          fetch := .scanning rest
          blockQueue := s.blockQueue.execute b
          history :=
            { s.history with
              enqueued := s.history.enqueued ++ [b]
              session := s.history.session ++ [b] } }
  | begun {b : SignedBlock} {pending : List SignedBlock} (hexecutor : s.executor = .idle)
      (hpending : s.blockQueue.pending = b :: pending) :
      Transition s .beginBlock
        { s with
          executor := .handling b [] b.transactions
          blockQueue := { s.blockQueue with pending := pending }
          history := { s.history with begun := s.history.begun ++ [b] } }
  | planned {block : SignedBlock} {trx : ProcessedTransaction}
      {rest : List ProcessedTransaction} {plan : Plan}
      (hexecutor : s.executor = .handling block [] (trx :: rest))
      (hplan : transactionPlan env s.torrents block.blockNum trx = .ok plan) :
      Transition s .beginTransaction
        { s with executor := .handling block plan.effects rest }
  | appended {block : SignedBlock} {record : Message} {effects : List Effect}
      {rest : List ProcessedTransaction} (ok : Bool)
      (hexecutor : s.executor = .handling block (.append record :: effects) rest) :
      Transition s (.effect ok)
        { s with
          executor := .handling block effects rest
          mysqlTask := appendRecord env record s.mysqlTask
          history :=
            { s.history with appended := appendRecord env record s.history.appended } }
  | saved {block : SignedBlock} {record : Message} {required : Bool} {effects : List Effect}
      {rest : List ProcessedTransaction} (ok : Bool)
      (hexecutor : s.executor = .handling block (.save record required :: effects) rest) :
      Transition s (.effect ok)
        { s with
          executor := .handling block (if required && !ok then [] else effects) rest
          torrents := saveOrUpdate s.torrents record ok
          history := { s.history with outcomes := s.history.outcomes ++ [ok] } }
  | ended {block : SignedBlock} (hexecutor : s.executor = .handling block [] []) :
      Transition s .endBlock
        { s with
          executor := .idle
          history := { s.history with completed := s.history.completed ++ [block] } }
  | flushed : Transition s .flush s.flush
  | executed {statement : Statement} {pending : List Statement}
      (hpending : s.batchQueue.pending = statement :: pending) :
      Transition s (.execute true)
        { s with
          batchQueue := { s.batchQueue with pending := pending }
          tables := s.tables.execute statement
          history :=
            { s.history with executed := s.history.executed.concat statement.tuples } }
  | unconnected {statement : Statement} {pending : List Statement}
      (hpending : s.batchQueue.pending = statement :: pending) :
      Transition s (.execute false)
        { s with batchQueue := { s.batchQueue with pending := pending } }
  | restarted : Transition s .restart s.restart

variable {env config}

@[simp] theorem afterReply_inHand (r : Reply) : (afterReply config r).inHand = [] := by
  unfold afterReply
  split
  · rfl
  · rfl
  · split <;> rfl

theorem scan_transition {s s' : Server} {ok : Bool} (h : s.scan config ok = some s') :
    Transition env config s (.scan ok) s' := by
  unfold Server.scan at h
  split at h
  case h_1 hfetch =>
      cases h
      exact .exhausted ok hfetch
  case h_2 rest hfetch =>
      cases h
      exact .skipped ok hfetch
  case h_3 b rest hfetch =>
      obtain ⟨⟨start, blocks⟩, hstart, rfl⟩ := Option.map_eq_some_iff.mp h
      by_cases hnum : b.blockNum = start
      · cases ok with
        | false =>
            simp only [hnum, if_true, storeTotalnum]
            exact .refused false hfetch hstart
        | true =>
            simp only [hnum, if_true]
            exact .accepted hfetch hstart hnum
      · simp only [hnum, if_false]
        exact .refused ok hfetch hstart
  case h_4 => cases h

theorem effect_transition {s s' : Server} {ok : Bool} (h : s.effect env ok = some s') :
    Transition env config s (.effect ok) s' := by
  unfold Server.effect at h
  split at h
  case h_1 hexecutor =>
      cases h
      exact .appended ok hexecutor
  case h_2 hexecutor =>
      cases h
      exact .saved ok hexecutor
  case h_3 => cases h

theorem transition_of_steps {s s' : Server} {event : Event}
    (h : s.Steps env config event s') : Transition env config s event s' := by
  cases event with
  | request =>
      simp only [Server.Steps, Server.step, Server.request] at h
      split at h
      · rename_i hfetch
        obtain ⟨⟨start, blocks⟩, hstart, rfl⟩ := Option.map_eq_some_iff.mp h
        exact .requested hfetch hstart
      · cases h
  | reply r =>
      simp only [Server.Steps, Server.step, Server.reply] at h
      split at h
      · rename_i hfetch
        cases h
        exact .replied r hfetch
      · cases h
  | scan ok => exact scan_transition h
  | putBlockExeQueue =>
      simp only [Server.Steps, Server.step, Server.putBlockExeQueue] at h
      split at h
      · rename_i hfetch
        cases h
        exact .handedOver hfetch
      · cases h
  | beginBlock =>
      simp only [Server.Steps, Server.step, Server.beginBlock] at h
      split at h
      · rename_i hexecutor hpending
        cases h
        exact .begun hexecutor hpending
      · cases h
  | beginTransaction =>
      simp only [Server.Steps, Server.step, Server.beginTransaction] at h
      split at h
      · rename_i block trx rest hexecutor
        obtain ⟨plan, hplan, rfl⟩ := Option.map_eq_some_iff.mp h
        cases hresult : transactionPlan env s.torrents block.blockNum trx with
        | error fault => simp [hresult, Except.toOption] at hplan
        | ok plan' =>
            obtain rfl : plan' = plan := by simpa [hresult, Except.toOption] using hplan
            exact .planned hexecutor hresult
      · cases h
  | effect ok => exact effect_transition h
  | endBlock =>
      simp only [Server.Steps, Server.step, Server.endBlock] at h
      split at h
      · rename_i hexecutor
        cases h
        exact .ended hexecutor
      · cases h
  | flush =>
      cases h
      exact .flushed
  | execute connected =>
      simp only [Server.Steps, Server.step, Server.execute] at h
      split at h
      · rename_i hpending
        cases connected with
        | false =>
            cases h
            exact .unconnected hpending
        | true =>
            cases h
            exact .executed hpending
      · cases h
  | restart =>
      cases h
      exact .restarted

section Sample

def sampleConfig : Config where
  startNum := 1
  chainType := 7

def sampleBlock : SignedBlock where
  blockNum := 1
  transactions := [sampleCreate.trx]

def sampleAccept : List Event :=
  [.request, .reply (.result 7 [.malformed, .block sampleBlock]), .scan true, .scan true]

def sampleHandle : List Event :=
  [.beginBlock, .beginTransaction, .effect true, .effect true, .endBlock]

end Sample

end TorrentServer.ServerMachine
