import TorrentServer.ServerMachine
import TorrentServer.TransactionPlans

namespace TorrentServer.ExecutorReplay

open TorrentServer.Records
open TorrentServer.ChainLibrary
open TorrentServer.MysqlTables
open TorrentServer.TorrentDatabase
open TorrentServer.HandleBlock
open TorrentServer.TransactionPlans
open TorrentServer.ServerMachine
open TorrentServer.Library.KeyValueStore
open TorrentServer.Library.Runs
open TorrentServer.Library.TaskQueues

def transactionsOf (block : SignedBlock) : List (UInt64 × ProcessedTransaction) :=
  block.transactions.map fun trx => (block.blockNum, trx)

/-- The effects with the outcomes of their `Put`s, each of which takes the next one; a
`Put` without an outcome has not been made. -/
def carryOut : List Effect → List Bool → Database → Option (Database × List Bool)
  | [], outcomes, db => some (db, outcomes)
  | .append _ :: effects, outcomes, db => carryOut effects outcomes db
  | .save _ _ :: _, [], _ => none
  | .save record required :: effects, ok :: outcomes, db =>
      if required && !ok then some (db, outcomes)
      else carryOut effects outcomes (saveOrUpdate db record ok)

/-- What `handle_block` leaves of the transactions when its `Put`s have these outcomes, and
the outcomes it did not come to. -/
def replay (env : Environment) :
    List (UInt64 × ProcessedTransaction) → List Bool → Database → Option (Database × List Bool)
  | [], outcomes, db => some (db, outcomes)
  | (blockNum, trx) :: transactions, outcomes, db =>
      (transactionPlan env db blockNum trx).toOption.bind fun plan =>
        (carryOut plan.effects outcomes db).bind fun (db, outcomes) =>
          replay env transactions outcomes db

variable {env : Environment} {config : Config} {s s' : Server} {db db' : Database}
  {effects : List Effect} {outcomes rest : List Bool}
  {transactions : List (UInt64 × ProcessedTransaction)}

section Effects

theorem carryOut_save (record : Message) (required ok : Bool) :
    carryOut (.save record required :: effects) (ok :: outcomes) db =
      carryOut (if required && !ok then [] else effects) outcomes (saveOrUpdate db record ok) := by
  cases hfailed : required && !ok with
  | false => simp [carryOut, hfailed]
  | true =>
      obtain ⟨rfl, rfl⟩ : required = true ∧ ok = false := by simpa using hfailed
      rfl

theorem carryOut_of_not_save (hnone : ∀ effect ∈ effects, effect.isSave = false)
    (outcomes : List Bool) : carryOut effects outcomes db = some (db, outcomes) := by
  induction effects with
  | nil => rfl
  | cons effect effects ih =>
      rw [List.forall_mem_cons] at hnone
      cases effect with
      | append record => exact ih hnone.2
      | save record required => simp [Effect.isSave] at hnone

theorem not_save_of_carryOut (h : carryOut effects [] db = some (db', rest)) :
    ∀ effect ∈ effects, effect.isSave = false := by
  induction effects with
  | nil => simp
  | cons effect effects ih =>
      cases effect with
      | append record => exact List.forall_mem_cons.mpr ⟨rfl, ih h⟩
      | save record required => cases h

theorem perform_of_carryOut (env : Environment) {state : ServerState}
    (h : carryOut effects outcomes state.db = some (db', rest)) :
    ∃ puts, outcomes = puts ++ rest ∧ (perform env effects puts state).db = db' := by
  induction effects generalizing outcomes state with
  | nil =>
      cases h
      exact ⟨[], rfl, rfl⟩
  | cons effect effects ih =>
      cases effect with
      | append record =>
          exact @ih outcomes { state with mysqlTask := appendRecord env record state.mysqlTask } h
      | save record required =>
          cases outcomes with
          | nil => cases h
          | cons ok outcomes =>
              rw [carryOut] at h
              split at h
              · rename_i hfailed
                cases h
                exact ⟨[ok], rfl, by simp [perform, putOutcome, hfailed]⟩
              · rename_i hgoes
                obtain ⟨puts, rfl, hdb⟩ :=
                  @ih outcomes { state with db := saveOrUpdate state.db record ok } h
                refine ⟨ok :: puts, rfl, ?_⟩
                rw [perform]
                simp only [putOutcome, List.getD_cons_zero, List.tail_cons, hgoes]
                exact hdb

end Effects

section Replay

theorem replay_append (more : List (UInt64 × ProcessedTransaction)) :
    replay env (transactions ++ more) outcomes db =
      (replay env transactions outcomes db).bind fun (db, outcomes) =>
        replay env more outcomes db := by
  induction transactions generalizing outcomes db with
  | nil => rfl
  | cons p transactions ih =>
      obtain ⟨blockNum, trx⟩ := p
      simp only [List.cons_append, replay, ih, Option.bind_assoc]

theorem replay_planned {blockNum : UInt64} {trx : ProcessedTransaction} {plan : Plan}
    (hplan : transactionPlan env db blockNum trx = .ok plan) :
    replay env [(blockNum, trx)] outcomes db = carryOut plan.effects outcomes db := by
  simp [replay, hplan, Except.toOption]

theorem replay_of_skipped (hskipped : ∀ p ∈ transactions, Skipped db p.2)
    (outcomes : List Bool) : replay env transactions outcomes db = some (db, outcomes) := by
  induction transactions with
  | nil => rfl
  | cons p transactions ih =>
      rw [List.forall_mem_cons] at hskipped
      obtain ⟨hfirst, hrest⟩ := hskipped
      rw [replay, transactionPlan_of_skipped hfirst]
      exact ih hrest

theorem skipped_of_replay (h : replay env transactions [] db = some (db', rest)) :
    ∀ p ∈ transactions, Skipped db p.2 := by
  induction transactions with
  | nil => simp
  | cons p transactions ih =>
      obtain ⟨blockNum, trx⟩ := p
      rw [replay] at h
      cases hplan : transactionPlan env db blockNum trx with
      | error fault => simp [hplan, Except.toOption] at h
      | ok plan =>
          simp only [hplan, Except.toOption, Option.bind_some] at h
          cases hplanned : planned_of_transactionPlan hplan with
          | skip hskip => exact List.forall_mem_cons.mpr ⟨hskip, ih h⟩
          | _ => cases h

theorem run_of_replay {state : ServerState}
    (h : replay env transactions outcomes state.db = some (db', rest)) :
    ∃ steps after, Run (Handles env) state steps after ∧ after.db = db' ∧
      steps.map (fun step => (step.blockNum, step.trx)) = transactions ∧
      outcomes = steps.flatMap Step.puts ++ rest := by
  induction transactions generalizing outcomes state with
  | nil =>
      cases h
      exact ⟨[], state, .nil, rfl, rfl, rfl⟩
  | cons p transactions ih =>
      obtain ⟨blockNum, trx⟩ := p
      rw [replay] at h
      cases hplan : transactionPlan env state.db blockNum trx with
      | error fault => simp [hplan, Except.toOption] at h
      | ok plan =>
          simp only [hplan, Except.toOption, Option.bind_some] at h
          obtain ⟨⟨middle, left⟩, hcarried, hrest⟩ := Option.bind_eq_some_iff.mp h
          obtain ⟨puts, rfl, rfl⟩ := perform_of_carryOut env hcarried
          obtain ⟨steps, after, hrun, hdb, hsteps, rfl⟩ := ih hrest
          let step : Step := { blockNum := blockNum, trx := trx, puts := puts }
          have hstep : Handles env state step (perform env plan.effects puts state) :=
            handles_iff.mpr ⟨plan, hplan, rfl⟩
          refine ⟨step :: steps, after, Run.cons hstep hrun, hdb, ?_, ?_⟩
          · rw [List.map_cons, hsteps]
          · rw [List.flatMap_cons, List.append_assoc]

/-- The replay of a block is what `handle_block` does with it. -/
theorem handleBlock_of_replay {block : SignedBlock} {state : ServerState}
    (h : replay env (transactionsOf block) outcomes state.db = some (db', rest)) :
    ∃ puts after, handleBlock env true block puts state = .ok after ∧ after.db = db' ∧
      outcomes = (blockSteps block puts).flatMap Step.puts ++ rest := by
  obtain ⟨steps, after, hrun, hdb, hsteps, houtcomes⟩ := run_of_replay h
  have hlength : steps.length = block.transactions.length := by
    simpa [transactionsOf] using congrArg List.length hsteps
  have hblock : blockSteps block (fun i => (steps.map Step.puts).getD i []) = steps := by
    refine List.ext_getElem (by simp [blockSteps, hlength]) fun i hi hi' => ?_
    have hi'' : i < block.transactions.length := hlength ▸ hi'
    have hstep := List.getElem_of_eq hsteps (show i < _ by simpa using hi')
    simp only [List.getElem_map, transactionsOf, Prod.mk.injEq] at hstep
    simp [blockSteps, hi', ← hstep.1, ← hstep.2]
  refine ⟨_, after, ?_, hdb, by rw [hblock]; exact houtcomes⟩
  rw [handleBlock, if_neg (by simp), hblock]
  exact run_iff_foldlM.mp hrun

end Replay

section Progress

def Executor.left : Executor → List (UInt64 × ProcessedTransaction)
  | .idle => []
  | .handling block _ rest => rest.map fun trx => (block.blockNum, trx)

def transactionsLeft (s : Server) : List (UInt64 × ProcessedTransaction) :=
  Executor.left s.executor ++ (s.blockQueue.pending ++ s.fetch.inHand).flatMap transactionsOf

/-- Where the executor stands: the transactions begun so far replay to the database,
whatever the outcomes of the effects still to come. -/
def Progress (env : Environment) (s : Server) : Prop :=
  ∃ begun, s.history.accepted.flatMap transactionsOf = begun ++ transactionsLeft s ∧
    ∀ more, replay env begun (s.history.outcomes ++ more) Store.empty =
      carryOut (effectsOf s.executor) more s.torrents

/-- No accepted block has a `Put` still to make: none is among the effects of the
transaction at hand, and the transactions after it would be skipped on the database as
it is. -/
structure NothingOwed (s : Server) : Prop where
  effects : ∀ effect ∈ effectsOf s.executor, effect.isSave = false
  transactions : ∀ p ∈ transactionsLeft s, Skipped s.torrents p.2

theorem progress_boot (db : Store String) : Progress env (Server.boot db) :=
  ⟨[], rfl, fun _ => rfl⟩

theorem Progress.congr (h : Progress env s)
    (haccepted : s'.history.accepted = s.history.accepted)
    (houtcomes : s'.history.outcomes = s.history.outcomes)
    (hexecutor : s'.executor = s.executor) (htorrents : s'.torrents = s.torrents)
    (hwaiting : s'.blockQueue.pending ++ s'.fetch.inHand =
      s.blockQueue.pending ++ s.fetch.inHand) : Progress env s' := by
  unfold Progress transactionsLeft at h ⊢
  rw [haccepted, houtcomes, hexecutor, htorrents, hwaiting]
  exact h

theorem Progress.executed (h : Progress env s)
    (haccepted : s'.history.accepted = s.history.accepted)
    (houtcomes : s'.history.outcomes = s.history.outcomes)
    (hleft : transactionsLeft s' = transactionsLeft s)
    (hcarried : ∀ more, carryOut (effectsOf s'.executor) more s'.torrents =
      carryOut (effectsOf s.executor) more s.torrents) : Progress env s' := by
  obtain ⟨begun, hsplit, hreplayed⟩ := h
  refine ⟨begun, by rw [haccepted, hleft, hsplit], fun more => ?_⟩
  rw [houtcomes, hcarried, hreplayed]

/-- If nothing is owed, the accepted blocks replay to the database as it is. -/
theorem Progress.replayed (h : Progress env s) (howed : NothingOwed s) (more : List Bool) :
    replay env (s.history.accepted.flatMap transactionsOf) (s.history.outcomes ++ more)
      Store.empty = some (s.torrents, more) := by
  obtain ⟨begun, hsplit, hreplayed⟩ := h
  rw [hsplit, replay_append, hreplayed, carryOut_of_not_save howed.effects]
  exact replay_of_skipped howed.transactions more

theorem Progress.owed (h : Progress env s)
    (hall : replay env (s.history.accepted.flatMap transactionsOf) s.history.outcomes
      Store.empty = some (s.torrents, [])) : NothingOwed s := by
  obtain ⟨begun, hsplit, hreplayed⟩ := h
  have hnow := hreplayed []
  rw [List.append_nil] at hnow
  rw [hsplit, replay_append, hnow] at hall
  obtain ⟨⟨middle, left⟩, hcarried, hrest⟩ := Option.bind_eq_some_iff.mp hall
  have heffects := not_save_of_carryOut hcarried
  rw [carryOut_of_not_save heffects] at hcarried
  cases hcarried
  exact ⟨heffects, skipped_of_replay hrest⟩

theorem progress_step {event : Event} (h : Progress env s)
    (hrunning : event = .putBlockExeQueue → s.blockQueue.stopped = false)
    (howed : event = .restart → NothingOwed s) (hstep : s.Steps env config event s') :
    Progress env s' := by
  cases transition_of_steps hstep with
  | requested hfetch => exact h.congr rfl rfl rfl rfl (by simp [hfetch])
  | replied r hfetch => exact h.congr rfl rfl rfl rfl (by simp [hfetch])
  | exhausted ok hfetch => exact h.congr rfl rfl rfl rfl (by simp [hfetch])
  | skipped ok hfetch => exact h.congr rfl rfl rfl rfl (by simp [hfetch])
  | refused ok hfetch => exact h.congr rfl rfl rfl rfl (by simp [hfetch])
  | @accepted b rest start blocks hfetch =>
      obtain ⟨begun, hsplit, hreplayed⟩ := h
      refine ⟨begun, ?_, hreplayed⟩
      simp only [List.flatMap_append, hsplit, transactionsLeft, hfetch, Fetch.inHand_scanning,
        Fetch.inHand_accepted, List.append_nil, List.append_assoc]
  | handedOver hfetch =>
      have hpending := ExecutionQueue.pending_execute (hrunning rfl)
      exact h.congr rfl rfl rfl rfl (by simp [hfetch, hpending])
  | begun hexecutor hpending =>
      refine h.executed rfl rfl ?_ fun more => by rw [hexecutor]; rfl
      simp [transactionsLeft, hexecutor, hpending, Executor.left, transactionsOf]
  | @planned block trx rest plan hexecutor hplan =>
      obtain ⟨begun, hsplit, hreplayed⟩ := h
      refine ⟨begun ++ [(block.blockNum, trx)], ?_, fun more => ?_⟩
      · simpa [transactionsLeft, hexecutor, Executor.left] using hsplit
      · rw [replay_append, hreplayed, hexecutor]
        exact replay_planned hplan
  | appended ok hexecutor =>
      refine h.executed rfl rfl ?_ fun more => by rw [hexecutor]; rfl
      simp [transactionsLeft, hexecutor, Executor.left]
  | saved ok hexecutor =>
      obtain ⟨begun, hsplit, hreplayed⟩ := h
      refine ⟨begun, by simpa [transactionsLeft, hexecutor, Executor.left] using hsplit,
        fun more => ?_⟩
      rw [List.append_assoc, hreplayed, hexecutor]
      exact carryOut_save _ _ _
  | ended hexecutor =>
      refine h.executed rfl rfl ?_ fun more => by rw [hexecutor]; rfl
      simp [transactionsLeft, hexecutor, Executor.left]
  | flushed => exact h.congr rfl rfl rfl rfl rfl
  | executed => exact h.congr rfl rfl rfl rfl rfl
  | unconnected => exact h.congr rfl rfl rfl rfl rfl
  | restarted =>
      refine ⟨s.history.accepted.flatMap transactionsOf, ?_, fun more => ?_⟩
      · simp [transactionsLeft, Server.restart, Server.boot, Executor.left]
      · exact h.replayed (howed rfl) more

end Progress

end TorrentServer.ExecutorReplay
