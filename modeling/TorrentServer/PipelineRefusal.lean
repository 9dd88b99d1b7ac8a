import TorrentServer.MysqlPipeline

namespace TorrentServer.PipelineRefusal

open TorrentServer.ChainLibrary
open TorrentServer.ConnectionPool (getMysqlConn)
open TorrentServer.SqlExecutor (Executor Queue)
open TorrentServer.ReplaceReading (sampleFormatF)
open TorrentServer.BatchReading
open TorrentServer.MysqlPipeline
open TorrentServer.Library.SqlText
open TorrentServer.Library.SqlStatements
open TorrentServer.Library.Runs
open TorrentServer.Library.SqlLiterals
open TorrentServer.Library.SqlReplace

section Refusal

variable {formatF : UInt64 → Numeral} {env : Environment} {server : Server}
  {start : server.State} {p p' : Pipeline server}

/-- The state the server is left in by statements it has executed one after the other. -/
def executeTexts (server : Server) (start : server.State) (texts : List String) :
    Option server.State :=
  texts.foldlM (fun s text => server.query s text.toList) start

/-- No task is lost or overtaken, and the server has executed those behind. -/
structure InOrder (start : server.State) (p : Pipeline server) : Prop where
  kept : SqlExecutor.Kept .batch p.executor
  state : executeTexts server start p.executor.answered = some p.state

theorem kept_putAll {e : Executor} (h : SqlExecutor.Kept .batch e)
    (tasks : List SqlExecutor.MysqlTask) :
    SqlExecutor.Kept .batch (tasks.foldl Executor.put e) ∧
      (tasks.foldl Executor.put e).answered = e.answered := by
  induction tasks generalizing e with
  | nil => exact ⟨h, rfl⟩
  | cons task tasks ih => exact ih (h.put task)

theorem InOrder.moved (h : InOrder start p) {executor : Executor}
    (hkept : SqlExecutor.Kept .batch executor) (hsame : SameTasks p.executor executor) :
    InOrder start { p with executor := executor } where
  kept := hkept
  state := by rw [hsame.answered, h.state]

theorem inOrder_step {event : Event} (hconn : Connected event) (h : InOrder start p)
    (hstep : p.Steps formatF env event p') : InOrder start p' := by
  cases transition_of_steps hstep with
  | appended call => exact ⟨h.kept, h.state⟩
  | flushed =>
      obtain ⟨hkept, hanswered⟩ := kept_putAll h.kept (batchTasks p.task)
      refine ⟨hkept, ?_⟩
      rw [Pipeline.flush, hanswered]
      exact h.state
  | entered hexecutor =>
      exact h.moved (h.kept.enter hconn hexecutor) (sameTasks_enter hconn hexecutor)
  | executed htask hquery hexecutor =>
      obtain ⟨-, -, hanswered⟩ := waiting_accepted htask hexecutor
      refine ⟨h.kept.query hexecutor, ?_⟩
      rw [hanswered, executeTexts, List.foldlM_append, ← executeTexts, h.state]
      simpa using hquery
  | failed hexecutor => exact h.moved (h.kept.query hexecutor) (sameTasks_failed hexecutor)
  | advanced hexecutor => exact h.moved (h.kept.next hexecutor) (sameTasks_next hexecutor)
  | left hexecutor => exact h.moved (h.kept.leave hexecutor) (sameTasks_leave hexecutor)

theorem inOrder_of_run {events : List Event}
    (hrun : Run (Pipeline.Steps formatF env) { state := start } events p)
    (hconn : ∀ event ∈ events, Connected event) : InOrder start p := by
  have hstart : InOrder start { state := start } := ⟨rfl, rfl⟩
  exact hrun.state_invariant Connected (InOrder start) hstart
    (fun _ _ _ => inOrder_step) hconn

theorem query_of_executeTexts {texts : List String} {s : server.State}
    (h : executeTexts server start texts = some s) {text : String} (htext : text ∈ texts) :
    ∃ s, (server.query s text.toList).isSome = true := by
  induction texts generalizing start with
  | nil => cases htext
  | cons first texts ih =>
      obtain ⟨next, hnext, hrest⟩ := Option.bind_eq_some_iff.mp h
      rcases List.mem_cons.mp htext with rfl | hmem
      · exact ⟨start, Option.isSome_iff_exists.mpr ⟨next, hnext⟩⟩
      · exact ih hrest hmem

/-- A statement that the server refuses is repeated for ever: in every run all that is
executed are statements that were put into the queue before it. -/
theorem refused_statement_blocks {events : List Event}
    (hrun : Run (Pipeline.Steps formatF env) { state := start } events p)
    (hconn : ∀ event ∈ events, Connected event)
    {before after : List SqlExecutor.MysqlTask} {task : SqlExecutor.MysqlTask}
    (hsubmitted : p.executor.submitted = before ++ task :: after)
    (hrefused : ∀ s, server.query s (Queue.batch.statement task).toList = none) :
    ∃ texts, texts <+: before.map Queue.batch.statement ∧
      executeTexts server start texts = some p.state := by
  have h := inOrder_of_run hrun hconn
  have hkept : p.executor.answered ++ p.executor.waiting.map Queue.batch.statement =
      before.map Queue.batch.statement ++
        (Queue.batch.statement task :: after.map Queue.batch.statement) := by
    rw [h.kept, hsubmitted, List.map_append, List.map_cons]
  refine ⟨p.executor.answered, ?_, h.state⟩
  rcases List.append_eq_append_iff.mp hkept with ⟨rest, hbefore, -⟩ | ⟨rest, hanswered, hrest⟩
  · exact ⟨rest, hbefore.symm⟩
  · cases rest with
    | nil => rw [hanswered, List.append_nil]
    | cons text rest =>
        obtain ⟨rfl, -⟩ := List.cons.inj hrest
        have hmem : Queue.batch.statement task ∈ p.executor.answered := by
          rw [hanswered]
          simp
        obtain ⟨s, hs⟩ := query_of_executeTexts h.state hmem
        rw [hrefused s] at hs
        cases hs

end Refusal

section Sample

theorem callOfUser_refused :
    lex (Queue.batch.statement (Batch.task sampleFormatF .oneAsset
      { table := .torrent, calls := [callOfUser "o'brien"] })).toList = none := by
  have hread := ReplaceReading.read_eq_lex TaskTexts.torrentHead_text
    (ReplaceReading.torrentTupleText_toList sampleFormatF .oneAsset)
    (TaskTexts.lookup_torrentType _ _ [callOfUser "o'brien"]) (List.cons_ne_nil _ _)
  rw [read_batch (callOfUser_value _)]
  refine hread.trans ((congrArg lex (tuplesTemplate_text _ (List.cons_ne_nil _ _))).trans ?_)
  rw [lex_fixed_append]
  decide +kernel

/-- The two tasks of a record with an apostrophe and of one without, flushed one after the
other; the executor tries the first statement twice. -/
def blockedEvents : List Event :=
  [ .append (callOfUser "o'brien"), .flush, .append (callOfUser "author"), .flush,
    .enter true true, .query false, .query false ]

def blocked : Pipeline literalServer where
  executor :=
    { queue := { pending := [callTask "author"] }
      running := some { flag := .pooled, task := some (callTask "o'brien") }
      submitted := [callTask "o'brien", callTask "author"] }
  state := emptyContents

theorem run_blocked :
    Run (Pipeline.Steps sampleFormatF .oneAsset) { state := emptyContents }
      blockedEvents blocked := by
  have hfirst := congrArg some (flush_callOfUser "o'brien" {})
  have hsecond := congrArg some
    (flush_callOfUser "author" (({} : Executor).put (callTask "o'brien")))
  exact (run_afterCall "o'brien").append (Run.cons hfirst (Run.cons rfl (Run.cons hsecond
    (Run.cons rfl (Run.cons rfl (Run.cons rfl .nil))))))

theorem blocked_stays_empty :
    ∃ texts : List String, texts <+: [] ∧
      executeTexts literalServer emptyContents texts = some blocked.state := by
  exact refused_statement_blocks run_blocked (by simp [blockedEvents, Connected, getMysqlConn])
    (show blocked.executor.submitted = [] ++ callTask "o'brien" :: [callTask "author"] from rfl)
    fun s => literalServer_refuses s _ callOfUser_refused

end Sample

end TorrentServer.PipelineRefusal
