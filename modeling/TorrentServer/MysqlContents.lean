import TorrentServer.MysqlPipeline
import TorrentServer.RecordTexts

namespace TorrentServer.MysqlContents

open TorrentServer.Records
open TorrentServer.ChainLibrary
open TorrentServer.MysqlTables
open TorrentServer.HandleBlock
open TorrentServer.TransactionPlans
open TorrentServer.TransactionAtomicity
open TorrentServer.TableMirror
open TorrentServer.ReplaceStatements
open TorrentServer.TaskTexts (Append)
open TorrentServer.ReplaceReading (WritesNumerals sampleClock sampleFormatF scaled_writesNumerals)
open TorrentServer.RowReading
open TorrentServer.BatchReading
open TorrentServer.MysqlPipeline
open TorrentServer.RequestAnswers
open TorrentServer.TorrentViews
open TorrentServer.RecordTexts
open TorrentServer.Library.MapEntries
open TorrentServer.Library.Runs
open TorrentServer.Library.SqlLiterals
open TorrentServer.Library.SqlReplace

variable {env : Environment} {s : ServerState} {steps : List Step}

theorem paymentClean_of_texts {b : OrderedPayment} (h : PaymentTexts b.payment) :
    PaymentClean b where
  strings := h.strings
  payPieces := by
    rintro ⟨account, pieces⟩ hentry
    apply h.payPieces
    rw [← b.payPieces_eq, ← Finmap.lookup_isSome, Entries.lookup_toFinmap,
      b.payPieces.lookup_of_mem hentry]
    rfl
  increaseTrx := by
    rintro ⟨trx, amount⟩ hentry
    apply h.increaseTrx
    rw [← b.increaseTrx_eq, Entries.lookup_toFinmap, b.increaseTrx.lookup_of_mem hentry]

/-- The calls of `append_torrent_create` and `append_torrent_payment` in a run. -/
theorem cleanCall_of_run (hrun : Run (Handles env) .empty steps s)
    (hnames : ∀ step ∈ steps, CleanNames step.trx) {call : Append}
    (hcall : record call ∈ appendedRecords env .empty steps) : CleanCall call := by
  have hclean := (records_clean_of_run hrun hnames).2 _ hcall
  have hids := (@records_of_run env s steps HashIds (fun _ => True)
    (fun _ _ _ _ hstored hplan _ => hashIds_of_planned hstored hplan) hrun
    fun _ _ => trivial).2 _ hcall
  obtain ⟨id, hid⟩ := hids.key
  cases call with
  | torrent now b => exact ⟨hclean, id, congrArg String.toList hid⟩
  | torrentPayment now b =>
      exact ⟨paymentClean_of_texts hclean, id, congrArg String.toList hid⟩

section Contents

variable {formatF : UInt64 → Numeral} {server : Server} {p : Pipeline server}

/-- The blocks are handled while the texts of their records go to MySQL. The server holds
at any time the rows of some first records of each kind, and once nothing is on its way the
rows of LevelDB. -/
theorem mysql_shows_leveldb (hserver : server.Executes primaryKey HashText)
    (hnumerals : WritesNumerals env.decimals) (hrun : Run (MirrorHandles env) .empty steps s)
    (hnames : ∀ step ∈ steps, CleanNames step.trx) {start : server.State}
    (hstart : Represents (server.contents start) .empty) {events : List Event}
    (hpipeline : Run (Pipeline.Steps formatF env) { state := start } events p)
    (hrecords : (appendsOf events).map record = appendedRecords env .empty steps)
    (hconn : ∀ event ∈ events, Connected event) :
    ∃ shown rest : MysqlTask, shown.concat rest = s.mysqlTask ∧
      Represents (server.contents p.state) (Tables.empty.applyTask shown) ∧
      (p.Idle → Represents (server.contents p.state) (projected env s.db)) := by
  have hhandles : Run (Handles env) .empty steps s :=
    hrun.imp fun _ _ _ _ hstep => hstep.handles
  have hclean : ∀ call ∈ appendsOf events, CleanCall call := by
    intro call hcall
    apply cleanCall_of_run hhandles hnames
    rw [← hrecords]
    exact List.mem_map_of_mem hcall
  obtain ⟨shown, queued, pending, h⟩ :=
    refined_of_run hserver hnumerals (fun _ hcall => hcall) hstart hpipeline hclean hconn
  have htask : rowTask env (appendsOf events) = s.mysqlTask := by
    rw [rowTask_eq_appendAll, hrecords, ← mysqlTask_of_run hhandles]
  refine ⟨shown, _, h.order.trans htask, h.rows, fun hidle => ?_⟩
  rw [← rows_projected_of_run hrun, ← htask, ← h.idle hidle]
  exact h.rows

end Contents

section Sample

theorem mirrorHandles_of_plan {step : Step} (plan : Plan)
    (hplan : transactionPlan env s.db step.blockNum step.trx = .ok plan)
    (hputs : step.puts = []) (hkinds : KindsKept s.db plan.records)
    (hassets : ∀ record ∈ plan.records, AssetKnown env (recordAsset record)) :
    MirrorHandles env s step (perform env plan.effects step.puts s) where
  handles := handles_iff.mpr ⟨plan, hplan, rfl⟩
  puts i := by
    rw [hputs]
    rfl
  kinds other hother := by
    cases hplan.symm.trans hother
    exact hkinds
  assets other hother := by
    cases hplan.symm.trans hother
    exact hassets

def firstVersion : Torrent :=
  createdTorrent sampleCreate.trx 1 sampleCreateOperation

def secondVersion : Torrent :=
  updatedTorrent 2 { id := sampleCreateOperation.id, amount := 2000, percent := 20 } firstVersion

def samplePayed : TorrentPayment :=
  createdPayment .oneAsset samplePayment.trx 2 samplePaymentOperation secondVersion

def sampleSteps : List Step :=
  [sampleCreate, sampleUpdate, samplePayment]

theorem sampleSteps_mirrored :
    ∃ s, Run (MirrorHandles .oneAsset) .empty sampleSteps s ∧
      appendedRecords .oneAsset .empty sampleSteps =
        [.torrent firstVersion, .torrent secondVersion, .torrentPayment samplePayed,
          .torrent (payedTorrent secondVersion)] := by
  have hknown : ∀ record ∈ ([.torrent firstVersion, .torrent secondVersion,
      .torrentPayment samplePayed, .torrent (payedTorrent secondVersion)] : List Message),
      AssetKnown .oneAsset (recordAsset record) := by
    simp only [List.forall_mem_cons]
    exact ⟨rfl, rfl, rfl, rfl, by simp⟩
  refine ⟨_, Run.cons (mirrorHandles_of_plan (.saveTorrent firstVersion) rfl rfl ?_ ?_)
    (Run.cons (mirrorHandles_of_plan (.saveTorrent secondVersion) rfl rfl ?_ ?_)
      (Run.cons (mirrorHandles_of_plan
        (.savePaymentThenTorrent samplePayed (payedTorrent secondVersion)) rfl rfl ?_ ?_)
        .nil)), rfl⟩
  · exact ⟨rfl, trivial⟩
  · exact fun record hrecord => hknown record (by simp_all [Plan.records])
  · exact ⟨rfl, trivial⟩
  · exact fun record hrecord => hknown record (by simp_all [Plan.records])
  · exact ⟨rfl, rfl, trivial⟩
  · exact fun record hrecord => hknown record (by simp_all [Plan.records])

/-- The first version is flushed before the second one comes. -/
def sampleAppends : List Event :=
  [.append (.torrent sampleClock firstVersion), .flush,
    .append (.torrent sampleClock secondVersion),
    .append (.torrentPayment sampleClock (.fresh samplePayed rfl rfl)),
    .append (.torrent sampleClock (payedTorrent secondVersion))]

theorem sample_mysql_shows_leveldb :
    ∃ (s : ServerState) (p : Pipeline literalServer),
      Run (MirrorHandles .oneAsset) .empty sampleSteps s ∧ p.Idle ∧
        Represents (literalServer.contents p.state) (projected .oneAsset s.db) := by
  obtain ⟨s, hrun, happended⟩ := sampleSteps_mirrored
  have hnames : ∀ step ∈ sampleSteps, CleanNames step.trx := by
    simp only [sampleSteps, List.forall_mem_cons]
    refine ⟨?_, ?_, ?_, by simp⟩
    · change ∀ name ∈ ["author"], Clean name.toList
      decide
    · change ∀ name ∈ ([] : List String), Clean name.toList
      decide
    · change ∀ name ∈ ["reader", "address"], Clean name.toList
      decide
  have hrecords : (appendsOf sampleAppends).map record =
      appendedRecords .oneAsset .empty sampleSteps := by
    rw [happended]
    rfl
  have hcalls : ∀ call ∈ appendsOf sampleAppends,
      Acceptable sampleFormatF .oneAsset (fun _ _ => True) call := by
    intro call hcall
    refine ⟨cleanCall_of_run (hrun.imp fun _ _ _ _ hstep => hstep.handles) hnames ?_, ?_⟩
    · rw [← hrecords]
      exact List.mem_map_of_mem hcall
    · cases call <;> exact fun _ _ => trivial
  have hbefore : Run (Pipeline.Steps sampleFormatF .oneAsset)
      ({ state := emptyContents } : Pipeline literalServer) sampleAppends _ := run_of_foldlM rfl
  obtain ⟨more, p, hpipeline, hevents, hconn, hidle⟩ :=
    exists_idle_run (literalServer_executes _ _) (literalServer_accepts _ _ fun _ _ => True)
      scaled_writesNumerals represents_empty hbefore hcalls (by simp [sampleAppends, Connected])
  obtain ⟨shown, rest, -, -, hrows⟩ := mysql_shows_leveldb (literalServer_executes _ _)
    scaled_writesNumerals hrun hnames represents_empty hpipeline (by rw [hevents, hrecords]) hconn
  exact ⟨s, p, hrun, hidle, hrows hidle⟩

end Sample

end TorrentServer.MysqlContents
