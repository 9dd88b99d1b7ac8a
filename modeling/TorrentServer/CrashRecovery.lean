import TorrentServer.BlockOrder
import TorrentServer.ExecutorReplay

namespace TorrentServer.CrashRecovery

open TorrentServer.ChainLibrary
open TorrentServer.HandleBlock
open TorrentServer.Checkpoint
open TorrentServer.ServerMachine
open TorrentServer.BlockOrder
open TorrentServer.ExecutorReplay
open TorrentServer.Library.KeyValueStore
open TorrentServer.Library.Runs

def nextNumber (config : Config) (s : Server) : Nat :=
  max (persistedTotal s.blocks.db) config.startNum.toNat

/-- The blocks the checkpoint was written for are those below it, each of them once and in
order. -/
def AcceptedInOrder (config : Config) (s : Server) : Prop :=
  numbers s.history.accepted =
    List.range' config.startNum.toNat (nextNumber config s - config.startNum.toNat)

variable {env : Environment} {config : Config} {s s' : Server} {n : Nat}

theorem AcceptedInOrder.congr (h : AcceptedInOrder config s)
    (haccepted : s'.history.accepted = s.history.accepted)
    (hdb : s'.blocks.db = s.blocks.db) : AcceptedInOrder config s' := by
  unfold AcceptedInOrder nextNumber at h ⊢
  rw [haccepted, hdb, h]

theorem AcceptedInOrder.accepted {b : SignedBlock} {rest : List Entry} {blocks : BlockLeveldb}
    (h : AcceptedInOrder config s) (hblock : b.blockNum.toNat < 10 ^ 19 - 1)
    (hnum : b.blockNum.toNat = nextNumber config s) :
    AcceptedInOrder config
      { s with
        blocks := storeTotalnum blocks b true
        fetch := .accepted b rest
        history := { s.history with accepted := s.history.accepted ++ [b] } } := by
  have htotal : persistedTotal (storeTotalnum blocks b true).db = b.blockNum.toNat + 1 :=
    persistedTotal_of_stored (holds_storeTotalnum blocks hblock).stored
  have hstart : config.startNum.toNat ≤ nextNumber config s := le_max_right _ _
  have hlast : config.startNum.toNat + 1 * (nextNumber config s - config.startNum.toNat) =
      b.blockNum.toNat := by omega
  have hnext : max (b.blockNum.toNat + 1) config.startNum.toNat - config.startNum.toNat =
      nextNumber config s - config.startNum.toNat + 1 := by omega
  calc
    numbers (s.history.accepted ++ [b])
        = numbers s.history.accepted ++ [b.blockNum.toNat] := by
          rw [numbers, List.map_append]
          rfl
    _ = List.range' config.startNum.toNat
          (max (persistedTotal (storeTotalnum blocks b true).db) config.startNum.toNat -
            config.startNum.toNat) := by
          rw [h, htotal, hnext, List.range'_concat, hlast]

theorem accepted_boot : AcceptedInOrder config (Server.boot Store.empty) := by
  simp [AcceptedInOrder, nextNumber, numbers, Server.boot, openAt, persistedTotal]

theorem accepted_step {event : Event} (h : AcceptedInOrder config s)
    (hordered : Ordered config s n) (hstep : s.Steps env config event s') :
    AcceptedInOrder config s' := by
  cases transition_of_steps hstep with
  | requested hfetch hstart => exact h.congr rfl (getStartBlockNum_db hstart)
  | refused ok hfetch hstart => exact h.congr rfl (getStartBlockNum_db hstart)
  | accepted hfetch hstart hnum =>
      obtain ⟨start, blocks, hsome, -, hmax⟩ := hordered.holds.getStartBlockNum config.startNum
      cases hsome.symm.trans hstart
      have hentries := hordered.entries
      rw [hfetch] at hentries
      refine h.accepted (hentries _ (by simp [entriesOf])) ?_
      rw [hnum, hmax, nextNumber, persistedTotal_of_stored hordered.holds.stored]
  | _ => exact h.congr rfl rfl

/-- Steps among which the process dies only while nothing is owed. -/
def CarefulSteps (env : Environment) (config : Config) (s : Server) (event : Event)
    (s' : Server) : Prop :=
  s.Steps env config event s' ∧ (event = .restart → NothingOwed s)

/-- The request a started server sends next covers block `m`. -/
def RequestedAgain (config : Config) (s : Server) (m : Nat) : Prop :=
  ∃ start blocks, getStartBlockNum config.startNum s.blocks = some (start, blocks) ∧
    start.toNat ≤ m

/-- What a restarted server must find: its torrent database is what `handle_block` leaves
of some of the accepted blocks, with the outcomes their `Put`s had and none missing,
and every number below its checkpoint is one of theirs or is asked for again. -/
def Recovered (env : Environment) (config : Config) (s : Server) : Prop :=
  ∃ handled : List SignedBlock, handled.Sublist s.history.accepted ∧
    replay env (handled.flatMap transactionsOf) s.history.outcomes Store.empty =
      some (s.torrents, []) ∧
    ∀ m, config.startNum.toNat ≤ m → m < persistedTotal s.blocks.db →
      m ∈ numbers handled ∨ RequestedAgain config s m

theorem requestedAgain_iff (hholds : Holds s.blocks n) (m : Nat) :
    RequestedAgain config s m ↔ max n config.startNum.toNat ≤ m := by
  obtain ⟨start, blocks, hstart, -, hmax⟩ := hholds.getStartBlockNum config.startNum
  constructor
  · rintro ⟨start', blocks', hstart', hle⟩
    cases hstart.symm.trans hstart'
    omega
  · intro hle
    exact ⟨start, blocks, hstart, by omega⟩

structure Careful (env : Environment) (config : Config) (s : Server) : Prop where
  ordered : ∃ n, Ordered config s n
  accepted : AcceptedInOrder config s
  running : s.blockQueue.stopped = false
  progress : Progress env s

theorem stopped_step {event : Event} (hrunning : s.blockQueue.stopped = false)
    (hstep : s.Steps env config event s') : s'.blockQueue.stopped = false := by
  cases transition_of_steps hstep with
  | handedOver => simpa using hrunning
  | restarted => rfl
  | _ => exact hrunning

theorem careful_step {event : Event} (hevent : NumbersBelow event) (h : Careful env config s)
    (hstep : CarefulSteps env config s event s') : Careful env config s' := by
  obtain ⟨hstep, howed⟩ := hstep
  obtain ⟨n, hordered⟩ := h.ordered
  exact ⟨ordered_step hordered hevent hstep, accepted_step h.accepted hordered hstep,
    stopped_step h.running hstep, progress_step h.progress (fun _ => h.running) howed hstep⟩

theorem careful_of_run {events : List Event}
    (hrun : Run (CarefulSteps env config) (Server.boot Store.empty) events s)
    (hevents : ∀ event ∈ events, NumbersBelow event) : Careful env config s := by
  have hdb : Stored Store.empty 0 := ⟨by norm_num, .inr ⟨rfl, rfl⟩⟩
  refine Run.state_invariant NumbersBelow (Careful env config) ?_ ?_ hrun hevents
  · exact ⟨⟨0, ordered_boot hdb⟩, accepted_boot, rfl, progress_boot _⟩
  · exact fun event s s' hevent h hstep => careful_step hevent h hstep

/-- A restarted server asks for no block below its checkpoint, so that all of them have to
be handled. -/
theorem Careful.handled_eq (h : Careful env config s) {handled : List SignedBlock}
    (hsublist : handled.Sublist s.restart.history.accepted)
    (hcovered : ∀ m, config.startNum.toNat ≤ m → m < persistedTotal s.restart.blocks.db →
      m ∈ numbers handled ∨ RequestedAgain config s.restart m) :
    handled = s.history.accepted := by
  obtain ⟨n, hordered⟩ := h.ordered
  have htotal : persistedTotal s.blocks.db = n := persistedTotal_of_stored hordered.holds.stored
  have haccepted := h.accepted
  unfold AcceptedInOrder nextNumber at haccepted
  have hall : numbers s.history.accepted ⊆ numbers handled := by
    intro m hm
    rw [haccepted, List.mem_range'_1] at hm
    rcases hcovered m hm.1 (show m < persistedTotal s.blocks.db by omega) with hmem | hagain
    · exact hmem
    · rw [requestedAgain_iff hordered.restarted.holds] at hagain
      omega
  have hnodup : (numbers s.history.accepted).Nodup := by
    rw [haccepted]
    exact List.nodup_range'
  refine hsublist.eq_of_length_le ?_
  change s.history.accepted.length ≤ handled.length
  have hlength := (hnodup.subperm hall).length_le
  simpa [numbers] using hlength

/-- In a run in which every earlier crash found nothing owed, a crash now loses no
accepted block exactly when nothing is owed now. -/
theorem recovered_iff_nothing_owed {events : List Event}
    (hrun : Run (CarefulSteps env config) (Server.boot Store.empty) events s)
    (hevents : ∀ event ∈ events, NumbersBelow event) :
    Recovered env config s.restart ↔ NothingOwed s := by
  have h := careful_of_run hrun hevents
  constructor
  · rintro ⟨handled, hsublist, hreplay, hcovered⟩
    obtain rfl := h.handled_eq hsublist hcovered
    exact h.progress.owed hreplay
  · intro howed
    refine ⟨s.history.accepted, List.Sublist.refl _, ?_, fun m hstart hbelow => .inl ?_⟩
    · have hreplayed := h.progress.replayed howed []
      rwa [List.append_nil] at hreplayed
    · have haccepted := h.accepted
      unfold AcceptedInOrder nextNumber at haccepted
      have hbelow : m < persistedTotal s.blocks.db := hbelow
      rw [haccepted, List.mem_range'_1]
      omega

section Sample

def sampleUnpaid : SignedBlock where
  blockNum := 2
  transactions := [sampleRefund.trx]

def sampleQueued : List Event :=
  [.request, .reply (.result 7 [.block sampleBlock, .block sampleUnpaid]), .scan true,
    .putBlockExeQueue, .scan true, .putBlockExeQueue]

theorem sample_recovered :
    ∃ s, Run (CarefulSteps .oneAsset sampleConfig) (Server.boot Store.empty)
        (sampleQueued ++ sampleHandle) s ∧
      s.blockQueue.pending = [sampleUnpaid] ∧ s.history.outcomes = [true] ∧
      Recovered .oneAsset sampleConfig s.restart := by
  have hrun : Run (Server.Steps .oneAsset sampleConfig) (Server.boot Store.empty)
      (sampleQueued ++ sampleHandle) _ := run_of_foldlM rfl
  have hcareful : Run (CarefulSteps .oneAsset sampleConfig) (Server.boot Store.empty)
      (sampleQueued ++ sampleHandle) _ := hrun.imp <| by
    intro event hevent s s' hstep
    refine ⟨hstep, ?_⟩
    rintro rfl
    simp [sampleQueued, sampleHandle] at hevent
  refine ⟨_, hcareful, rfl, rfl, (recovered_iff_nothing_owed hcareful ?_).mpr
    ⟨fun effect heffect => absurd heffect List.not_mem_nil, ?_⟩⟩
  · simp [sampleQueued, sampleHandle, NumbersBelow, Below, sampleBlock, sampleUnpaid]
  · exact List.forall_mem_singleton.mpr (.refundPayment _ rfl rfl)

/-- The first block alone, with the crash between its checkpoint and its hand-over to the
queue: it is not asked for again. -/
theorem accepted_block_lost :
    ¬ ∀ (env : Environment) (config : Config) (events : List Event) (s : Server),
      Run (Server.Steps env config) (Server.boot Store.empty) events s →
      (∀ event ∈ events, NumbersBelow event) → Recovered env config s.restart := by
  intro hall
  have hrun : Run (Server.Steps .oneAsset sampleConfig) (Server.boot Store.empty)
      sampleAccept _ := run_of_foldlM rfl
  obtain ⟨handled, hsublist, hreplay, hcovered⟩ := hall .oneAsset sampleConfig sampleAccept _ hrun
    (by simp [sampleAccept, NumbersBelow, Below, sampleBlock])
  have haccepted : handled.Sublist [sampleBlock] := hsublist
  rcases List.sublist_singleton.mp haccepted with rfl | rfl
  · rcases hcovered 1 (by decide) (by decide) with hnone | ⟨start, blocks, hstart, hle⟩
    · cases hnone
    · obtain rfl : start = 2 := by
        cases hstart
        rfl
      exact absurd hle (by decide)
  · -- The torrent it creates has never been written.
    cases hreplay

end Sample

end TorrentServer.CrashRecovery
