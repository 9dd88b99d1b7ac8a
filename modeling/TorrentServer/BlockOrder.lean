import TorrentServer.Library.Runs
import TorrentServer.ServerMachine

namespace TorrentServer.BlockOrder

open TorrentServer.ChainLibrary
open TorrentServer.HandleBlock
open TorrentServer.Checkpoint
open TorrentServer.ServerMachine
open TorrentServer.Library.KeyValueStore
open TorrentServer.Library.Runs
open TorrentServer.Library.TaskQueues

def numbers (blocks : List SignedBlock) : List Nat :=
  blocks.map fun b => b.blockNum.toNat

def entriesOf : Fetch → List Entry
  | .scanning rest => rest
  | .accepted _ rest => rest
  | _ => []

def Below (entries : List Entry) : Prop :=
  ∀ b, .block b ∈ entries → b.blockNum.toNat < 10 ^ 19 - 1

/-- Block numbers in replies stay below `10 ^ 19 - 1`. -/
def NumbersBelow : Event → Prop
  | .reply (.result _ blocks) => Below blocks
  | _ => True

def firstNumber (config : Config) (s : Server) : Nat :=
  max s.history.opened config.startNum.toNat

structure Ordered (config : Config) (s : Server) (n : Nat) : Prop where
  holds : Holds s.blocks n
  entries : Below (entriesOf s.fetch)
  increasing : (numbers (s.history.enqueued ++ s.fetch.inHand)).Pairwise (· < ·)
  below : ∀ b ∈ s.history.enqueued ++ s.fetch.inHand, b.blockNum.toNat < n
  session : numbers (s.history.session ++ s.fetch.inHand) =
    List.range' (firstNumber config s) (s.history.session ++ s.fetch.inHand).length
  next : firstNumber config s + (s.history.session ++ s.fetch.inHand).length =
    max n config.startNum.toNat
  recent : s.history.session <:+ s.history.enqueued
  handled : (s.history.begun ++ s.blockQueue.pending).Sublist s.history.enqueued

variable {env : Environment} {config : Config} {s s' : Server} {n : Nat}

theorem below_afterReply {r : Reply} (h : NumbersBelow (.reply r)) :
    Below (entriesOf (afterReply config r)) := by
  cases r with
  | failed => exact fun b hb => absurd hb List.not_mem_nil
  | error => exact fun b hb => absurd hb List.not_mem_nil
  | result chainType blocks =>
      simp only [afterReply]
      split
      · exact fun b hb => absurd hb List.not_mem_nil
      · exact h

theorem Below.tail {entry : Entry} {rest : List Entry} (h : Below (entry :: rest)) :
    Below rest :=
  fun b hb => h b (List.mem_cons_of_mem _ hb)

theorem Ordered.congr (h : Ordered config s n) (hblocks : s'.blocks = s.blocks)
    (hfetch : s'.fetch = s.fetch) (hpending : s'.blockQueue.pending = s.blockQueue.pending)
    (henqueued : s'.history.enqueued = s.history.enqueued)
    (hsession : s'.history.session = s.history.session)
    (hopened : s'.history.opened = s.history.opened)
    (hbegun : s'.history.begun = s.history.begun) : Ordered config s' n := by
  obtain ⟨holds, entries, increasing, below, session, next, recent, handled⟩ := h
  rw [← hblocks] at holds
  rw [← hfetch] at entries
  simp only [firstNumber, ← henqueued, ← hsession, ← hopened, ← hbegun, ← hfetch, ← hpending]
    at increasing below session next recent handled
  exact ⟨holds, entries, increasing, below, session, next, recent, handled⟩

theorem Ordered.fetched {blocks : BlockLeveldb} {fetch : Fetch} (h : Ordered config s n)
    (hhand : s.fetch.inHand = []) (hholds : Holds blocks n)
    (hentries : Below (entriesOf fetch)) (hnone : fetch.inHand = []) :
    Ordered config { s with blocks := blocks, fetch := fetch } n where
  holds := hholds
  entries := hentries
  increasing := by simpa [hhand, hnone] using h.increasing
  below := by simpa [hhand, hnone] using h.below
  session := by simpa [hhand, hnone, firstNumber] using h.session
  next := by simpa [hhand, hnone, firstNumber] using h.next
  recent := h.recent
  handled := h.handled

theorem Ordered.accepted {b : SignedBlock} {rest : List Entry} {blocks : BlockLeveldb}
    (h : Ordered config s n) (hfetch : s.fetch = .scanning (.block b :: rest))
    (hnum : b.blockNum.toNat = max n config.startNum.toNat) :
    Ordered config
      { s with
        blocks := storeTotalnum blocks b true
        fetch := .accepted b rest
        history := { s.history with accepted := s.history.accepted ++ [b] } }
      (b.blockNum.toNat + 1) := by
  have hentries : Below (.block b :: rest) := by
    have := h.entries
    rwa [hfetch] at this
  have hhand : s.fetch.inHand = [] := by rw [hfetch]; rfl
  have hincreasing := h.increasing
  have hbelow := h.below
  have hsession := h.session
  have hnext := h.next
  rw [hhand, List.append_nil] at hincreasing hbelow hsession hnext
  constructor
  case holds => exact holds_storeTotalnum blocks (hentries b (by simp))
  case entries => exact hentries.tail
  case increasing =>
      simp only [numbers, Fetch.inHand_accepted, List.map_append, List.pairwise_append]
        at hincreasing ⊢
      refine ⟨hincreasing, by simp, ?_⟩
      intro m hm m' hm'
      obtain ⟨a, ha, rfl⟩ := List.mem_map.mp hm
      obtain rfl : m' = b.blockNum.toNat := by simpa using hm'
      have := hbelow a ha
      omega
  case below =>
      intro a ha
      rcases List.mem_append.mp ha with ha | ha
      · have := hbelow a ha
        omega
      · obtain rfl : a = b := by simpa using ha
        omega
  case session =>
      simp only [numbers, Fetch.inHand_accepted, List.map_append, List.length_append,
        List.length_singleton, List.range'_concat] at hsession ⊢
      rw [hsession]
      simp only [firstNumber] at hnext ⊢
      simp
      omega
  case next =>
      simp only [Fetch.inHand_accepted, List.length_append, List.length_singleton, firstNumber]
        at hnext ⊢
      omega
  case recent => exact h.recent
  case handled => exact h.handled

theorem Ordered.handedOver {b : SignedBlock} {rest : List Entry} (h : Ordered config s n)
    (hfetch : s.fetch = .accepted b rest) :
    Ordered config
      { s with
        fetch := .scanning rest
        blockQueue := s.blockQueue.execute b
        history :=
          { s.history with
            enqueued := s.history.enqueued ++ [b]
            session := s.history.session ++ [b] } } n := by
  have hhand : s.fetch.inHand = [b] := by rw [hfetch]; rfl
  have hentries := h.entries
  rw [hfetch] at hentries
  constructor
  case holds => exact h.holds
  case entries => exact hentries
  case increasing => simpa [hhand] using h.increasing
  case below => simpa [hhand] using h.below
  case session => simpa [hhand, firstNumber] using h.session
  case next => simpa [hhand, firstNumber] using h.next
  case recent =>
      obtain ⟨before, hbefore⟩ := h.recent
      exact ⟨before, by rw [← List.append_assoc, hbefore]⟩
  case handled =>
      -- A stopped queue drops the block; the order of the others is the same.
      cases hstopped : s.blockQueue.stopped with
      | false =>
          rw [ExecutionQueue.pending_execute hstopped, ← List.append_assoc]
          exact h.handled.append_right [b]
      | true =>
          simp only [ExecutionQueue.execute, hstopped, if_true]
          exact h.handled.trans (List.sublist_append_left _ _)

theorem Ordered.restarted (h : Ordered config s n) : Ordered config s.restart n := by
  have hopened : persistedTotal s.blocks.db = n := persistedTotal_of_stored h.holds.stored
  constructor
  case holds => exact h.holds.openAt
  case entries => exact fun b hb => absurd hb List.not_mem_nil
  case increasing =>
      have hincreasing := h.increasing
      simp only [numbers, List.map_append, List.pairwise_append] at hincreasing
      simpa [numbers] using hincreasing.1
  case below =>
      intro b hb
      exact h.below b (List.mem_append_left _ (by simpa using hb))
  case session => rfl
  case next => simp [Server.restart, Server.boot, firstNumber, hopened]
  case recent => exact List.nil_suffix
  case handled =>
      have hbegun := (List.sublist_append_left _ s.blockQueue.pending).trans h.handled
      simpa using hbegun

theorem ordered_step {event : Event} (h : Ordered config s n) (hevent : NumbersBelow event)
    (hstep : s.Steps env config event s') : ∃ n', Ordered config s' n' := by
  have hempty : ∀ fetch, entriesOf fetch = [] → Below (entriesOf fetch) := by
    intro fetch hnone b hb
    rw [hnone] at hb
    exact absurd hb List.not_mem_nil
  have hentries := h.entries
  cases transition_of_steps hstep with
  | requested hfetch hstart =>
      obtain ⟨start, blocks, hsome, hholds, -⟩ := h.holds.getStartBlockNum config.startNum
      cases hsome.symm.trans hstart
      exact ⟨n, h.fetched (by rw [hfetch]; rfl) hholds (hempty _ rfl) rfl⟩
  | replied r hfetch =>
      exact ⟨n, h.fetched (by rw [hfetch]; rfl) h.holds (below_afterReply hevent)
        (afterReply_inHand r)⟩
  | exhausted ok hfetch =>
      exact ⟨n, h.fetched (by rw [hfetch]; rfl) h.holds (hempty _ rfl) rfl⟩
  | skipped ok hfetch =>
      rw [hfetch] at hentries
      exact ⟨n, h.fetched (by rw [hfetch]; rfl) h.holds hentries.tail rfl⟩
  | refused ok hfetch hstart =>
      obtain ⟨start, blocks, hsome, hholds, -⟩ := h.holds.getStartBlockNum config.startNum
      cases hsome.symm.trans hstart
      exact ⟨n, h.fetched (by rw [hfetch]; rfl) hholds (hempty _ rfl) rfl⟩
  | accepted hfetch hstart hnum =>
      obtain ⟨start, blocks, hsome, -, hmax⟩ := h.holds.getStartBlockNum config.startNum
      cases hsome.symm.trans hstart
      exact ⟨_, h.accepted hfetch (hnum ▸ hmax)⟩
  | handedOver hfetch => exact ⟨n, h.handedOver hfetch⟩
  | begun hexecutor hpending =>
      have hhandled := h.handled
      rw [hpending] at hhandled
      refine ⟨n, h.holds, h.entries, h.increasing, h.below, h.session, h.next, h.recent, ?_⟩
      simpa using hhandled
  | planned hexecutor hplan =>
      exact ⟨n, h.congr rfl rfl rfl rfl rfl rfl rfl⟩
  | appended ok hexecutor =>
      exact ⟨n, h.congr rfl rfl rfl rfl rfl rfl rfl⟩
  | saved ok hexecutor =>
      exact ⟨n, h.congr rfl rfl rfl rfl rfl rfl rfl⟩
  | ended hexecutor =>
      exact ⟨n, h.congr rfl rfl rfl rfl rfl rfl rfl⟩
  | flushed =>
      exact ⟨n, h.congr rfl rfl rfl rfl rfl rfl rfl⟩
  | executed hpending =>
      exact ⟨n, h.congr rfl rfl rfl rfl rfl rfl rfl⟩
  | unconnected hpending =>
      exact ⟨n, h.congr rfl rfl rfl rfl rfl rfl rfl⟩
  | restarted => exact ⟨n, h.restarted⟩

theorem ordered_boot {db : Store String} (hdb : Stored db n) :
    Ordered config (Server.boot db) n where
  holds := ⟨hdb, .inl rfl⟩
  entries := fun b hb => absurd hb List.not_mem_nil
  increasing := List.Pairwise.nil
  below := fun b hb => absurd hb List.not_mem_nil
  session := rfl
  next := by simp [Server.boot, firstNumber, persistedTotal_of_stored hdb]
  recent := List.suffix_rfl
  handled := List.Sublist.refl _

theorem ordered_of_run {db : Store String} {events : List Event} (hdb : Stored db n)
    (hrun : Run (Server.Steps env config) (Server.boot db) events s)
    (hevents : ∀ event ∈ events, NumbersBelow event) : ∃ n', Ordered config s n' := by
  refine Run.state_invariant NumbersBelow (fun s => ∃ n', Ordered config s n')
    ⟨n, ordered_boot hdb⟩ ?_ hrun hevents
  rintro event s s' hevent ⟨n', h⟩ hstep
  exact ordered_step h hevent hstep

theorem numbers_eq_range'_left {xs ys : List SignedBlock} {first : Nat}
    (h : numbers (xs ++ ys) = List.range' first (xs ++ ys).length) :
    numbers xs = List.range' first xs.length := by
  have hsplit : numbers xs ++ numbers ys =
      List.range' first xs.length ++ List.range' (first + xs.length) ys.length := by
    have happend : List.range' first xs.length ++ List.range' (first + 1 * xs.length) ys.length =
        List.range' first (xs.length + ys.length) := List.range'_append
    rw [Nat.one_mul] at happend
    rw [happend, ← List.length_append, ← h, numbers, numbers, numbers, List.map_append]
  exact List.append_inj_left hsplit (by simp [numbers])

theorem Ordered.total_eq (h : Ordered config s n) (hhand : s.fetch.inHand = [])
    {b : SignedBlock} (hlast : s.history.session.getLast? = some b) :
    n = b.blockNum.toNat + 1 := by
  obtain ⟨init, hinit⟩ := List.getLast?_eq_some_iff.mp hlast
  have hsession := h.session
  have hnext := h.next
  rw [hhand, List.append_nil, hinit] at hsession hnext
  simp only [numbers, List.map_append, List.map_cons, List.map_nil, List.length_append,
    List.length_singleton, List.range'_concat] at hsession hnext
  have hnum := List.append_inj_right hsession (by simp)
  rw [List.singleton_inj] at hnum
  have hbelow : b.blockNum.toNat < n :=
    h.below b (List.mem_append_left _ (h.recent.subset (by simp [hinit])))
  omega

/-- In every state of every run: the blocks handed to the queue, and so those the
executor has taken from it, have strictly increasing numbers; those handed over
since the last start are consecutive from the checkpoint found then or
`start_num`, whichever is larger; and between an enqueue and the next accepted
block the checkpoint is the last of them plus one. -/
theorem blocks_enqueued_in_order {db : Store String} {events : List Event}
    (hdb : Stored db n) (hrun : Run (Server.Steps env config) (Server.boot db) events s)
    (hevents : ∀ event ∈ events, NumbersBelow event) :
    (numbers s.history.enqueued).Pairwise (· < ·) ∧
    s.history.begun.Sublist s.history.enqueued ∧
    s.history.session <:+ s.history.enqueued ∧
    numbers s.history.session =
      List.range' (max s.history.opened config.startNum.toNat) s.history.session.length ∧
    (∀ b, s.history.session.getLast? = some b → s.fetch.inHand = [] →
      ∃ blocks total, getTotalBlockNum s.blocks = some (total, blocks) ∧
        total.toNat = b.blockNum.toNat + 1) := by
  obtain ⟨n', h⟩ := ordered_of_run hdb hrun hevents
  refine ⟨?_, (List.sublist_append_left _ _).trans h.handled, h.recent, ?_, ?_⟩
  · have hincreasing := h.increasing
    rw [numbers, List.map_append, List.pairwise_append] at hincreasing
    exact hincreasing.1
  · exact numbers_eq_range'_left h.session
  · intro b hlast hhand
    obtain ⟨blocks, htotal, -⟩ := h.holds.getTotalBlockNum
    refine ⟨blocks, _, htotal, ?_⟩
    rw [toNat_ofNat_of_stored h.holds.stored.1, h.total_eq hhand hlast]

theorem sample_blocks_enqueued_in_order :
    ∃ s, Run (Server.Steps .oneAsset sampleConfig) (Server.boot Store.empty)
        (sampleAccept ++ [.putBlockExeQueue, .restart, .request,
          .reply (.result 7 [.block { sampleBlock with blockNum := 2 }]), .scan true,
          .putBlockExeQueue]) s ∧
      numbers s.history.enqueued = [1, 2] ∧
      (numbers s.history.enqueued).Pairwise (· < ·) := by
  have hrun : Run (Server.Steps .oneAsset sampleConfig) (Server.boot Store.empty)
      (sampleAccept ++ [.putBlockExeQueue, .restart, .request,
        .reply (.result 7 [.block { sampleBlock with blockNum := 2 }]), .scan true,
        .putBlockExeQueue]) _ := run_of_foldlM rfl
  have hdb : Stored Store.empty 0 := ⟨by norm_num, .inr ⟨rfl, rfl⟩⟩
  refine ⟨_, hrun, rfl, (blocks_enqueued_in_order hdb hrun ?_).1⟩
  simp [sampleAccept, NumbersBelow, Below, sampleBlock]

end TorrentServer.BlockOrder
