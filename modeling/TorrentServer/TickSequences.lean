import TorrentServer.BlockOrder
import TorrentServer.FullnodeTick

/-!
The task of `fullnode.cpp` over its whole life: tick after tick on the bytes the full node
replies with. The process may die in a tick, by the tick's own fault or at any other point
of it, and is started again.
-/

namespace TorrentServer.TickSequences

open TorrentServer.HandleBlock
open TorrentServer.Checkpoint
open TorrentServer.ServerMachine (Config sampleConfig sampleBlock)
open TorrentServer.BlockOrder (numbers)
open TorrentServer.FullnodeTick
open TorrentServer.Library.DecimalText
open TorrentServer.Library.JsonDocuments
open TorrentServer.Library.KeyValueStore
open TorrentServer.Library.Runs

section Machine

/-- The blocks that get past the checks of the loop and are stored, up to its end or to
where it faults. -/
def loopBlocks (parsers : Parsers) (startNum : UInt64) :
    List (Document parsers.Number) → List Bool → BlockLeveldb → List SignedBlock
  | [], _, _ => []
  | entry :: rest, oks, blocks =>
      match jsonStringValue (some entry) with
      | none => []
      | some blockStr =>
          match parsers.fromString blockStr with
          | none => loopBlocks parsers startNum rest oks blocks
          | some block =>
              match getStartBlockNum startNum blocks with
              | none => []
              | some (start, blocks) =>
                  if block.blockNum ≠ start then []
                  else if putOutcome oks 0 = false then []
                  else
                    block ::
                      loopBlocks parsers startNum rest oks.tail (storeTotalnum blocks block true)

def tickBlocks (config : Config) (parsers : Parsers) (oks : List Bool)
    (reply : Option (List UInt8)) (blocks : BlockLeveldb) : List SignedBlock :=
  match getStartBlockNum config.startNum blocks, reply with
  | some (_, blocks), some bytes =>
      match decodeReply config.chainType (parsers.jsonLoadb bytes) with
      | .error _ => []
      | .ok entries => loopBlocks parsers config.startNum entries oks blocks
  | _, _ => []

/-- The two things a tick does with a block: `store_totalnum` and `put_block_exe_queue`. -/
inductive Action
  | store (block : SignedBlock)
  | put (block : SignedBlock)

def actionsOf (blocks : List SignedBlock) : List Action :=
  blocks.flatMap fun block => [.store block, .put block]

structure Task where
  blocks : BlockLeveldb
  accepted : List SignedBlock := []
  enqueued : List SignedBlock := []

def Task.act (s : Task) : Action → Task
  | .store block =>
      { s with
        blocks := storeTotalnum s.blocks block true
        accepted := s.accepted ++ [block] }
  | .put block => { s with enqueued := s.enqueued ++ [block] }

def Task.reopened (s : Task) : Task :=
  { s with blocks := openAt s.blocks.db }

/-- A tick, with the outcomes of its writes; one in which the process dies after some of its
actions; or a start between two ticks. -/
inductive Event
  | tick (timeId : UInt64) (oks : List Bool) (reply : Option (List UInt8))
  | died (oks : List Bool) (reply : Option (List UInt8)) (count : ℕ)
  | restart

/-- The process dies with a checkpoint written and its block not yet in the queue. -/
def Event.halfway : Event → Bool
  | .died _ _ count => count % 2 == 1
  | _ => false

variable (config : Config) (parsers : Parsers)

/-- A tick that faults ends the process, which is started again. -/
def Task.step (s : Task) : Event → Task
  | .tick timeId oks reply =>
      match onTriggeringTask config parsers timeId oks reply s.blocks with
      | .ok tick =>
          { blocks := tick.blocks
            accepted := s.accepted ++ tick.enqueued
            enqueued := s.enqueued ++ tick.enqueued }
      | .error _ =>
          ((actionsOf (tickBlocks config parsers oks reply s.blocks)).foldl Task.act s).reopened
  | .died oks reply count =>
      (((actionsOf (tickBlocks config parsers oks reply s.blocks)).take count).foldl
        Task.act s).reopened
  | .restart => s.reopened

def Task.Steps (s : Task) (event : Event) (s' : Task) : Prop :=
  s.step config parsers event = s'

end Machine

section Loop

variable {config : Config} {parsers : Parsers} {entries : List (Document parsers.Number)}
  {oks : List Bool} {blocks stored : BlockLeveldb} {enqueued : List SignedBlock} {n : ℕ}

theorem loopBlocks_numbers {first : List SignedBlock} (hholds : Holds blocks n)
    (hfirst : first <+: loopBlocks parsers config.startNum entries oks blocks)
    (hbelow : max n config.startNum.toNat + first.length < 10 ^ 19) :
    numbers first = List.range' (max n config.startNum.toNat) first.length := by
  induction entries generalizing oks blocks n first with
  | nil =>
      obtain rfl := List.prefix_nil.mp hfirst
      rfl
  | cons entry entries ih =>
      cases first with
      | nil => rfl
      | cons block first =>
          obtain ⟨start, loaded, hstart, hloaded, hmax⟩ :=
            hholds.getStartBlockNum config.startNum
          rw [loopBlocks] at hfirst
          split at hfirst
          · cases List.prefix_nil.mp hfirst
          · split at hfirst
            · exact ih hholds hfirst hbelow
            · simp only [hstart] at hfirst
              split at hfirst
              · cases List.prefix_nil.mp hfirst
              · rename_i hnum
                rw [not_not] at hnum
                split at hfirst
                · cases List.prefix_nil.mp hfirst
                · obtain ⟨rfl, hrest⟩ := List.cons_prefix_cons.mp hfirst
                  rw [List.length_cons] at hbelow
                  have hblockNum : block.blockNum.toNat = max n config.startNum.toNat := by
                    rw [hnum, hmax]
                  have hsecond : max (block.blockNum.toNat + 1) config.startNum.toNat =
                      max n config.startNum.toNat + 1 := by
                    rw [hblockNum, max_eq_left (by omega)]
                  have hstored := holds_storeTotalnum loaded
                    (show block.blockNum.toNat < 10 ^ 19 - 1 by omega)
                  have hnumbers := ih hstored hrest (by omega)
                  rw [hsecond] at hnumbers
                  rw [numbers, List.map_cons, ← numbers, hnumbers, List.length_cons,
                    List.range'_succ, hblockNum]

theorem loopBlocks_of_ok (hholds : Holds blocks n)
    (hloop : blockLoop parsers config.startNum entries oks blocks = .ok (stored, enqueued))
    (hbelow : max n config.startNum.toNat + enqueued.length < 10 ^ 19) :
    loopBlocks parsers config.startNum entries oks blocks = enqueued ∧
      ∃ n', Holds stored n' ∧
        max n' config.startNum.toNat = max n config.startNum.toNat + enqueued.length := by
  induction entries generalizing oks blocks enqueued n with
  | nil =>
      cases hloop
      exact ⟨rfl, n, hholds, rfl⟩
  | cons entry entries ih =>
      have hturn := @turn_blockLoop parsers config.startNum oks blocks entries entry
      obtain ⟨next, loaded, hnext, hloaded, hmax⟩ := hholds.getStartBlockNum config.startNum
      rw [hloop] at hturn
      generalize hended : Except.ok (stored, enqueued) = outcome at hturn
      cases hturn with
      | unreadable htext => cases hended
      | escaped htext hblock hstart => cases hended
      | malformed htext hblock =>
          simp only [loopBlocks, jsonStringValue, Option.bind_some, htext, hblock]
          exact ih hholds hended.symm hbelow
      | refused htext hblock hstart hnum =>
          cases hended
          cases hnext.symm.trans hstart
          exact ⟨by simp [loopBlocks, jsonStringValue, htext, hblock, hstart, hnum], n, hloaded,
            rfl⟩
      | unstored htext hblock hstart hnum hok =>
          cases hended
          cases hnext.symm.trans hstart
          exact ⟨by simp [loopBlocks, jsonStringValue, htext, hblock, hstart, hok], n, hloaded,
            rfl⟩
      | @accepted text block start loaded' htext hblock hstart hnum hok =>
          cases hnext.symm.trans hstart
          cases hrest : blockLoop parsers config.startNum entries oks.tail
              (storeTotalnum loaded block true) with
          | error fault => simp [hrest, Except.map] at hended
          | ok outcome =>
              obtain ⟨after, more⟩ := outcome
              rw [hrest] at hended
              cases hended
              rw [List.length_cons] at hbelow
              have hblockNum : block.blockNum.toNat = max n config.startNum.toNat := by
                rw [hnum, hmax]
              have hfirst : max (block.blockNum.toNat + 1) config.startNum.toNat =
                  max n config.startNum.toNat + 1 := by
                rw [hblockNum, max_eq_left (by omega)]
              have hstored := holds_storeTotalnum loaded
                (show block.blockNum.toNat < 10 ^ 19 - 1 by omega)
              obtain ⟨hblocks, n', hafter, hlast⟩ := ih hstored hrest (by omega)
              refine ⟨?_, n', hafter, by rw [hlast, hfirst, List.length_cons]; omega⟩
              simp [loopBlocks, jsonStringValue, htext, hblock, hstart, hnum, hok, hblocks]

theorem loop_of_onTriggeringTask {timeId : UInt64} {reply : Option (List UInt8)} {tick : Tick}
    (htick : onTriggeringTask config parsers timeId oks reply blocks = .ok tick) :
    ∃ start loaded entries, getStartBlockNum config.startNum blocks = some (start, loaded) ∧
      tick.request = requestBody start timeId ∧
      blockLoop parsers config.startNum entries oks loaded = .ok (tick.blocks, tick.enqueued) := by
  unfold onTriggeringTask at htick
  split at htick
  · cases htick
  · rename_i start loaded hstart
    cases reply with
    | none =>
        cases htick
        exact ⟨start, loaded, [], hstart, rfl, rfl⟩
    | some bytes =>
        simp only at htick
        split at htick
        · cases htick
        · rename_i entries hdecoded
          cases hloop : blockLoop parsers config.startNum entries oks loaded with
          | error fault => simp [hloop, Except.map] at htick
          | ok outcome =>
              rw [hloop] at htick
              cases htick
              exact ⟨start, loaded, entries, hstart, rfl, hloop⟩

theorem tickBlocks_numbers {reply : Option (List UInt8)} {first : List SignedBlock}
    (hholds : Holds blocks n) (hfirst : first <+: tickBlocks config parsers oks reply blocks)
    (hbelow : max n config.startNum.toNat + first.length < 10 ^ 19) :
    numbers first = List.range' (max n config.startNum.toNat) first.length := by
  obtain ⟨start, loaded, hstart, hloaded, -⟩ := hholds.getStartBlockNum config.startNum
  cases reply with
  | none =>
      simp only [tickBlocks, hstart] at hfirst
      obtain rfl := List.prefix_nil.mp hfirst
      rfl
  | some bytes =>
      simp only [tickBlocks, hstart] at hfirst
      split at hfirst
      · obtain rfl := List.prefix_nil.mp hfirst
        rfl
      · exact loopBlocks_numbers hloaded hfirst hbelow

end Loop

section Ticks

variable {config : Config} {parsers : Parsers} {s s' : Task} {first lost : ℕ}

/-- Every accepted block has the number after the one before, the checkpoint is behind the
last, and all of them but so many have been put into the queue. -/
structure Numbered (config : Config) (first lost : ℕ) (s : Task) : Prop where
  numbers : numbers s.accepted = List.range' first s.accepted.length
  next : ∃ n, Holds s.blocks n ∧ max n config.startNum.toNat = first + s.accepted.length
  enqueued : s.enqueued.Sublist s.accepted
  lost : s.accepted.length ≤ s.enqueued.length + lost

theorem Numbered.reopened (h : Numbered config first lost s) :
    Numbered config first lost s.reopened := by
  obtain ⟨n, hholds, hnext⟩ := h.next
  exact ⟨h.numbers, ⟨n, hholds.openAt, hnext⟩, h.enqueued, h.lost⟩

theorem Numbered.stored (h : Numbered config first lost s) {block : SignedBlock}
    (hnum : block.blockNum.toNat = first + s.accepted.length)
    (hbelow : first + s.accepted.length + 1 < 10 ^ 19) :
    Numbered config first (lost + 1) (s.act (.store block)) where
  numbers := by
    rw [Task.act, BlockOrder.numbers, List.map_append, ← BlockOrder.numbers, h.numbers,
      List.length_append, List.length_singleton, List.range'_concat, one_mul, ← hnum]
    rfl
  next := by
    obtain ⟨n, -, hnext⟩ := h.next
    refine ⟨_, holds_storeTotalnum s.blocks (by omega), ?_⟩
    rw [Task.act, List.length_append, List.length_singleton]
    omega
  enqueued := h.enqueued.trans (List.sublist_append_left _ _)
  lost := by
    have hlost := h.lost
    rw [Task.act, List.length_append, List.length_singleton]
    dsimp only
    omega

theorem Numbered.both (h : Numbered config first lost s) {block : SignedBlock}
    (hnum : block.blockNum.toNat = first + s.accepted.length)
    (hbelow : first + s.accepted.length + 1 < 10 ^ 19) :
    Numbered config first lost ((s.act (.store block)).act (.put block)) := by
  have hstored := h.stored hnum hbelow
  have hlost := h.lost
  refine ⟨hstored.numbers, hstored.next, h.enqueued.append_right [block], ?_⟩
  simp only [Task.act, List.length_append, List.length_singleton]
  omega

theorem Numbered.more (h : Numbered config first lost s) (more : ℕ) :
    Numbered config first (lost + more) s :=
  ⟨h.numbers, h.next, h.enqueued, h.lost.trans (by omega)⟩

theorem accepted_le_acted (actions : List Action) (s : Task) :
    s.accepted.length ≤ (actions.foldl Task.act s).accepted.length := by
  induction actions generalizing s with
  | nil => exact le_rfl
  | cons action actions ih =>
      refine le_trans ?_ (ih (s.act action))
      cases action <;> simp [Task.act]

def GoesOn (first : ℕ) (s : Task) (blocks : List SignedBlock) : Prop :=
  ∀ before, before <+: blocks → first + s.accepted.length + before.length < 10 ^ 19 →
    BlockOrder.numbers before = List.range' (first + s.accepted.length) before.length

theorem GoesOn.cons {block : SignedBlock} {blocks : List SignedBlock}
    (h : GoesOn first s (block :: blocks)) (hbelow : first + s.accepted.length + 1 < 10 ^ 19) :
    block.blockNum.toNat = first + s.accepted.length ∧
      GoesOn first ((s.act (.store block)).act (.put block)) blocks := by
  have hhead := h [block] (List.prefix_append [block] blocks) hbelow
  refine ⟨by simpa [numbers] using hhead, fun before hbefore hsmall => ?_⟩
  simp only [Task.act, List.length_append, List.length_singleton] at hsmall ⊢
  have hmore := h (block :: before) (List.cons_prefix_cons.mpr ⟨rfl, hbefore⟩)
    (by rw [List.length_cons]; omega)
  rw [numbers, List.map_cons, ← numbers, List.length_cons, List.range'_succ] at hmore
  exact (List.cons.inj hmore).2

/-- Wherever the actions are broken off, at most the block at hand is lost. -/
theorem Numbered.acted (h : Numbered config first lost s) {blocks : List SignedBlock}
    (hblocks : GoesOn first s blocks) (count : ℕ)
    (hbelow : first + (((actionsOf blocks).take count).foldl Task.act s).accepted.length <
      10 ^ 19) :
    Numbered config first (lost + count % 2)
      (((actionsOf blocks).take count).foldl Task.act s) := by
  induction blocks generalizing s count with
  | nil => simpa [actionsOf] using h.more (count % 2)
  | cons block blocks ih =>
      have hactions : actionsOf (block :: blocks) =
          .store block :: .put block :: actionsOf blocks := rfl
      rw [hactions] at hbelow ⊢
      match count with
      | 0 => exact h
      | 1 =>
          have hlength : first + (s.accepted ++ [block]).length < 10 ^ 19 := hbelow
          rw [List.length_append, List.length_singleton, ← add_assoc] at hlength
          exact h.stored (hblocks.cons hlength).1 hlength
      | count + 2 =>
          have hlength : first + s.accepted.length + 1 < 10 ^ 19 := by
            have hle := accepted_le_acted ((actionsOf blocks).take count)
              ((s.act (.store block)).act (.put block))
            have hgrown : ((s.act (.store block)).act (.put block)).accepted.length =
                s.accepted.length + 1 := by simp [Task.act]
            simp only [List.take_succ_cons, List.foldl_cons] at hbelow
            omega
          obtain ⟨hnum, hrest⟩ := hblocks.cons hlength
          rw [Nat.add_mod_right]
          exact ih (h.both hnum hlength) hrest count hbelow

theorem Numbered.actedAll (h : Numbered config first lost s) {blocks : List SignedBlock}
    (hblocks : GoesOn first s blocks)
    (hbelow : first + ((actionsOf blocks).foldl Task.act s).accepted.length < 10 ^ 19) :
    Numbered config first lost ((actionsOf blocks).foldl Task.act s) := by
  have hlength : (actionsOf blocks).length = 2 * blocks.length := by
    simp [actionsOf, List.length_flatMap, mul_comm]
  have hall := h.acted hblocks (actionsOf blocks).length
  rw [List.take_length, hlength, Nat.mul_mod_right] at hall
  exact hall hbelow

theorem Numbered.tickGoesOn (h : Numbered config first lost s) (parsers : Parsers)
    (oks : List Bool) (reply : Option (List UInt8)) :
    GoesOn first s (tickBlocks config parsers oks reply s.blocks) := by
  obtain ⟨n, hholds, hnext⟩ := h.next
  intro before hbefore hsmall
  rw [← hnext] at hsmall ⊢
  exact tickBlocks_numbers hholds hbefore hsmall

theorem Numbered.ticked (h : Numbered config first lost s) {timeId : UInt64} {oks : List Bool}
    {reply : Option (List UInt8)} {tick : Tick}
    (htick : onTriggeringTask config parsers timeId oks reply s.blocks = .ok tick)
    (hbelow : first + (s.accepted ++ tick.enqueued).length < 10 ^ 19) :
    Numbered config first lost
      { blocks := tick.blocks
        accepted := s.accepted ++ tick.enqueued
        enqueued := s.enqueued ++ tick.enqueued } := by
  obtain ⟨n, hholds, hnext⟩ := h.next
  obtain ⟨start, loaded, entries, hstart, -, hloop⟩ := loop_of_onTriggeringTask htick
  obtain ⟨start', loaded', hstart', hloaded, -⟩ := hholds.getStartBlockNum config.startNum
  cases hstart.symm.trans hstart'
  rw [List.length_append, ← add_assoc, ← hnext] at hbelow
  obtain ⟨hblocks, n', hafter, hlast⟩ := loopBlocks_of_ok hloaded hloop hbelow
  have hprefix : tick.enqueued <+: loopBlocks parsers config.startNum entries oks loaded := by
    rw [hblocks]
  have hnumbers := loopBlocks_numbers hloaded hprefix hbelow
  rw [hnext] at hnumbers hlast
  have hlost := h.lost
  refine ⟨?_, ⟨n', hafter, ?_⟩, h.enqueued.append_right _, ?_⟩
  · rw [BlockOrder.numbers, List.map_append, ← BlockOrder.numbers, ← BlockOrder.numbers,
      h.numbers, hnumbers, List.length_append]
    exact List.range'_append_1
  · rw [hlast, List.length_append, add_assoc]
  · simp only [List.length_append]
    omega

theorem numbered_step {event : Event} (h : Numbered config first lost s)
    (hstep : s.Steps config parsers event s') (hbelow : first + s'.accepted.length < 10 ^ 19) :
    Numbered config first (lost + event.halfway.toNat) s' := by
  cases hstep
  cases event with
  | restart => exact h.reopened
  | died oks reply count =>
      have hacted := h.acted (h.tickGoesOn parsers oks reply) count hbelow
      have hhalfway : (Event.died oks reply count).halfway.toNat = count % 2 := by
        rcases Nat.mod_two_eq_zero_or_one count with heven | hodd <;> simp [Event.halfway, *]
      rw [hhalfway]
      exact hacted.reopened
  | tick timeId oks reply =>
      rw [Task.step] at hbelow ⊢
      cases htick : onTriggeringTask config parsers timeId oks reply s.blocks with
      | ok tick =>
          simp only [htick] at hbelow ⊢
          exact h.ticked htick hbelow
      | error fault =>
          simp only [htick] at hbelow ⊢
          exact (h.actedAll (h.tickGoesOn parsers oks reply) hbelow).reopened

theorem accepted_le_step {event : Event} (hstep : s.Steps config parsers event s') :
    s.accepted.length ≤ s'.accepted.length := by
  cases hstep
  cases event with
  | restart => exact le_rfl
  | died oks reply count => exact accepted_le_acted _ s
  | tick timeId oks reply =>
      rw [Task.step]
      split
      · simp
      · exact accepted_le_acted _ s

theorem numbered_of_run {db : Store String} {events : List Event} {n : ℕ} (hdb : Stored db n)
    (hrun : Run (Task.Steps config parsers) { blocks := openAt db } events s)
    (hbelow : max n config.startNum.toNat + s.accepted.length < 10 ^ 19) :
    Numbered config (max n config.startNum.toNat) (events.countP Event.halfway) s := by
  induction hrun with
  | nil => exact ⟨rfl, ⟨n, ⟨hdb, .inl rfl⟩, rfl⟩, List.Sublist.refl _, le_rfl⟩
  | @snoc events event s s' hrun hlast ih =>
      have hlength := accepted_le_step hlast
      have hnumbered := numbered_step (ih (by omega)) hlast hbelow
      have hcount : (events ++ [event]).countP Event.halfway =
          events.countP Event.halfway + event.halfway.toNat := by
        cases hhalfway : event.halfway <;> simp [List.countP_append, hhalfway]
      rw [hcount]
      exact hnumbered

/-- Whatever bytes the replies have, whichever writes fail and wherever the process dies: the
blocks the checkpoint is written for have the numbers from the first one on, without a gap
and none twice, and the next tick asks for the one after them. All of them come into the
queue, in this order, but one for each death between the two things done with a block. -/
theorem ticks_in_order {db : Store String} {events : List Event} {n : ℕ} (hdb : Stored db n)
    (hrun : Run (Task.Steps config parsers) { blocks := openAt db } events s)
    (hbelow : max n config.startNum.toNat + s.accepted.length < 10 ^ 19) :
    numbers s.accepted = List.range' (max n config.startNum.toNat) s.accepted.length ∧
      s.enqueued.Sublist s.accepted ∧
      s.accepted.length ≤ s.enqueued.length + events.countP Event.halfway ∧
      (events.countP Event.halfway = 0 → s.enqueued = s.accepted) ∧
      ∀ timeId oks reply tick,
        onTriggeringTask config parsers timeId oks reply s.blocks = .ok tick →
          tick.request = requestBody
            (UInt64.ofNat (max n config.startNum.toNat + s.accepted.length)) timeId := by
  have h := numbered_of_run hdb hrun hbelow
  have hlost := h.lost
  refine ⟨h.numbers, h.enqueued, hlost, fun hnone => h.enqueued.eq_of_length_le (by omega),
    fun timeId oks reply tick htick => ?_⟩
  obtain ⟨m, hholds, hnext⟩ := h.next
  obtain ⟨start, loaded, entries, hstart, hrequest, -⟩ := loop_of_onTriggeringTask htick
  obtain ⟨start', loaded', hstart', -, hmax⟩ := hholds.getStartBlockNum config.startNum
  cases hstart.symm.trans hstart'
  rw [hrequest, ← hnext, ← hmax, UInt64.ofNat_toNat]

end Ticks

section Sample

/-- The first kind of reply holds two blocks and an element that is no string, the second
kind the third block. -/
def sampleParsers : Parsers where
  Number := ℤ
  jsonLoadb bytes :=
    let entries := if bytes = [0] then [.string "1", .string "2", .null] else [.string "3"]
    some (.object
      [("error", .null),
        ("result", .object
          [("chain_type", .string "7"), ("block_size", .string "1"), ("blocks", .array entries)])])
  fromString text :=
    (decimalValue text).map fun n => { sampleBlock with blockNum := UInt64.ofNat n }

/-- The first write fails; then two blocks are queued before the tick faults, and a third is
stored when the process dies. -/
def sampleTicks : List Event :=
  [.tick 0 [false] (some [0]), .tick 1 [] (some [0]), .died [] (some [1]) 1]

theorem sample_ticks_in_order :
    ∃ s tick, Run (Task.Steps sampleConfig sampleParsers) { blocks := openAt Store.empty }
        sampleTicks s ∧
      numbers s.accepted = [1, 2, 3] ∧ numbers s.enqueued = [1, 2] ∧
      onTriggeringTask sampleConfig sampleParsers 3 [] none s.blocks = .ok tick ∧
      tick.request = requestBody 4 3 := by
  have hrun : Run (Task.Steps sampleConfig sampleParsers) { blocks := openAt Store.empty }
      sampleTicks _ := Run.cons rfl (Run.cons rfl (Run.cons rfl .nil))
  have hdb : Stored Store.empty 0 := ⟨by norm_num, .inr ⟨rfl, rfl⟩⟩
  obtain ⟨hnumbers, -, -, -, hrequest⟩ := ticks_in_order hdb hrun (by decide)
  exact ⟨_, _, hrun, hnumbers, rfl, rfl, hrequest 3 [] none _ rfl⟩

end Sample

end TorrentServer.TickSequences
