import TorrentServer.Checkpoint

namespace TorrentServer.CheckpointCache

open TorrentServer.HandleBlock
open TorrentServer.Checkpoint
open TorrentServer.Library.DecimalText
open TorrentServer.Library.KeyValueStore

inductive Call
  | reopen
  | store (block : SignedBlock) (ok : Bool)
  | storeTotalnum (block : SignedBlock) (ok : Bool)
  | getTotalBlockNum

/-- A call without its result; `none` is an exception of `lexical_cast`. -/
def call (b : BlockLeveldb) : Call → Option BlockLeveldb
  | .reopen => some (openAt b.db)
  | .store block ok => some (store b block ok)
  | .storeTotalnum block ok => some (storeTotalnum b block ok)
  | .getTotalBlockNum => (getTotalBlockNum b).map Prod.snd

def callAll (calls : List Call) : Option BlockLeveldb :=
  calls.foldlM call (openAt Store.empty)

def Call.stored : Call → Option UInt64
  | .store block true => some block.blockNum
  | .storeTotalnum block true => some block.blockNum
  | _ => none

def lastStored (calls : List Call) : Option UInt64 :=
  (calls.filterMap Call.stored).getLast?

def nextNumber (calls : List Call) : Nat :=
  ((lastStored calls).map fun n => n.toNat + 1).getD 0

def Returns (b : BlockLeveldb) (n : Nat) : Prop :=
  ∃ total b', getTotalBlockNum b = some (total, b') ∧ total.toNat = n

/-- What a database holds after `last` was stored: the text as it was cut to the
buffer, and in memory nothing, the number itself or what the text reads as. -/
structure Written (last : Option UInt64) (b : BlockLeveldb) : Prop where
  text : b.db.get totalblockKey = last.map fun n => formatDecimal 19 (n + 1).toNat
  cached : b.totalnum = 0 ∨ (∃ n, last = some n ∧ b.totalnum = n + 1) ∨
    (b.db.get totalblockKey).bind lexicalCast = some b.totalnum

variable {last : Option UInt64} {b : BlockLeveldb}

theorem lexicalCast_formatDecimal (n : Nat) :
    ∃ total, lexicalCast (formatDecimal 19 n) = some total ∧ total.toNat < 10 ^ 19 := by
  obtain ⟨value, hvalue, hlt⟩ := @decimalValue_formatDecimal 19 (by decide) n
  have hsize : value < 2 ^ 64 := hlt.trans (by norm_num)
  refine ⟨UInt64.ofNat value, ?_, ?_⟩
  · simp only [lexicalCast, hvalue, Option.bind_some, if_pos hsize]
  · rw [toNat_ofNat_of_stored hlt]
    exact hlt

theorem Written.reopened (h : Written last b) : Written last (openAt b.db) :=
  ⟨h.text, .inl rfl⟩

theorem written_storeTotalnum (b : BlockLeveldb) (block : SignedBlock) :
    Written (some block.blockNum) (storeTotalnum b block true) := by
  constructor
  · exact b.db.get_put_self totalblockKey _
  · exact .inr (.inl ⟨block.blockNum, rfl, rfl⟩)

theorem Written.text_some {n : UInt64} (h : Written (some n) b) :
    b.db.get totalblockKey = some (formatDecimal 19 (n + 1).toNat) :=
  h.text

theorem getTotalBlockNum_of_text {text : String} {total : UInt64} (hcached : b.totalnum = 0)
    (htext : b.db.get totalblockKey = some text) (htotal : lexicalCast text = some total) :
    getTotalBlockNum b = some (total, { b with totalnum := total }) := by
  simp [Checkpoint.getTotalBlockNum, hcached, htext, htotal]

/-- The number is always found, and finding it leaves what is written as it is. -/
theorem Written.getTotalBlockNum (h : Written last b) :
    ∃ total b', getTotalBlockNum b = some (total, b') ∧ Written last b' := by
  by_cases hcached : b.totalnum = 0
  · cases last with
    | none =>
        have htext : b.db.get totalblockKey = none := h.text
        refine ⟨0, { b with totalnum := 0 }, ?_, ⟨h.text, .inl rfl⟩⟩
        simp [Checkpoint.getTotalBlockNum, hcached, htext]
    | some n =>
        obtain ⟨total, htotal, -⟩ := lexicalCast_formatDecimal (n + 1).toNat
        refine ⟨total, _, getTotalBlockNum_of_text hcached h.text_some htotal,
          ⟨h.text, .inr (.inr ?_)⟩⟩
        simp only [h.text_some, Option.bind_some, htotal]
  · refine ⟨b.totalnum, b, ?_, h⟩
    rw [Checkpoint.getTotalBlockNum, if_pos (UInt64.pos_iff_ne_zero.mpr hcached)]

section Stable

theorem getTotalBlockNum_stable {b' : BlockLeveldb} {total : UInt64}
    (h : getTotalBlockNum b = some (total, b')) : getTotalBlockNum b' = some (total, b') := by
  by_cases hcached : 0 < b.totalnum
  · have hsame : getTotalBlockNum b = some (b.totalnum, b) := by
      rw [Checkpoint.getTotalBlockNum, if_pos hcached]
    rw [hsame] at h
    cases h
    exact hsame
  · rw [Checkpoint.getTotalBlockNum, if_neg hcached] at h
    cases htext : b.db.get totalblockKey with
    | none =>
        rw [htext] at h
        cases h
        simp [Checkpoint.getTotalBlockNum, htext]
    | some text =>
        rw [htext] at h
        obtain ⟨n, hn, hnext⟩ := Option.map_eq_some_iff.mp h
        cases hnext
        by_cases hzero : total = 0
        · rw [hzero] at hn ⊢
          exact getTotalBlockNum_of_text rfl htext hn
        · rw [Checkpoint.getTotalBlockNum, if_pos (UInt64.pos_iff_ne_zero.mpr hzero)]

theorem getStartBlockNum_stable {b' : BlockLeveldb} {startNum start : UInt64}
    (h : getStartBlockNum startNum b = some (start, b')) :
    getStartBlockNum startNum b' = some (start, b') := by
  obtain ⟨⟨total, loaded⟩, htotal, hstart⟩ := Option.map_eq_some_iff.mp h
  cases hstart
  simp only [getStartBlockNum, getTotalBlockNum_stable htotal, Option.map_some]

/-- The number asked for after a block has been stored. -/
def nextStart (startNum blockNum : UInt64) : UInt64 :=
  if blockNum + 1 < startNum then startNum else blockNum + 1

theorem getTotalBlockNum_storeTotalnum (b : BlockLeveldb) (block : SignedBlock) :
    getTotalBlockNum (storeTotalnum b block true) =
      some (block.blockNum + 1, storeTotalnum b block true) := by
  by_cases hzero : block.blockNum + 1 = 0
  · -- The number has wrapped: the cache counts as empty, and the text is read instead.
    have hstored : storeTotalnum b block true =
        { db := b.db.put totalblockKey (formatDecimal 19 0) true, totalnum := 0 } := by
      simp [storeTotalnum, hzero]
    rw [hzero, hstored]
    exact getTotalBlockNum_of_text rfl (b.db.get_put_self totalblockKey _) (by decide)
  · rw [Checkpoint.getTotalBlockNum, if_pos]
    · rfl
    · exact UInt64.pos_iff_ne_zero.mpr hzero

theorem getStartBlockNum_storeTotalnum (b : BlockLeveldb) (block : SignedBlock)
    (startNum : UInt64) :
    getStartBlockNum startNum (storeTotalnum b block true) =
      some (nextStart startNum block.blockNum, storeTotalnum b block true) := by
  simp only [getStartBlockNum, getTotalBlockNum_storeTotalnum, Option.map_some, nextStart]

end Stable

theorem Written.holds (h : Written last b)
    (hlast : ∀ n, last = some n → n.toNat + 1 < 10 ^ 19) :
    Holds b ((last.map fun n => n.toNat + 1).getD 0) := by
  cases last with
  | none =>
      have htext : b.db.get totalblockKey = none := h.text
      refine ⟨⟨by decide, .inr ⟨htext, rfl⟩⟩, ?_⟩
      rcases h.cached with hzero | ⟨n, hn, -⟩ | hread
      · exact .inl hzero
      · cases hn
      · simp [htext] at hread
  | some n =>
      have hn := hlast n rfl
      have hnum : (n + 1).toNat = n.toNat + 1 := by
        rw [UInt64.toNat_add]
        exact Nat.mod_eq_of_lt (hn.trans (by norm_num))
      have htext : b.db.get totalblockKey = some (n.toNat + 1).repr := by
        rw [h.text, Option.map_some, hnum, formatDecimal_eq_repr (by norm_num) hn]
      refine ⟨⟨hn, .inl htext⟩, ?_⟩
      rcases h.cached with hzero | ⟨m, hm, hcached⟩ | hread
      · exact .inl hzero
      · cases hm
        exact .inr (hcached ▸ hnum)
      · rw [htext, Option.bind_some, lexicalCast_repr hn, Option.some.injEq] at hread
        exact .inr (hread ▸ toNat_ofNat_of_stored hn)

theorem returns_of_holds {n : Nat} (h : Holds b n) : Returns b n := by
  obtain ⟨b', hget, -⟩ := h.getTotalBlockNum
  exact ⟨_, b', hget, toNat_ofNat_of_stored h.stored.1⟩

/-- Reopened, a database returns at most nineteen digits. -/
theorem Written.lt_of_returns_reopened {n : UInt64} {m : Nat} (h : Written (some n) b)
    (hreturns : Returns (openAt b.db) m) : m < 10 ^ 19 := by
  obtain ⟨total, b', hget, rfl⟩ := hreturns
  obtain ⟨value, hvalue, hlt⟩ := lexicalCast_formatDecimal (n + 1).toNat
  have hread := @getTotalBlockNum_of_text (openAt b.db) _ value rfl h.text_some hvalue
  rw [hread] at hget
  cases hget
  exact hlt

theorem lastStored_snoc (calls : List Call) (last : Call) :
    lastStored (calls ++ [last]) = last.stored.or (lastStored calls) := by
  cases hstored : last.stored with
  | none => simp [lastStored, hstored]
  | some n => simp [lastStored, hstored]

theorem written_call {last : Option UInt64} (h : Written last b) (next : Call) :
    ∃ b', call b next = some b' ∧ Written (next.stored.or last) b' := by
  cases next with
  | reopen => exact ⟨_, rfl, h.reopened⟩
  | store block ok =>
      cases ok with
      | false => exact ⟨b, rfl, h⟩
      | true => exact ⟨_, rfl, written_storeTotalnum b block⟩
  | storeTotalnum block ok =>
      cases ok with
      | false => exact ⟨b, rfl, h⟩
      | true => exact ⟨_, rfl, written_storeTotalnum b block⟩
  | getTotalBlockNum =>
      obtain ⟨total, b', hget, hwritten⟩ := h.getTotalBlockNum
      exact ⟨b', by rw [call, hget]; rfl, hwritten⟩

theorem written_callAll (calls : List Call) :
    ∃ b, callAll calls = some b ∧ Written (lastStored calls) b := by
  induction calls using List.reverseRecOn with
  | nil => exact ⟨_, rfl, ⟨rfl, .inl rfl⟩⟩
  | append_singleton calls next ih =>
      obtain ⟨b, hcalls, hwritten⟩ := ih
      obtain ⟨b', hcall, hnext⟩ := written_call hwritten next
      refine ⟨b', ?_, lastStored_snoc calls next ▸ hnext⟩
      unfold callAll at hcalls ⊢
      rw [List.foldlM_append, hcalls]
      simpa using hcall

theorem Written.returns_iff (h : Written last b) :
    Returns b ((last.map fun n => n.toNat + 1).getD 0) ∧
        Returns (openAt b.db) ((last.map fun n => n.toNat + 1).getD 0) ↔
      ∀ n, last = some n → n.toNat + 1 < 10 ^ 19 := by
  constructor
  · rintro ⟨-, hreopened⟩ n rfl
    exact h.lt_of_returns_reopened hreopened
  · intro hlast
    exact ⟨returns_of_holds (h.holds hlast), returns_of_holds (h.reopened.holds hlast)⟩

/-- The database and a freshly reopened one return the number after the last block
stored exactly when that number has at most nineteen digits. -/
theorem checkpoint_exact_iff (calls : List Call) :
    ∃ b, callAll calls = some b ∧
      (Returns b (nextNumber calls) ∧ Returns (openAt b.db) (nextNumber calls) ↔
        ∀ n, lastStored calls = some n → n.toNat + 1 < 10 ^ 19) := by
  obtain ⟨b, hcalls, hwritten⟩ := written_callAll calls
  exact ⟨b, hcalls, hwritten.returns_iff⟩

/-- After the block number of nineteen nines the text has lost its last digit. -/
theorem twenty_digits_not_reopened :
    ¬ ∀ (calls : List Call) (b : BlockLeveldb), callAll calls = some b →
      Returns b (nextNumber calls) ∧ Returns (openAt b.db) (nextNumber calls) := by
  intro h
  obtain ⟨b, hcalls, hwritten⟩ :=
    written_callAll [.store { blockNum := 9999999999999999999, transactions := [] } true]
  have hlt := hwritten.returns_iff.mp (h _ b hcalls) 9999999999999999999 rfl
  exact absurd hlt (by decide)

end TorrentServer.CheckpointCache
