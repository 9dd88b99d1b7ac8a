import Mathlib.Tactic.NormNum
import TorrentServer.HandleBlock
import TorrentServer.Library.DecimalText

namespace TorrentServer.Checkpoint

open TorrentServer.HandleBlock
open TorrentServer.Library.DecimalText
open TorrentServer.Library.KeyValueStore

/-- The number of the next block, as decimal text under one key and cached in memory. -/
structure BlockLeveldb where
  db : Store String
  totalnum : UInt64

def totalblockKey : String := "totalblock"

def openAt (db : Store String) : BlockLeveldb :=
  { db := db, totalnum := 0 }

/-- `boost::lexical_cast<block_num_type>`; `none` is its `bad_lexical_cast`. -/
def lexicalCast (value : String) : Option UInt64 :=
  (decimalValue value).bind fun n => if n < 2 ^ 64 then some (UInt64.ofNat n) else none

def getTotalBlockNum (b : BlockLeveldb) : Option (UInt64 × BlockLeveldb) :=
  if 0 < b.totalnum then some (b.totalnum, b)
  else
    match b.db.get totalblockKey with
    | some value => (lexicalCast value).map fun n => (n, { b with totalnum := n })
    | none => some (0, { b with totalnum := 0 })

/-- The text goes through a buffer of twenty bytes, the last of them a zero. -/
def storeTotalnum (b : BlockLeveldb) (block : SignedBlock) (ok : Bool) : BlockLeveldb :=
  let num := block.blockNum + 1
  if ok then
    { db := b.db.put totalblockKey (formatDecimal 19 num.toNat) true, totalnum := num }
  else b

/-- The body of `store` is that of `store_totalnum`. -/
def store (b : BlockLeveldb) (block : SignedBlock) (ok : Bool) : BlockLeveldb :=
  storeTotalnum b block ok

def getStartBlockNum (startNum : UInt64) (b : BlockLeveldb) :
    Option (UInt64 × BlockLeveldb) :=
  (getTotalBlockNum b).map fun (start, b) =>
    (if start < startNum then startNum else start, b)

/-- The number a database stands for; no text is zero. -/
def persistedTotal (db : Store String) : Nat :=
  ((db.get totalblockKey).bind decimalValue).getD 0

def Stored (db : Store String) (n : Nat) : Prop :=
  n < 10 ^ 19 ∧ (db.get totalblockKey = some n.repr ∨ db.get totalblockKey = none ∧ n = 0)

structure Holds (b : BlockLeveldb) (n : Nat) : Prop where
  stored : Stored b.db n
  cached : b.totalnum = 0 ∨ b.totalnum.toNat = n

variable {b : BlockLeveldb} {n : Nat}

theorem lexicalCast_repr (hn : n < 10 ^ 19) : lexicalCast n.repr = some (UInt64.ofNat n) := by
  have hsize : n < 2 ^ 64 := hn.trans (by norm_num)
  simp only [lexicalCast, decimalValue_repr, Option.bind_some, if_pos hsize]

theorem toNat_ofNat_of_stored (hn : n < 10 ^ 19) : (UInt64.ofNat n).toNat = n :=
  UInt64.toNat_ofNat_of_lt' (hn.trans (by norm_num))

theorem persistedTotal_of_stored {db : Store String} (h : Stored db n) :
    persistedTotal db = n := by
  rcases h.2 with htext | ⟨hnone, rfl⟩
  · simp [persistedTotal, htext]
  · simp [persistedTotal, hnone]

theorem Holds.openAt (h : Holds b n) : Holds (openAt b.db) n :=
  ⟨h.stored, .inl rfl⟩

theorem Holds.getTotalBlockNum (h : Holds b n) :
    ∃ b', getTotalBlockNum b = some (UInt64.ofNat n, b') ∧ Holds b' n := by
  obtain ⟨hn, hstored⟩ := h.stored
  have hround := toNat_ofNat_of_stored hn
  unfold Checkpoint.getTotalBlockNum
  split
  · rename_i hpos
    have hcached : b.totalnum.toNat = n := by
      rcases h.cached with hzero | hcached
      · simp [hzero] at hpos
      · exact hcached
    refine ⟨b, ?_, h⟩
    rw [← hcached, UInt64.ofNat_toNat]
  · rcases hstored with htext | ⟨hnone, rfl⟩
    · refine ⟨{ b with totalnum := UInt64.ofNat n }, ?_, ⟨⟨hn, .inl htext⟩, .inr hround⟩⟩
      simp [htext, lexicalCast_repr hn]
    · refine ⟨{ b with totalnum := 0 }, ?_, ⟨⟨hn, .inr ⟨hnone, rfl⟩⟩, .inl rfl⟩⟩
      simp [hnone]

theorem Holds.getStartBlockNum (h : Holds b n) (startNum : UInt64) :
    ∃ start b', getStartBlockNum startNum b = some (start, b') ∧ Holds b' n ∧
      start.toNat = max n startNum.toNat := by
  obtain ⟨b', hget, hholds⟩ := h.getTotalBlockNum
  have hround := toNat_ofNat_of_stored h.stored.1
  have hstart : Checkpoint.getStartBlockNum startNum b =
      some (if UInt64.ofNat n < startNum then startNum else UInt64.ofNat n, b') := by
    simp only [Checkpoint.getStartBlockNum, hget, Option.map_some]
  refine ⟨_, b', hstart, hholds, ?_⟩
  split
  · rename_i hlt
    rw [UInt64.lt_iff_toNat_lt, hround] at hlt
    omega
  · rename_i hle
    rw [UInt64.lt_iff_toNat_lt, hround] at hle
    omega

theorem holds_storeTotalnum (b : BlockLeveldb) {block : SignedBlock}
    (hblock : block.blockNum.toNat < 10 ^ 19 - 1) :
    Holds (storeTotalnum b block true) (block.blockNum.toNat + 1) := by
  have hnext : block.blockNum.toNat + 1 < 10 ^ 19 := by omega
  have hnum : (block.blockNum + 1).toNat = block.blockNum.toNat + 1 := by
    rw [UInt64.toNat_add]
    exact Nat.mod_eq_of_lt (hnext.trans (by norm_num))
  refine ⟨⟨hnext, .inl ?_⟩, .inr hnum⟩
  change (b.db.put _ _ true).get _ = _
  rw [Store.get_put_self, hnum, formatDecimal_eq_repr (by norm_num) hnext]

theorem getTotalBlockNum_db {b' : BlockLeveldb} {total : UInt64}
    (h : getTotalBlockNum b = some (total, b')) : b'.db = b.db := by
  unfold Checkpoint.getTotalBlockNum at h
  split at h
  · cases h
    rfl
  · split at h
    · obtain ⟨num, -, hnum⟩ := Option.map_eq_some_iff.mp h
      cases hnum
      rfl
    · cases h
      rfl

theorem getStartBlockNum_db {b' : BlockLeveldb} {startNum start : UInt64}
    (h : getStartBlockNum startNum b = some (start, b')) : b'.db = b.db := by
  obtain ⟨⟨total, cached⟩, htotal, hstart⟩ := Option.map_eq_some_iff.mp h
  cases hstart
  exact getTotalBlockNum_db htotal

end TorrentServer.Checkpoint
