import Mathlib.Data.Finmap
import Mathlib.Algebra.BigOperators.Group.Finset.Basic

namespace TorrentServer.Library.KeyValueStore

/-- An ordered key-value store as its clients see it. Every write that is
applied takes the next sequence number, also when it rewrites the value that
is already there, so that two states of a store are equal only if no write lies
between them. -/
structure Store (β : Type*) where
  entries : Finmap fun _ : String => β
  sequence : Nat

variable {β : Type*}

namespace Store

def empty : Store β := { entries := ∅, sequence := 0 }

def get (s : Store β) (key : String) : Option β :=
  s.entries.lookup key

/-- A write that reports success is applied, one that reports failure leaves the
store as it was. -/
def put (s : Store β) (key : String) (value : β) (ok : Bool) : Store β :=
  if ok then
    { entries := s.entries.insert key value, sequence := s.sequence + 1 }
  else s

def delete (s : Store β) (key : String) (ok : Bool) : Store β :=
  if ok then
    { entries := s.entries.erase key, sequence := s.sequence + 1 }
  else s

@[simp] theorem get_empty (key : String) : (empty : Store β).get key = none := rfl

@[simp] theorem put_false (s : Store β) (key : String) (value : β) :
    s.put key value false = s := rfl

@[simp] theorem get_put_self (s : Store β) (key : String) (value : β) :
    (s.put key value true).get key = some value :=
  Finmap.lookup_insert s.entries

theorem get_put_of_ne (s : Store β) {key other : String} (value : β) (ok : Bool)
    (hne : other ≠ key) : (s.put key value ok).get other = s.get other := by
  cases ok with
  | false => rfl
  | true => exact Finmap.lookup_insert_of_ne s.entries hne

theorem get_put (s : Store β) (key other : String) (value : β) :
    (s.put key value true).get other =
      if other = key then some value else s.get other := by
  split
  · rename_i heq
    rw [heq, get_put_self]
  · rename_i hne
    exact get_put_of_ne s value true hne

@[simp] theorem get_delete_self (s : Store β) (key : String) :
    (s.delete key true).get key = none :=
  Finmap.lookup_erase key s.entries

theorem get_delete_of_ne (s : Store β) {key other : String} (ok : Bool) (hne : other ≠ key) :
    (s.delete key ok).get other = s.get other := by
  cases ok with
  | false => rfl
  | true => exact Finmap.lookup_erase_ne hne

@[simp] theorem sequence_put (s : Store β) (key : String) (value : β) :
    (s.put key value true).sequence = s.sequence + 1 := rfl

theorem put_true_ne (s : Store β) (key : String) (value : β) :
    s.put key value true ≠ s := by
  intro heq
  have := congrArg Store.sequence heq
  simp at this

theorem entries_eq_of_get_eq {s s' : Store β} (h : ∀ key, s.get key = s'.get key) :
    s.entries = s'.entries :=
  Finmap.ext_lookup h

def count (s : Store β) (p : β → Bool) : Nat :=
  (s.entries.keys.filter fun key => (s.get key).any p).card

theorem mem_count_keys (s : Store β) (p : β → Bool) (key : String) :
    key ∈ s.entries.keys.filter (fun key => (s.get key).any p) ↔
      (s.get key).any p = true := by
  rw [Finset.mem_filter, Finmap.mem_keys, ← Finmap.lookup_isSome]
  change (s.get key).isSome = true ∧ _ ↔ _
  cases s.get key with
  | none => simp
  | some value => simp

theorem count_eq_zero {s : Store β} {p : β → Bool}
    (h : ∀ key value, s.get key = some value → p value = false) : s.count p = 0 := by
  rw [count, Finset.card_eq_zero, Finset.eq_empty_iff_forall_notMem]
  intro key hkey
  rw [mem_count_keys, Option.any_eq_true] at hkey
  obtain ⟨value, hget, hp⟩ := hkey
  simp [h key value hget] at hp

theorem count_le_count (s : Store β) {p q : β → Bool}
    (h : ∀ value, p value = true → q value = true) : s.count p ≤ s.count q := by
  refine Finset.card_le_card fun key hkey => ?_
  rw [mem_count_keys, Option.any_eq_true] at hkey ⊢
  obtain ⟨value, hget, hp⟩ := hkey
  exact ⟨value, hget, h value hp⟩

theorem count_put (s : Store β) (p : β → Bool) (key : String) (value : β) :
    (s.put key value true).count p + ((s.get key).any p).toNat =
      s.count p + (p value).toNat := by
  let before := s.entries.keys.filter fun k => (s.get k).any p
  let after := (s.put key value true).entries.keys.filter fun k =>
    ((s.put key value true).get k).any p
  have hbefore : ∀ k, k ∈ before ↔ (s.get k).any p = true := mem_count_keys s p
  have hafter : ∀ k, k ∈ after ↔ ((s.put key value true).get k).any p = true :=
    mem_count_keys _ p
  have herase : after.erase key = before.erase key := by
    ext k
    rw [Finset.mem_erase, Finset.mem_erase, hbefore, hafter]
    refine and_congr_right fun hne => ?_
    rw [get_put_of_ne s value true hne]
  have hcard : ∀ (keys : Finset String) (b : Bool), (key ∈ keys ↔ b = true) →
      keys.card = (keys.erase key).card + b.toNat := by
    intro keys b hmem
    cases b with
    | false =>
        rw [Finset.erase_eq_of_notMem (by simpa using hmem)]
        simp
    | true => exact (Finset.card_erase_add_one (hmem.mpr rfl)).symm
  have hold := hcard before _ (hbefore key)
  have hnew := hcard after (p value) (by simpa using hafter key)
  change after.card + _ = before.card + _
  rw [hold, hnew, herase]
  omega

end Store

def total {κ M : Type*} [DecidableEq κ] [AddCommMonoid M] (m : Finmap fun _ : κ => β)
    (f : β → M) : M :=
  ∑ key ∈ m.keys, ((m.lookup key).map f).getD 0

@[simp] theorem total_empty {κ M : Type*} [DecidableEq κ] [AddCommMonoid M] (f : β → M) :
    total (∅ : Finmap fun _ : κ => β) f = 0 := by
  simp [total]

theorem total_insert {κ M : Type*} [DecidableEq κ] [AddCommMonoid M]
    (m : Finmap fun _ : κ => β) (f : β → M) {key : κ} (value : β) (hfresh : key ∉ m) :
    total (m.insert key value) f = total m f + f value := by
  have hkeys : (m.insert key value).keys = insert key m.keys := by
    ext other
    simp [Finmap.mem_keys]
  have hkey : key ∉ m.keys := by simpa [Finmap.mem_keys] using hfresh
  unfold total
  rw [hkeys, Finset.sum_insert hkey, Finmap.lookup_insert, add_comm]
  refine congrArg (· + f value) (Finset.sum_congr rfl fun other hother => ?_)
  have hne : other ≠ key := fun heq => hkey (heq ▸ hother)
  rw [Finmap.lookup_insert_of_ne m hne]

end TorrentServer.Library.KeyValueStore
