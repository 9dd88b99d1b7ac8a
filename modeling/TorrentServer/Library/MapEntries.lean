import Mathlib.Data.Finmap

namespace TorrentServer.Library.MapEntries

variable {κ β γ : Type*} [DecidableEq κ]

/-- The entries of a map in the order in which a loop meets them. -/
structure Entries (κ β : Type*) where
  toList : List (κ × β)
  nodup : (toList.map Prod.fst).Nodup

def Entries.empty {κ β : Type*} : Entries κ β where
  toList := []
  nodup := List.nodup_nil

/-- The map a loop over the entries fills. -/
def insertAll (entries : List (κ × β)) (m : Finmap fun _ : κ => β) : Finmap fun _ : κ => β :=
  entries.foldl (fun m entry => m.insert entry.1 entry.2) m

def Entries.toFinmap (entries : Entries κ β) : Finmap fun _ : κ => β :=
  insertAll entries.toList ∅

def Entries.map (f : β → γ) (entries : Entries κ β) : Entries κ γ where
  toList := entries.toList.map fun entry => (entry.1, f entry.2)
  nodup := by simpa [List.map_map, Function.comp_def] using entries.nodup

theorem lookup_eq_none_of_notMem {entries : List (κ × β)} {key : κ}
    (h : key ∉ entries.map Prod.fst) : entries.lookup key = none := by
  rw [List.lookup_eq_none_iff]
  rintro ⟨other, value⟩ hmem
  have hne : key ≠ other := by
    rintro rfl
    exact h (List.mem_map.mpr ⟨(key, value), hmem, rfl⟩)
  simpa using hne

theorem lookup_insertAll {entries : List (κ × β)} (hnodup : (entries.map Prod.fst).Nodup)
    (m : Finmap fun _ : κ => β) (key : κ) :
    (insertAll entries m).lookup key = (entries.lookup key).or (m.lookup key) := by
  induction entries generalizing m with
  | nil => rfl
  | cons entry entries ih =>
      obtain ⟨other, value⟩ := entry
      rw [List.map_cons, List.nodup_cons] at hnodup
      change (insertAll entries (m.insert other value)).lookup key = _
      rw [ih hnodup.2, List.lookup_cons]
      by_cases hkey : key = other
      · subst hkey
        rw [lookup_eq_none_of_notMem hnodup.1, Finmap.lookup_insert]
        simp
      · rw [Finmap.lookup_insert_of_ne m hkey, beq_false_of_ne hkey]

@[simp] theorem Entries.lookup_toFinmap (entries : Entries κ β) (key : κ) :
    entries.toFinmap.lookup key = entries.toList.lookup key := by
  rw [Entries.toFinmap, lookup_insertAll entries.nodup]
  simp

theorem lookup_map (f : β → γ) (entries : List (κ × β)) (key : κ) :
    (entries.map fun entry => (entry.1, f entry.2)).lookup key = (entries.lookup key).map f := by
  induction entries with
  | nil => rfl
  | cons entry entries ih =>
      rw [List.map_cons, List.lookup_cons, List.lookup_cons, ih]
      cases key == entry.1 <;> rfl

theorem mem_of_lookup {entries : List (κ × β)} {key : κ} {value : β}
    (h : entries.lookup key = some value) : (key, value) ∈ entries := by
  induction entries with
  | nil => cases h
  | cons entry entries ih =>
      rw [List.lookup_cons] at h
      by_cases hkey : key = entry.1
      · simp only [hkey, beq_self_eq_true, Option.some.injEq] at h
        rw [hkey, ← h]
        exact List.mem_cons_self
      · rw [beq_false_of_ne hkey] at h
        exact List.mem_cons_of_mem _ (ih h)

theorem Entries.lookup_of_mem (entries : Entries κ β) {key : κ} {value : β}
    (h : (key, value) ∈ entries.toList) : entries.toList.lookup key = some value := by
  obtain ⟨l, hnodup⟩ := entries
  induction l with
  | nil => cases h
  | cons entry l ih =>
      rw [List.map_cons, List.nodup_cons] at hnodup
      rw [List.lookup_cons]
      rcases List.mem_cons.mp h with rfl | hmem
      · simp
      · have hne : key ≠ entry.1 := by
          rintro rfl
          exact hnodup.1 (List.mem_map.mpr ⟨_, hmem, rfl⟩)
        rw [beq_false_of_ne hne]
        exact ih hnodup.2 hmem

theorem Entries.lookup_isSome_iff (entries : Entries κ β) (key : κ) :
    (entries.toList.lookup key).isSome = true ↔ key ∈ entries.toList.map Prod.fst := by
  constructor
  · intro h
    obtain ⟨value, hvalue⟩ := Option.isSome_iff_exists.mp h
    exact List.mem_map.mpr ⟨(key, value), mem_of_lookup hvalue, rfl⟩
  · intro h
    obtain ⟨⟨_, value⟩, hmem, rfl⟩ := List.mem_map.mp h
    rw [entries.lookup_of_mem hmem]
    rfl

@[simp] theorem mem_insertAll {entries : List (κ × β)} {m : Finmap fun _ : κ => β} {key : κ} :
    key ∈ insertAll entries m ↔ key ∈ entries.map Prod.fst ∨ key ∈ m := by
  induction entries generalizing m with
  | nil => simp [insertAll]
  | cons entry entries ih =>
      change key ∈ insertAll entries (m.insert entry.1 entry.2) ↔ _
      rw [ih, Finmap.mem_insert, List.map_cons, List.mem_cons]
      tauto

/-- Filling a map hides what it held before exactly when all its keys are written. -/
theorem Entries.insertAll_eq_iff (entries : Entries κ β) (m : Finmap fun _ : κ => β) :
    insertAll entries.toList m = insertAll entries.toList ∅ ↔
      ∀ key ∈ m, key ∈ entries.toList.map Prod.fst := by
  constructor
  · intro h key hkey
    have hmem : key ∈ insertAll entries.toList m := mem_insertAll.mpr (.inr hkey)
    rw [h, mem_insertAll] at hmem
    rcases hmem with hmem | hmem
    · exact hmem
    · exact absurd hmem Finmap.notMem_empty
  · intro h
    apply Finmap.ext_lookup
    intro key
    rw [lookup_insertAll entries.nodup, lookup_insertAll entries.nodup]
    cases hvalue : entries.toList.lookup key with
    | some value => rfl
    | none =>
        have hkey : key ∉ m := by
          intro hkey
          have hsome := (entries.lookup_isSome_iff key).mpr (h key hkey)
          rw [hvalue] at hsome
          cases hsome
        rw [Finmap.lookup_eq_none.mpr hkey]
        rfl

/-- The map after a loop that writes every entry of another one into it. The keys of a map are
distinct, so that the order of the loop does not matter. -/
def writeAll (source target : Finmap fun _ : κ => β) : Finmap fun _ : κ => β :=
  source ∪ target

@[simp] theorem writeAll_empty (source : Finmap fun _ : κ => β) : writeAll source ∅ = source :=
  Finmap.union_empty

end TorrentServer.Library.MapEntries
