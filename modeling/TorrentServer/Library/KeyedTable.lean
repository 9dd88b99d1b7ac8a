import Mathlib.Data.List.Induction
import Mathlib.Logic.Function.Basic
import Mathlib.Order.Basic

namespace TorrentServer.Library.KeyedTable

variable {κ ρ : Type*} [DecidableEq κ]

/-- A table with a primary key after a list of rows has been written into it
from left to right, each row replacing the one with its key. -/
def replaceInto (key : ρ → κ) (table : κ → Option ρ) (rows : List ρ) : κ → Option ρ :=
  rows.foldl (fun table row => Function.update table (key row) (some row)) table

variable (key : ρ → κ) (table : κ → Option ρ)

@[simp] theorem replaceInto_nil : replaceInto key table [] = table := rfl

theorem replaceInto_append (rows more : List ρ) :
    replaceInto key table (rows ++ more) =
      replaceInto key (replaceInto key table rows) more :=
  List.foldl_append

@[simp] theorem replaceInto_singleton (row : ρ) :
    replaceInto key table [row] = Function.update table (key row) (some row) := rfl

theorem mem_of_replaceInto {rows : List ρ} {k : κ} {row : ρ}
    (h : replaceInto key table rows k = some row) : row ∈ rows ∨ table k = some row := by
  induction rows using List.reverseRecOn with
  | nil => exact .inr h
  | append_singleton rows last ih =>
      rw [replaceInto_append, replaceInto_singleton] at h
      by_cases hkey : k = key last
      · rw [hkey, Function.update_self] at h
        cases h
        exact .inl (by simp)
      · rw [Function.update_of_ne hkey] at h
        exact (ih h).imp_left (List.mem_append_left _)

section Versions

variable {V : Type*} [Preorder V] {key table} {version : ρ → V} {rows more : List ρ}

def Ascending (key : ρ → κ) (version : ρ → V) (rows : List ρ) : Prop :=
  rows.Pairwise fun row later => key row = key later → version row ≤ version later

/-- The table has its rows under their keys, none of them newer than one still to come. -/
def NoNewer (key : ρ → κ) (version : ρ → V) (table : κ → Option ρ) (rows : List ρ) : Prop :=
  ∀ k row, table k = some row →
    key row = k ∧ ∀ later ∈ rows, key later = k → version row ≤ version later

theorem NoNewer.update {row : ρ} (hrows : Ascending key version (row :: rows))
    (h : NoNewer key version table (row :: rows)) :
    NoNewer key version (Function.update table (key row) (some row)) rows := by
  intro k other hother
  by_cases hkey : k = key row
  · subst hkey
    rw [Function.update_self] at hother
    cases hother
    exact ⟨rfl, fun later hlater heq => List.rel_of_pairwise_cons hrows hlater heq.symm⟩
  · rw [Function.update_of_ne hkey] at hother
    obtain ⟨hself, hlater⟩ := h k other hother
    exact ⟨hself, fun later hmem => hlater later (List.mem_cons_of_mem _ hmem)⟩

theorem NoNewer.replaceInto (hrows : Ascending key version (rows ++ more))
    (h : NoNewer key version table (rows ++ more)) :
    NoNewer key version (replaceInto key table rows) more := by
  induction rows generalizing table with
  | nil => exact h
  | cons row rows ih => exact ih (List.Pairwise.of_cons hrows) (h.update hrows)

theorem NoNewer.version_le (hrows : Ascending key version rows)
    (h : NoNewer key version table rows) {k : κ} {row : ρ} (hrow : table k = some row) :
    ∃ row', KeyedTable.replaceInto key table rows k = some row' ∧ version row ≤ version row' := by
  induction rows generalizing table row with
  | nil => exact ⟨row, hrow, le_rfl⟩
  | cons first rows ih =>
      by_cases hkey : k = key first
      · have hfirst : Function.update table (key first) (some first) k = some first := by
          rw [hkey, Function.update_self]
        obtain ⟨row', hrow', hle⟩ := ih (List.Pairwise.of_cons hrows) (h.update hrows) hfirst
        exact ⟨row', hrow', ((h k row hrow).2 first (by simp) hkey.symm).trans hle⟩
      · have hsame : Function.update table (key first) (some first) k = some row := by
          rw [Function.update_of_ne hkey, hrow]
        exact ih (List.Pairwise.of_cons hrows) (h.update hrows) hsame

end Versions

section Related

variable {κ' ρ' : Type*} [DecidableEq κ'] {key : ρ → κ} {key' : ρ' → κ'} {code : κ' → κ}
  {Shows : ρ → ρ' → Prop} {table : κ → Option ρ} {table' : κ' → Option ρ'}

/-- Two tables that show the same rows, under keys that correspond, do so after the same
rows have been written into both. -/
theorem replaceInto_rel (hcode : Function.Injective code)
    (hkey : ∀ row row', Shows row row' → key row = code (key' row'))
    (htable : ∀ k, Option.Rel Shows (table (code k)) (table' k)) {rows : List ρ}
    {rows' : List ρ'} (hrows : List.Forall₂ Shows rows rows') (k : κ') :
    Option.Rel Shows (replaceInto key table rows (code k)) (replaceInto key' table' rows' k) := by
  induction hrows generalizing table table' with
  | nil => exact htable k
  | @cons row row' rows rows' hrow _ ih =>
      apply ih
      intro other
      dsimp only
      by_cases hother : other = key' row'
      · subst hother
        rw [← hkey row row' hrow, Function.update_self, Function.update_self]
        exact .some hrow
      · have hne : code other ≠ key row := by
          rw [hkey row row' hrow]
          exact hcode.ne hother
        rw [Function.update_of_ne hne, Function.update_of_ne hother]
        exact htable other

end Related

end TorrentServer.Library.KeyedTable
