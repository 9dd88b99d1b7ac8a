import TorrentServer.Migration

namespace TorrentServer.MigrationSafety

open TorrentServer.Records
open TorrentServer.TorrentDatabase
open TorrentServer.Migration
open TorrentServer.Library.KeyValueStore
open TorrentServer.Library.MapEntries
open TorrentServer.Library.TextSearch

/-- Every record is still in the old database or, translated, in the new one, and
only keys of records have been written. -/
structure Safe (json : FcJson) (records : Entries String String) (dbs : Databases) : Prop where
  kept : ∀ entry ∈ records.toList, dbs.source.get entry.1 = some entry.2 ∨
    ∃ message, translation json entry.2 = some message ∧ dbs.target.get entry.1 = some message
  own : ∀ key ∈ dbs.written, key ∈ records.toList.map Prod.fst

/-- At every point of every run, with any opens, `Delete`s and `Put`s failing. -/
def AlwaysSafe (json : FcJson) (records : Entries String String) (target : Store Message) :
    Prop :=
  ∀ opened openedNew turns sequence,
    ∀ dbs ∈ main json opened openedNew turns records target sequence, Safe json records dbs

/-- The new database holds the translation of every record before the tool is run,
under the key of the record and under the id in it. -/
def AlreadyMigrated (json : FcJson) (records : Entries String String) (target : Store Message) :
    Prop :=
  ∀ entry ∈ records.toList, ∃ message, translation json entry.2 = some message ∧
    target.get entry.1 = some message ∧ target.get message.key = some message ∧
      message.key ∈ records.toList.map Prod.fst

variable {json : FcJson} {records : Entries String String} {target : Store Message}
  {turns : String → Turn}

theorem translated_of_translation {value : String} {message : Message}
    (h : translation json value = some message) (turn : Turn) :
    translated json turn value = message := by
  unfold translation at h
  unfold translated
  split at h
  · rename_i hmarker
    obtain ⟨tp, htp, rfl⟩ := Option.map_eq_some_iff.mp h
    rw [if_pos hmarker, htp, Option.getD_some]
  · rename_i hmarker
    obtain ⟨t, ht, rfl⟩ := Option.map_eq_some_iff.mp h
    rw [if_neg hmarker, ht, Option.getD_some]

section Sufficient

structure Unchanged (records : Entries String String) (target : Store Message)
    (dbs : Databases) : Prop where
  target : ∀ key, dbs.target.get key = target.get key
  written : ∀ key ∈ dbs.written, key ∈ records.toList.map Prod.fst

theorem Unchanged.safe {dbs : Databases} (h : Unchanged records target dbs)
    (hmigrated : AlreadyMigrated json records target) : Safe json records dbs := by
  constructor
  · intro entry hentry
    obtain ⟨message, htranslation, hkey, -⟩ := hmigrated entry hentry
    exact .inr ⟨message, htranslation, (h.target entry.1).trans hkey⟩
  · exact h.written

theorem Unchanged.save {dbs : Databases} (h : Unchanged records target dbs) {message : Message}
    (turn : Turn) (hstored : target.get message.key = some message)
    (hown : message.key ∈ records.toList.map Prod.fst) :
    Unchanged records target (dbs.save message turn) := by
  cases hsaved : turn.saved with
  | false => simpa [Databases.save, hsaved] using h
  | true =>
      constructor
      · intro key
        simp only [Databases.save, hsaved, get_saveOrUpdate]
        split
        · rename_i hkey
          rw [hkey, hstored]
        · exact h.target key
      · intro key hkey
        simp only [Databases.save, hsaved, if_true, List.mem_append, List.mem_singleton] at hkey
        rcases hkey with hkey | rfl
        · exact h.written key hkey
        · exact hown

theorem unchanged_of_mem_loop {entries : List (String × String)} {opened : Bool}
    {dbs dbs' : Databases} (hmigrated : AlreadyMigrated json records target)
    (hentries : entries ⊆ records.toList) (h : Unchanged records target dbs)
    (hmem : dbs' ∈ loop json opened turns entries dbs) : Unchanged records target dbs' := by
  induction entries generalizing dbs with
  | nil =>
      rw [List.mem_singleton.mp hmem]
      exact h
  | cons entry entries ih =>
      obtain ⟨key, value⟩ := entry
      have hdeleted : Unchanged records target (dbs.delete key (turns key)) :=
        ⟨h.target, h.written⟩
      rw [loop, List.mem_cons, List.mem_cons] at hmem
      rcases hmem with rfl | rfl | hmem
      · exact h
      · exact hdeleted
      · split at hmem
        · obtain ⟨message, htranslation, -, hstored, hown⟩ :=
            hmigrated (key, value) (hentries List.mem_cons_self)
          rw [translated_of_translation htranslation] at hmem
          exact ih (fun _ hentry => hentries (List.mem_cons_of_mem _ hentry))
            (hdeleted.save (turns key) hstored hown) hmem
        · cases hmem

end Sufficient

section Necessary

theorem get_source_turnEnd (dbs : Databases) (entry : String × String) (key : String)
    (h : dbs.source.get key = none) : (turnEnd json turns dbs entry).source.get key = none := by
  change (dbs.source.delete entry.1 (turns entry.1).deleted).get key = none
  by_cases hkey : key = entry.1
  · cases hdeleted : (turns entry.1).deleted with
    | false => exact h
    | true => rw [hkey, Store.get_delete_self]
  · rw [Store.get_delete_of_ne _ _ hkey, h]

theorem get_source_foldl_of_none {entries : List (String × String)} {dbs : Databases}
    {key : String} (h : dbs.source.get key = none) :
    (entries.foldl (turnEnd json turns) dbs).source.get key = none := by
  induction entries generalizing dbs with
  | nil => exact h
  | cons entry entries ih => exact ih (get_source_turnEnd dbs entry key h)

theorem get_source_foldl {entries : List (String × String)}
    (hdeleted : ∀ key, (turns key).deleted = true) (dbs : Databases) {key : String}
    (hkey : key ∈ entries.map Prod.fst) :
    (entries.foldl (turnEnd json turns) dbs).source.get key = none := by
  induction entries generalizing dbs with
  | nil => cases hkey
  | cons entry entries ih =>
      rw [List.foldl_cons]
      rcases List.mem_cons.mp hkey with rfl | hkey
      · apply get_source_foldl_of_none
        change (dbs.source.delete entry.1 (turns entry.1).deleted).get entry.1 = none
        rw [hdeleted, Store.get_delete_self]
      · exact ih _ hkey

theorem target_foldl_of_unsaved {entries : List (String × String)} (dbs : Databases)
    (hsaved : ∀ entry ∈ entries, (turns entry.1).saved = false) :
    (entries.foldl (turnEnd json turns) dbs).target = dbs.target ∧
      (entries.foldl (turnEnd json turns) dbs).written = dbs.written := by
  induction entries generalizing dbs with
  | nil => exact ⟨rfl, rfl⟩
  | cons entry entries ih =>
      rw [List.forall_mem_cons] at hsaved
      obtain ⟨htarget, hwritten⟩ := ih (turnEnd json turns dbs entry) hsaved.2
      rw [List.foldl_cons, htarget, hwritten]
      simp [turnEnd, Databases.save, Databases.delete, hsaved.1]

theorem target_foldl_of_one {entries : List (String × String)} (dbs : Databases)
    (hnodup : (entries.map Prod.fst).Nodup) {key value : String} (hmem : (key, value) ∈ entries)
    (hsaved : ∀ other, (turns other).saved = decide (other = key)) :
    (entries.foldl (turnEnd json turns) dbs).target =
        saveOrUpdate dbs.target (translated json (turns key) value) true ∧
      (entries.foldl (turnEnd json turns) dbs).written =
        dbs.written ++ [(translated json (turns key) value).key] := by
  induction entries generalizing dbs with
  | nil => cases hmem
  | cons entry entries ih =>
      rw [List.map_cons, List.nodup_cons] at hnodup
      rw [List.foldl_cons]
      rcases List.mem_cons.mp hmem with rfl | hmem
      · have hrest : ∀ entry ∈ entries, (turns entry.1).saved = false := by
          intro entry hentry
          rw [hsaved, decide_eq_false_iff_not]
          rintro rfl
          exact hnodup.1 (List.mem_map.mpr ⟨entry, hentry, rfl⟩)
        obtain ⟨htarget, hwritten⟩ :=
          target_foldl_of_unsaved (turnEnd json turns dbs (key, value)) hrest
        rw [htarget, hwritten]
        simp [turnEnd, Databases.save, Databases.delete, hsaved]
      · have hne : entry.1 ≠ key := by
          rintro rfl
          exact hnodup.1 (List.mem_map.mpr ⟨_, hmem, rfl⟩)
        obtain ⟨htarget, hwritten⟩ := ih (turnEnd json turns dbs entry) hnodup.2 hmem
        rw [htarget, hwritten]
        simp [turnEnd, Databases.save, Databases.delete, hsaved, hne]

def turnsOf (saved : String → Bool) : String → Turn :=
  fun key => { sampleTurns key with saved := saved key }

theorem safe_at_end (saved : String → Bool)
    (h : AlwaysSafe json records target) :
    Safe json records (records.toList.foldl (turnEnd json (turnsOf saved))
      { source := { entries := records.toFinmap, sequence := 0 }, target := target }) :=
  h true true (turnsOf saved) 0 _ (List.mem_of_getLast? (getLast?_loop _ _))

theorem translated_of_safe_at_end {saved : String → Bool} {dbs : Databases}
    (h : Safe json records (records.toList.foldl (turnEnd json (turnsOf saved)) dbs))
    {entry : String × String} (hentry : entry ∈ records.toList) :
    ∃ message, translation json entry.2 = some message ∧
      (records.toList.foldl (turnEnd json (turnsOf saved)) dbs).target.get entry.1 =
        some message := by
  have hgone := @get_source_foldl json (turnsOf saved) _ (fun _ => rfl) dbs _
    (List.mem_map_of_mem hentry)
  rcases h.kept entry hentry with hsource | hmessage
  · rw [hgone] at hsource
    cases hsource
  · exact hmessage

theorem alreadyMigrated_of_safe (h : AlwaysSafe json records target) :
    AlreadyMigrated json records target := by
  -- If no `Put` succeeds, the translations can only have been there before.
  have hbefore : ∀ entry ∈ records.toList, ∃ message,
      translation json entry.2 = some message ∧ target.get entry.1 = some message := by
    intro entry hentry
    obtain ⟨message, htranslation, hget⟩ :=
      translated_of_safe_at_end (safe_at_end (fun _ => false) h) hentry
    rw [(target_foldl_of_unsaved _ fun _ _ => rfl).1] at hget
    exact ⟨message, htranslation, hget⟩
  rintro ⟨key, value⟩ hentry
  obtain ⟨message, htranslation, hget⟩ := hbefore (key, value) hentry
  -- If only this record's `Put` succeeds, it writes a key of the old database, and
  -- what it writes is also the translation of the record there.
  have hsafe := safe_at_end (fun other => decide (other = key)) h
  obtain ⟨htarget, hwritten⟩ := @target_foldl_of_one json
    (turnsOf fun other => decide (other = key)) _
    { source := { entries := records.toFinmap, sequence := 0 }, target := target }
    records.nodup key value hentry (fun _ => rfl)
  rw [translated_of_translation htranslation] at htarget hwritten
  have hown : message.key ∈ records.toList.map Prod.fst :=
    hsafe.own message.key (by rw [hwritten]; simp)
  refine ⟨message, htranslation, hget, ?_, hown⟩
  obtain ⟨other, hother, hkey⟩ := List.mem_map.mp hown
  obtain ⟨message', htranslation', hget'⟩ := translated_of_safe_at_end hsafe hother
  rw [htarget, hkey, get_saveOrUpdate_self, Option.some.injEq] at hget'
  subst hget'
  obtain ⟨message'', htranslation'', hget''⟩ := hbefore other hother
  rw [htranslation', Option.some.injEq] at htranslation''
  rw [← hkey, hget'', htranslation'']

end Necessary

/-- No run of the tool puts a record at risk exactly when there is nothing left to
migrate. -/
theorem migration_safe_iff :
    AlwaysSafe json records target ↔ AlreadyMigrated json records target := by
  constructor
  · exact alreadyMigrated_of_safe
  · intro hmigrated opened openedNew turns sequence dbs hmem
    have hstart : Unchanged records target
        { source := { entries := records.toFinmap, sequence := sequence }, target := target } :=
      ⟨fun _ => rfl, by simp⟩
    refine Unchanged.safe ?_ hmigrated
    unfold main at hmem
    split at hmem
    · exact unchanged_of_mem_loop hmigrated (List.Subset.refl _) hstart hmem
    · rw [List.mem_singleton.mp hmem]
      exact hstart

/-- Between `Delete` and `Put` a record is in neither database. -/
theorem record_in_neither_database :
    ¬ ∀ (json : FcJson) (records : Entries String String), AlwaysSafe json records .empty := by
  intro h
  have hsafe := h sampleJson sampleRecords true true sampleTurns 0 _
    (List.mem_cons_of_mem _ List.mem_cons_self)
  rcases hsafe.kept _ List.mem_cons_self with hsource | ⟨message, -, htarget⟩
  · have hgone := Store.get_delete_self
      { entries := sampleRecords.toFinmap, sequence := 0 } sampleTorrent.id.str
    exact absurd (hgone.symm.trans hsource) (by simp)
  · cases htarget

end TorrentServer.MigrationSafety
