import TorrentServer.CheckpointCache
import TorrentServer.Library.CIntegers
import TorrentServer.Library.JsonDocuments
import TorrentServer.Library.Runs
import TorrentServer.ServerMachine

namespace TorrentServer.FullnodeTick

open TorrentServer.ChainLibrary
open TorrentServer.HandleBlock
open TorrentServer.Checkpoint
open TorrentServer.CheckpointCache
open TorrentServer.ServerMachine
open TorrentServer.Library.CIntegers
open TorrentServer.Library.DecimalText
open TorrentServer.Library.JsonDocuments
open TorrentServer.Library.KeyValueStore
open TorrentServer.Library.Runs
open TorrentServer.Library.TaskQueues

/-- The two parsers: `json_loadb`, which returns a null pointer for what is no JSON, and
`fc::json` into a `signed_block`, which throws an `fc::exception`. The strings of
the first have no zero character, the flag for them is not given. -/
structure Parsers where
  Number : Type
  jsonLoadb : List UInt8 → Option (Document Number)
  fromString : String → Option SignedBlock

section Jansson

variable {ν : Type}

def jsonObjectGet (json : Option (Document ν)) (key : String) : Option (Document ν) :=
  json.bind (·.member? key)

def jsonStringValue (json : Option (Document ν)) : Option String :=
  json.bind Document.string?

def jsonIsNull : Option (Document ν) → Bool
  | some .null => true
  | _ => false

def jsonArray (json : Option (Document ν)) : List (Document ν) :=
  (json.bind Document.array?).getD []

end Jansson

inductive TickFault
  | nullToLog
  | nullToSscanf
  | chainTypeUnparsed
  | exceptionEscaped
deriving DecidableEq

structure Tick where
  request : String
  blocks : BlockLeveldb
  enqueued : List SignedBlock

def requestBody (blockNum timeId : UInt64) : String :=
  "\x7b\"method\":\"fullnode.query\",\"params\":[\"" ++ blockNum.toNat.repr ++ "\",50],\"id\":" ++
    timeId.toNat.repr ++ "\x7d"

/-- The reply up to the loop: the elements of `blocks`, or none of them where the task
returns before. The block size only goes to a variable nothing reads. -/
def decodeReply {ν : Type} (chainType : UInt64) (body : Option (Document ν)) :
    Except TickFault (List (Document ν)) :=
  let error := jsonObjectGet body "error"
  if jsonIsNull error = false then
    match jsonStringValue (jsonObjectGet error "message") with
    | none => .error .nullToLog
    | some _ => .ok []
  else
    let result := jsonObjectGet body "result"
    match jsonStringValue (jsonObjectGet result "chain_type") with
    | none => .error .nullToSscanf
    | some chainTypeStr =>
        match scanLu chainTypeStr with
        | none => .error .chainTypeUnparsed
        | some replied =>
            if replied ≠ chainType then .ok []
            else
              match jsonStringValue (jsonObjectGet result "block_size") with
              | none => .error .nullToSscanf
              | some _ => .ok (jsonArray (jsonObjectGet result "blocks"))

/-- The loop over the blocks, with the outcomes of the writes. The exception of
`lexical_cast` is none of those that are caught. -/
def blockLoop (parsers : Parsers) (startNum : UInt64) :
    List (Document parsers.Number) → List Bool → BlockLeveldb →
      Except TickFault (BlockLeveldb × List SignedBlock)
  | [], _, blocks => .ok (blocks, [])
  | entry :: rest, oks, blocks =>
      match jsonStringValue (some entry) with
      | none => .error .nullToLog
      | some blockStr =>
          match parsers.fromString blockStr with
          | none => blockLoop parsers startNum rest oks blocks
          | some block =>
              match getStartBlockNum startNum blocks with
              | none => .error .exceptionEscaped
              | some (start, blocks) =>
                  if block.blockNum ≠ start then .ok (blocks, [])
                  else if putOutcome oks 0 = false then .ok (storeTotalnum blocks block false, [])
                  else
                    (blockLoop parsers startNum rest oks.tail (storeTotalnum blocks block true)).map
                      fun (blocks, enqueued) => (blocks, block :: enqueued)

/-- The task with the clock, the outcomes of its writes and the bytes of the reply; no
bytes stand for a call that failed. -/
def onTriggeringTask (config : Config) (parsers : Parsers) (timeId : UInt64) (oks : List Bool)
    (reply : Option (List UInt8)) (blocks : BlockLeveldb) : Except TickFault Tick :=
  match getStartBlockNum config.startNum blocks with
  | none => .error .exceptionEscaped
  | some (blockNum, blocks) =>
      match reply with
      | none => .ok { request := requestBody blockNum timeId, blocks := blocks, enqueued := [] }
      | some bytes =>
          match decodeReply config.chainType (parsers.jsonLoadb bytes) with
          | .error fault => .error fault
          | .ok entries =>
              (blockLoop parsers config.startNum entries oks blocks).map fun (blocks, enqueued) =>
                { request := requestBody blockNum timeId, blocks := blocks, enqueued := enqueued }

section Loop

variable {parsers : Parsers} {startNum start : UInt64} {oks : List Bool} {blocks : BlockLeveldb}
  {entries : List (Document parsers.Number)}

def blockOf (parsers : Parsers) (entry : Document parsers.Number) : Option SignedBlock :=
  entry.string?.bind parsers.fromString

def Continues (startNum : UInt64) : UInt64 → List Bool → List SignedBlock → Prop
  | _, _, [] => True
  | start, oks, block :: rest =>
      block.blockNum = start ∧ putOutcome oks 0 = true ∧
        Continues startNum (nextStart startNum block.blockNum) oks.tail rest

/-- An element that is no string comes only after a block that ends the loop. -/
def EntriesReadable (parsers : Parsers) (startNum start : UInt64) (oks : List Bool)
    (entries : List (Document parsers.Number)) : Prop :=
  ∀ (i : ℕ) (entry : Document parsers.Number), entries[i]? = some entry → entry.string? = none →
    ¬ Continues startNum start oks ((entries.take i).filterMap (blockOf parsers))

def FirstAccepted (parsers : Parsers) (start : UInt64) (oks : List Bool)
    (entries : List (Document parsers.Number)) : Prop :=
  ∃ block, (entries.filterMap (blockOf parsers)).head? = some block ∧ block.blockNum = start ∧
    putOutcome oks 0 = true

/-- What one turn of the loop does, with the rest of the loop in it where it goes on. -/
inductive Turn (parsers : Parsers) (startNum : UInt64) (entry : Document parsers.Number)
    (entries : List (Document parsers.Number)) (oks : List Bool) (blocks : BlockLeveldb) :
    Except TickFault (BlockLeveldb × List SignedBlock) → Prop
  | unreadable (htext : entry.string? = none) :
      Turn parsers startNum entry entries oks blocks (.error .nullToLog)
  | malformed {text : String} (htext : entry.string? = some text)
      (hblock : parsers.fromString text = none) :
      Turn parsers startNum entry entries oks blocks
        (blockLoop parsers startNum entries oks blocks)
  | escaped {text : String} {block : SignedBlock} (htext : entry.string? = some text)
      (hblock : parsers.fromString text = some block)
      (hstart : getStartBlockNum startNum blocks = none) :
      Turn parsers startNum entry entries oks blocks (.error .exceptionEscaped)
  | refused {text : String} {block : SignedBlock} {start : UInt64} {loaded : BlockLeveldb}
      (htext : entry.string? = some text) (hblock : parsers.fromString text = some block)
      (hstart : getStartBlockNum startNum blocks = some (start, loaded))
      (hnum : block.blockNum ≠ start) :
      Turn parsers startNum entry entries oks blocks (.ok (loaded, []))
  | unstored {text : String} {block : SignedBlock} {start : UInt64} {loaded : BlockLeveldb}
      (htext : entry.string? = some text) (hblock : parsers.fromString text = some block)
      (hstart : getStartBlockNum startNum blocks = some (start, loaded))
      (hnum : block.blockNum = start) (hok : putOutcome oks 0 = false) :
      Turn parsers startNum entry entries oks blocks (.ok (storeTotalnum loaded block false, []))
  | accepted {text : String} {block : SignedBlock} {start : UInt64} {loaded : BlockLeveldb}
      (htext : entry.string? = some text) (hblock : parsers.fromString text = some block)
      (hstart : getStartBlockNum startNum blocks = some (start, loaded))
      (hnum : block.blockNum = start) (hok : putOutcome oks 0 = true) :
      Turn parsers startNum entry entries oks blocks
        ((blockLoop parsers startNum entries oks.tail (storeTotalnum loaded block true)).map
          fun (blocks, enqueued) => (blocks, block :: enqueued))

theorem turn_blockLoop (entry : Document parsers.Number) :
    Turn parsers startNum entry entries oks blocks
      (blockLoop parsers startNum (entry :: entries) oks blocks) := by
  cases htext : entry.string? with
  | none =>
      simp only [blockLoop, jsonStringValue, Option.bind_some, htext]
      exact .unreadable htext
  | some text =>
      cases hblock : parsers.fromString text with
      | none =>
          simp only [blockLoop, jsonStringValue, Option.bind_some, htext, hblock]
          exact .malformed htext hblock
      | some block =>
          simp only [blockLoop, jsonStringValue, Option.bind_some, htext, hblock]
          split
          · rename_i hstart
            exact .escaped htext hblock hstart
          · rename_i start loaded hstart
            split
            · rename_i hnum
              exact .refused htext hblock hstart hnum
            · rename_i hnum
              rw [not_not] at hnum
              split
              · rename_i hok
                exact .unstored htext hblock hstart hnum hok
              · rename_i hok
                exact .accepted htext hblock hstart hnum (Bool.eq_true_of_not_eq_false hok)

theorem filterMap_take_succ_cons (entry : Document parsers.Number) (i : ℕ) :
    ((entry :: entries).take (i + 1)).filterMap (blockOf parsers) =
      (blockOf parsers entry).toList ++ (entries.take i).filterMap (blockOf parsers) := by
  rw [List.take_succ_cons, List.filterMap_cons]
  cases blockOf parsers entry <;> rfl

theorem entriesReadable_cons_iff {entry : Document parsers.Number} {text : String}
    (htext : entry.string? = some text) :
    EntriesReadable parsers startNum start oks (entry :: entries) ↔
      ∀ (i : ℕ) (other : Document parsers.Number), entries[i]? = some other →
        other.string? = none →
          ¬ Continues startNum start oks
            ((blockOf parsers entry).toList ++ (entries.take i).filterMap (blockOf parsers)) := by
  constructor
  · intro h i other hother hnone
    rw [← filterMap_take_succ_cons]
    exact h (i + 1) other hother hnone
  · intro h i other hother hnone
    cases i with
    | zero =>
        cases hother
        rw [htext] at hnone
        cases hnone
    | succ i =>
        rw [filterMap_take_succ_cons]
        exact h i other hother hnone

/-- How the loop may end: on readable elements, and with the checkpoint moved exactly if
the first block was accepted; or else not at all. -/
def LoopEnds (parsers : Parsers) (startNum start : UInt64) (oks : List Bool)
    (entries : List (Document parsers.Number)) (blocks : BlockLeveldb) :
    Except TickFault (BlockLeveldb × List SignedBlock) → Prop
  | .ok (loaded, enqueued) =>
      EntriesReadable parsers startNum start oks entries ∧
        ((enqueued ≠ [] ∨ loaded.db ≠ blocks.db) ↔ FirstAccepted parsers start oks entries)
  | .error _ => ¬ EntriesReadable parsers startNum start oks entries

theorem loopEnds_stopped {entry : Document parsers.Number} {block : SignedBlock} {text : String}
    (htext : entry.string? = some text) (hblock : parsers.fromString text = some block)
    (hstop : ¬ (block.blockNum = start ∧ putOutcome oks 0 = true)) :
    LoopEnds parsers startNum start oks (entry :: entries) blocks (.ok (blocks, [])) := by
  have hof : blockOf parsers entry = some block := by simp [blockOf, htext, hblock]
  constructor
  · rw [entriesReadable_cons_iff htext]
    rintro i other - - hcontinues
    rw [hof] at hcontinues
    exact hstop ⟨hcontinues.1, hcontinues.2.1⟩
  · apply iff_of_false
    · simp
    · rintro ⟨first, hfirst, haccepted⟩
      rw [List.filterMap_cons_some hof] at hfirst
      cases hfirst
      exact hstop haccepted

theorem loopEnds_accepted {entry : Document parsers.Number} {block : SignedBlock} {text : String}
    {stored : BlockLeveldb} {outcome : Except TickFault (BlockLeveldb × List SignedBlock)}
    (htext : entry.string? = some text) (hblock : parsers.fromString text = some block)
    (hnum : block.blockNum = start) (hok : putOutcome oks 0 = true)
    (hrest : LoopEnds parsers startNum (nextStart startNum start) oks.tail entries stored
      outcome) :
    LoopEnds parsers startNum start oks (entry :: entries) blocks
      (outcome.map fun (blocks, enqueued) => (blocks, block :: enqueued)) := by
  have hof : blockOf parsers entry = some block := by simp [blockOf, htext, hblock]
  have hreadable : EntriesReadable parsers startNum start oks (entry :: entries) ↔
      EntriesReadable parsers startNum (nextStart startNum start) oks.tail entries := by
    rw [entriesReadable_cons_iff htext, hof]
    simp [EntriesReadable, Continues, hnum, hok]
  have haccepted : FirstAccepted parsers start oks (entry :: entries) :=
    ⟨block, by rw [List.filterMap_cons_some hof]; rfl, hnum, hok⟩
  cases outcome with
  | error fault => exact fun h => hrest (hreadable.mp h)
  | ok outcome => exact ⟨hreadable.mpr hrest.1, iff_of_true (.inl (by simp)) haccepted⟩

theorem entriesReadable_nil : EntriesReadable parsers startNum start oks [] := by
  rintro i entry hentry
  cases hentry

theorem not_firstAccepted_nil : ¬ FirstAccepted parsers start oks [] := by
  rintro ⟨block, hblock, -⟩
  cases hblock

theorem loopEnds_malformed {entry : Document parsers.Number} {text : String}
    {outcome : Except TickFault (BlockLeveldb × List SignedBlock)}
    (htext : entry.string? = some text) (hblock : parsers.fromString text = none)
    (hrest : LoopEnds parsers startNum start oks entries blocks outcome) :
    LoopEnds parsers startNum start oks (entry :: entries) blocks outcome := by
  have hof : blockOf parsers entry = none := by simp [blockOf, htext, hblock]
  have hreadable : EntriesReadable parsers startNum start oks (entry :: entries) ↔
      EntriesReadable parsers startNum start oks entries := by
    rw [entriesReadable_cons_iff htext, hof]
    rfl
  have haccepted : FirstAccepted parsers start oks (entry :: entries) ↔
      FirstAccepted parsers start oks entries := by
    rw [FirstAccepted, List.filterMap_cons_none hof, FirstAccepted]
  unfold LoopEnds at hrest ⊢
  simp only [hreadable, haccepted]
  exact hrest

theorem loopEnds_blockLoop (hstart : getStartBlockNum startNum blocks = some (start, blocks)) :
    LoopEnds parsers startNum start oks entries blocks
      (blockLoop parsers startNum entries oks blocks) := by
  induction entries generalizing start oks blocks with
  | nil => exact ⟨entriesReadable_nil, iff_of_false (by simp) not_firstAccepted_nil⟩
  | cons entry entries ih =>
      -- The checkpoint has been loaded, so that asking for the number changes nothing.
      have hturn := @turn_blockLoop parsers startNum oks blocks entries entry
      generalize blockLoop parsers startNum (entry :: entries) oks blocks = outcome at hturn ⊢
      cases hturn with
      | unreadable htext => exact fun hreadable => hreadable 0 entry rfl htext trivial
      | malformed htext hblock => exact loopEnds_malformed htext hblock (ih hstart)
      | escaped htext hblock hnone =>
          rw [hstart] at hnone
          cases hnone
      | refused htext hblock hasked hnum =>
          rw [hstart] at hasked
          cases hasked
          exact loopEnds_stopped htext hblock (fun h => hnum h.1)
      | unstored htext hblock hasked hnum hok =>
          rw [hstart] at hasked
          cases hasked
          exact loopEnds_stopped htext hblock (by simp [hok])
      | accepted htext hblock hasked hnum hok =>
          rw [hstart] at hasked
          cases hasked
          apply loopEnds_accepted htext hblock hnum hok
          rw [← hnum]
          exact ih (getStartBlockNum_storeTotalnum blocks _ startNum)

theorem blockLoop_ends_iff {p : Prop}
    (hstart : getStartBlockNum startNum blocks = some (start, blocks)) :
    (∃ stored enqueued, blockLoop parsers startNum entries oks blocks = .ok (stored, enqueued) ∧
      (enqueued ≠ [] ∨ stored.db ≠ blocks.db → p)) ↔
        EntriesReadable parsers startNum start oks entries ∧
          (FirstAccepted parsers start oks entries → p) := by
  have hends := @loopEnds_blockLoop parsers startNum start oks blocks entries hstart
  cases hloop : blockLoop parsers startNum entries oks blocks with
  | error fault =>
      rw [hloop] at hends
      simp [show ¬ EntriesReadable parsers startNum start oks entries from hends]
  | ok outcome =>
      obtain ⟨stored, enqueued⟩ := outcome
      rw [hloop] at hends
      rw [← hends.2]
      constructor
      · rintro ⟨stored', enqueued', houtcome, hp⟩
        cases houtcome
        exact ⟨hends.1, hp⟩
      · rintro ⟨-, hp⟩
        exact ⟨stored, enqueued, rfl, hp⟩

end Loop

section Reply

variable {ν : Type} {chainType : UInt64} {body : Option (Document ν)}

def chainTypeText (body : Option (Document ν)) : Option String :=
  jsonStringValue (jsonObjectGet (jsonObjectGet body "result") "chain_type")

def blockEntries (body : Option (Document ν)) : List (Document ν) :=
  jsonArray (jsonObjectGet (jsonObjectGet body "result") "blocks")

structure ErrorReply (body : Option (Document ν)) : Prop where
  error : jsonIsNull (jsonObjectGet body "error") = false
  message : (jsonStringValue (jsonObjectGet (jsonObjectGet body "error") "message")).isSome = true

structure OtherChainReply (chainType : UInt64) (body : Option (Document ν)) : Prop where
  error : jsonIsNull (jsonObjectGet body "error") = true
  chainType : ∃ text replied, chainTypeText body = some text ∧ scanLu text = some replied ∧
    replied ≠ chainType

structure ChainReply (chainType : UInt64) (body : Option (Document ν)) (text : String) : Prop where
  error : jsonIsNull (jsonObjectGet body "error") = true
  chainTypeText : chainTypeText body = some text
  scanned : scanLu text = some chainType
  blockSize :
    (jsonStringValue (jsonObjectGet (jsonObjectGet body "result") "block_size")).isSome = true

theorem decodeReply_eq_ok_iff {entries : List (Document ν)} :
    decodeReply chainType body = .ok entries ↔
      (ErrorReply body ∨ OtherChainReply chainType body) ∧ entries = [] ∨
        ∃ text, ChainReply chainType body text ∧ entries = blockEntries body := by
  constructor
  · intro h
    simp only [decodeReply] at h
    split at h
    · rename_i herror
      split at h
      · cases h
      · rename_i message hmessage
        cases h
        exact .inl ⟨.inl ⟨herror, by rw [hmessage]; rfl⟩, rfl⟩
    · rename_i herror
      rw [Bool.not_eq_false] at herror
      split at h
      · cases h
      · rename_i text htext
        split at h
        · cases h
        · rename_i replied hreplied
          split at h
          · rename_i hother
            cases h
            exact .inl ⟨.inr ⟨herror, text, replied, htext, hreplied, hother⟩, rfl⟩
          · rename_i hsame
            split at h
            · cases h
            · rename_i size hsize
              cases h
              rw [not_not] at hsame
              exact .inr ⟨text, ⟨herror, htext, hsame ▸ hreplied, by rw [hsize]; rfl⟩, rfl⟩
  · rintro (⟨⟨herror, hmessage⟩ | ⟨herror, text, replied, htext, hreplied, hother⟩, rfl⟩ |
      ⟨text, ⟨herror, htext, hreplied, hsize⟩, rfl⟩)
    · obtain ⟨message, hmessage⟩ := Option.isSome_iff_exists.mp hmessage
      simp [decodeReply, herror, hmessage]
    · rw [chainTypeText] at htext
      simp [decodeReply, herror, htext, hreplied, hother]
    · obtain ⟨size, hsize⟩ := Option.isSome_iff_exists.mp hsize
      rw [chainTypeText] at htext
      simp [decodeReply, herror, htext, hreplied, hsize, blockEntries]

structure Acceptable (chainType : UInt64) (body : Option (Document ν)) : Prop where
  object : ∃ members, body = some (.object members)
  error : jsonIsNull (jsonObjectGet body "error") = true
  chainType : ∃ text, chainTypeText body = some text ∧ decimalValue text = some chainType.toNat

theorem object_of_jsonIsNull {key : String} (h : jsonIsNull (jsonObjectGet body key) = true) :
    ∃ members, body = some (.object members) := by
  cases body with
  | none => cases h
  | some document =>
      cases document with
      | object members => exact ⟨members, rfl⟩
      | null => cases h
      | boolean value => cases h
      | number value => cases h
      | string value => cases h
      | array items => cases h

end Reply

section Tick

variable {config : Config} {parsers : Parsers} {timeId start : UInt64} {oks : List Bool}
  {reply : Option (List UInt8)} {blocks loaded : BlockLeveldb}

/-- The task is scheduled again without a fault, and takes blocks or moves the checkpoint
only on a reply it may take them from. -/
def Survives (config : Config) (parsers : Parsers) (timeId : UInt64) (oks : List Bool)
    (reply : Option (List UInt8)) (blocks : BlockLeveldb) : Prop :=
  ∃ tick, onTriggeringTask config parsers timeId oks reply blocks = .ok tick ∧
    (tick.enqueued ≠ [] ∨ tick.blocks.db ≠ blocks.db →
      ∃ bytes, reply = some bytes ∧ Acceptable config.chainType (parsers.jsonLoadb bytes))

/-- The replies a tick can cope with, when it asks for the block number `start`. -/
def ReplyReadable (config : Config) (parsers : Parsers) (start : UInt64) (oks : List Bool)
    (body : Option (Document parsers.Number)) : Prop :=
  ErrorReply body ∨ OtherChainReply config.chainType body ∨
    ∃ text, ChainReply config.chainType body text ∧
      EntriesReadable parsers config.startNum start oks (blockEntries body) ∧
      (decimalValue text = some config.chainType.toNat ∨
        ¬ FirstAccepted parsers start oks (blockEntries body))

theorem survives_none
    (hstart : getStartBlockNum config.startNum blocks = some (start, loaded)) :
    Survives config parsers timeId oks none blocks := by
  refine ⟨{ request := requestBody start timeId, blocks := loaded, enqueued := [] }, ?_, ?_⟩
  · simp only [onTriggeringTask, hstart]
  · simp [getStartBlockNum_db hstart]

theorem survives_iff_loop {bytes : List UInt8}
    (hstart : getStartBlockNum config.startNum blocks = some (start, loaded)) :
    Survives config parsers timeId oks (some bytes) blocks ↔
      ∃ entries, decodeReply config.chainType (parsers.jsonLoadb bytes) = .ok entries ∧
        ∃ stored enqueued,
          blockLoop parsers config.startNum entries oks loaded = .ok (stored, enqueued) ∧
            (enqueued ≠ [] ∨ stored.db ≠ loaded.db →
              Acceptable config.chainType (parsers.jsonLoadb bytes)) := by
  rw [getStartBlockNum_db hstart]
  simp only [Survives, onTriggeringTask, hstart]
  cases decodeReply config.chainType (parsers.jsonLoadb bytes) with
  | error fault => simp
  | ok entries =>
      simp only [Except.ok.injEq, exists_eq_left']
      cases blockLoop parsers config.startNum entries oks loaded with
      | error fault => simp [Except.map]
      | ok outcome => simp [Except.map, Prod.ext_iff]

theorem survives_some_iff {bytes : List UInt8}
    (hstart : getStartBlockNum config.startNum blocks = some (start, loaded)) :
    Survives config parsers timeId oks (some bytes) blocks ↔
      ReplyReadable config parsers start oks (parsers.jsonLoadb bytes) := by
  have hstable := getStartBlockNum_stable hstart
  simp only [survives_iff_loop hstart, blockLoop_ends_iff hstable, decodeReply_eq_ok_iff]
  constructor
  · rintro ⟨entries, ⟨herror | hother, rfl⟩ | ⟨text, hreply, rfl⟩, hreadable, hacceptable⟩
    · exact .inl herror
    · exact .inr (.inl hother)
    · refine .inr (.inr ⟨text, hreply, hreadable, ?_⟩)
      rw [or_iff_not_imp_right, not_not]
      intro haccepted
      obtain ⟨other, hother, hvalue⟩ := (hacceptable haccepted).chainType
      rw [hreply.chainTypeText] at hother
      cases hother
      exact hvalue
  · rintro (herror | hother | ⟨text, hreply, hreadable, hvalue⟩)
    · refine ⟨[], .inl ⟨.inl herror, rfl⟩, entriesReadable_nil, fun h => ?_⟩
      exact (not_firstAccepted_nil h).elim
    · refine ⟨[], .inl ⟨.inr hother, rfl⟩, entriesReadable_nil, fun h => ?_⟩
      exact (not_firstAccepted_nil h).elim
    · refine ⟨_, .inr ⟨text, hreply, rfl⟩, hreadable, fun haccepted => ?_⟩
      have hdecimal := hvalue.resolve_right (not_not_intro haccepted)
      exact
        { object := object_of_jsonIsNull hreply.error
          error := hreply.error
          chainType := ⟨text, hreply.chainTypeText, hdecimal⟩ }

/-- Whatever was stored before, a tick survives exactly the replies that are readable. -/
theorem tick_survives_iff (config : Config) (parsers : Parsers) (timeId : UInt64)
    (oks : List Bool) (reply : Option (List UInt8)) (calls : List Call) :
    ∃ b start loaded, callAll calls = some b ∧
      getStartBlockNum config.startNum b = some (start, loaded) ∧
        (Survives config parsers timeId oks reply b ↔
          ∀ bytes, reply = some bytes →
            ReplyReadable config parsers start oks (parsers.jsonLoadb bytes)) := by
  obtain ⟨b, hcalls, hwritten⟩ := written_callAll calls
  obtain ⟨total, loaded, htotal, -⟩ := hwritten.getTotalBlockNum
  have hstart : getStartBlockNum config.startNum b =
      some (if total < config.startNum then config.startNum else total, loaded) := by
    simp only [getStartBlockNum, htotal, Option.map_some]
  refine ⟨b, _, loaded, hcalls, hstart, ?_⟩
  cases reply with
  | none =>
      apply iff_of_true (survives_none hstart)
      rintro bytes ⟨⟩
  | some bytes =>
      rw [survives_some_iff hstart]
      simp only [Option.some.injEq, forall_eq']

/-- The reply of two braces has no error, but the null pointer for it is not `null`. -/
theorem empty_object_not_survived :
    ¬ ∀ (config : Config) (parsers : Parsers) (timeId : UInt64) (oks : List Bool)
      (reply : Option (List UInt8)) (calls : List Call) (b : BlockLeveldb),
      callAll calls = some b → Survives config parsers timeId oks reply b := by
  intro h
  let parsers : Parsers :=
    { Number := ℤ
      jsonLoadb := fun bytes => if bytes = [123, 125] then some (.object []) else none
      fromString := fun _ => none }
  obtain ⟨tick, htick, -⟩ :=
    h sampleConfig parsers 0 [] (some [123, 125]) [] (openAt Store.empty) rfl
  have hfault : onTriggeringTask sampleConfig parsers 0 [] (some [123, 125]) (openAt Store.empty) =
      .error .nullToLog := rfl
  rw [hfault] at htick
  cases htick

end Tick

section Machine

variable {env : Environment} {config : Config} {parsers : Parsers} {timeId : UInt64}
  {oks : List Bool}

def entryOf (parsers : Parsers) (entry : Document parsers.Number) : Entry :=
  match blockOf parsers entry with
  | some block => .block block
  | none => .malformed

theorem entryOf_of_malformed {entry : Document parsers.Number} {text : String}
    (htext : entry.string? = some text) (hblock : parsers.fromString text = none) :
    entryOf parsers entry = .malformed := by
  simp [entryOf, blockOf, htext, hblock]

theorem entryOf_of_block {entry : Document parsers.Number} {text : String} {block : SignedBlock}
    (htext : entry.string? = some text) (hblock : parsers.fromString text = some block) :
    entryOf parsers entry = .block block := by
  simp [entryOf, blockOf, htext, hblock]

/-- What the machine of the server is told of a reply. -/
def replyOf (parsers : Parsers) : Option (List UInt8) → Reply
  | none => .failed
  | some bytes =>
      let body := parsers.jsonLoadb bytes
      if jsonIsNull (jsonObjectGet body "error") = false then .error
      else
        .result (((chainTypeText body).bind scanLu).getD 0)
          ((blockEntries body).map (entryOf parsers))

def afterTick (s : Server) (blocks : BlockLeveldb) (enqueued : List SignedBlock) : Server :=
  { s with
    fetch := .idle
    blocks := blocks
    blockQueue := s.blockQueue.executeAll enqueued
    history :=
      { s.history with
        accepted := s.history.accepted ++ enqueued
        enqueued := s.history.enqueued ++ enqueued
        session := s.history.session ++ enqueued } }

theorem afterTick_nil (s : Server) (blocks : BlockLeveldb) :
    afterTick s blocks [] = { s with fetch := .idle, blocks := blocks } := by
  simp [afterTick, ExecutionQueue.executeAll]

def afterBlock (s : Server) (loaded : BlockLeveldb) (block : SignedBlock) (fetch : Fetch) :
    Server :=
  { afterTick s (storeTotalnum loaded block true) [block] with fetch := fetch }

theorem afterTick_afterBlock (s : Server) (loaded stored : BlockLeveldb) (block : SignedBlock)
    (fetch : Fetch) (enqueued : List SignedBlock) :
    afterTick (afterBlock s loaded block fetch) stored enqueued =
      afterTick s stored (block :: enqueued) := by
  simp [afterTick, afterBlock, ExecutionQueue.executeAll]

theorem run_acceptBlock {s : Server} {start : UInt64} {loaded : BlockLeveldb} {block : SignedBlock}
    {rest : List Entry} (hfetch : s.fetch = .scanning (.block block :: rest))
    (hstart : getStartBlockNum config.startNum s.blocks = some (start, loaded))
    (hnum : block.blockNum = start) :
    Run (Server.Steps env config) s [.scan true, .putBlockExeQueue]
      (afterBlock s loaded block (.scanning rest)) := by
  have hscan : Server.Steps env config s (.scan true)
      { s with
        blocks := storeTotalnum loaded block true
        fetch := .accepted block rest
        history := { s.history with accepted := s.history.accepted ++ [block] } } := by
    simp [Server.Steps, Server.step, Server.scan, hfetch, hstart, hnum]
  refine Run.cons hscan (Run.nil.snoc ?_)
  simp [Server.Steps, Server.step, Server.putBlockExeQueue, afterBlock, afterTick,
    ExecutionQueue.executeAll]

theorem blockLoop_run {s : Server} {entries : List (Document parsers.Number)}
    {stored : BlockLeveldb} {enqueued : List SignedBlock}
    (hfetch : s.fetch = .scanning (entries.map (entryOf parsers)))
    (hloop : blockLoop parsers config.startNum entries oks s.blocks = .ok (stored, enqueued)) :
    ∃ events, Run (Server.Steps env config) s events (afterTick s stored enqueued) := by
  induction entries generalizing s oks enqueued with
  | nil =>
      cases hloop
      refine ⟨[.scan true], Run.nil.snoc ?_⟩
      simp [Server.Steps, Server.step, Server.scan, hfetch, afterTick_nil]
  | cons entry entries ih =>
      have hturn := @turn_blockLoop parsers config.startNum oks s.blocks entries entry
      rw [hloop] at hturn
      rw [List.map_cons] at hfetch
      generalize hended : Except.ok (stored, enqueued) = outcome at hturn
      cases hturn with
      | unreadable htext => cases hended
      | escaped htext hblock hstart => cases hended
      | malformed htext hblock =>
          rw [entryOf_of_malformed htext hblock] at hfetch
          obtain ⟨events, hrun⟩ :=
            @ih oks { s with fetch := .scanning (entries.map (entryOf parsers)) } enqueued
              rfl hended.symm
          refine ⟨.scan true :: events, Run.cons ?_ hrun⟩
          simp [Server.Steps, Server.step, Server.scan, hfetch]
      | refused htext hblock hstart hnum =>
          rw [entryOf_of_block htext hblock] at hfetch
          cases hended
          refine ⟨[.scan true], Run.nil.snoc ?_⟩
          simp [Server.Steps, Server.step, Server.scan, hfetch, hstart, hnum, afterTick_nil]
      | unstored htext hblock hstart hnum hok =>
          rw [entryOf_of_block htext hblock] at hfetch
          cases hended
          refine ⟨[.scan false], Run.nil.snoc ?_⟩
          simp [Server.Steps, Server.step, Server.scan, hfetch, hstart, hnum, afterTick_nil]
      | @accepted text block start loaded htext hblock hstart hnum hok =>
          rw [entryOf_of_block htext hblock] at hfetch
          cases hrest : blockLoop parsers config.startNum entries oks.tail
              (storeTotalnum loaded block true) with
          | error fault => simp [hrest, Except.map] at hended
          | ok outcome =>
              rw [hrest] at hended
              cases hended
              obtain ⟨events, hrun⟩ := @ih oks.tail
                (afterBlock s loaded block (.scanning (entries.map (entryOf parsers)))) _
                rfl hrest
              rw [afterTick_afterBlock] at hrun
              exact ⟨_, (run_acceptBlock hfetch hstart hnum).append hrun⟩

theorem afterReply_replyOf {bytes : List UInt8} {entries : List (Document parsers.Number)}
    (hdecoded : decodeReply config.chainType (parsers.jsonLoadb bytes) = .ok entries) :
    afterReply config (replyOf parsers (some bytes)) = .idle ∧ entries = [] ∨
      afterReply config (replyOf parsers (some bytes)) =
        .scanning (entries.map (entryOf parsers)) := by
  rw [decodeReply_eq_ok_iff] at hdecoded
  rcases hdecoded with
    ⟨⟨herror, -⟩ | ⟨herror, text, replied, htext, hreplied, hother⟩, rfl⟩ | ⟨text, hreply, rfl⟩
  · simp [replyOf, afterReply, herror]
  · simp [replyOf, afterReply, herror, htext, hreplied, hother]
  · simp [replyOf, afterReply, hreply.error, hreply.chainTypeText, hreply.scanned]

/-- A tick that comes to its end is a run of the machine of the server. -/
theorem onTriggeringTask_run {s : Server} {reply : Option (List UInt8)} {tick : Tick}
    (hidle : s.fetch = .idle)
    (htick : onTriggeringTask config parsers timeId oks reply s.blocks = .ok tick) :
    ∃ events, Run (Server.Steps env config) s
      (.request :: .reply (replyOf parsers reply) :: events)
        (afterTick s tick.blocks tick.enqueued) := by
  unfold onTriggeringTask at htick
  split at htick
  · cases htick
  · rename_i start loaded hstart
    have hrequest : Server.Steps env config s .request
        { s with blocks := loaded, fetch := .waiting start } := by
      simp [Server.Steps, Server.step, Server.request, hidle, hstart]
    have hreply : Server.Steps env config { s with blocks := loaded, fetch := .waiting start }
        (.reply (replyOf parsers reply))
        { s with blocks := loaded, fetch := afterReply config (replyOf parsers reply) } := by
      simp [Server.Steps, Server.step, Server.reply]
    suffices h : ∃ events, Run (Server.Steps env config)
        { s with blocks := loaded, fetch := afterReply config (replyOf parsers reply) } events
          (afterTick s tick.blocks tick.enqueued) by
      obtain ⟨events, hrun⟩ := h
      exact ⟨events, Run.cons hrequest (Run.cons hreply hrun)⟩
    cases reply with
    | none =>
        cases htick
        rw [afterTick_nil]
        exact ⟨[], .nil⟩
    | some bytes =>
        simp only at htick
        split at htick
        · cases htick
        · rename_i entries hdecoded
          cases hloop : blockLoop parsers config.startNum entries oks loaded with
          | error fault => simp [hloop, Except.map] at htick
          | ok outcome =>
              rw [hloop] at htick
              cases htick
              rcases afterReply_replyOf hdecoded with ⟨hfetch, rfl⟩ | hfetch
              · cases hloop
                rw [afterTick_nil, hfetch]
                exact ⟨[], .nil⟩
              · rw [hfetch]
                exact @blockLoop_run env config parsers oks
                  { s with blocks := loaded, fetch := .scanning (entries.map (entryOf parsers)) }
                  entries outcome.1 outcome.2 rfl hloop

end Machine

end TorrentServer.FullnodeTick
