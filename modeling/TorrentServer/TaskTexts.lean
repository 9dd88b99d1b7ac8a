import TorrentServer.Library.SqlStatements
import TorrentServer.ReplaceStatements

namespace TorrentServer.TaskTexts

open TorrentServer.Records
open TorrentServer.ChainLibrary
open TorrentServer.ReplaceStatements
open TorrentServer.Library.SqlText
open TorrentServer.Library.SqlLiterals
open TorrentServer.Library.SqlStatements

section Task

/-- `g_mysql_task`. -/
abbrev Texts := Finmap fun _ : String => String

/-- What both functions do with their tuple; an unknown asset gives none. -/
def appendValue (type : String) (value : Option String) (task : Texts) : Texts :=
  match value with
  | none => task
  | some value =>
      match task.lookup type with
      | none => task.insert type value
      | some old => task.insert type (old ++ "," ++ value)

variable (formatF : UInt64 → Numeral) (env : Environment)

def torrentTupleText (now : UInt64) (b : Torrent) : Option String :=
  (assetOf env b.asset).map fun as =>
    torrentValue (String.ofList (formatF now).text) b env as

def torrentPaymentTupleText (now : UInt64) (b : OrderedPayment) : Option String :=
  (assetOf env b.payment.asset).map fun as =>
    torrentPaymentValue (String.ofList (formatF now).text) b env as

def appendTorrentCreate (now : UInt64) (b : Torrent) : Texts → Texts :=
  appendValue torrentType (torrentTupleText formatF env now b)

def appendTorrentPayment (now : UInt64) (b : OrderedPayment) : Texts → Texts :=
  appendValue torrentPaymentType (torrentPaymentTupleText formatF env now b)

/-- A call of one of the two functions, with what `current_timestamp` returns in it. -/
inductive Append
  | torrent (now : UInt64) (b : Torrent)
  | torrentPayment (now : UInt64) (b : OrderedPayment)

def Append.apply (task : Texts) : Append → Texts
  | .torrent now b => appendTorrentCreate formatF env now b task
  | .torrentPayment now b => appendTorrentPayment formatF env now b task

def taskTexts (appends : List Append) : Texts :=
  appends.foldl (Append.apply formatF env) ∅

/-- The text `type + value` the executor sends for the entry of a type. -/
def statementText (task : Texts) (type : String) : Option String :=
  (task.lookup type).map fun value => type ++ value

def torrents (appends : List Append) : List (UInt64 × Torrent) :=
  appends.filterMap fun
    | .torrent now b => some (now, b)
    | .torrentPayment _ _ => none

def payments (appends : List Append) : List (UInt64 × OrderedPayment) :=
  appends.filterMap fun
    | .torrent _ _ => none
    | .torrentPayment now b => some (now, b)

end Task

section Heads

def torrentHead : Fixed :=
  Fixed.append
    (.literal
      "REPLACE INTO `torrent` (`id`, `transaction_id`, `time`,`create_block`,`last_modify`, "
      String.toList_ofList
      ([.word "REPLACE".toList, .word "INTO".toList, .name "torrent".toList, .symbol '('] ++
        columnTokens ["id", "transaction_id", "time", "create_block", "last_modify"])
      (by decide +kernel) (by decide +kernel))
    (.literal
      "`user_id`, `asset`, `percent`,`pay_times`,`finish_times`, `is_create`, `balance`) VALUES "
      String.toList_ofList
      (columnTokens ["user_id", "asset", "percent", "pay_times", "finish_times", "is_create"] ++
        [.name "balance".toList, .symbol ')', .word "VALUES".toList])
      (by decide +kernel) (by decide +kernel))

theorem torrentHead_text : torrentHead.text = torrentType.toList :=
  Fixed.append_text rfl rfl

theorem torrentHead_tokens : torrentHead.tokens = replaceHead "torrent" torrentColumns := rfl

def torrentPaymentHead : Fixed :=
  Fixed.append
    (Fixed.append
      (Fixed.append
        (Fixed.append
          (Fixed.append
            (.literal
              "REPLACE INTO `torrent_payment` (`payment_id`, `torrent_id`, `time`, `create_time`,"
              String.toList_ofList
              ([.word "REPLACE".toList, .word "INTO".toList, .name "torrent_payment".toList,
                  .symbol '('] ++
                columnTokens ["payment_id", "torrent_id", "time", "create_time"])
              (by decide +kernel) (by decide +kernel))
            (.literal
              "`selttement_time`,`refund_time`,  `user_id`, `asset`, `pieces`, `payed_pieces`, "
              String.toList_ofList
              (columnTokens
                ["selttement_time", "refund_time", "user_id", "asset", "pieces", "payed_pieces"])
              (by decide +kernel) (by decide +kernel)))
          (.literal
            "`sizes`,`percent`,`is_selttement`, `is_refund`, `sign_address`,`pay_pieces`,"
            String.toList_ofList
            (columnTokens
              ["sizes", "percent", "is_selttement", "is_refund", "sign_address", "pay_pieces"])
            (by decide +kernel) (by decide +kernel)))
        (.literal
          "`selttement_trx_id`,`refund_trx_id`,`receipt_trx_id`,`increase_trx`,`author_amount`,"
          String.toList_ofList
          (columnTokens
            ["selttement_trx_id", "refund_trx_id", "receipt_trx_id", "increase_trx",
              "author_amount"])
          (by decide +kernel) (by decide +kernel)))
      (.literal "`payment_amount`, `transfer_one_piece_amount`,`author_one_piece_amount`,"
        String.toList_ofList
        (columnTokens ["payment_amount", "transfer_one_piece_amount", "author_one_piece_amount"])
        (by decide +kernel) (by decide +kernel)))
    (.literal "`receiver_author_one_piece_amount`) VALUES " String.toList_ofList
      [.name "receiver_author_one_piece_amount".toList, .symbol ')', .word "VALUES".toList]
      (by decide +kernel) (by decide +kernel))

theorem torrentPaymentHead_text : torrentPaymentHead.text = torrentPaymentType.toList :=
  Fixed.append_text (Fixed.append_text (Fixed.append_text (Fixed.append_text
    (Fixed.append_text rfl rfl) rfl) rfl) rfl) rfl

theorem torrentPaymentHead_tokens :
    torrentPaymentHead.tokens = replaceHead "torrent_payment" torrentPaymentColumns := rfl

theorem torrentType_ne : torrentType ≠ torrentPaymentType := by
  intro h
  have hrun : run {} torrentHead.text = run {} torrentPaymentHead.text := by
    rw [torrentHead_text, torrentPaymentHead_text, h]
  rw [torrentHead.settled, torrentPaymentHead.settled, torrentHead_tokens,
    torrentPaymentHead_tokens] at hrun
  -- The third token of each is the name of the table.
  have htable := congrArg (fun l : Lexer => l.tokens[2]?) hrun
  simp [replaceHead] at htable

end Heads

section Join

/-- The text an entry grows to. -/
def joined (old : Option String) (values : List String) : Option String :=
  values.foldl (fun old value => some (old.elim value fun old => old ++ "," ++ value)) old

theorem joined_some (old : String) (values : List String) :
    ∃ text, joined (some old) values = some text ∧
      text.toList = [','].intercalate ((old :: values).map String.toList) := by
  induction values generalizing old with
  | nil => exact ⟨old, rfl, by simp⟩
  | cons value values ih =>
      obtain ⟨text, htext, hlist⟩ := ih (old ++ "," ++ value)
      refine ⟨text, htext, ?_⟩
      rw [hlist]
      cases values with
      | nil => simp
      | cons next values => simp

theorem joined_none (values : List String) (h : values ≠ []) :
    ∃ text, joined none values = some text ∧
      text.toList = [','].intercalate (values.map String.toList) := by
  obtain ⟨value, values, rfl⟩ := List.exists_cons_of_ne_nil h
  exact joined_some value values

theorem lookup_appendValue (type key : String) (value : Option String) (task : Texts) :
    (appendValue type value task).lookup key =
      joined (task.lookup key) (if type = key then value.toList else []) := by
  unfold appendValue
  cases value with
  | none => by_cases hkey : type = key <;> simp [joined, hkey]
  | some value =>
      by_cases hkey : type = key
      · subst hkey
        cases hold : task.lookup type <;> simp [joined, Finmap.lookup_insert]
      · cases hold : task.lookup type <;>
          simp [joined, Finmap.lookup_insert_of_ne _ (Ne.symm hkey), hkey]

theorem joined_append (old : Option String) (values more : List String) :
    joined old (values ++ more) = joined (joined old values) more :=
  List.foldl_append

variable (formatF : UInt64 → Numeral) (env : Environment)

def tupleTexts (key : String) : Append → List String
  | .torrent now b =>
      if torrentType = key then (torrentTupleText formatF env now b).toList else []
  | .torrentPayment now b =>
      if torrentPaymentType = key then (torrentPaymentTupleText formatF env now b).toList else []

/-- Each entry of the task is the tuples of its type in the order of the calls. -/
theorem lookup_foldl_apply (key : String) (appends : List Append) (task : Texts) :
    (appends.foldl (Append.apply formatF env) task).lookup key =
      joined (task.lookup key) (appends.flatMap (tupleTexts formatF env key)) := by
  induction appends generalizing task with
  | nil => rfl
  | cons append appends ih =>
      rw [List.foldl_cons, ih, List.flatMap_cons, joined_append]
      cases append with
      | torrent now b =>
          rw [Append.apply, appendTorrentCreate, lookup_appendValue]
          rfl
      | torrentPayment now b =>
          rw [Append.apply, appendTorrentPayment, lookup_appendValue]
          rfl

theorem lookup_torrentType (appends : List Append) :
    (taskTexts formatF env appends).lookup torrentType =
      joined none ((torrents appends).filterMap fun call =>
        torrentTupleText formatF env call.1 call.2) := by
  rw [taskTexts, lookup_foldl_apply]
  congr 1
  induction appends with
  | nil => rfl
  | cons append appends ih =>
      rw [List.flatMap_cons, ih]
      cases append with
      | torrent now b =>
          cases htext : torrentTupleText formatF env now b <;>
            simp [tupleTexts, torrents, htext]
      | torrentPayment now b => simp [tupleTexts, torrents, torrentType_ne.symm]

theorem lookup_torrentPaymentType (appends : List Append) :
    (taskTexts formatF env appends).lookup torrentPaymentType =
      joined none ((payments appends).filterMap fun call =>
        torrentPaymentTupleText formatF env call.1 call.2) := by
  rw [taskTexts, lookup_foldl_apply]
  congr 1
  induction appends with
  | nil => rfl
  | cons append appends ih =>
      rw [List.flatMap_cons, ih]
      cases append with
      | torrent now b => simp [tupleTexts, payments, torrentType_ne]
      | torrentPayment now b =>
          cases htext : torrentPaymentTupleText formatF env now b <;>
            simp [tupleTexts, payments, htext]

end Join

end TorrentServer.TaskTexts
