import TorrentServer.HistoryRows
import TorrentServer.Library.SqlStatements

namespace TorrentServer.HistoryQueries

open TorrentServer.Records
open TorrentServer.ReplaceStatements
open TorrentServer.HistoryRows
open TorrentServer.Library.CIntegers
open TorrentServer.Library.SqlText
open TorrentServer.Library.SqlLiterals
open TorrentServer.Library.SqlStatements

section Texts

/-- What `GetQuery` returns for the parameters the two methods ask for. -/
structure Query where
  userId : Option String := none
  torrentId : Option String := none
  offset : Option String := none
  limit : Option String := none

def Query.offsetValue (q : Query) : UInt64 :=
  q.offset.elim 0 fun text => atoiUInt64 (cStr text)

def Query.limitValue (q : Query) : UInt64 :=
  let limit := q.limit.elim 20 fun text => atoiUInt64 (cStr text)
  if limit > 100 then 100 else limit

def createHistorySelect : String :=
  "SELECT `id`, `transaction_id`, `time`, `create_block`, `last_modify`, `user_id`, " ++
    "`asset`,`balance`, `percent`, `pay_times`, `finish_times`, `is_create` from torrent "

def paymentHistorySelect : String :=
  "SELECT `payment_id`, `torrent_id`, `time`, `create_time`, `selttement_time`, " ++
    "`refund_time`, `user_id`,`asset`, `pieces`, `payed_pieces`, `sizes`, `percent`," ++
    "`is_selttement`, `is_refund`, `sign_address`, `pay_pieces`, `author_amount`, " ++
    "`payment_amount`,`transfer_one_piece_amount`,`author_one_piece_amount`," ++
    "`receiver_author_one_piece_amount`,`selttement_trx_id`,`refund_trx_id`," ++
    "`receipt_trx_id`,`increase_trx` from torrent_payment "

def userClause (q : Query) : String :=
  q.userId.elim "" fun userId => sdscatprintf [(" where `user_id` = '", .s userId)] "' "

/-- The clause depends on whether the one for the user has been written. -/
def torrentClause (q : Query) : String :=
  q.torrentId.elim "" fun torrentId =>
    (if q.userId.isSome then " AND " else " where ") ++
      sdscatprintf [(" `torrent_id`  = '", .s torrentId)] "'"

def limitClause (q : Query) : String :=
  if q.offsetValue ≠ 0 then
    sdscatprintf [(" LIMIT ", .lu q.offsetValue), (", ", .lu q.limitValue)] ""
  else sdscatprintf [(" LIMIT ", .lu q.limitValue)] ""

def createHistorySql (q : Query) : String :=
  createHistorySelect ++ userClause q ++ " order by create_block desc" ++ limitClause q

def paymentHistorySql (q : Query) : String :=
  paymentHistorySelect ++ userClause q ++ torrentClause q ++ " order by create_time desc" ++
    limitClause q

end Texts

section Select

/-- A `SELECT` with its keywords in the letters the methods write them in. -/
structure Select where
  columns : List String
  table : String
  conditions : List (String × List Char)
  orderBy : String
  offset : Option Nat
  limit : Nat

def conditionTokens (condition : String × List Char) : List Token :=
  [.name condition.1.toList, .symbol '=', .string condition.2]

def whereTokens : List (String × List Char) → List Token
  | [] => []
  | condition :: conditions =>
      .word "where".toList :: (conditionTokens condition ++
        conditions.flatMap fun condition => .word "AND".toList :: conditionTokens condition)

def selectHead (columns : List String) (table : String) : List Token :=
  .word "SELECT".toList ::
    (commaSeparated (columns.map fun column => [.name column.toList]) ++
      [.word "from".toList, .word table.toList])

def orderTokens (orderBy : String) : List Token :=
  [.word "order".toList, .word "by".toList, .word orderBy.toList, .word "desc".toList,
    .word "LIMIT".toList]

def limitTokens (offset : Option Nat) (limit : Nat) : List Token :=
  (offset.elim [] fun offset => (Numeral.ofInt offset).tokens ++ [.symbol ',']) ++
    (Numeral.ofInt limit).tokens

def Select.tokens (s : Select) : List Token :=
  selectHead s.columns s.table ++
    (whereTokens s.conditions ++ (orderTokens s.orderBy ++ limitTokens s.offset s.limit))

def Query.conditions (q : Query) : List (String × List Char) :=
  (q.userId.map fun userId => ("user_id", userId.toList)).toList ++
    (q.torrentId.map fun torrentId => ("torrent_id", torrentId.toList)).toList

def Query.offset? (q : Query) : Option Nat :=
  if q.offsetValue ≠ 0 then some q.offsetValue.toNat else none

/-- The method has no parameter `torrent_id`. -/
def createSelect (q : Query) : Select where
  columns := torrentSelected
  table := "torrent"
  conditions := Query.conditions { q with torrentId := none }
  orderBy := "create_block"
  offset := q.offset?
  limit := q.limitValue.toNat

def paymentSelect (q : Query) : Select where
  columns := torrentPaymentSelected
  table := "torrent_payment"
  conditions := q.conditions
  orderBy := "create_time"
  offset := q.offset?
  limit := q.limitValue.toNat

end Select

section Separators

def createHead : Fixed :=
  Fixed.append
    (.literal "SELECT `id`, `transaction_id`, `time`, `create_block`, `last_modify`, `user_id`, "
      String.toList_ofList
      (.word "SELECT".toList ::
        columnTokens ["id", "transaction_id", "time", "create_block", "last_modify", "user_id"])
      (by decide +kernel) (by decide +kernel))
    (.literal
      "`asset`,`balance`, `percent`, `pay_times`, `finish_times`, `is_create` from torrent "
      String.toList_ofList
      (columnTokens ["asset", "balance", "percent", "pay_times", "finish_times"] ++
        [.name "is_create".toList, .word "from".toList, .word "torrent".toList])
      (by decide +kernel) (by decide +kernel))

theorem createHead_text : createHead.text = createHistorySelect.toList :=
  Fixed.append_text rfl rfl

theorem createHead_tokens : createHead.tokens = selectHead torrentSelected "torrent" := rfl

def paymentHead : Fixed :=
  Fixed.append
    (Fixed.append
      (Fixed.append
        (Fixed.append
          (Fixed.append
            (.literal
              "SELECT `payment_id`, `torrent_id`, `time`, `create_time`, `selttement_time`, "
              String.toList_ofList
              (.word "SELECT".toList ::
                columnTokens
                  ["payment_id", "torrent_id", "time", "create_time", "selttement_time"])
              (by decide +kernel) (by decide +kernel))
            (.literal
              "`refund_time`, `user_id`,`asset`, `pieces`, `payed_pieces`, `sizes`, `percent`,"
              String.toList_ofList
              (columnTokens
                ["refund_time", "user_id", "asset", "pieces", "payed_pieces", "sizes", "percent"])
              (by decide +kernel) (by decide +kernel)))
          (.literal
            "`is_selttement`, `is_refund`, `sign_address`, `pay_pieces`, `author_amount`, "
            String.toList_ofList
            (columnTokens
              ["is_selttement", "is_refund", "sign_address", "pay_pieces", "author_amount"])
            (by decide +kernel) (by decide +kernel)))
        (.literal "`payment_amount`,`transfer_one_piece_amount`,`author_one_piece_amount`,"
          String.toList_ofList
          (columnTokens ["payment_amount", "transfer_one_piece_amount", "author_one_piece_amount"])
          (by decide +kernel) (by decide +kernel)))
      (.literal "`receiver_author_one_piece_amount`,`selttement_trx_id`,`refund_trx_id`,"
        String.toList_ofList
        (columnTokens ["receiver_author_one_piece_amount", "selttement_trx_id", "refund_trx_id"])
        (by decide +kernel) (by decide +kernel)))
    (.literal "`receipt_trx_id`,`increase_trx` from torrent_payment " String.toList_ofList
      (columnTokens ["receipt_trx_id"] ++
        [.name "increase_trx".toList, .word "from".toList, .word "torrent_payment".toList])
      (by decide +kernel) (by decide +kernel))

theorem paymentHead_text : paymentHead.text = paymentHistorySelect.toList :=
  Fixed.append_text (Fixed.append_text (Fixed.append_text (Fixed.append_text
    (Fixed.append_text rfl rfl) rfl) rfl) rfl) rfl

theorem paymentHead_tokens :
    paymentHead.tokens = selectHead torrentPaymentSelected "torrent_payment" := rfl

def whereUser : Separator :=
  .literal " where `user_id` = " String.toList_ofList
    [.word "where".toList, .name "user_id".toList, .symbol '='] (by decide +kernel)
    (by decide +kernel) rfl

def whereTorrent : Separator :=
  .literal " where  `torrent_id`  = " String.toList_ofList
    [.word "where".toList, .name "torrent_id".toList, .symbol '='] (by decide +kernel)
    (by decide +kernel) rfl

def andTorrent : Separator :=
  .literal "  AND  `torrent_id`  = " String.toList_ofList
    [.word "AND".toList, .name "torrent_id".toList, .symbol '='] (by decide +kernel)
    (by decide +kernel) rfl

def orderByBlock : Separator :=
  .literal " order by create_block desc LIMIT " String.toList_ofList (orderTokens "create_block")
    (by decide +kernel) (by decide +kernel) rfl

def orderByTime : Separator :=
  .literal " order by create_time desc LIMIT " String.toList_ofList (orderTokens "create_time")
    (by decide +kernel) (by decide +kernel) rfl

end Separators

section Templates

variable (q : Query)

def limitLiterals (order : Separator) : List (Separator × Slot) :=
  if q.offsetValue ≠ 0 then
    [(order, slotLu q.offsetValue), (commaBlank, slotLu q.limitValue)]
  else [(order, slotLu q.limitValue)]

def createTemplate : Template where
  head := createHead
  literals :=
    match q.userId with
    | none => limitLiterals q orderByBlock
    | some userId => (whereUser, slotS userId) :: limitLiterals q (blankBefore orderByBlock)
  last := none

def paymentTemplate : Template where
  head := paymentHead
  literals :=
    match q.userId, q.torrentId with
    | none, none => limitLiterals q orderByTime
    | some userId, none => (whereUser, slotS userId) :: limitLiterals q (blankBefore orderByTime)
    | none, some torrentId => (whereTorrent, slotS torrentId) :: limitLiterals q orderByTime
    | some userId, some torrentId =>
        (whereUser, slotS userId) :: (andTorrent, slotS torrentId) :: limitLiterals q orderByTime
  last := none

theorem textOf_limitLiterals {order : Separator} {orderText : List Char}
    (h : order.text = orderText ++ " LIMIT ".toList) :
    textOf (limitLiterals q order) = orderText ++ (limitClause q).toList := by
  unfold limitLiterals limitClause
  split <;>
    simp [textOf, h, sdscatprintf, Conversion.text, toList_formatLu, slotLu, Slot.text, commaBlank]

theorem orderByBlock_text :
    orderByBlock.text = " order by create_block desc".toList ++ " LIMIT ".toList := by
  simp [orderByBlock, Separator.literal, Fixed.literal]

theorem orderByTime_text :
    orderByTime.text = " order by create_time desc".toList ++ " LIMIT ".toList := by
  simp [orderByTime, Separator.literal, Fixed.literal]

theorem blankBefore_text {order : Separator} {orderText : List Char}
    (h : order.text = orderText ++ " LIMIT ".toList) :
    (blankBefore order).text = ' ' :: orderText ++ " LIMIT ".toList := by
  change [' '] ++ order.text = _
  rw [h]
  simp

theorem userClause_text {userId : String} (h : q.userId = some userId) :
    (userClause q).toList = whereUser.text ++ ((slotS userId).text ++ [' ']) := by
  simp [userClause, h, sdscatprintf, Conversion.text, toList_cStr, whereUser, Separator.literal,
    Fixed.literal, slotS, Slot.text]

theorem createTemplate_text : (createTemplate q).text = (createHistorySql q).toList := by
  rw [Template.text, show (createTemplate q).head = createHead from rfl, createHead_text]
  cases huser : q.userId with
  | none =>
      have hlimit := textOf_limitLiterals q orderByBlock_text
      simp only [createTemplate, createHistorySql, userClause, huser, String.toList_append, hlimit,
        lastText, Option.elim_none]
      simp
  | some userId =>
      have hlimit := textOf_limitLiterals q (blankBefore_text orderByBlock_text)
      simp only [createTemplate, createHistorySql, userClause_text q huser, huser,
        String.toList_append, textOf_cons, hlimit, lastText, Option.elim_none]
      simp

theorem paymentTemplate_text : (paymentTemplate q).text = (paymentHistorySql q).toList := by
  rw [Template.text, show (paymentTemplate q).head = paymentHead from rfl, paymentHead_text]
  have hlimit := textOf_limitLiterals q orderByTime_text
  have hblank := textOf_limitLiterals q (blankBefore_text orderByTime_text)
  cases huser : q.userId with
  | none =>
      cases htorrent : q.torrentId with
      | none =>
          simp only [paymentTemplate, paymentHistorySql, userClause, torrentClause, huser,
            htorrent, String.toList_append, hlimit, lastText, Option.elim_none]
          simp
      | some torrentId =>
          have hclause : (torrentClause q).toList =
              whereTorrent.text ++ (slotS torrentId).text := by
            simp [torrentClause, huser, htorrent, sdscatprintf, Conversion.text, toList_cStr,
              whereTorrent, Separator.literal, Fixed.literal, slotS, Slot.text]
          simp only [paymentTemplate, paymentHistorySql, userClause, hclause, huser, htorrent,
            String.toList_append, textOf_cons, hlimit, lastText, Option.elim_none]
          simp
  | some userId =>
      cases htorrent : q.torrentId with
      | none =>
          simp only [paymentTemplate, paymentHistorySql, userClause_text q huser, torrentClause,
            huser, htorrent, String.toList_append, textOf_cons, hblank, lastText,
            Option.elim_none]
          simp
      | some torrentId =>
          have hclause : ' ' :: (torrentClause q).toList =
              andTorrent.text ++ (slotS torrentId).text := by
            simp [torrentClause, huser, htorrent, sdscatprintf, Conversion.text, toList_cStr,
              andTorrent, Separator.literal, Fixed.literal, slotS, Slot.text]
          simp only [paymentTemplate, paymentHistorySql, userClause_text q huser, huser, htorrent,
            String.toList_append, textOf_cons, hlimit, lastText, Option.elim_none,
            List.append_assoc, List.cons_append, List.nil_append, List.append_nil]
          rw [← List.append_assoc andTorrent.text, ← hclause]
          simp

theorem tokens_limitLiterals (order : Separator) :
    meantTokens (limitLiterals q order) =
      order.tokens ++ limitTokens q.offset? q.limitValue.toNat := by
  unfold limitLiterals Query.offset?
  split <;> simp [meantTokens, limitTokens, slotLu, Slot.meant, Value.tokens, commaBlank]

theorem createTemplate_tokens : (createTemplate q).tokens = (createSelect q).tokens := by
  rw [Template.tokens, show (createTemplate q).head = createHead from rfl, createHead_tokens]
  cases huser : q.userId with
  | none =>
      simp only [createTemplate, createSelect, Select.tokens, Query.conditions, huser,
        tokens_limitLiterals, lastTokens, Option.elim_none]
      simp [whereTokens, orderByBlock, Separator.literal, Fixed.literal]
  | some userId =>
      simp only [createTemplate, createSelect, Select.tokens, Query.conditions, huser,
        meantTokens_cons, tokens_limitLiterals, lastTokens, Option.elim_none]
      simp [whereTokens, conditionTokens, orderByBlock, whereUser, blankBefore, blank,
        Fixed.append, Separator.literal, Fixed.literal, slotS, Slot.meant, Value.tokens]

theorem paymentTemplate_tokens : (paymentTemplate q).tokens = (paymentSelect q).tokens := by
  rw [Template.tokens, show (paymentTemplate q).head = paymentHead from rfl, paymentHead_tokens]
  cases huser : q.userId <;> cases htorrent : q.torrentId
  all_goals
    simp only [paymentTemplate, paymentSelect, Select.tokens, Query.conditions, huser, htorrent,
      meantTokens_cons, tokens_limitLiterals, lastTokens, Option.elim_none]
    simp [whereTokens, conditionTokens, orderByTime, whereUser, whereTorrent, andTorrent,
      blankBefore, blank, Fixed.append, Separator.literal, Fixed.literal, slotS, Slot.meant,
      Value.tokens]

end Templates

section Unsteered

/-- A parameter that is absent, or needs no escaping. -/
def CleanParameter (parameter : Option String) : Prop :=
  ∀ text ∈ parameter, Clean text.toList

/-- MySQL reads the statement that is meant, and that asks for at most 100 rows. -/
structure Unsteered (sql : String) (select : Select) : Prop where
  reads : lex sql.toList = some select.tokens
  limit_le : select.limit ≤ 100

/-- Two statements that differ in the value of one string literal. -/
def DifferInLiteral (sql sql' : String) (value value' : List Char) : Prop :=
  ∃ before after, lex sql.toList = some (before ++ .string value :: after) ∧
    lex sql'.toList = some (before ++ .string value' :: after)

variable (q : Query)

theorem limitValue_le : q.limitValue.toNat ≤ 100 := by
  simp only [Query.limitValue]
  split
  · exact le_rfl
  · rename_i h
    exact not_lt.mp h

theorem limitLiterals_exact (order : Separator) :
    ∀ literal ∈ limitLiterals q order, literal.2.Exact := by
  unfold limitLiterals
  split <;> simp [slotLu, Slot.Exact]

theorem lex_createHistorySql_iff :
    lex (createHistorySql q).toList = some (createSelect q).tokens ↔
      CleanParameter q.userId := by
  have hblock := limitLiterals_exact q orderByBlock
  have hblank := limitLiterals_exact q (blankBefore orderByBlock)
  rw [← createTemplate_text, ← createTemplate_tokens, Template.lex_eq_iff, createTemplate,
    CleanParameter]
  cases q.userId with
  | none => simpa using hblock
  | some userId =>
      simp only [List.forall_mem_cons, Option.mem_def, Option.some.injEq, forall_eq']
      exact and_iff_left hblank

theorem lex_paymentHistorySql_iff :
    lex (paymentHistorySql q).toList = some (paymentSelect q).tokens ↔
      CleanParameter q.userId ∧ CleanParameter q.torrentId := by
  have htime := limitLiterals_exact q orderByTime
  have hblank := limitLiterals_exact q (blankBefore orderByTime)
  rw [← paymentTemplate_text, ← paymentTemplate_tokens, Template.lex_eq_iff, paymentTemplate,
    CleanParameter, CleanParameter]
  cases q.userId with
  | none =>
      cases q.torrentId with
      | none => simpa using htime
      | some torrentId =>
          simp only [List.forall_mem_cons, Option.mem_def, Option.some.injEq, forall_eq',
            reduceCtorEq, false_implies, implies_true, true_and]
          exact and_iff_left htime
  | some userId =>
      cases q.torrentId with
      | none =>
          simp only [List.forall_mem_cons, Option.mem_def, Option.some.injEq, forall_eq',
            reduceCtorEq, false_implies, implies_true, and_true]
          exact and_iff_left hblank
      | some torrentId =>
          simp only [List.forall_mem_cons, Option.mem_def, Option.some.injEq, forall_eq']
          exact and_congr_right fun _ => and_iff_left htime

theorem whereTokens_eq (a b : List (String × List Char)) (column : String) :
    ∃ before after, ∀ value,
      whereTokens (a ++ (column, value) :: b) = before ++ .string value :: after := by
  cases a with
  | nil =>
      refine ⟨[.word "where".toList, .name column.toList, .symbol '='],
        b.flatMap fun condition => .word "AND".toList :: conditionTokens condition, ?_⟩
      intro value
      simp [whereTokens, conditionTokens]
  | cons first a =>
      refine ⟨whereTokens (first :: a) ++
          [.word "AND".toList, .name column.toList, .symbol '='],
        b.flatMap fun condition => .word "AND".toList :: conditionTokens condition, ?_⟩
      intro value
      simp [whereTokens, conditionTokens]

/-- The tokens around the value of a condition do not depend on it. -/
theorem select_tokens_eq (s : Select) (a b : List (String × List Char)) (column : String) :
    ∃ before after, ∀ value,
      Select.tokens { s with conditions := a ++ (column, value) :: b } =
        before ++ .string value :: after := by
  obtain ⟨before, after, h⟩ := whereTokens_eq a b column
  refine ⟨selectHead s.columns s.table ++ before,
    after ++ (orderTokens s.orderBy ++ limitTokens s.offset s.limit), ?_⟩
  intro value
  simp [Select.tokens, h value]

theorem createHistorySql_differ {userId userId' : String} (h : Clean userId.toList)
    (h' : Clean userId'.toList) :
    DifferInLiteral (createHistorySql { q with userId := some userId })
      (createHistorySql { q with userId := some userId' }) userId.toList userId'.toList := by
  obtain ⟨before, after, htokens⟩ := select_tokens_eq (createSelect q) [] [] "user_id"
  have hread : ∀ text : String, Clean text.toList →
      lex (createHistorySql { q with userId := some text }).toList =
        some (before ++ .string text.toList :: after) := by
    intro text htext
    rw [(lex_createHistorySql_iff { q with userId := some text }).mpr (by simpa [CleanParameter]),
      ← htokens]
    rfl
  exact ⟨before, after, hread userId h, hread userId' h'⟩

theorem paymentHistorySql_differ_user {userId userId' : String}
    (htorrent : CleanParameter q.torrentId) (h : Clean userId.toList)
    (h' : Clean userId'.toList) :
    DifferInLiteral (paymentHistorySql { q with userId := some userId })
      (paymentHistorySql { q with userId := some userId' }) userId.toList userId'.toList := by
  obtain ⟨before, after, htokens⟩ := select_tokens_eq (paymentSelect q) []
    (q.torrentId.map fun torrentId => ("torrent_id", torrentId.toList)).toList "user_id"
  have hread : ∀ text : String, Clean text.toList →
      lex (paymentHistorySql { q with userId := some text }).toList =
        some (before ++ .string text.toList :: after) := by
    intro text htext
    rw [(lex_paymentHistorySql_iff { q with userId := some text }).mpr
      ⟨by simpa [CleanParameter], htorrent⟩, ← htokens]
    rfl
  exact ⟨before, after, hread userId h, hread userId' h'⟩

theorem paymentHistorySql_differ_torrent {torrentId torrentId' : String}
    (huser : CleanParameter q.userId) (h : Clean torrentId.toList)
    (h' : Clean torrentId'.toList) :
    DifferInLiteral (paymentHistorySql { q with torrentId := some torrentId })
      (paymentHistorySql { q with torrentId := some torrentId' }) torrentId.toList
      torrentId'.toList := by
  obtain ⟨before, after, htokens⟩ := select_tokens_eq (paymentSelect q)
    (q.userId.map fun userId => ("user_id", userId.toList)).toList [] "torrent_id"
  have hread : ∀ text : String, Clean text.toList →
      lex (paymentHistorySql { q with torrentId := some text }).toList =
        some (before ++ .string text.toList :: after) := by
    intro text htext
    rw [(lex_paymentHistorySql_iff { q with torrentId := some text }).mpr
      ⟨huser, by simpa [CleanParameter]⟩, ← htokens]
    rfl
  exact ⟨before, after, hread torrentId h, hread torrentId' h'⟩

/-- The parameters steer no statement exactly when no text in them needs escaping; then
two requests that differ in the contents of one differ in one literal. -/
theorem history_queries_unsteered_iff :
    (Unsteered (createHistorySql q) (createSelect q) ↔ CleanParameter q.userId) ∧
    (Unsteered (paymentHistorySql q) (paymentSelect q) ↔
      CleanParameter q.userId ∧ CleanParameter q.torrentId) ∧
    (∀ userId userId' : String, Clean userId.toList → Clean userId'.toList →
      DifferInLiteral (createHistorySql { q with userId := some userId })
          (createHistorySql { q with userId := some userId' }) userId.toList userId'.toList ∧
        (CleanParameter q.torrentId →
          DifferInLiteral (paymentHistorySql { q with userId := some userId })
            (paymentHistorySql { q with userId := some userId' }) userId.toList
            userId'.toList)) ∧
    ∀ torrentId torrentId' : String, Clean torrentId.toList → Clean torrentId'.toList →
      CleanParameter q.userId →
        DifferInLiteral (paymentHistorySql { q with torrentId := some torrentId })
          (paymentHistorySql { q with torrentId := some torrentId' }) torrentId.toList
          torrentId'.toList := by
  refine ⟨?_, ?_, ?_, ?_⟩
  · rw [← lex_createHistorySql_iff]
    exact ⟨fun h => h.reads, fun h => ⟨h, limitValue_le q⟩⟩
  · rw [← lex_paymentHistorySql_iff]
    exact ⟨fun h => h.reads, fun h => ⟨h, limitValue_le q⟩⟩
  · intro userId userId' h h'
    exact ⟨createHistorySql_differ q h h',
      fun htorrent => paymentHistorySql_differ_user q htorrent h h'⟩
  · intro torrentId torrentId' h h' huser
    exact paymentHistorySql_differ_torrent q huser h h'

theorem percent_signs_are_unsteered :
    Unsteered (createHistorySql { userId := some "100\\%", limit := some "-1" })
      (createSelect { userId := some "100\\%", limit := some "-1" }) := by
  refine (history_queries_unsteered_iff _).1.mpr ?_
  intro text htext
  cases htext
  decide

theorem quote_in_user_id_steers :
    ¬ ∀ q : Query, Unsteered (createHistorySql q) (createSelect q) := by
  intro h
  have hreads := (h { userId := some "' or '1'='1" }).reads
  rw [lex_createHistorySql_iff] at hreads
  exact absurd (hreads "' or '1'='1" rfl) (by decide)

end Unsteered

end TorrentServer.HistoryQueries
