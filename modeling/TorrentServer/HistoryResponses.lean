import TorrentServer.HistoryRows

namespace TorrentServer.HistoryResponses

open TorrentServer.Records
open TorrentServer.HistoryRows
open TorrentServer.Library.MapEntries

section Loops

variable (readers : Readers)

/-- The field `result` after the loop; `mutable_result` makes an empty one on its first
call. -/
def createHistoryResult (rows : List Row) : Option Torrent :=
  rows.foldl (fun result row => some (decodeTorrent readers row (result.getD {}))) none

/-- The outer `none` is an exception out of `fc::json`. -/
def paymentHistoryResult (rows : List Row) : Option (Option TorrentPayment) :=
  rows.foldlM
    (fun result row => (decodeTorrentPayment readers row (result.getD {})).map some) none

def payPiecesKeys (row : Row) : List String :=
  ((readers.payPieces (row 15)).map fun entries => entries.toList.map Prod.fst).getD []

def increaseTrxKeys (row : Row) : List String :=
  ((readers.increaseTrx (row 24)).map fun entries => entries.toList.map Prod.fst).getD []

structure KeysWithin (row other : Row) : Prop where
  payPieces : payPiecesKeys readers row ⊆ payPiecesKeys readers other
  increaseTrx : increaseTrxKeys readers row ⊆ increaseTrxKeys readers other

end Loops

variable {readers : Readers} {rows : List Row} {row : Row}

theorem createHistoryResult_snoc (rows : List Row) (last : Row) :
    createHistoryResult readers (rows ++ [last]) = createHistoryResult readers [last] := by
  simp [createHistoryResult, decodeTorrent]

theorem paymentHistoryResult_snoc (rows : List Row) (last : Row) :
    paymentHistoryResult readers (rows ++ [last]) =
      (paymentHistoryResult readers rows).bind fun result =>
        (decodeTorrentPayment readers last (result.getD {})).map some := by
  simp only [paymentHistoryResult, List.foldlM_append, List.foldlM_cons, List.foldlM_nil, bind_pure]
  rfl

/-- What a decoded row makes of the message before it: everything is overwritten but
the maps, which get the entries of the row on top. -/
theorem decodeTorrentPayment_eq_some {result response : TorrentPayment}
    (h : decodeTorrentPayment readers row result = some response) :
    ∃ payPieces increaseTrx, readers.payPieces (row 15) = some payPieces ∧
      readers.increaseTrx (row 24) = some increaseTrx ∧
      response.payPieces = insertAll payPieces.toList result.payPieces ∧
      response.increaseTrx =
        insertAll (increaseTrx.map ShareType.text).toList result.increaseTrx ∧
      ∀ other, decodeTorrentPayment readers row other =
        some { response with
          payPieces := insertAll payPieces.toList other.payPieces
          increaseTrx := insertAll (increaseTrx.map ShareType.text).toList other.increaseTrx } := by
  unfold decodeTorrentPayment at h ⊢
  split at h
  · rename_i payPieces increaseTrx hpayPieces hincreaseTrx
    cases h
    refine ⟨payPieces, increaseTrx, hpayPieces, hincreaseTrx, rfl, rfl, fun other => ?_⟩
    rfl
  · cases h

theorem keys_map (entries : Entries String ShareType) :
    (entries.map ShareType.text).toList.map Prod.fst = entries.toList.map Prod.fst := by
  simp [Entries.map, Function.comp_def]

theorem mem_maps_iff {result : Option TorrentPayment}
    (h : paymentHistoryResult readers rows = some result) (key : String) :
    (key ∈ (result.getD {}).payPieces ↔ ∃ row ∈ rows, key ∈ payPiecesKeys readers row) ∧
      (key ∈ (result.getD {}).increaseTrx ↔ ∃ row ∈ rows, key ∈ increaseTrxKeys readers row) := by
  induction rows using List.reverseRecOn generalizing result with
  | nil =>
      obtain rfl : none = result := by simpa [paymentHistoryResult] using h
      simp [Finmap.notMem_empty]
  | append_singleton rows last ih =>
      rw [paymentHistoryResult_snoc] at h
      obtain ⟨before, hbefore, hlast⟩ := Option.bind_eq_some_iff.mp h
      obtain ⟨response, hresponse, rfl⟩ := Option.map_eq_some_iff.mp hlast
      obtain ⟨payPieces, increaseTrx, hpayPieces, hincreaseTrx, hpieces, hincrease, -⟩ :=
        decodeTorrentPayment_eq_some hresponse
      have hrows : ∀ p : Row → Prop, (∃ row ∈ rows ++ [last], p row) ↔
          p last ∨ ∃ row ∈ rows, p row := by
        intro p
        simp only [List.mem_append, List.mem_singleton]
        constructor
        · rintro ⟨row, hrow | rfl, hp⟩
          · exact .inr ⟨row, hrow, hp⟩
          · exact .inl hp
        · rintro (hp | ⟨row, hrow, hp⟩)
          · exact ⟨last, .inr rfl, hp⟩
          · exact ⟨row, .inl hrow, hp⟩
      obtain ⟨ihpieces, ihincrease⟩ := ih hbefore
      rw [Option.getD_some, hpieces, hincrease, mem_insertAll, mem_insertAll, keys_map, ihpieces,
        ihincrease, hrows, hrows]
      simp [payPiecesKeys, increaseTrxKeys, hpayPieces, hincreaseTrx]

theorem paymentHistoryResult_eq_last_iff {last : Row} {result : Option TorrentPayment}
    (h : paymentHistoryResult readers (rows ++ [last]) = some result) :
    paymentHistoryResult readers [last] = some result ↔
      ∀ row ∈ rows, KeysWithin readers row last := by
  rw [paymentHistoryResult_snoc] at h
  obtain ⟨before, hbefore, hlast⟩ := Option.bind_eq_some_iff.mp h
  obtain ⟨response, hresponse, rfl⟩ := Option.map_eq_some_iff.mp hlast
  obtain ⟨payPieces, increaseTrx, hpayPieces, hincreaseTrx, hpieces, hincrease, hother⟩ :=
    decodeTorrentPayment_eq_some hresponse
  have halone : paymentHistoryResult readers [last] =
      (decodeTorrentPayment readers last {}).map some := by
    simp [paymentHistoryResult]
  have hkeys : payPiecesKeys readers last = payPieces.toList.map Prod.fst ∧
      increaseTrxKeys readers last = increaseTrx.toList.map Prod.fst := by
    simp [payPiecesKeys, increaseTrxKeys, hpayPieces, hincreaseTrx]
  have hmaps : paymentHistoryResult readers [last] = some (some response) ↔
      insertAll payPieces.toList (before.getD {}).payPieces = insertAll payPieces.toList ∅ ∧
        insertAll (increaseTrx.map ShareType.text).toList (before.getD {}).increaseTrx =
          insertAll (increaseTrx.map ShareType.text).toList ∅ := by
    rw [halone, hother, Option.map_some, Option.some.injEq, Option.some.injEq, ← hpieces,
      ← hincrease]
    constructor
    · intro hequal
      rw [← hequal]
      exact ⟨rfl, rfl⟩
    · rintro ⟨hequal, hequal'⟩
      rw [← hequal, ← hequal']
  rw [hmaps, Entries.insertAll_eq_iff, Entries.insertAll_eq_iff, keys_map, ← hkeys.1, ← hkeys.2]
  constructor
  · rintro ⟨hwithin, hwithin'⟩ row hrow
    exact ⟨fun key hkey => hwithin key ((mem_maps_iff hbefore key).1.mpr ⟨row, hrow, hkey⟩),
      fun key hkey => hwithin' key ((mem_maps_iff hbefore key).2.mpr ⟨row, hrow, hkey⟩)⟩
  · intro hwithin
    constructor
    · intro key hkey
      obtain ⟨row, hrow, hkey⟩ := (mem_maps_iff hbefore key).1.mp hkey
      exact (hwithin row hrow).payPieces hkey
    · intro key hkey
      obtain ⟨row, hrow, hkey⟩ := (mem_maps_iff hbefore key).2.mp hkey
      exact (hwithin row hrow).increaseTrx hkey

/-- The result for a torrent is that of the last row alone. The result for a payment is
exactly when the last row has every key that the maps of an earlier row have. -/
theorem history_rows_independent_iff (rows : List Row) (last : Row) :
    createHistoryResult readers (rows ++ [last]) = createHistoryResult readers [last] ∧
      ∀ result, paymentHistoryResult readers (rows ++ [last]) = some result →
        (paymentHistoryResult readers [last] = some result ↔
          ∀ row ∈ rows, KeysWithin readers row last) :=
  ⟨createHistoryResult_snoc rows last, fun _ h => paymentHistoryResult_eq_last_iff h⟩

section Sample

def twoMaps : Readers :=
  { plainReaders with
    payPieces := fun text =>
      if text = "[]" then some { toList := [], nodup := List.nodup_nil }
      else if text = "[[\"alice\",3]]" then
        some { toList := [("alice", 3)], nodup := List.nodup_singleton _ }
      else none }

def rowOfPieces (payPieces : String) : Row := fun i =>
  if i = 15 then payPieces else if i = 24 then "[]" else "0"

theorem same_pieces_independent :
    ∃ result, paymentHistoryResult twoMaps
        [rowOfPieces "[]", rowOfPieces "[[\"alice\",3]]"] = some result ∧
      paymentHistoryResult twoMaps [rowOfPieces "[[\"alice\",3]]"] = some result := by
  refine ⟨_, rfl, ?_⟩
  refine ((history_rows_independent_iff [rowOfPieces "[]"] (rowOfPieces "[[\"alice\",3]]")).2
    _ rfl).mpr ?_
  rw [List.forall_mem_singleton]
  exact ⟨List.nil_subset _, List.nil_subset _⟩

theorem pieces_of_first_row_stay :
    ¬ ∀ (readers : Readers) (rows : List Row) (last : Row) (result : Option TorrentPayment),
      paymentHistoryResult readers (rows ++ [last]) = some result →
        paymentHistoryResult readers [last] = some result := by
  intro h
  have hresult : ∃ result, paymentHistoryResult twoMaps
      ([rowOfPieces "[[\"alice\",3]]"] ++ [rowOfPieces "[]"]) = some result := ⟨_, rfl⟩
  obtain ⟨result, hresult⟩ := hresult
  have hwithin := (paymentHistoryResult_eq_last_iff hresult).mp (h _ _ _ _ hresult)
  have hkeys := (hwithin _ List.mem_cons_self).payPieces
  exact absurd (hkeys (show "alice" ∈ ["alice"] from List.mem_cons_self)) List.not_mem_nil

end Sample

end TorrentServer.HistoryResponses
