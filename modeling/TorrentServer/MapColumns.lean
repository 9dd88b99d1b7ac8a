import Mathlib.Algebra.Order.BigOperators.Group.List
import TorrentServer.HistoryRows
import TorrentServer.Library.JsonReader

namespace TorrentServer.MapColumns

open TorrentServer.Records
open TorrentServer.ReplaceStatements
open TorrentServer.HistoryRows
open TorrentServer.Library.CIntegers
open TorrentServer.Library.MapEntries
open TorrentServer.Library
open TorrentServer.Library.JsonText

/-- `fc::json::from_string` and the two conversions `as` is used for. They throw where
they return `none`. -/
structure FcVariants where
  fromString : String → Option Json
  asPayPieces : Json → Option (Entries String UInt32)
  asIncreaseTrx : Json → Option (Entries String ShareType)

/-- What the server relies on: a variant becomes a `uint32_t` by truncation and a
`share_type` by value. -/
structure FcVariants.Lawful (fc : FcVariants) : Prop where
  rows : ReadsRows fc.fromString
  strings : ReadsStrings fc.fromString
  payPieces : ReadsMaps fc.asPayPieces (fun _ => True) UInt32.ofInt
  increaseTrx : ReadsMaps fc.asIncreaseTrx (0 ≤ ·) (BitVec.ofInt 128)

def FcVariants.readers (fc : FcVariants) (readers : Readers) : Readers :=
  { readers with
    payPieces := fun text => (fc.fromString text).bind fc.asPayPieces
    increaseTrx := fun text => (fc.fromString text).bind fc.asIncreaseTrx }

section Texts

/-- The text of a map whose values are written as integers. -/
def mapIntText (entries : List (String × Int)) : String :=
  mapText (entries.map fun entry => (entry.1, intText entry.2))

theorem toList_mapIntText (entries : List (String × Int)) :
    (mapIntText entries).toList = rowsText (entries.map pairRow) := by
  have hentry : ∀ entry : String × Int,
      entryChars (entry.1, intText entry.2) = rowText (pairRow entry) := by
    intro entry
    simp [entryChars, rowText, pairRow, Scalar.text, commaJoined]
  cases entries with
  | nil => simp [mapIntText, mapText, rowsText, commaJoined]
  | cons entry entries =>
      rw [mapIntText, List.map_cons, mapText_cons, hentry]
      simp [rowsText, commaJoined, List.flatMap_map, hentry]

theorem count_flatMap_eq (c : Char) (items : List (List Char)) (hc : c ≠ ',') :
    (items.flatMap fun item => ',' :: item).count c = (items.map (·.count c)).sum := by
  induction items with
  | nil => rfl
  | cons item items ih =>
      rw [List.flatMap_cons, List.count_append, List.count_cons_of_ne hc.symm, ih,
        List.map_cons, List.sum_cons]

theorem count_commaJoined (c : Char) (items : List (List Char)) (hc : c ≠ ',') :
    (commaJoined items).count c = (items.map (·.count c)).sum := by
  cases items with
  | nil => rfl
  | cons item items =>
      rw [commaJoined, List.count_append, count_flatMap_eq c items hc, List.map_cons, List.sum_cons]

/-- A character that neither the brackets nor an integer have stands in the keys only. -/
theorem count_mapIntText {c : Char} (hc : c ∉ ['[', ']', ',', '"', '-'])
    (hdigit : c.isDigit = false) (entries : List (String × Int)) :
    (mapIntText entries).toList.count c =
      ((entries.map fun entry => entry.1.toList).map (·.count c)).sum := by
  have hskip : ∀ d ∈ ['[', ']', ',', '"', '-'], ∀ text : List Char,
      (d :: text).count c = text.count c := by
    intro d hd text
    apply List.count_cons_of_ne
    rintro rfl
    exact hc hd
  have hinteger : ∀ n : Int, (intText n).toList.count c = 0 := by
    intro n
    apply List.count_eq_zero_of_not_mem
    intro hmem
    rcases isDigit_or_eq_of_mem_intText hmem with h | rfl
    · rw [hdigit] at h
      cases h
    · exact hc (by decide)
  have hrow : ∀ entry : String × Int, (rowText (pairRow entry)).count c =
      entry.1.toList.count c := by
    intro entry
    simp [rowText, pairRow, commaJoined, Scalar.text, hskip, hinteger]
  rw [toList_mapIntText, rowsText, hskip _ (by decide), List.count_append,
    count_commaJoined c _ fun h => hc (by simp [h]), hskip _ (by decide), List.count_nil]
  simp [Function.comp_def, hrow]

end Texts

section Column

theorem escapes_eq_zero_of_sum_le {keys : List (List Char)}
    (h : (keys.map escapes).sum ≤ (keys.map (·.count '\\')).sum) :
    ∀ key ∈ keys, escapes key = 0 := by
  have hle : ∀ keys : List (List Char),
      (keys.map (·.count '\\')).sum ≤ (keys.map escapes).sum := by
    intro keys
    apply List.sum_le_sum
    intro key _
    unfold escapes
    omega
  induction keys with
  | nil => simp
  | cons key keys ih =>
      have hrest := hle keys
      simp only [List.map_cons, List.sum_cons] at h
      rw [List.forall_mem_cons]
      refine ⟨?_, ih ?_⟩
      · unfold escapes at h hrest ⊢
        omega
      · unfold escapes at h hrest ⊢
        omega

variable {β : Type*} {fromString : String → Option Json} {asMap : Json → Option (Entries String β)}
  {accepts : Int → Prop} {convert : Int → β}

theorem keys_plain_of_roundTrip (hstrings : ReadsStrings fromString)
    (hmaps : ReadsMaps asMap accepts convert) (entries : Entries String Int) {j : Json}
    {m : Entries String β} (hread : fromString (cStr (mapIntText entries.toList)) = some j)
    (hmap : asMap j = some m) (hequal : m.toFinmap = (entries.map convert).toFinmap) :
    ∀ entry ∈ entries.toList, Plain entry.1.toList := by
  have hkeys : ∀ key ∈ entries.toList.map Prod.fst,
      key.toList ∈ j.strings ∨ Plain key.toList := by
    intro key hkey
    apply hmaps.keys j m hmap
    rw [← Entries.lookup_isSome_iff] at hkey ⊢
    rw [← Entries.lookup_toFinmap, hequal, Entries.lookup_toFinmap, Entries.map, lookup_map]
    simpa using hkey
  have hnodup : (entries.toList.map fun entry => entry.1.toList).Nodup := by
    have hinjective : Function.Injective String.toList := fun _ _ => String.toList_injective
    simpa [List.map_map, Function.comp_def] using entries.nodup.map hinjective
  -- The keys as read take more backslashes than the text has, unless they take none.
  have hsum : ((entries.toList.map fun entry => entry.1.toList).map escapes).sum ≤
      ((entries.toList.map fun entry => entry.1.toList).map (·.count '\\')).sum := by
    calc
      _ ≤ (j.strings.map escapes).sum := by
        apply sum_le_of_nodup escapes hnodup
        intro key hkey
        obtain ⟨entry, hentry, rfl⟩ := List.mem_map.mp hkey
        exact (hkeys entry.1 (List.mem_map_of_mem hentry)).imp_right escapes_eq_zero_of_plain
      _ ≤ (cStr (mapIntText entries.toList)).toList.count '\\' := hstrings.sum_escapes_le hread
      _ ≤ (mapIntText entries.toList).toList.count '\\' := by
        rw [cStr, String.toList_ofList]
        exact (List.takeWhile_sublist _).count_le _
      _ = _ := count_mapIntText (by decide) (by decide) entries.toList
  have hescapes := escapes_eq_zero_of_sum_le hsum
  intro entry hentry
  rcases hkeys entry.1 (List.mem_map_of_mem hentry) with hmem | hplain
  · exact plain_of_escapes_eq_zero (hescapes _ (List.mem_map_of_mem hentry))
      (hstrings.zero_notMem hread (zero_notMem_cStr _) _ hmem)
  · exact hplain

theorem zero_notMem_mapIntText {entries : List (String × Int)}
    (h : ∀ entry ∈ entries, Plain entry.1.toList) : '\x00' ∉ (mapIntText entries).toList := by
  rw [← List.count_eq_zero, count_mapIntText (by decide) (by decide)]
  apply List.sum_eq_zero
  rw [List.map_map, List.forall_mem_map]
  intro entry hentry
  apply List.count_eq_zero_of_not_mem
  intro hmem
  exact h entry hentry _ hmem (by decide)

/-- A map comes back from its text exactly when every key is plain and every value fits
64 bits. -/
theorem roundTrip_iff (hrows : ReadsRows fromString) (hstrings : ReadsStrings fromString)
    (hmaps : ReadsMaps asMap accepts convert) (entries : Entries String Int)
    (haccepts : ∀ entry ∈ entries.toList, accepts entry.2) :
    (∃ m, (fromString (cStr (mapIntText entries.toList))).bind asMap = some m ∧
        m.toFinmap = (entries.map convert).toFinmap) ↔
      ∀ entry ∈ entries.toList, Plain entry.1.toList ∧ Fits entry.2 := by
  -- With plain keys the text is one the reader is known to read.
  have hread : (∀ entry ∈ entries.toList, Plain entry.1.toList) →
      fromString (cStr (mapIntText entries.toList)) =
        if ∀ entry ∈ entries.toList, Fits entry.2 then
          some (rowsJson (entries.toList.map pairRow)) else none := by
    intro hplain
    have htext : cStr (mapIntText entries.toList) =
        String.ofList (rowsText (entries.toList.map pairRow)) := by
      rw [cStr_eq_self (zero_notMem_mapIntText hplain), ← toList_mapIntText,
        String.ofList_toList]
    have hfits : (∀ row ∈ entries.toList.map pairRow, ∀ s ∈ row, s.Fits) ↔
        ∀ entry ∈ entries.toList, Fits entry.2 := by
      rw [List.forall_mem_map]
      apply forall₂_congr
      intro entry _
      simp only [pairRow, List.forall_mem_cons]
      simp [Scalar.Fits]
    have hscalars : ∀ row ∈ entries.toList.map pairRow, ∀ s ∈ row, s.Plain := by
      rw [List.forall_mem_map]
      intro entry hentry
      simp only [pairRow, List.forall_mem_cons]
      simpa [Scalar.Plain] using hplain entry hentry
    rw [htext, hrows _ hscalars]
    simp only [hfits]
  constructor
  · rintro ⟨m, hbind, hequal⟩
    obtain ⟨j, hj, hmap⟩ := Option.bind_eq_some_iff.mp hbind
    have hplain := keys_plain_of_roundTrip hstrings hmaps entries hj hmap hequal
    rw [hread hplain] at hj
    split at hj
    · rename_i hfits
      exact fun entry hentry => ⟨hplain entry hentry, hfits entry hentry⟩
    · cases hj
  · intro h
    obtain ⟨m, hmap, hequal⟩ := hmaps.pairs entries haccepts
    refine ⟨m, ?_, hequal⟩
    rw [hread fun entry hentry => (h entry hentry).1,
      if_pos fun entry hentry => (h entry hentry).2]
    exact hmap

end Column

section Payment

theorem toFinmap_map_inj {κ β γ : Type*} [DecidableEq κ] {f : β → γ} (hf : Function.Injective f)
    (m n : Entries κ β) :
    (m.map f).toFinmap = (n.map f).toFinmap ↔ m.toFinmap = n.toFinmap := by
  have hlookup : ∀ (entries : Entries κ β) (key : κ),
      (entries.map f).toFinmap.lookup key = (entries.toFinmap.lookup key).map f := by
    intro entries key
    rw [Entries.lookup_toFinmap, Entries.lookup_toFinmap, Entries.map, lookup_map]
  constructor
  · intro h
    apply Finmap.ext_lookup
    intro key
    apply Option.map_injective hf
    rw [← hlookup, ← hlookup, h]
  · intro h
    apply Finmap.ext_lookup
    intro key
    rw [hlookup, hlookup, h]

theorem toFinmap_map_map {κ β γ : Type*} [DecidableEq κ] {f : β → γ} {g : γ → β}
    (h : ∀ x, g (f x) = x) (entries : Entries κ β) :
    ((entries.map f).map g).toFinmap = entries.toFinmap := by
  have hentries : (entries.map f).map g = entries := by
    obtain ⟨entries, hnodup⟩ := entries
    simp [Entries.map, Function.comp_def, h]
  rw [hentries]

theorem shareType_text_injective : Function.Injective ShareType.text := by
  intro a b h
  rw [← ShareType.ofText_text a, h, ShareType.ofText_text]

/-- The integers `itos` writes. -/
def pieceIntegers (b : OrderedPayment) : Entries String Int :=
  b.payPieces.map fun x => x.toInt32.toInt

def amountIntegers (amounts : Entries String ShareType) : Entries String Int :=
  amounts.map fun amount => (amount.toNat : Int)

theorem payPiecesText_eq (b : OrderedPayment) :
    b.payPiecesText = mapIntText (pieceIntegers b).toList := by
  simp [OrderedPayment.payPiecesText, mapIntText, pieceIntegers, Entries.map, itos, formatD,
    Function.comp_def]

theorem increaseTrxText_eq {b : OrderedPayment} {amounts : Entries String ShareType}
    (h : b.increaseTrx = amounts.map ShareType.text) :
    b.increaseTrxText = mapIntText (amountIntegers amounts).toList := by
  rw [OrderedPayment.increaseTrxText, h]
  simp [mapIntText, amountIntegers, Entries.map, ShareType.text, intText, Function.comp_def]

theorem ofInt_toInt (x : UInt32) : UInt32.ofInt x.toInt32.toInt = x := by
  have hlt := x.toNat_lt
  apply UInt32.toNat_inj.mp
  rw [UInt32.ofInt, UInt32.toNat_ofNat', toInt_toInt32]
  split <;> omega

theorem fits_toInt (x : UInt32) : Fits x.toInt32.toInt := by
  have hlow := x.toInt32.le_toInt
  have hhigh := x.toInt32.toInt_lt
  unfold Fits
  omega

theorem payPieces_roundTrip_iff {fc : FcVariants} (hfc : fc.Lawful) (b : OrderedPayment) :
    (∃ m, (fc.fromString (cStr b.payPiecesText)).bind fc.asPayPieces = some m ∧
        m.toFinmap = b.payment.payPieces) ↔
      ∀ entry ∈ b.payPieces.toList, Plain entry.1.toList := by
  have hcolumn := roundTrip_iff hfc.rows hfc.strings hfc.payPieces (pieceIntegers b)
    fun _ _ => trivial
  rw [pieceIntegers, toFinmap_map_map ofInt_toInt, ← pieceIntegers, ← payPiecesText_eq,
    b.payPieces_eq] at hcolumn
  rw [hcolumn, pieceIntegers, Entries.map, List.forall_mem_map]
  exact forall₂_congr fun entry _ => and_iff_left (fits_toInt entry.2)

theorem increaseTrx_roundTrip_iff {fc : FcVariants} (hfc : fc.Lawful) {b : OrderedPayment}
    {amounts : Entries String ShareType} (h : b.increaseTrx = amounts.map ShareType.text) :
    (∃ m, (fc.fromString (cStr b.increaseTrxText)).bind fc.asIncreaseTrx = some m ∧
        (m.map ShareType.text).toFinmap = b.payment.increaseTrx) ↔
      ∀ entry ∈ amounts.toList, Plain entry.1.toList ∧ entry.2.toNat < 2 ^ 64 := by
  have haccepts : ∀ entry ∈ (amountIntegers amounts).toList, 0 ≤ entry.2 := by
    rw [amountIntegers, Entries.map, List.forall_mem_map]
    exact fun entry _ => Int.natCast_nonneg _
  have hcolumn := roundTrip_iff hfc.rows hfc.strings hfc.increaseTrx (amountIntegers amounts)
    haccepts
  rw [amountIntegers, toFinmap_map_map (by simp), ← amountIntegers,
    ← increaseTrxText_eq h] at hcolumn
  have hfits : ∀ amount : ShareType, Fits amount.toNat ↔ amount.toNat < 2 ^ 64 := by
    intro amount
    unfold Fits
    omega
  rw [← b.increaseTrx_eq, h]
  simp only [toFinmap_map_inj shareType_text_injective]
  rw [hcolumn, amountIntegers, Entries.map, List.forall_mem_map]
  exact forall₂_congr fun entry _ => and_congr_right fun _ => hfits entry.2

structure MapsReturned (b response : TorrentPayment) : Prop where
  payPieces : response.payPieces = b.payPieces
  increaseTrx : response.increaseTrx = b.increaseTrx

theorem exists_response_iff {readers : Readers} {b : OrderedPayment} {row : Row} :
    (∃ response, decodeTorrentPayment readers row {} = some response ∧
        MapsReturned b.payment response) ↔
      (∃ m, readers.payPieces (row 15) = some m ∧ m.toFinmap = b.payment.payPieces) ∧
        ∃ m, readers.increaseTrx (row 24) = some m ∧
          (m.map ShareType.text).toFinmap = b.payment.increaseTrx := by
  constructor
  · rintro ⟨response, hdecode, hreturned⟩
    unfold decodeTorrentPayment at hdecode
    split at hdecode
    · rename_i payPieces increaseTrx hpay hinc
      cases hdecode
      exact ⟨⟨payPieces, hpay, hreturned.payPieces⟩, increaseTrx, hinc, hreturned.increaseTrx⟩
    · cases hdecode
  · rintro ⟨⟨payPieces, hpay, hpayEq⟩, increaseTrx, hinc, hincEq⟩
    unfold decodeTorrentPayment
    rw [hpay, hinc]
    exact ⟨_, rfl, hpayEq, hincEq⟩

/-- The maps of a payment come back exactly when no key has a quote, a backslash or a
zero character and every amount fits 64 bits; the pieces always do. -/
theorem map_columns_round_trip_iff {fc : FcVariants} (hfc : fc.Lawful) (readers : Readers)
    {b : OrderedPayment} {amounts : Entries String ShareType}
    (hamounts : b.increaseTrx = amounts.map ShareType.text) {row : Row}
    (hpieces : row 15 = cStr b.payPiecesText) (hincrease : row 24 = cStr b.increaseTrxText) :
    (∃ response, decodeTorrentPayment (fc.readers readers) row {} = some response ∧
        MapsReturned b.payment response) ↔
      (∀ entry ∈ b.payPieces.toList, Plain entry.1.toList) ∧
        ∀ entry ∈ amounts.toList, Plain entry.1.toList ∧ entry.2.toNat < 2 ^ 64 := by
  rw [exists_response_iff, hpieces, hincrease]
  exact and_congr (payPieces_roundTrip_iff hfc b) (increaseTrx_roundTrip_iff hfc hamounts)

end Payment

section Sample

def rowReader : FcVariants where
  fromString := JsonReader.fromString
  asPayPieces := JsonReader.asMap (fun _ => true) UInt32.ofInt
  asIncreaseTrx := JsonReader.asMap (fun n => decide (0 ≤ n)) (BitVec.ofInt 128)

theorem rowReader_lawful : rowReader.Lawful where
  rows := JsonReader.readsRows
  strings := JsonReader.readsStrings
  payPieces := by
    change ReadsMaps (JsonReader.asMap (fun _ => true) UInt32.ofInt) _ _
    simpa using JsonReader.readsMaps (fun _ => true) UInt32.ofInt
  increaseTrx := by
    change ReadsMaps (JsonReader.asMap (fun n => decide (0 ≤ n)) (BitVec.ofInt 128)) _ _
    simpa using JsonReader.readsMaps (fun n => decide (0 ≤ n)) (BitVec.ofInt 128)

def samplePieces : Entries String UInt32 where
  toList := [("alice", 4294967295), ("bob", 3)]
  nodup := by decide

def sampleAmounts (amount : ShareType) : Entries String ShareType where
  toList := [("01", amount)]
  nodup := List.nodup_singleton _

def paymentOfAmount (amount : ShareType) : OrderedPayment where
  payment :=
    { payPieces := samplePieces.toFinmap
      increaseTrx := ((sampleAmounts amount).map ShareType.text).toFinmap }
  payPieces := samplePieces
  increaseTrx := (sampleAmounts amount).map ShareType.text
  payPieces_eq := rfl
  increaseTrx_eq := rfl

def mapRow (b : OrderedPayment) : Row
  | 15 => cStr b.payPiecesText
  | 24 => cStr b.increaseTrxText
  | _ => ""

theorem maps_of_small_amount_returned :
    ∃ response,
      decodeTorrentPayment (rowReader.readers plainReaders) (mapRow (paymentOfAmount 1000)) {} =
        some response ∧
      MapsReturned (paymentOfAmount 1000).payment response := by
  refine (map_columns_round_trip_iff rowReader_lawful plainReaders
    (show (paymentOfAmount 1000).increaseTrx = (sampleAmounts 1000).map ShareType.text from rfl)
    rfl rfl).mpr ⟨?_, ?_⟩
  · change ∀ entry ∈ [("alice", _), ("bob", _)], _
    decide
  · change ∀ entry ∈ [("01", 1000)], _
    decide

def largeAmount : ShareType := 18446744073709551616

theorem amount_of_sixty_five_bits_not_returned :
    ¬ ∀ (fc : FcVariants) (readers : Readers) (b : OrderedPayment)
        (amounts : Entries String ShareType) (row : Row), fc.Lawful →
      b.increaseTrx = amounts.map ShareType.text → row 15 = cStr b.payPiecesText →
      row 24 = cStr b.increaseTrxText →
      ∃ response, decodeTorrentPayment (fc.readers readers) row {} = some response ∧
        MapsReturned b.payment response := by
  intro h
  have hresponse := h rowReader plainReaders (paymentOfAmount largeAmount)
    (sampleAmounts largeAmount) (mapRow (paymentOfAmount largeAmount)) rowReader_lawful rfl rfl rfl
  have hincrease := (exists_response_iff.mp hresponse).2
  have hamounts := (increaseTrx_roundTrip_iff rowReader_lawful
    (show (paymentOfAmount largeAmount).increaseTrx =
      (sampleAmounts largeAmount).map ShareType.text from rfl)).mp hincrease
  exact absurd (hamounts ("01", largeAmount) List.mem_cons_self).2 (by decide)

end Sample

end TorrentServer.MapColumns
