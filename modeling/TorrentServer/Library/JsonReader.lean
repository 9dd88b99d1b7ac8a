import TorrentServer.Library.JsonText

namespace TorrentServer.Library.JsonReader

open TorrentServer.Library.CIntegers
open TorrentServer.Library.MapEntries
open TorrentServer.Library.JsonText

section Reader

inductive Place
  | before
  | outer
  | inner (row : List Scalar)
  | after
deriving DecidableEq

inductive Mode
  | neutral
  | string (value : List Char)
  | escape (value : List Char)
  | number (text : List Char)
deriving DecidableEq

structure Reader where
  ok : Bool := true
  rows : List (List Scalar) := []
  place : Place := .before
  mode : Mode := .neutral

def numberValue : List Char → Int
  | '-' :: digits => -(Nat.ofDigitChars 10 digits 0 : Int)
  | digits => (Nat.ofDigitChars 10 digits 0 : Int)

def push (r : Reader) (s : Scalar) : Reader :=
  match r.place with
  | .inner row => { r with place := .inner (row ++ [s]), mode := .neutral }
  | _ => { r with ok := false, mode := .neutral }

def bracket (r : Reader) (c : Char) : Reader :=
  match c, r.place with
  | '[', .before => { r with place := .outer }
  | '[', .outer => { r with place := .inner [] }
  | ']', .inner row => { r with rows := r.rows ++ [row], place := .outer }
  | ']', .outer => { r with place := .after }
  | ',', _ => r
  | _, _ => { r with ok := false }

def start (r : Reader) (c : Char) : Reader :=
  if c = '"' then { r with mode := .string [] }
  else if c = '-' ∨ c.isDigit = true then { r with mode := .number [c] }
  else bracket r c

def step (r : Reader) (c : Char) : Reader :=
  match r.mode with
  | .neutral => start r c
  | .string value =>
      if c = '"' then push r (.string value)
      else if c = '\\' then { r with mode := .escape value }
      else { r with mode := .string (value ++ [c]) }
  | .escape value => { r with mode := .string (value ++ [c]) }
  | .number text =>
      if c.isDigit then { r with mode := .number (text ++ [c]) }
      else start (push r (.integer (numberValue text))) c

def run (r : Reader) (text : List Char) : Reader :=
  text.foldl step r

def finish (r : Reader) : Option Json :=
  if r.ok = true ∧ r.place = .after ∧ r.mode = .neutral ∧ ∀ row ∈ r.rows, ∀ s ∈ row, s.Fits then
    some (rowsJson r.rows)
  else none

def fromString (text : String) : Option Json :=
  finish (run {} text.toList)

end Reader

section Rows

theorem run_cons (r : Reader) (c : Char) (text : List Char) :
    run r (c :: text) = run (step r c) text := rfl

theorem run_append (r : Reader) (a b : List Char) : run r (a ++ b) = run (run r a) b :=
  List.foldl_append

theorem run_string {value : List Char} (h : Plain value) (r : Reader) (before : List Char) :
    run { r with mode := .string before } value =
      { r with mode := .string (before ++ value) } := by
  induction value generalizing before with
  | nil => simp [run]
  | cons c value ih =>
      have hc := h c List.mem_cons_self
      simp only [List.mem_cons, not_or] at hc
      have hrest := ih (fun d hd => h d (List.mem_cons_of_mem _ hd)) (before ++ [c])
      rw [run_cons]
      simpa [step, hc.1, hc.2.1] using hrest

theorem run_number {digits : List Char} (h : ∀ c ∈ digits, c.isDigit = true) (r : Reader)
    (before : List Char) :
    run { r with mode := .number before } digits =
      { r with mode := .number (before ++ digits) } := by
  induction digits generalizing before with
  | nil => simp [run]
  | cons c digits ih =>
      have hrest := ih (fun d hd => h d (List.mem_cons_of_mem _ hd)) (before ++ [c])
      rw [run_cons]
      simpa [step, h c List.mem_cons_self] using hrest

theorem numberValue_intText (n : Int) : numberValue (intText n).toList = n := by
  cases n with
  | ofNat n =>
      obtain ⟨c, rest, hdigits⟩ := List.exists_cons_of_ne_nil (@Nat.toDigits_ne_nil n 10)
      have hc : c.isDigit = true :=
        Nat.isDigit_of_mem_toDigits (by decide) (by decide) (hdigits ▸ List.mem_cons_self)
      have hvalue : Nat.ofDigitChars 10 (Nat.toDigits 10 n) 0 = n := Nat.ofDigitChars_ten_toDigits
      rw [intText, Nat.toList_repr]
      rw [hdigits] at hvalue ⊢
      unfold numberValue
      split
      · rename_i heq
        cases heq
        exact absurd hc (by decide)
      · rw [hvalue]
        rfl
  | negSucc n =>
      have htext : (intText (.negSucc n)).toList = '-' :: Nat.toDigits 10 (n + 1) := by
        simp [intText]
      rw [htext, numberValue, Nat.ofDigitChars_ten_toDigits]
      rfl

/-- The text of an integer is a sign or a digit and digits behind it. -/
theorem intText_eq_cons (n : Int) :
    ∃ c digits, (intText n).toList = c :: digits ∧ (c = '-' ∨ c.isDigit = true) ∧
      ∀ d ∈ digits, d.isDigit = true := by
  cases n with
  | ofNat n =>
      obtain ⟨c, rest, hdigits⟩ := List.exists_cons_of_ne_nil (@Nat.toDigits_ne_nil n 10)
      have hall : ∀ d ∈ c :: rest, d.isDigit = true := by
        rw [← hdigits]
        exact fun d hd => Nat.isDigit_of_mem_toDigits (by decide) (by decide) hd
      exact ⟨c, rest, by rw [intText, Nat.toList_repr, hdigits], .inr (hall c List.mem_cons_self),
        fun d hd => hall d (List.mem_cons_of_mem _ hd)⟩
  | negSucc n =>
      exact ⟨'-', Nat.toDigits 10 (n + 1), by simp [intText], .inl rfl,
        fun d hd => Nat.isDigit_of_mem_toDigits (by decide) (by decide) hd⟩

theorem run_scalar {s : Scalar} (h : s.Plain) {c : Char} (hc : c.isDigit = false)
    (rows : List (List Scalar)) (row : List Scalar) (rest : List Char) :
    run ⟨true, rows, .inner row, .neutral⟩ (s.text ++ c :: rest) =
      run ⟨true, rows, .inner (row ++ [s]), .neutral⟩ (c :: rest) := by
  cases s with
  | string value =>
      have hstart : step ⟨true, rows, .inner row, .neutral⟩ '"' =
          ⟨true, rows, .inner row, .string []⟩ := rfl
      have hvalue := run_string h ⟨true, rows, .inner row, .neutral⟩ []
      rw [Scalar.text, List.cons_append, List.append_assoc, run_cons, hstart, run_append, hvalue]
      rfl
  | integer n =>
      obtain ⟨d, digits, htext, hd, hdigits⟩ := intText_eq_cons n
      have hstart : step ⟨true, rows, .inner row, .neutral⟩ d =
          ⟨true, rows, .inner row, .number [d]⟩ := by
        have hquote : d ≠ '"' := by
          rintro rfl
          exact absurd hd (by decide)
        simp [step, start, hquote, hd]
      have hnumber := run_number hdigits ⟨true, rows, .inner row, .neutral⟩ [d]
      rw [Scalar.text, htext, List.cons_append, run_cons, hstart, run_append, hnumber, run_cons,
        run_cons]
      simp only [step, hc, Bool.false_eq_true, if_false, push, List.cons_append, List.nil_append]
      rw [← htext, numberValue_intText]

/-- What stands behind a scalar in its row. -/
def rowRest (items : List Scalar) (rest : List Char) : List Char :=
  (items.map Scalar.text).flatMap (fun item => ',' :: item) ++ ']' :: rest

theorem run_scalar_rowRest {s : Scalar} (h : s.Plain) (rows : List (List Scalar))
    (row items : List Scalar) (rest : List Char) :
    run ⟨true, rows, .inner row, .neutral⟩ (s.text ++ rowRest items rest) =
      run ⟨true, rows, .inner (row ++ [s]), .neutral⟩ (rowRest items rest) := by
  cases items with
  | nil => exact run_scalar h (by decide) rows row rest
  | cons next items => exact run_scalar h (by decide) rows row _

theorem run_rowRest {items : List Scalar} (h : ∀ s ∈ items, s.Plain)
    (rows : List (List Scalar)) (row : List Scalar) (rest : List Char) :
    run ⟨true, rows, .inner row, .neutral⟩ (rowRest items rest) =
      run ⟨true, rows ++ [row ++ items], .outer, .neutral⟩ rest := by
  induction items generalizing row with
  | nil =>
      rw [List.append_nil]
      rfl
  | cons s items ih =>
      rw [List.forall_mem_cons] at h
      have hcomma : run ⟨true, rows, .inner row, .neutral⟩ (rowRest (s :: items) rest) =
          run ⟨true, rows, .inner row, .neutral⟩ (s.text ++ rowRest items rest) := by
        rw [rowRest, List.map_cons, List.flatMap_cons, List.append_assoc, List.cons_append]
        rfl
      rw [hcomma, run_scalar_rowRest h.1, ih h.2, List.append_assoc, List.singleton_append]

theorem run_row {row : List Scalar} (h : ∀ s ∈ row, s.Plain) (rows : List (List Scalar))
    (rest : List Char) :
    run ⟨true, rows, .outer, .neutral⟩ (rowText row ++ rest) =
      run ⟨true, rows ++ [row], .outer, .neutral⟩ rest := by
  cases row with
  | nil => rfl
  | cons s items =>
      rw [List.forall_mem_cons] at h
      have hopen : run ⟨true, rows, .outer, .neutral⟩ (rowText (s :: items) ++ rest) =
          run ⟨true, rows, .inner [], .neutral⟩ (s.text ++ rowRest items rest) := by
        rw [rowText, rowRest, List.map_cons, commaJoined, List.cons_append, List.append_assoc,
          List.append_assoc]
        rfl
      rw [hopen, run_scalar_rowRest h.1, run_rowRest h.2]
      rfl

theorem run_rows {items : List (List Scalar)} (h : ∀ row ∈ items, ∀ s ∈ row, s.Plain)
    (rows : List (List Scalar)) :
    run ⟨true, rows, .outer, .neutral⟩
        ((items.map rowText).flatMap (fun item => ',' :: item) ++ [']']) =
      ⟨true, rows ++ items, .after, .neutral⟩ := by
  induction items generalizing rows with
  | nil =>
      rw [List.append_nil]
      rfl
  | cons row items ih =>
      rw [List.forall_mem_cons] at h
      rw [List.map_cons, List.flatMap_cons, List.append_assoc, List.cons_append, run_cons]
      change run ⟨true, rows, .outer, .neutral⟩ _ = _
      rw [run_row h.1, ih h.2, List.append_assoc, List.singleton_append]

theorem run_rowsText {rows : List (List Scalar)} (h : ∀ row ∈ rows, ∀ s ∈ row, s.Plain) :
    run {} (rowsText rows) = ⟨true, rows, .after, .neutral⟩ := by
  cases rows with
  | nil => rfl
  | cons row rows =>
      rw [List.forall_mem_cons] at h
      rw [rowsText, List.map_cons, commaJoined, List.append_assoc, run_cons]
      change run ⟨true, [], .outer, .neutral⟩ _ = _
      rw [run_row h.1, run_rows h.2]
      rfl

theorem readsRows : ReadsRows fromString := by
  intro rows hrows
  rw [fromString, String.toList_ofList, run_rowsText hrows, finish]
  simp

end Rows

section Strings

def scalarStrings : Scalar → List (List Char)
  | .string value => [value]
  | .integer _ => []

def placeScalars : Place → List Scalar
  | .inner row => row
  | _ => []

/-- The strings read so far. -/
def strings (r : Reader) : List (List Char) :=
  (r.rows.flatten ++ placeScalars r.place).flatMap scalarStrings

/-- The strings read so far, and the one that is being read, stand in what has been
consumed. -/
def Inv (consumed : List Char) (r : Reader) : Prop :=
  ∃ bodies, List.Forall₂ Body bodies (strings r) ∧
    match r.mode with
    | .string value =>
        ∃ body, Body body value ∧ (bodies.flatten ++ body).Sublist consumed
    | .escape value =>
        ∃ body, Body body value ∧ (bodies.flatten ++ (body ++ ['\\'])).Sublist consumed
    | _ => bodies.flatten.Sublist consumed

theorem strings_bracket (r : Reader) (c : Char) : strings (bracket r c) = strings r := by
  unfold bracket
  split <;> simp_all [strings, placeScalars]

theorem bracket_mode (r : Reader) (c : Char) : (bracket r c).mode = r.mode := by
  unfold bracket
  split <;> rfl

theorem inv_start {consumed : List Char} {r : Reader} (hmode : r.mode = .neutral) (c : Char)
    {bodies : List (List Char)} (hbodies : List.Forall₂ Body bodies (strings r))
    (hsublist : bodies.flatten.Sublist consumed) : Inv (consumed ++ [c]) (start r c) := by
  have hmore : bodies.flatten.Sublist (consumed ++ [c]) :=
    hsublist.trans (List.sublist_append_left _ _)
  unfold start
  split
  · exact ⟨bodies, hbodies, [], .nil, by simpa using hmore⟩
  · split
    · exact ⟨bodies, hbodies, hmore⟩
    · refine ⟨bodies, by rwa [strings_bracket], ?_⟩
      rw [bracket_mode, hmode]
      exact hmore

theorem strings_push (r : Reader) (s : Scalar) :
    strings (push r s) = strings r ++ scalarStrings s ∨ strings (push r s) = strings r := by
  unfold push
  split
  · rename_i row hplace
    left
    simp [strings, hplace, placeScalars]
  · right
    rfl

theorem push_mode (r : Reader) (s : Scalar) : (push r s).mode = .neutral := by
  unfold push
  split <;> rfl

theorem inv_step {consumed : List Char} {r : Reader} (h : Inv consumed r) (c : Char) :
    Inv (consumed ++ [c]) (step r c) := by
  obtain ⟨bodies, hbodies, hmode⟩ := h
  have hlast : ∀ {a : List Char}, a.Sublist consumed → a.Sublist (consumed ++ [c]) :=
    fun hsublist => hsublist.trans (List.sublist_append_left _ _)
  unfold step
  cases hcase : r.mode with
  | neutral =>
      rw [hcase] at hmode
      exact inv_start hcase c hbodies hmode
  | string value =>
      rw [hcase] at hmode
      obtain ⟨body, hbody, hsublist⟩ := hmode
      simp only
      split
      · -- The closing quote makes the body one of the strings, if there is a row for it.
        rcases strings_push r (.string value) with hpush | hpush
        · refine ⟨bodies ++ [body], ?_, ?_⟩
          · rw [hpush]
            exact List.rel_append hbodies (.cons hbody .nil)
          · rw [push_mode]
            simpa using hlast hsublist
        · refine ⟨bodies, by rwa [hpush], ?_⟩
          rw [push_mode]
          exact hlast ((List.sublist_append_left _ _).trans hsublist)
      · split
        · rename_i hbackslash
          subst hbackslash
          refine ⟨bodies, hbodies, body, hbody, ?_⟩
          rw [← List.append_assoc]
          exact hsublist.append_right _
        · rename_i hquote hbackslash
          refine ⟨bodies, hbodies, body ++ [c], hbody.append (.char ⟨hquote, hbackslash⟩ .nil), ?_⟩
          rw [← List.append_assoc]
          exact hsublist.append_right _
  | escape value =>
      rw [hcase] at hmode
      obtain ⟨body, hbody, hsublist⟩ := hmode
      refine ⟨bodies, hbodies, body ++ ['\\', c], hbody.append (.escape (.inl rfl) .nil), ?_⟩
      have happend := hsublist.append_right [c]
      simpa using happend
  | number text =>
      rw [hcase] at hmode
      simp only
      split
      · exact ⟨bodies, hbodies, hlast hmode⟩
      · refine inv_start (push_mode _ _) c ?_ hmode
        rcases strings_push r (.integer (numberValue text)) with hpush | hpush
        · rw [hpush]
          simpa [scalarStrings] using hbodies
        · rwa [hpush]

theorem inv_run {consumed : List Char} {r : Reader} (h : Inv consumed r) (text : List Char) :
    Inv (consumed ++ text) (run r text) := by
  induction text generalizing consumed r with
  | nil => simpa [run] using h
  | cons c text ih =>
      have hrest := ih (inv_step h c)
      rw [run_cons]
      simpa using hrest

theorem itemsStrings_row (row : List Scalar) :
    itemsStrings (row.map Scalar.json) = row.flatMap scalarStrings := by
  induction row with
  | nil => simp [itemsStrings]
  | cons s row ih =>
      cases s <;> simp [itemsStrings, Scalar.json, Json.strings, scalarStrings, ih]

theorem strings_rowsJson (rows : List (List Scalar)) :
    (rowsJson rows).strings = rows.flatten.flatMap scalarStrings := by
  rw [rowsJson, Json.strings]
  induction rows with
  | nil => simp [itemsStrings]
  | cons row rows ih =>
      rw [List.map_cons, itemsStrings, ih, Json.strings, itemsStrings_row, List.flatten_cons,
        List.flatMap_append]

theorem readsStrings : ReadsStrings fromString := by
  intro text j hread
  have hinit : Inv [] {} := ⟨[], .nil, List.Sublist.refl _⟩
  obtain ⟨bodies, hbodies, hmode⟩ := inv_run hinit text.toList
  rw [fromString, finish] at hread
  split at hread
  · rename_i hfinish
    obtain ⟨-, hplace, hneutral, -⟩ := hfinish
    cases hread
    rw [hneutral] at hmode
    refine ⟨bodies, ?_, hmode⟩
    rw [strings_rowsJson]
    simpa [strings, hplace, placeScalars] using hbodies
  · cases hread

end Strings

section Maps

variable {β : Type*}

def pairOf : Json → Option (String × Int)
  | .array [.string key, .integer n] => some (String.ofList key, n)
  | _ => none

def pairsOf : Json → Option (List (String × Int))
  | .array items => items.mapM pairOf
  | _ => none

/-- The map of an array of pairs with different keys. -/
def asMap (accepts : Int → Bool) (convert : Int → β) (j : Json) : Option (Entries String β) :=
  match pairsOf j with
  | none => none
  | some pairs =>
      if h : (pairs.map Prod.fst).Nodup then
        if pairs.all fun pair => accepts pair.2 then
          some (Entries.map convert ⟨pairs, h⟩)
        else none
      else none

theorem pairOf_pairRow (entry : String × Int) :
    pairOf (.array ((pairRow entry).map Scalar.json)) = some entry := by
  simp [pairRow, Scalar.json, pairOf]

theorem pairsOf_rowsJson (entries : List (String × Int)) :
    pairsOf (rowsJson (entries.map pairRow)) = some entries := by
  rw [rowsJson, pairsOf]
  induction entries with
  | nil => rfl
  | cons entry entries ih =>
      rw [List.map_cons, List.map_cons, List.mapM_cons, pairOf_pairRow, ih]
      rfl

theorem mem_strings_of_pairOf {j : Json} {pair : String × Int} (h : pairOf j = some pair) :
    pair.1.toList ∈ j.strings := by
  unfold pairOf at h
  split at h
  · cases h
    simp [Json.strings, itemsStrings]
  · cases h

theorem mem_itemsStrings_of_mapM {items : List Json} {pairs : List (String × Int)}
    (h : items.mapM pairOf = some pairs) :
    ∀ pair ∈ pairs, pair.1.toList ∈ itemsStrings items := by
  induction items generalizing pairs with
  | nil =>
      cases h
      simp
  | cons j items ih =>
      simp only [List.mapM_cons, Option.bind_eq_bind, Option.bind_eq_some_iff, Option.pure_def,
        Option.some.injEq] at h
      obtain ⟨first, hfirst, rest, hrest, rfl⟩ := h
      rw [List.forall_mem_cons, itemsStrings]
      refine ⟨List.mem_append_left _ (mem_strings_of_pairOf hfirst), ?_⟩
      intro pair hpair
      exact List.mem_append_right _ (ih hrest pair hpair)

theorem asMap_eq_some {accepts : Int → Bool} {convert : Int → β} {j : Json}
    {m : Entries String β} (h : asMap accepts convert j = some m) :
    ∃ (pairs : List (String × Int)) (hnodup : (pairs.map Prod.fst).Nodup),
      pairsOf j = some pairs ∧ m = Entries.map convert ⟨pairs, hnodup⟩ := by
  unfold asMap at h
  split at h
  · cases h
  · rename_i pairs hpairs
    split at h
    · rename_i hnodup
      split at h
      · exact ⟨pairs, hnodup, hpairs, (Option.some.inj h).symm⟩
      · cases h
    · cases h

theorem readsMaps (accepts : Int → Bool) (convert : Int → β) :
    ReadsMaps (asMap accepts convert) (fun n => accepts n = true) convert where
  pairs entries haccepts := by
    refine ⟨entries.map convert, ?_, rfl⟩
    have hall : (entries.toList.all fun pair => accepts pair.2) = true := by
      simpa using haccepts
    simp only [asMap, pairsOf_rowsJson]
    rw [dif_pos entries.nodup, if_pos hall]
  keys j m hmap key hkey := by
    obtain ⟨pairs, hnodup, hpairs, rfl⟩ := asMap_eq_some hmap
    left
    have hkeys : ((Entries.map convert ⟨pairs, hnodup⟩).toList.map Prod.fst) =
        pairs.map Prod.fst := by
      simp [Entries.map]
    rw [hkeys] at hkey
    obtain ⟨pair, hpair, rfl⟩ := List.mem_map.mp hkey
    cases j with
    | array items =>
        rw [Json.strings]
        exact mem_itemsStrings_of_mapM hpairs pair hpair
    | string value => cases hpairs
    | integer n => cases hpairs
    | object items => cases hpairs
    | other => cases hpairs

end Maps

end TorrentServer.Library.JsonReader
