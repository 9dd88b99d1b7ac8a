import Mathlib.Algebra.BigOperators.Group.List.Basic
import TorrentServer.Library.CIntegers
import TorrentServer.Library.MapEntries

namespace TorrentServer.Library.JsonText

open TorrentServer.Library.CIntegers
open TorrentServer.Library.MapEntries

/-- The names of an object's fields stand among its items as strings; `other` is
`null`, a boolean or a double. -/
inductive Json
  | string (value : List Char)
  | integer (n : Int)
  | array (items : List Json)
  | object (items : List Json)
  | other

mutual

def Json.strings : Json → List (List Char)
  | .string value => [value]
  | .integer _ => []
  | .array items => itemsStrings items
  | .object items => itemsStrings items
  | .other => []

def itemsStrings : List Json → List (List Char)
  | [] => []
  | item :: items => item.strings ++ itemsStrings items

end

section Strings

/-- What stands in a text for the contents of a string. A backslash escapes any
character; some escapes stand for a control character. -/
inductive Body : List Char → List Char → Prop
  | nil : Body [] []
  | char {c : Char} {body value : List Char} (hc : c ≠ '"' ∧ c ≠ '\\') :
      Body body value → Body (c :: body) (c :: value)
  | escape {e d : Char} {body value : List Char} (hd : d = e ∨ d ∉ ['"', '\\', '\x00']) :
      Body body value → Body ('\\' :: e :: body) (d :: value)

/-- The strings of a value are contents of disjoint pieces of the text. -/
def ReadsStrings (fromString : String → Option Json) : Prop :=
  ∀ text j, fromString text = some j →
    ∃ bodies, List.Forall₂ Body bodies j.strings ∧ bodies.flatten.Sublist text.toList

/-- The backslashes it takes to write a string. -/
def escapes (value : List Char) : Nat :=
  value.count '"' + 2 * value.count '\\'

theorem Body.append {a v b w : List Char} (h : Body a v) (h' : Body b w) :
    Body (a ++ b) (v ++ w) := by
  induction h with
  | nil => exact h'
  | char hc _ ih => exact .char hc ih
  | escape hd _ ih => exact .escape hd ih

theorem Body.escapes_le {body value : List Char} (h : Body body value) :
    escapes value ≤ body.count '\\' := by
  unfold escapes
  induction h with
  | nil => exact le_rfl
  | @char c body value hc _ ih =>
      rw [List.count_cons_of_ne hc.1, List.count_cons_of_ne hc.2, List.count_cons_of_ne hc.2]
      exact ih
  | @escape e d body value hd _ ih =>
      rw [List.count_cons_self]
      rcases hd with rfl | hd
      · simp only [List.count_cons, beq_iff_eq]
        split_ifs with hquote hbackslash hbackslash
        · subst hquote
          exact absurd hbackslash (by decide)
        all_goals omega
      · simp only [List.mem_cons, not_or] at hd
        rw [List.count_cons_of_ne hd.1, List.count_cons_of_ne hd.2.1, List.count_cons]
        omega

theorem Body.zero_notMem {body value : List Char} (h : Body body value) (hzero : '\x00' ∉ body) :
    '\x00' ∉ value := by
  induction h with
  | nil => exact hzero
  | char hc _ ih =>
      simp only [List.mem_cons, not_or] at hzero ⊢
      exact ⟨hzero.1, ih hzero.2⟩
  | @escape e d body value hd _ ih =>
      simp only [List.mem_cons, not_or] at hzero ⊢
      refine ⟨?_, ih hzero.2.2⟩
      rcases hd with rfl | hd
      · exact hzero.2.1
      · rintro rfl
        simp at hd

theorem sum_escapes_le {bodies strings : List (List Char)} (h : List.Forall₂ Body bodies strings) :
    (strings.map escapes).sum ≤ bodies.flatten.count '\\' := by
  induction h with
  | nil => exact le_rfl
  | cons hbody _ ih =>
      have hle := hbody.escapes_le
      rw [List.map_cons, List.sum_cons, List.flatten_cons, List.count_append]
      omega

theorem ReadsStrings.sum_escapes_le {fromString : String → Option Json}
    (h : ReadsStrings fromString) {text : String} {j : Json} (hread : fromString text = some j) :
    (j.strings.map escapes).sum ≤ text.toList.count '\\' := by
  obtain ⟨bodies, hbodies, hsublist⟩ := h text j hread
  exact (JsonText.sum_escapes_le hbodies).trans (hsublist.count_le '\\')

theorem zero_notMem_of_bodies {bodies strings : List (List Char)}
    (h : List.Forall₂ Body bodies strings) (hzero : '\x00' ∉ bodies.flatten) :
    ∀ value ∈ strings, '\x00' ∉ value := by
  induction h with
  | nil => simp
  | cons hbody _ ih =>
      rw [List.flatten_cons, List.mem_append, not_or] at hzero
      rw [List.forall_mem_cons]
      exact ⟨hbody.zero_notMem hzero.1, ih hzero.2⟩

theorem ReadsStrings.zero_notMem {fromString : String → Option Json}
    (h : ReadsStrings fromString) {text : String} {j : Json} (hread : fromString text = some j)
    (hzero : '\x00' ∉ text.toList) : ∀ value ∈ j.strings, '\x00' ∉ value := by
  obtain ⟨bodies, hbodies, hsublist⟩ := h text j hread
  exact zero_notMem_of_bodies hbodies fun hmem => hzero (hsublist.subset hmem)

end Strings

section Rows

inductive Scalar
  | string (value : List Char)
  | integer (n : Int)
deriving DecidableEq

def Scalar.text : Scalar → List Char
  | .string value => '"' :: (value ++ ['"'])
  | .integer n => (intText n).toList

def Scalar.json : Scalar → Json
  | .string value => .string value
  | .integer n => .integer n

def Plain (value : List Char) : Prop :=
  ∀ c ∈ value, c ∉ ['"', '\\', '\x00']

instance (value : List Char) : Decidable (Plain value) :=
  List.decidableBAll (fun c => c ∉ ['"', '\\', '\x00']) value

def Scalar.Plain : Scalar → Prop
  | .string value => JsonText.Plain value
  | .integer _ => True

/-- An integer is kept in 64 bits, signed where it is negative. -/
def Fits (n : Int) : Prop :=
  -2 ^ 63 ≤ n ∧ n < 2 ^ 64

instance (n : Int) : Decidable (Fits n) :=
  inferInstanceAs (Decidable (_ ∧ _))

def Scalar.Fits : Scalar → Prop
  | .string _ => True
  | .integer n => JsonText.Fits n

instance : (s : Scalar) → Decidable s.Fits
  | .string _ => isTrue trivial
  | .integer n => inferInstanceAs (Decidable (JsonText.Fits n))

def commaJoined : List (List Char) → List Char
  | [] => []
  | item :: items => item ++ items.flatMap fun item => ',' :: item

def rowText (row : List Scalar) : List Char :=
  '[' :: (commaJoined (row.map Scalar.text) ++ [']'])

def rowsText (rows : List (List Scalar)) : List Char :=
  '[' :: (commaJoined (rows.map rowText) ++ [']'])

def rowsJson (rows : List (List Scalar)) : Json :=
  .array (rows.map fun row => .array (row.map Scalar.json))

/-- An array of arrays of strings and integers is read as what it is, unless an integer
does not fit; then the reader throws. -/
def ReadsRows (fromString : String → Option Json) : Prop :=
  ∀ rows : List (List Scalar), (∀ row ∈ rows, ∀ s ∈ row, s.Plain) →
    fromString (String.ofList (rowsText rows)) =
      if ∀ row ∈ rows, ∀ s ∈ row, s.Fits then some (rowsJson rows) else none

theorem escapes_eq_zero_of_plain {value : List Char} (h : Plain value) : escapes value = 0 := by
  have hquote : '"' ∉ value := fun hmem => h _ hmem (by decide)
  have hbackslash : '\\' ∉ value := fun hmem => h _ hmem (by decide)
  rw [escapes, List.count_eq_zero_of_not_mem hquote, List.count_eq_zero_of_not_mem hbackslash]

theorem plain_of_escapes_eq_zero {value : List Char} (h : escapes value = 0)
    (hzero : '\x00' ∉ value) : Plain value := by
  have hquote : '"' ∉ value := List.count_eq_zero.mp (by unfold escapes at h; omega)
  have hbackslash : '\\' ∉ value := List.count_eq_zero.mp (by unfold escapes at h; omega)
  intro c hc hspecial
  simp only [List.mem_cons, List.not_mem_nil, or_false] at hspecial
  rcases hspecial with rfl | rfl | rfl
  · exact hquote hc
  · exact hbackslash hc
  · exact hzero hc

end Rows

section Maps

variable {β : Type*}

def pairRow (entry : String × Int) : List Scalar :=
  [.string entry.1.toList, .integer entry.2]

/-- `as<std::map<std::string, β>>()`: an array of pairs with different keys becomes the
map of them, and a key that is no string of the value is the text of a number or the
like. -/
structure ReadsMaps (asMap : Json → Option (Entries String β)) (accepts : Int → Prop)
    (convert : Int → β) : Prop where
  pairs : ∀ entries : Entries String Int, (∀ entry ∈ entries.toList, accepts entry.2) →
    ∃ m, asMap (rowsJson (entries.toList.map pairRow)) = some m ∧
      m.toFinmap = (entries.map convert).toFinmap
  keys : ∀ j m, asMap j = some m →
    ∀ key ∈ m.toList.map Prod.fst, key.toList ∈ j.strings ∨ Plain key.toList

/-- Different keys, each of them one of the strings unless it costs nothing. -/
theorem sum_le_of_nodup {α : Type*} [DecidableEq α] (f : α → Nat) {keys strings : List α}
    (hnodup : keys.Nodup) (h : ∀ key ∈ keys, key ∈ strings ∨ f key = 0) :
    (keys.map f).sum ≤ (strings.map f).sum := by
  induction keys generalizing strings with
  | nil => exact Nat.zero_le _
  | cons key keys ih =>
      rw [List.nodup_cons] at hnodup
      rw [List.map_cons, List.sum_cons]
      rw [List.forall_mem_cons] at h
      rcases h.1 with hmem | hzero
      · have hrest : ∀ other ∈ keys, other ∈ strings.erase key ∨ f other = 0 := by
          intro other hother
          have hne : other ≠ key := by
            rintro rfl
            exact hnodup.1 hother
          exact (h.2 other hother).imp_left (List.mem_erase_of_ne hne).mpr
        have hle := ih hnodup.2 hrest
        have hsum := List.sum_map_erase f hmem
        omega
      · have hle := ih hnodup.2 h.2
        omega

end Maps

end TorrentServer.Library.JsonText
