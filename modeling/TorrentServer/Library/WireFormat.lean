import Mathlib.Data.Nat.Basic
import Mathlib.Data.List.Basic
import Mathlib.Tactic.NormNum
import TorrentServer.Library.MapEntries

/-!
The wire format of protocol buffers: numbered fields, each with its value in one of four
forms, read one after the other. Groups, which the third version of the language does not
write, are not read.
-/

namespace TorrentServer.Library.WireFormat

open TorrentServer.Library.MapEntries

abbrev Bytes := List UInt8

section Numbers

/-- At most `count` groups of seven bits, the lowest first, all but the last of them marked. -/
def writeVarint : ℕ → ℕ → Bytes
  | 0, _ => []
  | count + 1, n =>
      if n < 128 then [UInt8.ofNat n]
      else UInt8.ofNat (n % 128 + 128) :: writeVarint count (n / 128)

def readVarint : ℕ → Bytes → Option (ℕ × Bytes)
  | 0, _ => none
  | _ + 1, [] => none
  | count + 1, byte :: rest =>
      if byte.toNat < 128 then some (byte.toNat, rest)
      else (readVarint count rest).map fun (n, rest) => (byte.toNat % 128 + 128 * n, rest)

theorem readVarint_writeVarint {count n : ℕ} (hcount : 0 < count) (hn : n < 128 ^ count)
    (rest : Bytes) : readVarint count (writeVarint count n ++ rest) = some (n, rest) := by
  induction count generalizing n with
  | zero => omega
  | succ count ih =>
      by_cases hsmall : n < 128
      · have hbyte : (UInt8.ofNat n).toNat = n := by
          rw [UInt8.toNat_ofNat']
          omega
        simp [writeVarint, readVarint, hbyte, hsmall]
      · have hbyte : (UInt8.ofNat (n % 128 + 128)).toNat = n % 128 + 128 := by
          rw [UInt8.toNat_ofNat']
          omega
        have hmore : n / 128 < 128 ^ count := by
          rw [Nat.div_lt_iff_lt_mul (by norm_num), ← pow_succ]
          exact hn
        have hpositive : 0 < count := by
          rw [Nat.pos_iff_ne_zero]
          rintro rfl
          omega
        rw [writeVarint, if_neg hsmall, List.cons_append, readVarint, if_neg (by omega),
          ih hpositive hmore, hbyte]
        simp only [Option.map_some, Option.some.injEq, Prod.mk.injEq, and_true]
        omega

def writeLittleEndian : ℕ → ℕ → Bytes
  | 0, _ => []
  | width + 1, n => UInt8.ofNat n :: writeLittleEndian width (n / 256)

def readLittleEndian : ℕ → Bytes → Option (ℕ × Bytes)
  | 0, rest => some (0, rest)
  | _ + 1, [] => none
  | width + 1, byte :: rest =>
      (readLittleEndian width rest).map fun (n, rest) => (byte.toNat + 256 * n, rest)

theorem readLittleEndian_writeLittleEndian {width n : ℕ} (hn : n < 256 ^ width) (rest : Bytes) :
    readLittleEndian width (writeLittleEndian width n ++ rest) = some (n, rest) := by
  induction width generalizing n with
  | zero =>
      obtain rfl : n = 0 := by simpa using hn
      rfl
  | succ width ih =>
      have hmore : n / 256 < 256 ^ width := by
        rw [Nat.div_lt_iff_lt_mul (by norm_num), ← pow_succ]
        exact hn
      rw [writeLittleEndian, List.cons_append, readLittleEndian, ih hmore, UInt8.toNat_ofNat']
      simp only [Option.map_some, Option.some.injEq, Prod.mk.injEq, and_true]
      omega

end Numbers

section Fields

inductive WireValue
  | varint (n : UInt64)
  | fixed64 (bits : UInt64)
  | bytes (text : Bytes)
  | fixed32 (bits : UInt32)
deriving DecidableEq

structure WireField where
  number : ℕ
  value : WireValue
deriving DecidableEq

def WireValue.wireType : WireValue → ℕ
  | .varint _ => 0
  | .fixed64 _ => 1
  | .bytes _ => 2
  | .fixed32 _ => 5

def WireValue.encode : WireValue → Bytes
  | .varint n => writeVarint 10 n.toNat
  | .fixed64 bits => writeLittleEndian 8 bits.toNat
  | .bytes text => writeVarint 5 text.length ++ text
  | .fixed32 bits => writeLittleEndian 4 bits.toNat

def WireField.encode (f : WireField) : Bytes :=
  writeVarint 5 (8 * f.number + f.value.wireType) ++ f.value.encode

def encode (fields : List WireField) : Bytes :=
  fields.flatMap WireField.encode

/-- A varint of more than 64 bits loses the upper ones. -/
def readValue (wireType : ℕ) (input : Bytes) : Option (WireValue × Bytes) :=
  match wireType with
  | 0 => (readVarint 10 input).map fun (n, rest) => (.varint (UInt64.ofNat n), rest)
  | 1 => (readLittleEndian 8 input).map fun (n, rest) => (.fixed64 (UInt64.ofNat n), rest)
  | 2 =>
      (readVarint 5 input).bind fun (length, rest) =>
        if length ≤ rest.length then some (.bytes (rest.take length), rest.drop length) else none
  | 5 => (readLittleEndian 4 input).map fun (n, rest) => (.fixed32 (UInt32.ofNat n), rest)
  | _ => none

/-- A tag has 32 bits, the lowest three for the wire type. -/
def readField (input : Bytes) : Option (WireField × Bytes) :=
  (readVarint 5 input).bind fun (tag, rest) =>
    if tag % 2 ^ 32 / 8 = 0 then none
    else
      (readValue (tag % 8) rest).map fun (value, rest) =>
        ({ number := tag % 2 ^ 32 / 8, value := value }, rest)

/-- The fields up to the end of the input, or up to what cannot be read, and whether the end
is reached. -/
def readFields : ℕ → Bytes → List WireField × Bool
  | 0, input => ([], input.isEmpty)
  | count + 1, input =>
      if input.isEmpty then ([], true)
      else
        match readField input with
        | none => ([], false)
        | some (f, rest) =>
            let (fields, complete) := readFields count rest
            (f :: fields, complete)

def fieldsOf (input : Bytes) : List WireField × Bool :=
  readFields input.length input

/-- A field a writer can write: the number is one the language allows, a length is below
two gigabytes. -/
structure WireField.Fits (f : WireField) : Prop where
  positive : 0 < f.number
  number : f.number < 2 ^ 29
  length : ∀ text, f.value = .bytes text → text.length < 2 ^ 31

theorem readValue_encode (value : WireValue) (hlength : ∀ text, value = .bytes text →
    text.length < 2 ^ 31) (rest : Bytes) :
    readValue value.wireType (value.encode ++ rest) = some (value, rest) := by
  cases value with
  | varint n =>
      have hn := n.toNat_lt
      simp [readValue, WireValue.wireType, WireValue.encode,
        readVarint_writeVarint (show 0 < 10 by norm_num) (show n.toNat < 128 ^ 10 by omega)]
  | fixed64 bits =>
      have hbits := bits.toNat_lt
      simp [readValue, WireValue.wireType, WireValue.encode,
        readLittleEndian_writeLittleEndian (show bits.toNat < 256 ^ 8 by omega)]
  | bytes text =>
      have htext := hlength text rfl
      simp [readValue, WireValue.wireType, WireValue.encode,
        readVarint_writeVarint (show 0 < 5 by norm_num) (show text.length < 128 ^ 5 by omega)]
  | fixed32 bits =>
      have hbits := bits.toNat_lt
      simp [readValue, WireValue.wireType, WireValue.encode,
        readLittleEndian_writeLittleEndian (show bits.toNat < 256 ^ 4 by omega)]

theorem WireValue.wireType_lt (value : WireValue) : value.wireType < 8 := by
  cases value <;> simp [WireValue.wireType]

theorem readField_encode {f : WireField} (hfits : f.Fits) (rest : Bytes) :
    readField (f.encode ++ rest) = some (f, rest) := by
  have hnumber := hfits.number
  have hpositive := hfits.positive
  have htype := f.value.wireType_lt
  have hquotient : (8 * f.number + f.value.wireType) % 2 ^ 32 / 8 = f.number := by omega
  have hremainder : (8 * f.number + f.value.wireType) % 8 = f.value.wireType := by omega
  have htag := @readVarint_writeVarint 5 (8 * f.number + f.value.wireType) (by norm_num) (by omega)
  rw [readField, WireField.encode, List.append_assoc, htag]
  simp only [Option.bind_some, hquotient, hremainder, readValue_encode f.value hfits.length]
  rw [if_neg (by omega)]
  rfl

theorem WireField.encode_ne_nil (f : WireField) : f.encode ≠ [] := by
  rw [WireField.encode, writeVarint]
  split <;> simp

theorem readFields_encode {fields : List WireField} (hfits : ∀ f ∈ fields, f.Fits) {count : ℕ}
    (hcount : fields.length ≤ count) : readFields count (encode fields) = (fields, true) := by
  induction fields generalizing count with
  | nil => cases count <;> rfl
  | cons f fields ih =>
      obtain ⟨count, rfl⟩ := Nat.exists_eq_add_one_of_ne_zero
        (show count ≠ 0 by rintro rfl; simp at hcount)
      rw [List.forall_mem_cons] at hfits
      have hrest := @ih hfits.2 count (by simpa using hcount)
      rw [encode] at hrest
      rw [encode, List.flatMap_cons, readFields, if_neg (by simp [f.encode_ne_nil]),
        readField_encode hfits.1]
      simp only [hrest]

theorem length_le_encode (fields : List WireField) : fields.length ≤ (encode fields).length := by
  induction fields with
  | nil => rfl
  | cons f fields ih =>
      have hfirst := List.length_pos_iff.mpr f.encode_ne_nil
      rw [encode, List.flatMap_cons, List.length_append, List.length_cons, ← encode]
      omega

theorem length_encode_le {fields : List WireField} {f : WireField} (hf : f ∈ fields) :
    f.encode.length ≤ (encode fields).length := by
  obtain ⟨before, after, rfl⟩ := List.append_of_mem hf
  simp only [encode, List.flatMap_append, List.flatMap_cons, List.length_append]
  omega

theorem fits_of_length {fields : List WireField}
    (hnumbers : ∀ f ∈ fields, 0 < f.number ∧ f.number < 2 ^ 29)
    (hlength : (encode fields).length < 2 ^ 31) : ∀ f ∈ fields, f.Fits := by
  intro f hf
  refine ⟨(hnumbers f hf).1, (hnumbers f hf).2, fun text htext => ?_⟩
  have hle := length_encode_le hf
  rw [WireField.encode, htext, WireValue.encode] at hle
  simp only [List.length_append] at hle
  omega

theorem fieldsOf_encode {fields : List WireField} (hfits : ∀ f ∈ fields, f.Fits) :
    fieldsOf (encode fields) = (fields, true) :=
  readFields_encode hfits (length_le_encode fields)

end Fields

section Messages

variable {M β : Type*}

/-- What a message does with a field: it has no such field, or has it with another wire type,
or the field holds a text that is none. -/
inductive Taken (M : Type*)
  | set (m : M)
  | unknown
  | failed

/-- A message with the fields it does not know, which are kept and written again. -/
structure Parsed (M : Type*) where
  message : M
  unknown : List WireField := []
  complete : Bool := true

/-- A message is filled in field by field, up to one that cannot be taken. -/
def merge (take : M → WireField → Taken M) (m : M) (unknown : List WireField) :
    List WireField → Parsed M
  | [] => { message := m, unknown := unknown }
  | f :: fields =>
      match take m f with
      | .set m => merge take m unknown fields
      | .unknown => merge take m (unknown ++ [f]) fields
      | .failed => { message := m, unknown := unknown, complete := false }

def parse (take : M → WireField → Taken M) (m : M) (input : Bytes) : Parsed M :=
  let (fields, complete) := fieldsOf input
  let parsed := merge take m [] fields
  { parsed with complete := complete && parsed.complete }

def textBytes (text : String) : Bytes :=
  text.toByteArray.data.toList

/-- A text has to be in UTF-8. -/
def readText (bytes : Bytes) : Option String :=
  String.fromUTF8? ⟨bytes.toArray⟩

@[simp] theorem readText_textBytes (text : String) : readText (textBytes text) = some text := by
  unfold readText textBytes String.fromUTF8?
  rw [dif_pos (show ByteArray.IsValidUTF8 ⟨text.toByteArray.data.toList.toArray⟩ from
    text.isValidUTF8)]
  rfl

def takeRead {α : Type*} (read : Option α) (set : α → M) : Taken M :=
  match read with
  | some x => .set (set x)
  | none => .failed

/-- A value that is the default is not written. -/
def fieldUnless (isDefault : Bool) (number : ℕ) (value : WireValue) : List WireField :=
  if isDefault then [] else [{ number := number, value := value }]

def stringField (number : ℕ) (text : String) : List WireField :=
  fieldUnless (text == "") number (.bytes (textBytes text))

def uint64Field (number : ℕ) (n : UInt64) : List WireField :=
  fieldUnless (n == 0) number (.varint n)

def uint32Field (number : ℕ) (n : UInt32) : List WireField :=
  uint64Field number n.toUInt64

def boolField (number : ℕ) (b : Bool) : List WireField :=
  uint64Field number (if b then 1 else 0)

/-- A double by its bits. Both zeros compare equal to the default. -/
def doubleField (number : ℕ) (bits : UInt64) : List WireField :=
  fieldUnless (bits <<< 1 == 0) number (.fixed64 bits)

@[simp] theorem flag_ne_zero (b : Bool) : ((if b then 1 else 0 : UInt64) != 0) = b := by
  cases b <;> rfl

/-- Both fields of an entry of a map are always written. -/
def entryFields (value : β → WireValue) (entry : String × β) : List WireField :=
  [ { number := 1, value := .bytes (textBytes entry.1) },
    { number := 2, value := value entry.2 } ]

def mapField (number : ℕ) (value : β → WireValue) (entries : List (String × β)) :
    List WireField :=
  entries.map fun entry =>
    { number := number, value := .bytes (encode (entryFields value entry)) }

/-- A key or a value that is missing is the default one. -/
def takeEntry (takeValue : WireValue → Taken β) (entry : String × β) (f : WireField) :
    Taken (String × β) :=
  match f.number, f.value with
  | 1, .bytes text => takeRead (readText text) fun key => (key, entry.2)
  | 2, value =>
      match takeValue value with
      | .set value => .set (entry.1, value)
      | .unknown => .unknown
      | .failed => .failed
  | _, _ => .unknown

def readEntry (takeValue : WireValue → Taken β) (default : β) (input : Bytes) :
    Option (String × β) :=
  let parsed := parse (takeEntry takeValue) ("", default) input
  if parsed.complete then some parsed.message else none

/-- A part of a message that is read and written on its own. -/
structure Part (M α : Type*) where
  get : M → α
  set : M → α → M
  get_set : ∀ m x, get (set m x) = x
  set_get : ∀ m, set m (get m) = m
  set_set : ∀ m x y, set (set m x) y = set m y

variable {take : M → WireField → Taken M} {m : M} {number : ℕ} {unknown fields : List WireField}
  {isDefault : Bool} {wireValue : WireValue}

theorem parse_encode (take : M → WireField → Taken M) (m : M) (hfits : ∀ f ∈ fields, f.Fits) :
    parse take m (encode fields) = merge take m [] fields := by
  simp [parse, fieldsOf_encode hfits]

/-- A field that is kept, whatever the message holds. -/
structure Foreign (take : M → WireField → Taken M) (f : WireField) : Prop where
  number : 0 < f.number ∧ f.number < 2 ^ 29
  unknown : ∀ m, take m f = .unknown

theorem merge_foreign (hforeign : ∀ f ∈ fields, Foreign take f) :
    merge take m unknown fields = { message := m, unknown := unknown ++ fields } := by
  induction fields generalizing unknown with
  | nil => simp [merge]
  | cons f fields ih =>
      rw [List.forall_mem_cons] at hforeign
      rw [merge, hforeign.1.unknown]
      simp only
      rw [ih hforeign.2, List.append_assoc]
      rfl

theorem parse_own {m₀ : M} {own foreign : List WireField}
    (hown : (∀ f ∈ own, f.Fits) → ∀ unknown fields,
      merge take m₀ unknown (own ++ fields) = merge take m unknown fields)
    (hnumbers : ∀ f ∈ own, 0 < f.number ∧ f.number < 2 ^ 29)
    (hforeign : ∀ f ∈ foreign, Foreign take f)
    (hlength : (encode (own ++ foreign)).length < 2 ^ 31) :
    parse take m₀ (encode (own ++ foreign)) = { message := m, unknown := foreign } := by
  have hfits : ∀ f ∈ own ++ foreign, f.Fits := by
    refine fits_of_length ?_ hlength
    rw [List.forall_mem_append]
    exact ⟨hnumbers, fun f hf => (hforeign f hf).number⟩
  rw [parse_encode _ _ hfits, hown (List.forall_mem_append.mp hfits).1, merge_foreign hforeign]
  rfl

theorem merge_fieldUnless {m' : M}
    (htake : take m { number := number, value := wireValue } = .set m')
    (hdefault : isDefault = true → m' = m) :
    merge take m unknown (fieldUnless isDefault number wireValue ++ fields) =
      merge take m' unknown fields := by
  cases isDefault with
  | true => rw [hdefault rfl]; rfl
  | false => simp [fieldUnless, merge, htake]

theorem merge_string {set : String → M} (text : String)
    (htake : ∀ bytes, take m { number := number, value := .bytes bytes } =
      takeRead (readText bytes) set)
    (hdefault : set "" = m) :
    merge take m unknown (stringField number text ++ fields) =
      merge take (set text) unknown fields := by
  refine merge_fieldUnless ?_ fun htext => ?_
  · rw [htake, readText_textBytes, takeRead]
  · rw [beq_iff_eq.mp htext, hdefault]

theorem merge_uint64 {set : UInt64 → M} (n : UInt64)
    (htake : ∀ n, take m { number := number, value := .varint n } = .set (set n))
    (hdefault : set 0 = m) :
    merge take m unknown (uint64Field number n ++ fields) = merge take (set n) unknown fields := by
  refine merge_fieldUnless (htake n) fun hn => ?_
  rw [beq_iff_eq.mp hn, hdefault]

theorem merge_double {set : UInt64 → M} {bits : UInt64} (hbits : bits <<< 1 = 0 → bits = 0)
    (htake : ∀ bits, take m { number := number, value := .fixed64 bits } = .set (set bits))
    (hdefault : set 0 = m) :
    merge take m unknown (doubleField number bits ++ fields) =
      merge take (set bits) unknown fields := by
  refine merge_fieldUnless (htake bits) fun hzero => ?_
  rw [hbits (beq_iff_eq.mp hzero), hdefault]

theorem merge_unknown (htake : take m { number := number, value := wireValue } = .unknown) :
    merge take m unknown (fieldUnless isDefault number wireValue ++ fields) =
      merge take m (unknown ++ fieldUnless isDefault number wireValue) fields := by
  cases isDefault with
  | true => simp [fieldUnless]
  | false => simp [fieldUnless, merge, htake]

theorem merge_unknownMap {value : β → WireValue} {entries : List (String × β)}
    (htake : ∀ bytes, take m { number := number, value := .bytes bytes } = .unknown) :
    merge take m unknown (mapField number value entries ++ fields) =
      merge take m (unknown ++ mapField number value entries) fields := by
  induction entries generalizing unknown with
  | nil => simp [mapField]
  | cons entry entries ih =>
      rw [mapField, List.map_cons, List.cons_append, merge, htake, ← mapField]
      simp only
      rw [ih, List.append_assoc]
      rfl

theorem eq_of_mem_fieldUnless {f : WireField}
    (hf : f ∈ fieldUnless isDefault number wireValue) :
    f = { number := number, value := wireValue } := by
  cases isDefault with
  | true => cases hf
  | false => exact List.mem_singleton.mp hf

theorem eq_of_mem_mapField {value : β → WireValue} {entries : List (String × β)} {f : WireField}
    (hf : f ∈ mapField number value entries) :
    ∃ bytes, f = { number := number, value := .bytes bytes } := by
  obtain ⟨entry, -, rfl⟩ := List.mem_map.mp hf
  exact ⟨_, rfl⟩

theorem readEntry_entryFields {value : β → WireValue} {takeValue : WireValue → Taken β}
    {default : β} {entry : String × β} (hvalue : takeValue (value entry.2) = .set entry.2)
    (hlength : (encode (entryFields value entry)).length < 2 ^ 31) :
    readEntry takeValue default (encode (entryFields value entry)) = some entry := by
  have hfits := fits_of_length (by simp [entryFields]) hlength
  rw [readEntry, parse_encode _ _ hfits]
  simp [entryFields, merge, takeEntry, takeRead, hvalue]

theorem merge_map {value : β → WireValue} {takeValue : WireValue → Taken β} {default : β}
    {entries : List (String × β)} (part : Part M (Finmap fun _ : String => β))
    (htake : ∀ m bytes, take m { number := number, value := .bytes bytes } =
      takeRead (readEntry takeValue default bytes) fun entry =>
        part.set m ((part.get m).insert entry.1 entry.2))
    (hvalue : ∀ x, takeValue (value x) = .set x)
    (hfits : ∀ f ∈ mapField number value entries, f.Fits) :
    merge take m unknown (mapField number value entries ++ fields) =
      merge take (part.set m (insertAll entries (part.get m))) unknown fields := by
  induction entries generalizing m with
  | nil => rw [insertAll, List.foldl_nil, part.set_get]; rfl
  | cons entry entries ih =>
      rw [mapField, List.map_cons, List.forall_mem_cons, ← mapField] at hfits
      have hentry := @readEntry_entryFields _ value takeValue default entry (hvalue entry.2)
        (hfits.1.length _ rfl)
      rw [mapField, List.map_cons, List.cons_append, merge, htake, hentry, ← mapField]
      simp only [takeRead]
      rw [ih hfits.2, part.get_set, part.set_set]
      rfl

end Messages

end TorrentServer.Library.WireFormat
