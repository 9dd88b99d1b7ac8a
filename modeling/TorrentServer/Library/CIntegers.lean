import Mathlib.Algebra.Group.Nat.Defs
import Mathlib.Data.List.TakeWhile
import Mathlib.Data.Nat.Cast.Order.Ring

namespace TorrentServer.Library.CIntegers

def intText : Int → String
  | .ofNat n => n.repr
  | .negSucc n => "-" ++ (n + 1).repr

/-- `%d` given an unsigned argument: its bits are read as an `int`. -/
def formatD (x : UInt32) : String :=
  intText x.toInt32.toInt

def formatLu (x : UInt64) : String :=
  intText x.toNat

def isSpace (c : Char) : Bool :=
  c == ' ' || c == '\t' || c == '\n' || c == '\x0b' || c == '\x0c' || c == '\r'

def strtolDigits (text : List Char) : Nat :=
  Nat.ofDigitChars 10 (text.takeWhile Char.isDigit) 0

/-- `strtol` with base 10: leading white space, a sign, the digits up to the first
other character. A value out of the range of a 64-bit `long` becomes its end. -/
def strtol (text : String) : Int :=
  match text.toList.dropWhile isSpace with
  | '-' :: rest => max (-(strtolDigits rest : Int)) (-2 ^ 63)
  | '+' :: rest => min (strtolDigits rest : Int) (2 ^ 63 - 1)
  | rest => min (strtolDigits rest : Int) (2 ^ 63 - 1)

/-- What `%lu` makes of the digits at the start of a text, if there are any. A value out
of the range of an `unsigned long` becomes its end, also behind a minus sign. -/
def scanLuDigits (negative : Bool) (text : List Char) : Option UInt64 :=
  if text.takeWhile Char.isDigit = [] then none
  else if 2 ^ 64 ≤ strtolDigits text then some (UInt64.ofNat (2 ^ 64 - 1))
  else if negative then some (0 - UInt64.ofNat (strtolDigits text))
  else some (UInt64.ofNat (strtolDigits text))

/-- `sscanf` with the format `%lu`. Without a number nothing is assigned. -/
def scanLu (text : String) : Option UInt64 :=
  match text.toList.dropWhile isSpace with
  | '-' :: rest => scanLuDigits true rest
  | '+' :: rest => scanLuDigits false rest
  | rest => scanLuDigits false rest

def atoi (text : String) : Int32 :=
  Int32.ofInt (strtol text)

def atoiUInt32 (text : String) : UInt32 :=
  (atoi text).toUInt32

def atoiUInt64 (text : String) : UInt64 :=
  (atoi text).toInt64.toUInt64

theorem strtolDigits_toDigits (n : Nat) : strtolDigits (Nat.toDigits 10 n) = n := by
  have hdigits : (Nat.toDigits 10 n).takeWhile Char.isDigit = Nat.toDigits 10 n := by
    rw [List.takeWhile_eq_self_iff]
    exact fun c hc => Nat.isDigit_of_mem_toDigits (by decide) (by decide) hc
  rw [strtolDigits, hdigits, Nat.ofDigitChars_ten_toDigits]

theorem isDigit_ne_of_not {c d : Char} (hc : c.isDigit = true) (hd : d.isDigit = false) :
    c ≠ d := by
  rintro rfl
  rw [hc] at hd
  cases hd

theorem not_isSpace_of_isDigit {c : Char} (hc : c.isDigit = true) : isSpace c = false := by
  have hne : ∀ d : Char, d.isDigit = false → (c == d) = false :=
    fun d hd => beq_false_of_ne (isDigit_ne_of_not hc hd)
  simp [isSpace, hne]

theorem strtol_repr (n : Nat) : strtol n.repr = min (n : Int) (2 ^ 63 - 1) := by
  obtain ⟨c, rest, hdigits⟩ := List.exists_cons_of_ne_nil (@Nat.toDigits_ne_nil n 10)
  have hc : c.isDigit = true :=
    Nat.isDigit_of_mem_toDigits (by decide) (by decide) (hdigits ▸ List.mem_cons_self)
  have hvalue := strtolDigits_toDigits n
  unfold strtol
  rw [Nat.toList_repr, hdigits, List.dropWhile_cons_of_neg (by simp [not_isSpace_of_isDigit hc])]
  rw [hdigits] at hvalue
  split
  · rename_i heq
    cases heq
    exact absurd hc (by decide)
  · rename_i heq
    cases heq
    exact absurd hc (by decide)
  · rw [hvalue]

theorem strtol_neg_repr (n : Nat) : strtol ("-" ++ n.repr) = max (-(n : Int)) (-2 ^ 63) := by
  have htext : ("-" ++ n.repr).toList = '-' :: Nat.toDigits 10 n := by simp
  unfold strtol
  rw [htext, List.dropWhile_cons_of_neg (by decide)]
  change max (-(strtolDigits (Nat.toDigits 10 n) : Int)) (-2 ^ 63) = _
  rw [strtolDigits_toDigits]

theorem strtol_intText {n : Int} (hlow : -2 ^ 63 ≤ n) (hhigh : n < 2 ^ 63) :
    strtol (intText n) = n := by
  cases n with
  | ofNat n =>
      rw [Int.ofNat_eq_natCast] at hhigh
      rw [intText, strtol_repr]
      exact min_eq_left (by omega)
  | negSucc n =>
      rw [intText, strtol_neg_repr]
      rw [max_eq_left (by omega)]
      omega

theorem isDigit_or_eq_of_mem_intText {n : Int} {c : Char} (h : c ∈ (intText n).toList) :
    c.isDigit = true ∨ c = '-' := by
  cases n with
  | ofNat n =>
      rw [intText, Nat.toList_repr] at h
      exact .inl (Nat.isDigit_of_mem_toDigits (by decide) (by decide) h)
  | negSucc n =>
      rw [intText, String.toList_append, Nat.toList_repr, List.mem_append] at h
      rcases h with h | h
      · exact .inr (by simpa using h)
      · exact .inl (Nat.isDigit_of_mem_toDigits (by decide) (by decide) h)

theorem toInt_toInt32 (x : UInt32) :
    x.toInt32.toInt = if 2 * x.toNat < 2 ^ 32 then (x.toNat : Int) else (x.toNat : Int) - 2 ^ 32 :=
  BitVec.toInt_eq_toNat_cond x.toBitVec

theorem atoiUInt32_formatD (x : UInt32) : atoiUInt32 (formatD x) = x := by
  have hlow := x.toInt32.le_toInt
  have hhigh := x.toInt32.toInt_lt
  rw [formatD, atoiUInt32, atoi, strtol_intText (by omega) (by omega)]
  simp

/-- An `int` holds an unsigned 64-bit value only below `2 ^ 31`. -/
theorem atoiUInt64_formatLu_iff {x : UInt64} (hx : x.toNat < 2 ^ 63) :
    atoiUInt64 (formatLu x) = x ↔ x.toNat < 2 ^ 31 := by
  rw [formatLu, atoiUInt64, atoi, strtol_intText (by omega) (by exact_mod_cast hx)]
  have hvalue : x.toInt64.toInt = x.toNat :=
    BitVec.toInt_eq_toNat_of_lt (show 2 * x.toNat < 2 ^ 64 by omega)
  constructor
  · intro h
    have hequal := congrArg (fun y : UInt64 => y.toInt64.toInt) h
    simp only [Int64.toInt64_toUInt64, Int32.toInt_toInt64, hvalue] at hequal
    have hint := (Int32.ofInt x.toNat).toInt_lt
    omega
  · intro h
    have hequal : (Int32.ofInt x.toNat).toInt64 = x.toInt64 := by
      rw [← Int64.toInt_inj, Int32.toInt_toInt64, hvalue]
      exact Int32.toInt_ofInt_of_le (by omega) (by exact_mod_cast h)
    rw [hequal, UInt64.toUInt64_toInt64]

end TorrentServer.Library.CIntegers
