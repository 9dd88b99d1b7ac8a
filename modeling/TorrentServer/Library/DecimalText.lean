import Mathlib.Algebra.Group.Nat.Defs
import Mathlib.Data.List.Induction

namespace TorrentServer.Library.DecimalText

def decimalValue (text : String) : Option Nat :=
  if text.toList ≠ [] ∧ text.toList.all Char.isDigit = true then
    some (Nat.ofDigitChars 10 text.toList 0)
  else none

@[simp] theorem decimalValue_repr (n : Nat) : decimalValue n.repr = some n := by
  have hdigits : (Nat.toDigits 10 n).all Char.isDigit = true := by
    rw [List.all_eq_true]
    intro c hc
    exact Nat.isDigit_of_mem_toDigits (by decide) (by decide) hc
  unfold decimalValue
  rw [Nat.toList_repr, if_pos ⟨Nat.toDigits_ne_nil, hdigits⟩,
    Nat.ofDigitChars_ten_toDigits]

/-- A decimal numeral formatted into a buffer with room for `width` characters;
what does not fit is cut off at the end. -/
def formatDecimal (width n : Nat) : String :=
  String.ofList (n.repr.toList.take width)

theorem formatDecimal_eq_repr {width n : Nat} (hwidth : 0 < width)
    (hn : n < 10 ^ width) : formatDecimal width n = n.repr := by
  have hlength : (Nat.toDigits 10 n).length ≤ width :=
    (Nat.length_toDigits_le_iff (by decide) hwidth).mpr hn
  unfold formatDecimal
  rw [Nat.toList_repr, List.take_of_length_le hlength, Nat.repr_eq_ofList_toDigits]

theorem ofDigitChars_lt {digits : List Char} (h : digits.all Char.isDigit = true) :
    Nat.ofDigitChars 10 digits 0 < 10 ^ digits.length := by
  induction digits using List.reverseRecOn with
  | nil => simp
  | append_singleton digits c ih =>
      rw [List.all_append, Bool.and_eq_true] at h
      have hc : c.toNat - '0'.toNat < 10 := by
        have hdigit : c.isDigit = true := by simpa using h.2
        have hrange := Char.isDigit_iff_toNat.mp hdigit
        have hnine : '9'.toNat = '0'.toNat + 9 := rfl
        omega
      have hfirst := ih h.1
      rw [Nat.ofDigitChars_append, Nat.ofDigitChars_cons, Nat.ofDigitChars_nil,
        List.length_append, List.length_singleton, Nat.pow_succ]
      omega

theorem decimalValue_formatDecimal {width : Nat} (hwidth : 0 < width) (n : Nat) :
    ∃ value, decimalValue (formatDecimal width n) = some value ∧ value < 10 ^ width := by
  have hdigits : ((Nat.toDigits 10 n).take width).all Char.isDigit = true := by
    rw [List.all_eq_true]
    intro c hc
    exact Nat.isDigit_of_mem_toDigits (by decide) (by decide) (List.mem_of_mem_take hc)
  have hne : (Nat.toDigits 10 n).take width ≠ [] := by
    intro hnil
    rcases List.take_eq_nil_iff.mp hnil with hzero | hnil
    · omega
    · exact Nat.toDigits_ne_nil hnil
  refine ⟨Nat.ofDigitChars 10 ((Nat.toDigits 10 n).take width) 0, ?_, ?_⟩
  · unfold decimalValue formatDecimal
    rw [String.toList_ofList, Nat.toList_repr, if_pos ⟨hne, hdigits⟩]
  · apply Nat.lt_of_lt_of_le (ofDigitChars_lt hdigits)
    apply Nat.pow_le_pow_right (by decide)
    exact List.length_take_le _ _

end TorrentServer.Library.DecimalText
