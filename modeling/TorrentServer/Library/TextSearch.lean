import Mathlib.Data.List.Infix

namespace TorrentServer.Library.TextSearch

variable {α : Type*}

/-- `text.find(pattern) != npos`. -/
def Contains (pattern text : String) : Prop :=
  pattern.toList <:+: text.toList

instance (pattern text : String) : Decidable (Contains pattern text) :=
  inferInstanceAs (Decidable (pattern.toList <:+: text.toList))

/-- An occurrence does not extend over a character the pattern has not. -/
theorem infix_of_infix_append_cons {p a b : List α} {c : α} (hc : c ∉ p)
    (h : p <:+: a ++ c :: b) : p <:+: a ∨ p <:+: b := by
  obtain ⟨s, t, h⟩ := h
  rcases List.append_eq_append_iff.mp h with ⟨a', ha, -⟩ | ⟨a', ha, hb⟩
  · exact .inl ⟨s, a', ha.symm⟩
  · rcases a' with _ | ⟨d, a'⟩
    · exact .inl ⟨s, [], by simpa using ha⟩
    · rw [List.cons_append, List.cons.injEq] at hb
      obtain ⟨rfl, rfl⟩ := hb
      rcases List.append_eq_append_iff.mp ha with ⟨s', rfl, hp⟩ | ⟨s', rfl, hp⟩
      · exact absurd (by simp [hp]) hc
      · rcases s' with _ | ⟨d, s'⟩
        · exact absurd (by simp [← show _ = p from hp]) hc
        · rw [List.cons_append, List.cons.injEq] at hp
          exact .inr ⟨s', t, by rw [hp.2]⟩

theorem infix_of_infix_cons {p a : List α} {c : α} (hp : p ≠ []) (hc : c ∉ p)
    (h : p <:+: c :: a) : p <:+: a := by
  rcases infix_of_infix_append_cons (a := []) hc h with hnil | hinfix
  · exact absurd (List.infix_nil.mp hnil) hp
  · exact hinfix

theorem infix_of_infix_concat {p a : List α} {c : α} (hp : p ≠ []) (hc : c ∉ p)
    (h : p <:+: a ++ [c]) : p <:+: a := by
  rcases infix_of_infix_append_cons hc h with hinfix | hnil
  · exact hinfix
  · exact absurd (List.infix_nil.mp hnil) hp

theorem infix_of_infix_intercalate {p : List α} {c : α} (hp : p ≠ []) (hc : c ∉ p)
    {texts : List (List α)} (h : p <:+: [c].intercalate texts) :
    ∃ text ∈ texts, p <:+: text := by
  induction texts with
  | nil => exact absurd (List.infix_nil.mp h) hp
  | cons text texts ih =>
      rcases texts with _ | ⟨next, texts⟩
      · exact ⟨text, by simp, by simpa using h⟩
      · rw [List.intercalate_cons_cons, List.append_assoc, List.singleton_append] at h
        rcases infix_of_infix_append_cons hc h with hinfix | hinfix
        · exact ⟨text, by simp, hinfix⟩
        · obtain ⟨other, hmem, hother⟩ := ih hinfix
          exact ⟨other, List.mem_cons_of_mem _ hmem, hother⟩

theorem infix_intercalate_of_mem {texts : List (List α)} {text : List α} (separator : List α)
    (h : text ∈ texts) : text <:+: separator.intercalate texts := by
  induction texts with
  | nil => cases h
  | cons first texts ih =>
      rcases texts with _ | ⟨next, texts⟩
      · rw [List.mem_singleton.mp h]
        simp
      · rw [List.intercalate_cons_cons, List.append_assoc]
        rcases List.mem_cons.mp h with rfl | hmem
        · exact (List.prefix_append _ _).isInfix
        · exact (ih hmem).trans (List.suffix_append_of_suffix (List.suffix_append _ _)).isInfix

end TorrentServer.Library.TextSearch
