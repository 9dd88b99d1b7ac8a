import Mathlib.Data.List.Induction

namespace TorrentServer.Library.Runs

variable {σ ε : Type*}

/-- Runs of a labelled step relation from a fixed start. The labels are kept in
the order in which they were taken, so that an assumption about a run (no label
twice, labels in order) can be stated on the list alone. -/
inductive Run (Step : σ → ε → σ → Prop) (start : σ) : List ε → σ → Prop
  | nil : Run Step start [] start
  | snoc {labels : List ε} {label : ε} {s s' : σ} :
      Run Step start labels s → Step s label s' →
        Run Step start (labels ++ [label]) s'

variable {Step : σ → ε → σ → Prop} {start : σ}

/-- The invariant rule. `Assumption` is what is known of the labels of the whole
run; it only has to pass to shorter runs. The invariant may speak about the
labels taken so far. -/
theorem Run.invariant (Assumption : List ε → Prop) (Inv : List ε → σ → Prop)
    (hshorter : ∀ labels label, Assumption (labels ++ [label]) → Assumption labels)
    (hstart : Inv [] start)
    (hstep : ∀ labels label s s', Assumption (labels ++ [label]) →
      Run Step start labels s → Inv labels s → Step s label s' →
        Inv (labels ++ [label]) s')
    {labels : List ε} {s : σ} (hrun : Run Step start labels s)
    (hlabels : Assumption labels) : Inv labels s := by
  induction hrun with
  | nil => exact hstart
  | snoc hrun hlast ih =>
      exact hstep _ _ _ _ hlabels hrun (ih (hshorter _ _ hlabels)) hlast

/-- The same rule for an invariant of the state alone and labels that are restricted
one by one. -/
theorem Run.state_invariant (Allowed : ε → Prop) (Inv : σ → Prop) (hstart : Inv start)
    (hstep : ∀ label s s', Allowed label → Inv s → Step s label s' → Inv s')
    {labels : List ε} {s : σ} (hrun : Run Step start labels s)
    (hlabels : ∀ label ∈ labels, Allowed label) : Inv s := by
  refine Run.invariant (fun labels => ∀ label ∈ labels, Allowed label) (fun _ s => Inv s)
    ?_ hstart ?_ hrun hlabels
  · exact fun labels last h label hlabel => h label (List.mem_append_left _ hlabel)
  · exact fun labels last s s' h _ hinv hlast => hstep last s s' (h last (by simp)) hinv hlast

theorem Run.imp {Step' : σ → ε → σ → Prop} {labels : List ε} {s : σ}
    (himp : ∀ label ∈ labels, ∀ s s', Step s label s' → Step' s label s')
    (hrun : Run Step start labels s) : Run Step' start labels s := by
  induction hrun with
  | nil => exact .nil
  | snoc _ hlast ih =>
      refine (ih fun label hlabel => himp label (List.mem_append_left _ hlabel)).snoc ?_
      exact himp _ (by simp) _ _ hlast

theorem Run.append {labels more : List ε} {s s' : σ}
    (hrun : Run Step start labels s) (hmore : Run Step s more s') :
    Run Step start (labels ++ more) s' := by
  induction hmore with
  | nil => simpa using hrun
  | snoc _ hlast ih =>
      rw [← List.append_assoc]
      exact ih.snoc hlast

theorem Run.cons {label : ε} {labels : List ε} {s s' : σ} (hfirst : Step start label s)
    (hrun : Run Step s labels s') : Run Step start (label :: labels) s' :=
  (Run.nil.snoc hfirst).append hrun

theorem run_nil_iff {s : σ} : Run Step start [] s ↔ s = start := by
  constructor
  · generalize hnil : ([] : List ε) = labels
    rintro (_ | ⟨_, _⟩)
    · rfl
    · simp at hnil
  · rintro rfl
    exact .nil

theorem run_snoc_iff {labels : List ε} {label : ε} {s' : σ} :
    Run Step start (labels ++ [label]) s' ↔
      ∃ s, Run Step start labels s ∧ Step s label s' := by
  constructor
  · generalize hall : labels ++ [label] = all
    rintro (_ | ⟨hrun, hlast⟩)
    · simp at hall
    · obtain ⟨rfl, hlabel⟩ := List.append_inj' hall rfl
      rw [List.singleton_inj] at hlabel
      exact ⟨_, hrun, hlabel ▸ hlast⟩
  · rintro ⟨s, hrun, hlast⟩
    exact hrun.snoc hlast

theorem run_append_iff {labels more : List ε} {s' : σ} :
    Run Step start (labels ++ more) s' ↔
      ∃ s, Run Step start labels s ∧ Run Step s more s' := by
  constructor
  · induction more using List.reverseRecOn generalizing s' with
    | nil => exact fun hrun => ⟨s', by simpa using hrun, .nil⟩
    | append_singleton more label ih =>
        rw [← List.append_assoc, run_snoc_iff]
        rintro ⟨s, hrun, hlast⟩
        obtain ⟨middle, hbefore, hafter⟩ := ih hrun
        exact ⟨middle, hbefore, hafter.snoc hlast⟩
  · rintro ⟨s, hrun, hmore⟩
    exact hrun.append hmore

theorem run_of_foldlM {f : σ → ε → Option σ} {labels : List ε} {start s' : σ}
    (hfold : labels.foldlM f start = some s') :
    Run (fun s label s' => f s label = some s') start labels s' := by
  induction labels using List.reverseRecOn generalizing s' with
  | nil =>
      obtain rfl : start = s' := by simpa using hfold
      exact .nil
  | append_singleton labels label ih =>
      rw [List.foldlM_append] at hfold
      obtain ⟨s, hrun, hlast⟩ := Option.bind_eq_some_iff.mp hfold
      exact (ih hrun).snoc (by simpa using hlast)

def checked (check : σ → ε → Bool) (f : σ → ε → Option σ) (s : σ) (label : ε) : Option σ :=
  if check s label then f s label else none

theorem run_of_checked {check : σ → ε → Bool} {f : σ → ε → Option σ} {labels : List ε}
    {start s' : σ} (hfold : labels.foldlM (checked check f) start = some s') :
    Run (fun s label s' => f s label = some s' ∧ check s label = true) start labels s' := by
  refine (run_of_foldlM hfold).imp fun label _ s s' hstep => ?_
  unfold checked at hstep
  split at hstep
  · rename_i hcheck
    exact ⟨hstep, hcheck⟩
  · cases hstep

end TorrentServer.Library.Runs
