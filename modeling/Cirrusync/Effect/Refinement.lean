import Mathlib.Logic.Basic

/-!
Machines whose steps can be observed, and the logs of what is observed. Where the steps of
two machines simulate each other, both have the same logs.
-/

namespace Effect

variable {S T L : Type}

/-- A run of a machine and the log that it makes. -/
inductive Logs (step : S → L → S → Prop) : S → List L → S → Prop where
  | nil (s : S) : Logs step s [] s
  | cons {s s' t : S} {label : L} {rest : List L} :
      step s label s' → Logs step s' rest t → Logs step s (label :: rest) t

variable {step : S → L → S → Prop} {step' : T → L → T → Prop} {R : S → T → Prop}

/-- What each step keeps holds after every run. -/
theorem Logs.invariant {inv : S → Prop} (hstep : ∀ s label s', inv s → step s label s' → inv s')
    {s t : S} {log : List L} (hrun : Logs step s log t) (hs : inv s) : inv t := by
  induction hrun with
  | nil s => exact hs
  | cons hfirst _ ih => exact ih (hstep _ _ _ hs hfirst)

/-- Related machines stay related along a run. -/
theorem Logs.simulates (hstep : ∀ s t label s', R s t → step s label s' →
      ∃ t', step' t label t' ∧ R s' t')
    {s s' : S} {t : T} {log : List L} (hrun : Logs step s log s') (hrelated : R s t) :
    ∃ t', Logs step' t log t' ∧ R s' t' := by
  induction hrun generalizing t with
  | nil s => exact ⟨t, .nil t, hrelated⟩
  | cons hfirst _ ih =>
      obtain ⟨t', hfirst', hrelated'⟩ := hstep _ _ _ _ hrelated hfirst
      obtain ⟨t'', hrest, hlast⟩ := ih hrelated'
      exact ⟨t'', .cons hfirst' hrest, hlast⟩

/-- Machines that simulate each other have the same logs. -/
theorem exists_logs_iff (hforward : ∀ s t label s', R s t → step s label s' →
      ∃ t', step' t label t' ∧ R s' t')
    (hbackward : ∀ s t label t', R s t → step' t label t' → ∃ s', step s label s' ∧ R s' t')
    {s : S} {t : T} (hrelated : R s t) (log : List L) :
    (∃ s', Logs step s log s') ↔ ∃ t', Logs step' t log t' := by
  constructor
  · rintro ⟨s', hrun⟩
    obtain ⟨t', hrun', -⟩ := hrun.simulates hforward hrelated
    exact ⟨t', hrun'⟩
  · rintro ⟨t', hrun⟩
    obtain ⟨s', hrun', -⟩ := hrun.simulates
      (R := fun t s => R s t) (fun t s => hbackward s t) hrelated
    exact ⟨s', hrun'⟩

end Effect
