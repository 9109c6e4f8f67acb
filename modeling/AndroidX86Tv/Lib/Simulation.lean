import AndroidX86Tv.Lib.History

/-!
# Simulation of a partial machine

A machine whose step may have no result is matched by a total one, step by step:
each step of the first one is given a label, and the second one takes the labels.
A relation that every such pair of steps keeps is kept by whole runs, which then
have a result.
-/

namespace Simulation

variable {S T I J : Type*} (step : S → I → Option S) (label : S → I → J)

/-- A run of a partial machine has a result if each of its steps has one. -/
def run (s : S) (inputs : List I) : Option S := inputs.foldlM step s

/-- The labels of the steps of a run, as far as it goes. -/
def labels : S → List I → List J
  | _, [] => []
  | s, i :: inputs =>
      label s i :: match step s i with
        | none => []
        | some s' => labels s' inputs

variable {step label}

theorem run_cons {s s' : S} {i : I} (h : step s i = some s') (inputs : List I) :
    run step s (i :: inputs) = run step s' inputs := by
  simp [run, h]

theorem labels_cons {s s' : S} {i : I} (h : step s i = some s') (inputs : List I) :
    labels step label s (i :: inputs) = label s i :: labels step label s' inputs := by
  simp [labels, h]

theorem run_append {s s' : S} {before : List I} (h : run step s before = some s')
    (after : List I) : run step s (before ++ after) = run step s' after := by
  rw [run, List.foldlM_append]
  exact congrArg (· >>= fun s => run step s after) h

/-- A relation that is kept step by step is kept by runs. -/
theorem run_simulates {abs : T → J → T} {R : S → T → Prop} {Q : I → Prop}
    (hstep : ∀ s t i, R s t → Q i → ∃ s', step s i = some s' ∧ R s' (abs t (label s i)))
    {s : S} {t : T} (hR : R s t) {inputs : List I} (hQ : ∀ i ∈ inputs, Q i) :
    ∃ s', run step s inputs = some s' ∧
      R s' (EventHistory.run abs t (labels step label s inputs)) := by
  induction inputs generalizing s t with
  | nil => exact ⟨s, rfl, hR⟩
  | cons i inputs ih =>
      obtain ⟨s₁, hs₁, hR₁⟩ := hstep s t i hR (hQ i List.mem_cons_self)
      obtain ⟨s₂, hs₂, hR₂⟩ := ih hR₁ fun j hj => hQ j (List.mem_cons_of_mem i hj)
      refine ⟨s₂, (run_cons hs₁ inputs).trans hs₂, ?_⟩
      rw [labels_cons hs₁]
      exact hR₂

/-- A condition on the steps that holds of the label holds of all labels of a run. -/
theorem forall_labels {Q : I → Prop} {P : J → Prop} (h : ∀ s i, Q i → P (label s i)) {s : S}
    {inputs : List I} (hQ : ∀ i ∈ inputs, Q i) : ∀ j ∈ labels step label s inputs, P j := by
  induction inputs generalizing s with
  | nil => exact List.forall_mem_nil P
  | cons i inputs ih =>
      refine List.forall_mem_cons.mpr ⟨h s i (hQ i List.mem_cons_self), ?_⟩
      cases step s i with
      | none => exact List.forall_mem_nil P
      | some s' => exact ih fun j hj => hQ j (List.mem_cons_of_mem i hj)

end Simulation
