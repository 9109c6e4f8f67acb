import Mathlib.Data.List.Basic

/-!
# Runs and histories

A run feeds inputs to a step function one after the other. `AllSteps` says that
every step of a run meets a condition on the state before it and its input, and
carries an invariant along. A history lists events, the latest first;
`Everywhere` says that every event suits the events before it.
-/

namespace EventHistory

section Runs

variable {S I : Type*} (step : S → I → S)

def run : S → List I → S := List.foldl step

/-- Every step of the run meets the condition. -/
def AllSteps (meets : S → I → Prop) : S → List I → Prop
  | _, [] => True
  | s, i :: inputs => meets s i ∧ AllSteps meets (step s i) inputs

@[simp] theorem run_cons (s : S) (i : I) (inputs : List I) :
    run step s (i :: inputs) = run step (step s i) inputs := rfl

theorem run_append (s : S) (before after : List I) :
    run step s (before ++ after) = run step (run step s before) after :=
  List.foldl_append

variable {step}

@[simp] theorem allSteps_cons (meets : S → I → Prop) (s : S) (i : I) (inputs : List I) :
    AllSteps step meets s (i :: inputs) ↔ meets s i ∧ AllSteps step meets (step s i) inputs :=
  Iff.rfl

/-- What every step that meets the condition preserves holds after the run. -/
theorem AllSteps.invariant {meets : S → I → Prop} {inv : S → Prop}
    (hstep : ∀ s i, inv s → meets s i → inv (step s i)) {s : S} {inputs : List I}
    (hmeets : AllSteps step meets s inputs) (hinv : inv s) : inv (run step s inputs) := by
  induction inputs generalizing s with
  | nil => exact hinv
  | cons i inputs ih => exact ih hmeets.2 (hstep s i hinv hmeets.1)

theorem AllSteps.mono {A B : S → I → Prop} (h : ∀ s i, A s i → B s i) {s : S} {inputs : List I}
    (hA : AllSteps step A s inputs) : AllSteps step B s inputs := by
  induction inputs generalizing s with
  | nil => trivial
  | cons i inputs ih => exact ⟨h s i hA.1, ih hA.2⟩

/-- On a run whose states all meet an invariant, conditions are compared under it. -/
theorem AllSteps.mono_of_inv {A B : S → I → Prop} {inv : S → Prop} {Q : I → Prop}
    (hstep : ∀ s i, inv s → inv (step s i)) (h : ∀ s i, inv s → Q i → A s i → B s i) {s : S}
    {inputs : List I} (hs : inv s) (hQ : ∀ i ∈ inputs, Q i) (hA : AllSteps step A s inputs) :
    AllSteps step B s inputs := by
  induction inputs generalizing s with
  | nil => trivial
  | cons i inputs ih =>
      constructor
      · exact h s i hs (hQ i List.mem_cons_self) hA.1
      · exact ih (hstep s i hs) (fun j hj => hQ j (List.mem_cons_of_mem i hj)) hA.2

/-- What an invariant gives at each step that meets a condition holds at every step of a run
that meets it throughout, if such steps keep the invariant. -/
theorem AllSteps.of_inv {A B : S → I → Prop} {inv : S → Prop}
    (hmeets : ∀ s i, inv s → A s i → B s i) (hkeep : ∀ s i, inv s → A s i → inv (step s i)) {s : S}
    {inputs : List I} (hs : inv s) (hA : AllSteps step A s inputs) : AllSteps step B s inputs := by
  induction inputs generalizing s with
  | nil => trivial
  | cons i inputs ih => exact ⟨hmeets s i hs hA.1, ih (hkeep s i hs hA.1) hA.2⟩

theorem AllSteps.and {A B : S → I → Prop} {s : S} {inputs : List I}
    (hA : AllSteps step A s inputs) (hB : AllSteps step B s inputs) :
    AllSteps step (fun s i => A s i ∧ B s i) s inputs := by
  induction inputs generalizing s with
  | nil => trivial
  | cons i inputs ih => exact ⟨⟨hA.1, hB.1⟩, ih hA.2 hB.2⟩

/-- On runs that meet a third condition, two conditions that agree wherever an invariant
holds agree, if one of them preserves the invariant. -/
theorem allSteps_congr {A B C : S → I → Prop} {inv : S → Prop}
    (hiff : ∀ s i, inv s → C s i → (A s i ↔ B s i))
    (hinv : ∀ s i, inv s → C s i → A s i → inv (step s i)) {s : S} {inputs : List I} (hs : inv s)
    (hC : AllSteps step C s inputs) : AllSteps step A s inputs ↔ AllSteps step B s inputs := by
  induction inputs generalizing s with
  | nil => exact Iff.rfl
  | cons i inputs ih =>
      rw [allSteps_cons, allSteps_cons, ← hiff s i hs hC.1]
      exact and_congr_right fun hA => ih (hinv s i hs hC.1 hA) hC.2

/-- The same conditions are met by the run of what a map keeps of the states. -/
theorem allSteps_map {T : Type*} {step' : T → I → T} (f : S → T)
    (hstep : ∀ s i, f (step s i) = step' (f s) i) {meets : T → I → Prop} (s : S)
    (inputs : List I) :
    AllSteps step (fun s i => meets (f s) i) s inputs ↔ AllSteps step' meets (f s) inputs := by
  induction inputs generalizing s with
  | nil => exact Iff.rfl
  | cons i inputs ih => rw [allSteps_cons, allSteps_cons, ih, hstep]

instance {meets : S → I → Prop} [∀ s i, Decidable (meets s i)] :
    (s : S) → (inputs : List I) → Decidable (AllSteps step meets s inputs)
  | _, [] => isTrue trivial
  | s, i :: inputs =>
      have : Decidable (AllSteps step meets (step s i) inputs) :=
        instDecidableAllSteps (step s i) inputs
      inferInstanceAs (Decidable (meets s i ∧ AllSteps step meets (step s i) inputs))

theorem run_invariant {inv : S → Prop} (hstep : ∀ s i, inv s → inv (step s i)) {s : S}
    (hinv : inv s) (inputs : List I) : inv (run step s inputs) := by
  induction inputs generalizing s with
  | nil => exact hinv
  | cons i inputs ih => exact ih (hstep s i hinv)

/-- A condition on the inputs alone. -/
theorem allSteps_forall {Q : I → Prop} (f : S → I → S) (s : S) (inputs : List I) :
    AllSteps f (fun _ i => Q i) s inputs ↔ ∀ i ∈ inputs, Q i := by
  induction inputs generalizing s with
  | nil => exact iff_of_true trivial (List.forall_mem_nil Q)
  | cons i inputs ih => rw [allSteps_cons, ih, List.forall_mem_cons]

/-- So it does where the condition is on the inputs. -/
theorem allSteps_of_invariant {meets : S → I → Prop} {inv : S → Prop} {Q : I → Prop}
    (hmeets : ∀ s i, inv s → Q i → meets s i) (hstep : ∀ s i, inv s → Q i → inv (step s i)) {s : S}
    {inputs : List I} (hs : inv s) (hQ : ∀ i ∈ inputs, Q i) : AllSteps step meets s inputs :=
  AllSteps.of_inv hmeets hstep hs ((allSteps_forall step s inputs).mpr hQ)

theorem AllSteps.and_inputs {meets : S → I → Prop} {Q : I → Prop} {s : S} {inputs : List I}
    (hmeets : AllSteps step meets s inputs) (hQ : ∀ i ∈ inputs, Q i) :
    AllSteps step (fun s i => meets s i ∧ Q i) s inputs :=
  hmeets.and ((allSteps_forall step s inputs).mpr hQ)

/-- A property that a step keeps exactly if a condition is met holds all along a run exactly
if every step meets the condition. -/
theorem always_iff_allSteps (P inv : S → Prop) {meets : S → I → Prop}
    (hkeep : ∀ s i, inv s → inv (step s i))
    (hiff : ∀ s i, inv s → P s → (P (step s i) ↔ meets s i)) {s : S} (hinv : inv s) (hs : P s)
    (inputs : List I) :
    (∀ before after, inputs = before ++ after → P (run step s before)) ↔
      AllSteps step meets s inputs := by
  induction inputs generalizing s with
  | nil =>
      refine iff_of_true (fun before after h => ?_) trivial
      rw [(List.append_eq_nil_iff.mp h.symm).1]
      exact hs
  | cons i inputs ih =>
      constructor
      · intro h
        have hnext : P (step s i) := h [i] inputs rfl
        refine ⟨(hiff s i hinv hs).mp hnext, (ih (hkeep s i hinv) hnext).mp ?_⟩
        intro before after heq
        exact h (i :: before) after (congrArg (i :: ·) heq)
      · rintro ⟨hi, hrest⟩ before after heq
        cases before with
        | nil => exact hs
        | cons j before =>
            obtain ⟨rfl, htail⟩ := List.cons.inj heq
            have hnext := (hiff s i hinv hs).mpr hi
            exact (ih (hkeep s i hinv) hnext).mpr hrest before after htail

section Outputs

variable {O : Type*} {output : S → List O} {emits : S → I → List O} {expected : I → List O}
  {meets : S → I → Prop}

/-- No step emits less than expected, so a run does not. -/
theorem length_output_ge (hstep : ∀ s i, output (step s i) = output s ++ emits s i)
    (hleast : ∀ s i, (expected i).length ≤ (emits s i).length) (s : S) (inputs : List I) :
    (output s).length + (inputs.flatMap expected).length ≤ (output (run step s inputs)).length := by
  induction inputs generalizing s with
  | nil => exact Nat.le_refl _
  | cons i inputs ih =>
      have hrest := ih (step s i)
      have hfirst := hleast s i
      rw [hstep, List.length_append] at hrest
      rw [run_cons, List.flatMap_cons, List.length_append]
      omega

/-- A run emits what is expected exactly if every step does, where a step that does
not emits more. -/
theorem output_eq_iff (hstep : ∀ s i, output (step s i) = output s ++ emits s i)
    (hmeets : ∀ s i, meets s i → emits s i = expected i)
    (hmore : ∀ s i, ¬ meets s i → (expected i).length < (emits s i).length) (s : S)
    (inputs : List I) : output (run step s inputs) = output s ++ inputs.flatMap expected ↔
      AllSteps step meets s inputs := by
  have hleast : ∀ s i, (expected i).length ≤ (emits s i).length := by
    intro s i
    by_cases hi : meets s i
    · exact Nat.le_of_eq (by rw [hmeets s i hi])
    · exact Nat.le_of_lt (hmore s i hi)
  induction inputs generalizing s with
  | nil => exact iff_of_true (List.append_nil _).symm trivial
  | cons i inputs ih =>
      rw [run_cons, List.flatMap_cons, ← List.append_assoc, allSteps_cons]
      by_cases hi : meets s i
      · rw [← hmeets s i hi, ← hstep]
        exact (ih (step s i)).trans (and_iff_right hi).symm
      · refine iff_of_false (fun heq => ?_) fun h => hi h.1
        have hlength := length_output_ge hstep hleast (step s i) inputs
        have hmoreHere := hmore s i hi
        rw [heq, hstep, List.length_append, List.length_append, List.length_append] at hlength
        omega

end Outputs

end Runs

section Histories

variable {E : Type*}

/-- The property holds of every event and the events before it. -/
def Everywhere (P : E → List E → Prop) : List E → Prop
  | [] => True
  | e :: past => P e past ∧ Everywhere P past

instance {P : E → List E → Prop} [∀ e past, Decidable (P e past)] :
    (history : List E) → Decidable (Everywhere P history)
  | [] => isTrue trivial
  | e :: past =>
      have : Decidable (Everywhere P past) := instDecidableEverywhere past
      inferInstanceAs (Decidable (P e past ∧ Everywhere P past))

theorem Everywhere.of_append {P : E → List E → Prop} {new past : List E}
    (h : Everywhere P (new ++ past)) : Everywhere P past := by
  induction new with
  | nil => exact h
  | cons e new ih => exact ih h.2

theorem Everywhere.mono {P Q : E → List E → Prop} (h : ∀ e past, P e past → Q e past)
    {history : List E} (hP : Everywhere P history) : Everywhere Q history := by
  induction history with
  | nil => trivial
  | cons e past ih => exact ⟨h e past hP.1, ih hP.2⟩

/-- Two properties agree on a history if they agree on every event of it. -/
theorem everywhere_congr {P Q : E → List E → Prop} {history : List E}
    (h : Everywhere (fun e past => P e past ↔ Q e past) history) :
    Everywhere P history ↔ Everywhere Q history := by
  induction history with
  | nil => exact Iff.rfl
  | cons e past ih => exact and_congr h.1 (ih h.2)

end Histories

end EventHistory
