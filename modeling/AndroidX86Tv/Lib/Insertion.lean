import AndroidX86Tv.Lib.History

/-!
# Runs with inserted inputs

A run is compared with the run that some of its inputs are left out of, at the points
that both of them have: after each of the other inputs, and at the end.
-/

namespace InsertedInputs

open EventHistory

variable {S I : Type*} (step : S → I → S) (inserted : I → Bool) (agrees : S → S → Prop)

/-- The runs are compared between the inputs: these are the last ones, or the last of those
before is not inserted. -/
def Compared (before after : List I) : Prop :=
  after = [] ∨ ∃ rest i, before = rest ++ [i] ∧ inserted i = false

/-- From two states on, the runs with the inserted inputs and without them agree wherever
they are compared. -/
def AgreesThroughout (a b : S) (inputs : List I) : Prop :=
  ∀ before after, inputs = before ++ after → Compared inserted before after →
    agrees (run step a before) (run step b (before.filter fun i => !inserted i))

/-- The same, input by input. -/
def AgreesFrom : S → S → List I → Prop
  | a, b, [] => agrees a b
  | a, b, i :: inputs =>
      if inserted i then AgreesFrom (step a i) b inputs
      else agrees (step a i) (step b i) ∧ AgreesFrom (step a i) (step b i) inputs

variable {step inserted agrees} {a b : S} {i : I} {inputs : List I}

theorem agreesFrom_inserted (hi : inserted i = true) :
    AgreesFrom step inserted agrees a b (i :: inputs) ↔
      AgreesFrom step inserted agrees (step a i) b inputs := by
  rw [AgreesFrom, if_pos hi]

theorem agreesFrom_other (hi : inserted i = false) :
    AgreesFrom step inserted agrees a b (i :: inputs) ↔
      agrees (step a i) (step b i) ∧
        AgreesFrom step inserted agrees (step a i) (step b i) inputs := by
  rw [AgreesFrom, if_neg (by rw [hi]; decide)]

theorem Compared.cons {before after : List I} (h : Compared inserted before after) (i : I) :
    Compared inserted (i :: before) after := by
  cases h with
  | inl hend => exact Or.inl hend
  | inr hlast =>
      obtain ⟨rest, j, rfl, hj⟩ := hlast
      exact Or.inr ⟨i :: rest, j, rfl, hj⟩

/-- A point after an input is compared if it is one of the rest of the run, or the input
is not inserted and stands alone. -/
theorem compared_cons {before after : List I} (h : Compared inserted (i :: before) after) :
    Compared inserted before after ∨ before = [] ∧ inserted i = false := by
  cases h with
  | inl hend => exact Or.inl (Or.inl hend)
  | inr hlast =>
      obtain ⟨rest, j, heq, hj⟩ := hlast
      cases rest with
      | nil =>
          obtain ⟨rfl, hbefore⟩ := List.cons.inj heq
          exact Or.inr ⟨hbefore, hj⟩
      | cons first rest =>
          obtain ⟨rfl, hbefore⟩ := List.cons.inj heq
          exact Or.inl (Or.inr ⟨rest, j, hbefore, hj⟩)

theorem not_compared_nil {after : List I} : ¬ Compared inserted [] (i :: after) := by
  rintro (hend | ⟨rest, j, hnil, -⟩)
  · cases hend
  · exact List.append_ne_nil_of_right_ne_nil rest (List.cons_ne_nil j []) hnil.symm

/-- The points of a run behind its first input are those of the rest of it. -/
theorem agreesThroughout_cons (b' : S) (hb : ∀ before : List I,
    run step b ((i :: before).filter fun i => !inserted i) =
      run step b' (before.filter fun i => !inserted i)) :
    AgreesThroughout step inserted agrees a b (i :: inputs) ↔
      (inserted i = false → agrees (step a i) b') ∧
        AgreesThroughout step inserted agrees (step a i) b' inputs := by
  constructor
  · intro h
    constructor
    · intro hi
      have hpoint := h [i] inputs rfl (Or.inr ⟨[], i, rfl, hi⟩)
      rwa [hb []] at hpoint
    · intro before after heq hcompared
      have hpoint := h (i :: before) after (congrArg (i :: ·) heq) (hcompared.cons i)
      rwa [hb before] at hpoint
  · rintro ⟨hhead, hrest⟩ before after heq hcompared
    cases before with
    | nil =>
        have hafter : i :: inputs = after := heq
        rw [← hafter] at hcompared
        exact absurd hcompared not_compared_nil
    | cons first before =>
        obtain ⟨rfl, htail⟩ := List.cons.inj heq
        rw [hb before]
        cases compared_cons hcompared with
        | inl hlater => exact hrest before after htail hlater
        | inr halone =>
            rw [halone.1]
            exact hhead halone.2

/-- To agree wherever they are compared is to agree input by input. -/
theorem agreesThroughout_iff : AgreesThroughout step inserted agrees a b inputs ↔
    AgreesFrom step inserted agrees a b inputs := by
  induction inputs generalizing a b with
  | nil =>
      constructor
      · intro h
        exact h [] [] rfl (Or.inl rfl)
      · intro h before after heq _
        rw [(List.append_eq_nil_iff.mp heq.symm).1]
        exact h
  | cons i inputs ih =>
      cases hi : inserted i with
      | true =>
          rw [agreesFrom_inserted hi, ← ih, agreesThroughout_cons b]
          · exact and_iff_right fun hother => absurd (hi.symm.trans hother) (by decide)
          · intro before
            rw [List.filter_cons_of_neg (by rw [hi]; decide)]
      | false =>
          rw [agreesFrom_other hi, ← ih, agreesThroughout_cons (step b i)]
          · exact and_congr_left fun _ => ⟨fun hhead => hhead hi, fun hhead _ => hhead⟩
          · intro before
            rw [List.filter_cons_of_pos (by rw [hi]; decide), run_cons]

/-- The comparison may be made on abstractions of the states. -/
theorem agreesFrom_abstract {T : Type*} (abs : S → T) (step' : T → I → T)
    (agrees' : T → T → Prop) (inv : S → Prop) (hkeep : ∀ s i, inv s → inv (step s i))
    (habs : ∀ s i, inv s → abs (step s i) = step' (abs s) i)
    (hagrees : ∀ a b, agrees a b ↔ agrees' (abs a) (abs b)) (ha : inv a) (hb : inv b) :
    AgreesFrom step inserted agrees a b inputs ↔
      AgreesFrom step' inserted agrees' (abs a) (abs b) inputs := by
  induction inputs generalizing a b with
  | nil => exact hagrees a b
  | cons i inputs ih =>
      cases hi : inserted i with
      | true =>
          rw [agreesFrom_inserted hi, agreesFrom_inserted hi, ih (hkeep a i ha) hb, habs a i ha]
      | false =>
          rw [agreesFrom_other hi, agreesFrom_other hi, ih (hkeep a i ha) (hkeep b i hb),
            hagrees, habs a i ha, habs b i hb]

end InsertedInputs
