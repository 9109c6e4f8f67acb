import AndroidX86Tv.BootControl.ActiveSlot
import AndroidX86Tv.BootControl.LastMode
import AndroidX86Tv.BootControl.ModeAndSlot
import AndroidX86Tv.BootControl.SwitchBack

/-!
# The slot and the mode of a boot config

A boot config keeps two settings, the slot in its references and the mode in an
assignment. A rewrite of one leaves the other: whatever is set in whatever order,
the content is the first one with the last letter in its references and the last
mode in its assignment.
-/

namespace AndroidX86Tv.BootControl

open ListReplacement

section Relabelled

variable {x₀ x y : Char} {s : Text} (hx₀ : x₀.isAlphanum = true) (hbounded : Bounded x₀ s)

theorem rewriteSlot_same (x₀ : Char) (s : Text) : rewriteSlot x₀ x₀ s = s :=
  rewriteContent_same ['_', x₀] (List.cons_ne_nil _ _) s

include hx₀ hbounded in
/-- The rewrite puts the letter at the references and changes nothing else. -/
theorem rewriteSlot_getElem? (hx : x ≠ '_') (j : Nat) :
    (LetterAt texts x₀ s j → (rewriteSlot x₀ x s)[j]? = some x) ∧
      (¬ LetterAt texts x₀ s j → (rewriteSlot x₀ x s)[j]? = s[j]?) := by
  rcases eq_or_ne x₀ x with rfl | hne
  · rw [rewriteSlot_same]
    exact ⟨LetterAt.getElem?, fun _ => rfl⟩
  · exact ⟨rewriteSlot_letter hx hx₀ hne hbounded, rewriteSlot_other hx hx₀ hne hbounded⟩

variable (hfree : x ≠ x₀ → Unreferenced x s)

include hx₀ hbounded hfree in
/-- The rewritten content has references where the content had them. -/
theorem occursAt_relabelled_iff (hx : x ≠ '_') {t : Text} (ht : t ∈ texts) {i : Nat} :
    OccursAt (refText t x) (rewriteSlot x₀ x s) i ↔ OccursAt (refText t x₀) s i := by
  rcases eq_or_ne x₀ x with rfl | hne
  · rw [rewriteSlot_same]
  · exact occursAt_rewriteSlot_iff hx hx₀ hne hbounded (hfree hne.symm) ht

include hx₀ hbounded hfree in
theorem letterAt_relabelled_iff (hx : x ≠ '_') {j : Nat} :
    LetterAt texts x (rewriteSlot x₀ x s) j ↔ LetterAt texts x₀ s j := by
  refine exists_congr fun t => and_congr_right fun ht => exists_congr fun i => ?_
  rw [occursAt_relabelled_iff hx₀ hbounded hfree hx ht]

include hx₀ hbounded hfree in
theorem bounded_relabelled (hx : x ≠ '_') : Bounded x (rewriteSlot x₀ x s) := by
  rcases eq_or_ne x₀ x with rfl | hne
  · rwa [rewriteSlot_same]
  · exact bounded_rewriteSlot hx hx₀ hne hbounded (hfree hne.symm)

include hx₀ hbounded hfree in
/-- A second rewrite, from the letter the first one wrote, gives what one rewrite
of the first content gives. -/
theorem rewriteSlot_trans (hx : x.isAlphanum = true) (hy : y ≠ '_') :
    rewriteSlot x y (rewriteSlot x₀ x s) = rewriteSlot x₀ y s := by
  have hunder := ne_underscore_of_isAlphanum hx
  have hbounded' := bounded_relabelled hx₀ hbounded hfree hunder
  apply List.ext_getElem?
  intro j
  have hiff := letterAt_relabelled_iff hx₀ hbounded hfree hunder (j := j)
  obtain ⟨hat, hother⟩ := rewriteSlot_getElem? hx hbounded' hy j
  by_cases hletter : LetterAt texts x₀ s j
  · rw [hat (hiff.mpr hletter), (rewriteSlot_getElem? hx₀ hbounded hy j).1 hletter]
  · calc (rewriteSlot x y (rewriteSlot x₀ x s))[j]?
        = (rewriteSlot x₀ x s)[j]? := hother fun h => hletter (hiff.mp h)
      _ = s[j]? := (rewriteSlot_getElem? hx₀ hbounded hunder j).2 hletter
      _ = (rewriteSlot x₀ y s)[j]? := ((rewriteSlot_getElem? hx₀ hbounded hy j).2 hletter).symm

end Relabelled

section Mode

variable {x₀ x y : Char} {s : Text}

/-- The rewrite keeps the lines complete. -/
theorem endsInNewline_rewriteSlot (hx₀ : x₀.isAlphanum = true) (hx : x ≠ '_')
    (hnewline : x ≠ '\n') (hbounded : Bounded x₀ s) (hlines : EndsInNewline s) :
    EndsInNewline (rewriteSlot x₀ x s) := by
  rcases eq_or_ne x₀ x with rfl | hne
  · rwa [rewriteSlot_same]
  · have hcomplete := terminated_rewriteSlot hx₀ hx hne hnewline hbounded
    rw [terminated_eq_self hlines] at hcomplete
    obtain ⟨_, hterminated, -, -⟩ := exists_terminated (rewriteSlot x₀ x s)
    rwa [hcomplete] at hterminated

/-- In complete lines with bounded references the mode can be selected before or after
the slots are rewritten. -/
theorem selectBootMode_relabelled (hx₀ : x₀.isAlphanum = true) (hx : x ∈ slotLetters)
    (hbounded : Bounded x₀ s) (hlines : EndsInNewline s) (arg : Text) :
    selectBootMode arg (rewriteSlot x₀ x s) = rewriteSlot x₀ x (selectBootMode arg s) := by
  rcases eq_or_ne x₀ x with rfl | hne
  · rw [rewriteSlot_same, rewriteSlot_same]
  · have hunder := ne_underscore_of_isAlphanum (slotLetters_isAlphanum x hx)
    have hword := slotLetters_endsWord x hx
    have hnewline : x ≠ '\n' := by
      rintro rfl
      exact absurd hword (by decide)
    have hassign : ∀ key ∈ keys, assignFirst endsWord key (newMode arg) (rewriteSlot x₀ x s) =
        (assignFirst endsWord key (newMode arg) s).map (rewriteSlot x₀ x) := fun key hkey =>
      assignFirst_rewriteSlot hkey hx₀ hunder hne hword (newMode_underscore arg) hbounded
    rw [selectBootMode_of_lines (endsInNewline_rewriteSlot hx₀ hunder hnewline hbounded hlines),
      selectBootMode_of_lines hlines, hassign androidKey (by simp [keys]),
      hassign modeKey (by simp [keys]), ← Option.map_or]
    exact Option.getD_map _ _ _

/-- The mode keeps the references bounded. -/
theorem bounded_selectBootMode (hx₀ : x₀.isAlphanum = true) (hbounded : Bounded x₀ s)
    (hlines : EndsInNewline s) (arg : Text) : Bounded x₀ (selectBootMode arg s) := by
  have hmode := newMode_underscore arg
  rcases exists_firstAt androidKey_ne_nil s with hno | ⟨pre, rest, rfl, hfirst⟩
  · rcases exists_firstAt modeKey_ne_nil s with hno' | ⟨pre, rest, rfl, hfirst⟩
    · rwa [selectBootMode_of_none arg hno hno' hlines]
    · rw [selectBootMode_of_mode arg hfirst hno hlines]
      exact bounded_assignment (by simp [keys]) hx₀ hmode hbounded
  · rw [selectBootMode_of_android arg hfirst hlines]
    exact bounded_assignment (by simp [keys]) hx₀ hmode hbounded

/-- The mode brings in no reference: rewriting those to the letter `y` changes nothing
before the mode is selected, so nothing afterwards. -/
theorem unreferenced_selectBootMode (hy : y ∈ slotLetters) (hfree : Unreferenced y s)
    (hlines : EndsInNewline s) (arg : Text) : Unreferenced y (selectBootMode arg s) := by
  obtain ⟨z, hz, hne⟩ : ∃ z ∈ slotLetters, y ≠ z := by
    by_cases ha : y = 'a'
    · exact ⟨'b', by decide, by simp [ha]⟩
    · exact ⟨'a', by decide, ha⟩
  have halnum := slotLetters_isAlphanum y hy
  have hunder := ne_underscore_of_isAlphanum (slotLetters_isAlphanum z hz)
  have hbounded : Bounded y s := fun t ht i hocc => absurd hocc (hfree t ht i)
  have hsame : rewriteSlot y z (selectBootMode arg s) = selectBootMode arg s := by
    rw [← selectBootMode_relabelled halnum hz hbounded hlines, rewriteSlot,
      rewriteContent_eq_self hfree]
  intro t ht i hocc
  have hletter := rewriteSlot_letter hunder halnum hne
    (bounded_selectBootMode halnum hbounded hlines arg) ⟨t, ht, i, hocc, rfl⟩
  rw [hsame, letter_of_occursAt hocc] at hletter
  exact hne (Option.some.inj hletter)

/-- The content after the last selection of a mode, if there was one. -/
def withMode : Option Text → Text → Text
  | none, content => content
  | some arg, content => selectBootMode arg content

theorem withMode_bounded (hx₀ : x₀.isAlphanum = true) (hbounded : Bounded x₀ s)
    (hlines : EndsInNewline s) (mode : Option Text) : Bounded x₀ (withMode mode s) := by
  cases mode with
  | none => exact hbounded
  | some arg => exact bounded_selectBootMode hx₀ hbounded hlines arg

theorem withMode_lines (hlines : EndsInNewline s) (mode : Option Text) :
    EndsInNewline (withMode mode s) := by
  cases mode with
  | none => exact hlines
  | some arg => exact selectBootMode_endsInNewline arg s

theorem withMode_unreferenced (hy : y ∈ slotLetters) (hfree : Unreferenced y s)
    (hlines : EndsInNewline s) (mode : Option Text) : Unreferenced y (withMode mode s) := by
  cases mode with
  | none => exact hfree
  | some arg => exact unreferenced_selectBootMode hy hfree hlines arg

/-- A further selection counts alone. -/
theorem selectBootMode_withMode (hlines : EndsInNewline s) (mode : Option Text) (arg : Text) :
    selectBootMode arg (withMode mode s) = withMode (some arg) s := by
  cases mode with
  | none => rfl
  | some earlier => exact selectBootMode_twice_of_lines hlines earlier arg

end Mode

end AndroidX86Tv.BootControl
