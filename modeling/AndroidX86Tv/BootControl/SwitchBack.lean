import AndroidX86Tv.BootControl.BoundedReference

/-!
# Switching the slot and back

In a content with bounded references to the old letter and none to the new one,
the references to the new letter after the rewrite are those to the old one
before it. The rewrite back therefore changes the same letters again.
-/

namespace AndroidX86Tv.BootControl

open ListReplacement

/-- No text is followed by the suffix with letter `x`. -/
def Unreferenced (x : Char) (content : Text) : Prop :=
  ∀ t ∈ texts, ∀ i, ¬ OccursAt (refText t x) content i

section

variable {x₀ x : Char} {t : Text} {s : Text} {i : Nat} (hx : x ≠ '_')
  (hx₀ : x₀.isAlphanum = true) (hne : x₀ ≠ x) (hbounded : Bounded x₀ s)

include hx hx₀ hne hbounded in
/-- A reference to the old letter becomes one to the new letter. -/
theorem occursAt_new (ht : t ∈ texts) (hocc : OccursAt (refText t x₀) s i) :
    OccursAt (refText t x) (rewriteSlot x₀ x s) i := by
  refine (occursAt_iff _ _ _).mpr fun k hk => ?_
  rw [refText_length] at hk
  by_cases hlast : k = t.length + 1
  · rw [hlast, refText_getElem?_letter]
    exact rewriteSlot_letter hx hx₀ hne hbounded ⟨t, ht, i, hocc, rfl⟩
  · have hother : ¬ LetterAt texts x₀ s (i + k) := by
      rintro ⟨t₀, ht₀, i₀, hold, hj⟩
      exact hlast (hbounded.overlap (ne_underscore_of_isAlphanum hx₀) ht ht₀ hocc hold hk hj)
    have hsame : (refText t x₀)[k]? = (refText t x)[k]? := by
      rcases Nat.lt_or_ge k t.length with hin | hout
      · rw [refText_getElem?_text x₀ hin, refText_getElem?_text x hin]
      · rw [show k = t.length by omega, refText_getElem?_underscore, refText_getElem?_underscore]
    rw [rewriteSlot_other hx hx₀ hne hbounded hother, hocc.getElem? (by rwa [refText_length]),
      hsame]

include hx hx₀ hne hbounded in
/-- A reference to the new letter meets a letter that was changed with its own
letter only. -/
theorem overlap_new (ht : t ∈ texts) (hocc : OccursAt (refText t x) (rewriteSlot x₀ x s) i)
    {k : Nat} (hk : k < t.length + 2) (hletter : LetterAt texts x₀ s (i + k)) :
    k = t.length + 1 := by
  obtain ⟨t₀, ht₀, i₀, hold, hj⟩ := hletter
  have hnew := occursAt_new hx hx₀ hne hbounded ht₀ hold
  rcases ref_overlap ht ht₀ hx hocc hnew hk hj with ⟨rfl, -⟩ | ⟨hlast, -⟩
  · -- the second letter of the text would go on behind a bounded reference
    obtain ⟨c, hnext, halnum⟩ := second_of_occursAt ht hocc
    obtain ⟨d, hd, hdigit⟩ := alphanum_of_rewriteSlot hx hx₀ hne hbounded hnext halnum
    rw [show i + 1 = i₀ + (t₀.length + 2) by omega] at hd
    exact absurd hdigit (by simp [hbounded t₀ ht₀ i₀ hold d hd])
  · exact hlast

variable (hfree : Unreferenced x s)

include hx hx₀ hne hbounded hfree in
/-- The references to the new letter afterwards are those to the old one before. -/
theorem occursAt_rewriteSlot_iff (ht : t ∈ texts) :
    OccursAt (refText t x) (rewriteSlot x₀ x s) i ↔ OccursAt (refText t x₀) s i := by
  constructor
  · intro hocc
    have hkept : ∀ k < t.length + 1, s[i + k]? = (refText t x)[k]? := by
      intro k hk
      have hother : ¬ LetterAt texts x₀ s (i + k) := by
        intro hletter
        have hlast := overlap_new hx hx₀ hne hbounded ht hocc (by omega) hletter
        omega
      rw [← rewriteSlot_other hx hx₀ hne hbounded hother]
      exact hocc.getElem? (by rw [refText_length]; omega)
    by_cases hletter : LetterAt texts x₀ s (i + (t.length + 1))
    · refine (occursAt_iff _ _ _).mpr fun k hk => ?_
      rw [refText_length] at hk
      rcases Nat.lt_trichotomy k t.length with hin | rfl | hlast
      · rw [hkept k (by omega), refText_getElem?_text x hin, refText_getElem?_text x₀ hin]
      · rw [hkept t.length (by omega), refText_getElem?_underscore, refText_getElem?_underscore]
      · rw [show k = t.length + 1 by omega, refText_getElem?_letter, hletter.getElem?]
    · -- the reference would have been there before
      refine absurd ((occursAt_iff _ _ _).mpr fun k hk => ?_) (hfree t ht i)
      rw [refText_length] at hk
      rcases Nat.lt_or_ge k (t.length + 1) with hin | hlast
      · exact hkept k hin
      · rw [show k = t.length + 1 by omega, ← rewriteSlot_other hx hx₀ hne hbounded hletter]
        exact hocc.getElem? (by rw [refText_length]; omega)
  · exact occursAt_new hx hx₀ hne hbounded ht

include hx hx₀ hne hbounded hfree in
theorem letterAt_rewriteSlot_iff {j : Nat} :
    LetterAt texts x (rewriteSlot x₀ x s) j ↔ LetterAt texts x₀ s j := by
  refine exists_congr fun t => and_congr_right fun ht => exists_congr fun i => ?_
  rw [occursAt_rewriteSlot_iff hx hx₀ hne hbounded hfree ht]

include hx hx₀ hne hbounded hfree in
/-- The rewrite leaves the references to the new letter bounded. -/
theorem bounded_rewriteSlot : Bounded x (rewriteSlot x₀ x s) := by
  intro t ht i hocc c hc
  have hold := (occursAt_rewriteSlot_iff hx hx₀ hne hbounded hfree ht).mp hocc
  have hother : ¬ LetterAt texts x₀ s (i + (t.length + 2)) := fun hletter =>
    absurd hx₀ (by simp [hbounded t ht i hold x₀ hletter.getElem?])
  rw [rewriteSlot_other hx hx₀ hne hbounded hother] at hc
  exact hbounded t ht i hold c hc

end

/-- Switching the slot and back restores the content. -/
theorem rewriteSlot_rewriteSlot {x₀ x : Char} {s : Text} (hx₀ : x₀.isAlphanum = true)
    (hx : x.isAlphanum = true) (hne : x₀ ≠ x) (hbounded : Bounded x₀ s)
    (hfree : Unreferenced x s) : rewriteSlot x x₀ (rewriteSlot x₀ x s) = s := by
  have hunder := ne_underscore_of_isAlphanum hx
  have hunder₀ := ne_underscore_of_isAlphanum hx₀
  have hbounded' := bounded_rewriteSlot hunder hx₀ hne hbounded hfree
  apply List.ext_getElem?
  intro j
  have hiff := letterAt_rewriteSlot_iff hunder hx₀ hne hbounded hfree (j := j)
  by_cases hletter : LetterAt texts x₀ s j
  · rw [rewriteSlot_letter hunder₀ hx hne.symm hbounded' (hiff.mpr hletter), hletter.getElem?]
  · calc (rewriteSlot x x₀ (rewriteSlot x₀ x s))[j]?
        = (rewriteSlot x₀ x s)[j]? := rewriteSlot_other hunder₀ hx hne.symm hbounded'
            fun h => hletter (hiff.mp h)
      _ = s[j]? := rewriteSlot_other hunder hx₀ hne hbounded hletter

/-- A content without the letter has no reference to it. -/
theorem unreferenced_of_not_mem {x : Char} {s : Text} (h : x ∉ s) : Unreferenced x s :=
  fun _ _ _ hocc => h (List.mem_of_getElem? (letter_of_occursAt hocc))

theorem rewriteSlot_rewriteSlot_two_references :
    rewriteSlot 'c' 'a' (rewriteSlot 'a' 'c' "kernel /kernel_a\ninitrd /initrd_a".toList) =
      "kernel /kernel_a\ninitrd /initrd_a".toList :=
  rewriteSlot_rewriteSlot (by decide) (by decide) (by decide) (by decide +kernel)
    (unreferenced_of_not_mem (by decide +kernel))

end AndroidX86Tv.BootControl
