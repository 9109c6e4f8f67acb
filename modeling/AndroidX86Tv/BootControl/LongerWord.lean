import AndroidX86Tv.BootControl.BoundedReference

/-!
# Words that merely begin with a reference

`SetBootSlot` looks for the texts with the old suffix wherever they stand, also
at the start of a longer word. No round undoes or passes over such a match, but
for one whose first letter another match has as its suffix.
-/

namespace AndroidX86Tv.BootControl

open ListReplacement

/-- A letter, digit or underscore, which goes on with a word. -/
def isWordChar (c : Char) : Bool := c.isAlphanum || c == '_'

/-- The letter of a slot reference, one that no word goes on behind, is at `j`. -/
def SlotReferenceAt (x₀ : Char) (content : Text) (j : Nat) : Prop :=
  LetterAt texts x₀ content j ∧ content[j + 1]?.any isWordChar = false

/-- The letters of the slot references become `x`, and nothing else changes. -/
def ChangesReferencesOnly (x₀ x : Char) (content content' : Text) : Prop :=
  ∀ j, (SlotReferenceAt x₀ content j → content'[j]? = some x) ∧
    (¬ SlotReferenceAt x₀ content j → content'[j]? = content[j]?)

/-- No word of the content merely begins with a reference. -/
def NoLongerWord (x₀ : Char) (content : Text) : Prop :=
  ∀ t ∈ texts, ∀ i, OccursAt (refText t x₀) content i →
    content[i + (t.length + 2)]?.any isWordChar = false

theorem noLongerWord_iff (x₀ : Char) (s : Text) :
    NoLongerWord x₀ s ↔ ∀ t ∈ texts, ∀ i < s.length, OccursAt (refText t x₀) s i →
      s[i + (t.length + 2)]?.any isWordChar = false := by
  constructor
  · exact fun h t ht i _ => h t ht i
  · intro h t ht i hocc
    have hin := hocc.le_length (by simp [refText])
    rw [refText_length] at hin
    exact h t ht i (by omega) hocc

instance (x₀ : Char) (s : Text) : Decidable (NoLongerWord x₀ s) :=
  decidable_of_iff _ (noLongerWord_iff x₀ s).symm

section

variable {x₀ x : Char} {t t₀ : Text} {s s' : Text} {i : Nat}

theorem NoLongerWord.bounded (h : NoLongerWord x₀ s) : Bounded x₀ s := by
  intro t ht i hocc c hc
  have hword := (Option.any_eq_false _ _).mp (h t ht i hocc) c hc
  simp only [isWordChar, Bool.or_eq_false_iff] at hword
  exact hword.1

theorem NoLongerWord.slotReferenceAt_iff (h : NoLongerWord x₀ s) {j : Nat} :
    SlotReferenceAt x₀ s j ↔ LetterAt texts x₀ s j := by
  constructor
  · exact And.left
  · rintro ⟨t, ht, i, hocc, rfl⟩
    exact ⟨⟨t, ht, i, hocc, rfl⟩, h t ht i hocc⟩

/-- What the rounds do to a reference: its letter is changed, or its first letter
is, which names the old slot. -/
def Replaced (x₀ x : Char) (t s : Text) (i : Nat) : Prop :=
  s[i + (t.length + 1)]? = some x ∨ (t[0]? = some x₀ ∧ s[i]? = some x)

variable (hx₀ : x₀ ≠ '_') (hne : x₀ ≠ x) (ht₀ : t₀ ∈ texts)
  (h : Rewrites (refText t₀ x₀) (refText t₀ x) s s')

include hne h in
/-- A round keeps the new letter. -/
theorem new_of_round {j : Nat} (hj : s[j]? = some x) : s'[j]? = some x := by
  by_contra hdiff
  obtain ⟨i, rfl, hold, -⟩ := round_changed h (hj ▸ hdiff)
  exact hne (Option.some.inj ((letter_of_occursAt hold).symm.trans hj))

include hne h in
theorem replaced_of_round (hdone : Replaced x₀ x t s i) : Replaced x₀ x t s' i := by
  rcases hdone with hletter | ⟨hfirst, hhead⟩
  · exact Or.inl (new_of_round hne h hletter)
  · exact Or.inr ⟨hfirst, new_of_round hne h hhead⟩

include hx₀ ht₀ in
/-- A reference that has the letter of a replaced one is replaced with it. -/
theorem replaced_of_overlap (ht : t ∈ texts) (hocc : OccursAt (refText t x₀) s i) {i₀ k : Nat}
    (hold : OccursAt (refText t₀ x₀) s i₀) (hnew : OccursAt (refText t₀ x) s' i₀)
    (hk : k < t.length + 2) (hj : i + k = i₀ + (t₀.length + 1)) : Replaced x₀ x t s' i := by
  have hletter := letter_of_occursAt hnew
  rw [← hj] at hletter
  rcases ref_overlap ht ht₀ hx₀ hocc hold hk hj with ⟨rfl, hfirst⟩ | ⟨rfl, -⟩
  · exact Or.inr ⟨hfirst, hletter⟩
  · exact Or.inl hletter

include hx₀ ht₀ h in
/-- A round keeps a reference or replaces it. -/
theorem occursAt_or_replaced (ht : t ∈ texts) (hocc : OccursAt (refText t x₀) s i) :
    OccursAt (refText t x₀) s' i ∨ Replaced x₀ x t s' i := by
  by_cases hsame : ∀ k < (refText t x₀).length, s'[i + k]? = s[i + k]?
  · refine Or.inl ((occursAt_iff _ _ _).mpr fun k hk => ?_)
    rw [hsame k hk, hocc.getElem? hk]
  · push Not at hsame
    obtain ⟨k, hk, hdiff⟩ := hsame
    obtain ⟨i₀, hj, hold, hnew⟩ := round_changed h hdiff
    rw [refText_length] at hk
    exact Or.inr (replaced_of_overlap hx₀ ht₀ ht hocc hold hnew hk hj)

include hx₀ ht₀ h in
/-- A round replaces every reference with its text. -/
theorem replaced_of_own_round (hocc : OccursAt (refText t₀ x₀) s i) : Replaced x₀ x t₀ s' i := by
  obtain ⟨i', hle, hlt, hold, hnew⟩ :=
    h.covered (by simp [refText_length]) (by simp [refText]) hocc
  rw [refText_length] at hlt
  exact replaced_of_overlap hx₀ ht₀ ht₀ hocc hold hnew (k := i' + (t₀.length + 1) - i)
    (by omega) (by omega)

include hx₀ hne in
/-- The rounds replace every reference with one of their texts. By induction on
the texts, with a reference that is still there or replaced already. -/
theorem replaced_of_rounds {ts : List Text} (hts : ts ⊆ texts) (ht : t ∈ texts)
    (hbegin : (t ∈ ts ∧ OccursAt (refText t x₀) s i) ∨ Replaced x₀ x t s i) :
    Replaced x₀ x t (rounds x₀ x ts s) i := by
  induction ts generalizing s with
  | nil =>
      rcases hbegin with ⟨hmem, -⟩ | hdone
      · exact absurd hmem List.not_mem_nil
      · exact hdone
  | cons t₀ ts ih =>
      have ht₀ : t₀ ∈ texts := hts List.mem_cons_self
      have hround := rewrites_replaceSuffix x₀ x s t₀
      apply ih fun a ha => hts (List.mem_cons_of_mem t₀ ha)
      rcases hbegin with ⟨hmem, hocc⟩ | hdone
      · rcases List.mem_cons.mp hmem with rfl | hlater
        · exact Or.inr (replaced_of_own_round hx₀ ht₀ hround hocc)
        · exact (occursAt_or_replaced hx₀ ht₀ hround ht hocc).imp_left fun hkept => ⟨hlater, hkept⟩
      · exact Or.inr (replaced_of_round hne hround hdone)

end

section

variable {x₀ x : Char} {s : Text} (hx : x ≠ '_') (hx₀ : x₀.isAlphanum = true) (hne : x₀ ≠ x)

include hx₀ hne in
/-- A content in which only slot references change has no longer word: its
letter, or its first letter, changes as well, and a word goes on behind it. -/
theorem noLongerWord_of_changes (h : ChangesReferencesOnly x₀ x s (rewriteSlot x₀ x s)) :
    NoLongerWord x₀ s := by
  have hchanged : ∀ j, s[j]? = some x₀ → (rewriteSlot x₀ x s)[j]? = some x →
      s[j + 1]?.any isWordChar = false := by
    intro j hold hnew
    by_contra hword
    have hkept := (h j).2 fun hreference => hword hreference.2
    rw [hnew, hold] at hkept
    exact hne (Option.some.inj hkept).symm
  intro t ht i hocc
  have hreplaced : Replaced x₀ x t (rewriteSlot x₀ x s) i :=
    replaced_of_rounds (ne_underscore_of_isAlphanum hx₀) hne (List.Subset.refl texts) ht
      (Or.inl ⟨ht, hocc⟩)
  rcases hreplaced with hletter | ⟨hfirst, hhead⟩
  · exact hchanged _ (letter_of_occursAt hocc) hletter
  · -- the second letter of the text goes on behind the first one
    obtain ⟨c, hnext, halnum⟩ := second_of_occursAt ht hocc
    have hlen : 0 < t.length := (List.getElem?_eq_some_iff.mp hfirst).1
    have hread : s[i]? = some x₀ := by
      calc s[i]?
          = (refText t x₀)[0]? := hocc.getElem? (k := 0) (by simp [refText_length])
        _ = t[0]? := refText_getElem?_text x₀ hlen
        _ = some x₀ := hfirst
    have hend := hchanged i hread hhead
    rw [hnext, Option.any_some, isWordChar, halnum, Bool.true_or] at hend
    exact absurd hend (by decide)

include hx hx₀ hne in
/-- `SetBootSlot` changes the letters of the slot references and nothing else
exactly if no longer word begins with a reference to the old suffix. -/
theorem rewriteSlot_changesReferencesOnly_iff :
    ChangesReferencesOnly x₀ x s (rewriteSlot x₀ x s) ↔ NoLongerWord x₀ s := by
  constructor
  · exact noLongerWord_of_changes hx₀ hne
  · intro h j
    rw [h.slotReferenceAt_iff]
    exact ⟨rewriteSlot_letter hx hx₀ hne h.bounded, rewriteSlot_other hx hx₀ hne h.bounded⟩

end

theorem rewriteSlot_changesReferencesOnly_word_end :
    ChangesReferencesOnly 'a' 'b' "/kernel_a quiet".toList
      (rewriteSlot 'a' 'b' "/kernel_a quiet".toList) :=
  (rewriteSlot_changesReferencesOnly_iff (by decide) (by decide) (by decide)).mpr
    (by decide +kernel)

/-- A path component that merely begins with a reference is changed. -/
theorem rewriteSlot_longer_word :
    ¬ ChangesReferencesOnly 'a' 'b' "/kernel_android".toList
      (rewriteSlot 'a' 'b' "/kernel_android".toList) := by
  intro h
  have hkept := (h 8).2 fun hreference => absurd hreference.2 (by decide)
  exact absurd hkept (by decide +kernel)

end AndroidX86Tv.BootControl
