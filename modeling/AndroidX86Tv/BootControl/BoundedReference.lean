import AndroidX86Tv.BootControl.SlotReference

/-!
# The rewrite of a content whose references are bounded

A reference is bounded when no letter or digit follows it. Then references do not run
into each other, and the rounds of the rewrite come to one simultaneous change: every
letter of a reference to the old suffix becomes the new letter. A content can
therefore be rewritten in parts that no reference crosses.
-/

namespace AndroidX86Tv.BootControl

open ListReplacement

/-- No letter or digit follows a reference to `x₀`. -/
def Bounded (x₀ : Char) (content : Text) : Prop :=
  ∀ t ∈ texts, ∀ i, OccursAt (refText t x₀) content i →
    ∀ c, content[i + (t.length + 2)]? = some c → c.isAlphanum = false

/-- A reference to `x₀` with one of the texts has its letter at `j`. -/
def LetterAt (ts : List Text) (x₀ : Char) (content : Text) (j : Nat) : Prop :=
  ∃ t ∈ ts, ∃ i, OccursAt (refText t x₀) content i ∧ j = i + (t.length + 1)

/-- The second letter of a text is one that follows no bounded reference. -/
theorem texts_second : ∀ t ∈ texts, t[1]?.any Char.isAlphanum = true := by decide

theorem refText_second {t : Text} (ht : t ∈ texts) (y : Char) :
    ∃ c, (refText t y)[1]? = some c ∧ c.isAlphanum = true := by
  obtain ⟨c, hc, halnum⟩ := (Option.any_eq_true _ _).mp (texts_second t ht)
  have hlen : 1 < t.length := (List.getElem?_eq_some_iff.mp hc).1
  exact ⟨c, (refText_getElem?_text y hlen).trans hc, halnum⟩

theorem second_of_occursAt {t content : Text} {y : Char} {i : Nat} (ht : t ∈ texts)
    (hocc : OccursAt (refText t y) content i) :
    ∃ c, content[i + 1]? = some c ∧ c.isAlphanum = true := by
  obtain ⟨c, hc, halnum⟩ := refText_second ht y
  exact ⟨c, (hocc.getElem? (by simp [refText_length])).trans hc, halnum⟩

theorem LetterAt.getElem? {ts : List Text} {x₀ : Char} {content : Text} {j : Nat}
    (h : LetterAt ts x₀ content j) : content[j]? = some x₀ := by
  obtain ⟨t, -, i, hocc, rfl⟩ := h
  exact letter_of_occursAt hocc

section Bounded

variable {x₀ : Char} {a b s : Text}

theorem bounded_iff (x₀ : Char) (s : Text) :
    Bounded x₀ s ↔ ∀ t ∈ texts, ∀ i < s.length, OccursAt (refText t x₀) s i →
      s[i + (t.length + 2)]?.any Char.isAlphanum = false := by
  constructor
  · exact fun h t ht i _ hocc => (Option.any_eq_false _ _).mpr (h t ht i hocc)
  · intro h t ht i hocc
    have hin := hocc.le_length (by simp [refText])
    rw [refText_length] at hin
    exact (Option.any_eq_false _ _).mp (h t ht i (by omega) hocc)

instance (x₀ : Char) (s : Text) : Decidable (Bounded x₀ s) :=
  decidable_of_iff _ (bounded_iff x₀ s).symm

theorem Bounded.of_append_left (h : Bounded x₀ (a ++ b)) : Bounded x₀ a := by
  intro t ht i hocc c hc
  have hin := hocc.le_length (by simp [refText])
  refine h t ht i ((occursAt_append_right hin b).mpr hocc) c ?_
  have hlt : i + (t.length + 2) < a.length := (List.getElem?_eq_some_iff.mp hc).1
  rw [List.getElem?_append_left hlt, hc]

theorem Bounded.of_append_right (h : Bounded x₀ (a ++ b)) : Bounded x₀ b := by
  intro t ht i hocc c hc
  refine h t ht (a.length + i) ((occursAt_append_left _ a b i).mpr hocc) c ?_
  rw [List.getElem?_append_right (by omega), ← hc]
  congr 1
  omega

/-- A bounded reference meets the letter of another reference with its own letter only. -/
theorem Bounded.overlap (h : Bounded x₀ s) (hx₀ : x₀ ≠ '_') {t t₀ : Text} {y : Char}
    {i i₀ k : Nat} (ht : t ∈ texts) (ht₀ : t₀ ∈ texts) (hw : OccursAt (refText t y) s i)
    (h₀ : OccursAt (refText t₀ x₀) s i₀) (hk : k < t.length + 2)
    (hj : i + k = i₀ + (t₀.length + 1)) : k = t.length + 1 := by
  rcases ref_overlap ht ht₀ hx₀ hw h₀ hk hj with ⟨rfl, -⟩ | ⟨hlast, -⟩
  · -- the letter in front of the text's second one would be a bounded reference's
    obtain ⟨c, hc, halnum⟩ := second_of_occursAt ht hw
    rw [show i + 1 = i₀ + (t₀.length + 2) by omega] at hc
    exact absurd halnum (by simp [h t₀ ht₀ i₀ h₀ c hc])
  · exact hlast

/-- A bounded content is detached. -/
theorem Bounded.detached (h : Bounded x₀ s) (named : Char → Prop) (x : Char) :
    Detached named x₀ x s := by
  intro t₁ ht₁ t₂ ht₂ _ y _ _ i hocc
  obtain ⟨href, htail⟩ := occursAt_of_append hocc
  obtain ⟨c, hc, halnum⟩ := refText_second ht₂ y
  have hnext : s[i + (t₁.length + 2)]? = some c := by
    have hread := htail.getElem? (k := 0) (by simp [refText_length])
    rw [refText_length, List.getElem?_tail] at hread
    exact hread.trans hc
  exact absurd halnum (by simp [h t₁ ht₁ i href c hnext])

end Bounded

section Round

variable {x₀ x : Char} {t₀ : Text} {s s' : Text} (ht₀ : t₀ ∈ texts) (hx : x ≠ '_')
  (hx₀ : x₀.isAlphanum = true) (hne : x₀ ≠ x) (hbounded : Bounded x₀ s)
  (h : Rewrites (refText t₀ x₀) (refText t₀ x) s s')

theorem ne_underscore_of_isAlphanum {c : Char} (h : c.isAlphanum = true) : c ≠ '_' := by
  rintro rfl
  exact absurd h (by decide)

include ht₀ hx₀ hbounded h in
/-- A round changes the letter of every reference with its text. -/
theorem letter_of_round {i : Nat} (hocc : OccursAt (refText t₀ x₀) s i) :
    s'[i + (t₀.length + 1)]? = some x := by
  obtain ⟨i', hle, hlt, hold, hnew⟩ :=
    h.covered (by simp [refText_length]) (by simp [refText]) hocc
  rw [refText_length] at hlt
  have hlast := hbounded.overlap (ne_underscore_of_isAlphanum hx₀) ht₀ ht₀ hocc hold
    (k := i' + (t₀.length + 1) - i) (by omega) (by omega)
  have hsame : i' = i := by omega
  rw [← hsame]
  exact letter_of_occursAt hnew

include ht₀ hx hx₀ hne hbounded h in
/-- A round keeps the references that do not share a letter with one of its text. -/
theorem occursAt_round_iff {t : Text} {i : Nat} (ht : t ∈ texts) :
    OccursAt (refText t x₀) s' i ↔
      OccursAt (refText t x₀) s i ∧ ¬ LetterAt [t₀] x₀ s (i + (t.length + 1)) := by
  have hunder := ne_underscore_of_isAlphanum hx₀
  constructor
  · intro hocc
    refine ⟨occursAt_of_round ht₀ hx h (hbounded.detached (· = x₀) x) ht rfl hne hocc, ?_⟩
    rintro ⟨t₁, hmem, i₀, hold, hj⟩
    rw [List.mem_singleton.mp hmem] at hold hj
    have hletters : some x₀ = some x := by
      rw [← letter_of_occursAt hocc, hj, letter_of_round ht₀ hx₀ hbounded h hold]
    exact hne (Option.some.inj hletters)
  · rintro ⟨hocc, hno⟩
    refine (occursAt_iff _ _ _).mpr fun k hk => ?_
    rw [← hocc.getElem? hk]
    by_contra hdiff
    obtain ⟨i₀, hj, hold, -⟩ := round_changed h hdiff
    rw [refText_length] at hk
    have hlast := hbounded.overlap hunder ht ht₀ hocc hold hk hj
    exact hno ⟨t₀, List.mem_singleton_self t₀, i₀, hold, by omega⟩

include ht₀ hx hx₀ hne hbounded h in
/-- A round keeps a content bounded. -/
theorem bounded_of_round : Bounded x₀ s' := by
  intro t ht i hocc c hc
  obtain ⟨hbefore, -⟩ := (occursAt_round_iff ht₀ hx hx₀ hne hbounded h ht).mp hocc
  by_cases hsame : s'[i + (t.length + 2)]? = s[i + (t.length + 2)]?
  · exact hbounded t ht i hbefore c (hsame ▸ hc)
  · -- a letter that changed was no end of a bounded reference
    obtain ⟨i₀, hj, hold, -⟩ := round_changed h hsame
    have hread := letter_of_occursAt hold
    rw [← hj] at hread
    exact absurd hx₀ (by simp [hbounded t ht i hbefore x₀ hread])

include ht₀ hx hx₀ hne hbounded h in
/-- What a round leaves to the rounds over other texts. -/
theorem letterAt_round_iff {ts : List Text} (hts : ts ⊆ texts) {j : Nat} :
    LetterAt ts x₀ s' j ↔ LetterAt ts x₀ s j ∧ ¬ LetterAt [t₀] x₀ s j := by
  constructor
  · rintro ⟨t, ht, i, hocc, rfl⟩
    obtain ⟨hbefore, hno⟩ :=
      (occursAt_round_iff ht₀ hx hx₀ hne hbounded h (hts ht)).mp hocc
    exact ⟨⟨t, ht, i, hbefore, rfl⟩, hno⟩
  · rintro ⟨⟨t, ht, i, hocc, rfl⟩, hno⟩
    exact ⟨t, ht, i,
      (occursAt_round_iff ht₀ hx hx₀ hne hbounded h (hts ht)).mpr ⟨hocc, hno⟩, rfl⟩

include h in
/-- A round leaves every other position alone. -/
theorem other_of_round {j : Nat} (hno : ¬ LetterAt [t₀] x₀ s j) : s'[j]? = s[j]? := by
  by_contra hdiff
  obtain ⟨i, hj, hold, -⟩ := round_changed h hdiff
  exact hno ⟨t₀, List.mem_singleton_self t₀, i, hold, hj⟩

end Round

theorem letterAt_cons_iff {t₀ : Text} {ts : List Text} {x₀ : Char} {s : Text} {j : Nat} :
    LetterAt (t₀ :: ts) x₀ s j ↔ LetterAt [t₀] x₀ s j ∨ LetterAt ts x₀ s j := by
  simp only [LetterAt, List.mem_cons, List.not_mem_nil, or_false, or_and_right, exists_or]

section Rounds

variable {x₀ x : Char} (hx : x ≠ '_') (hx₀ : x₀.isAlphanum = true) (hne : x₀ ≠ x)

include hx hx₀ hne in
/-- The rounds change the letters of the references with their texts and nothing else. -/
theorem rounds_getElem? {ts : List Text} (hts : ts ⊆ texts) {s : Text} (hbounded : Bounded x₀ s)
    (j : Nat) :
    (LetterAt ts x₀ s j → (rounds x₀ x ts s)[j]? = some x) ∧
      (¬ LetterAt ts x₀ s j → (rounds x₀ x ts s)[j]? = s[j]?) := by
  induction ts generalizing s with
  | nil => exact ⟨fun ⟨t, hmem, _⟩ => absurd hmem List.not_mem_nil, fun _ => rfl⟩
  | cons t₀ ts ih =>
      have ht₀ : t₀ ∈ texts := hts List.mem_cons_self
      have hround := rewrites_replaceSuffix x₀ x s t₀
      have hletters := letterAt_round_iff ht₀ hx hx₀ hne hbounded hround (j := j)
        fun t ht => hts (List.mem_cons_of_mem t₀ ht)
      obtain ⟨hletter, hother⟩ := ih (fun t ht => hts (List.mem_cons_of_mem t₀ ht))
        (bounded_of_round ht₀ hx hx₀ hne hbounded hround)
      rw [rounds, List.foldl_cons, letterAt_cons_iff]
      by_cases hfirst : LetterAt [t₀] x₀ s j
      · -- the round over the first text changes the letter
        have hkeeps := hother fun hlater => (hletters.mp hlater).2 hfirst
        refine ⟨fun _ => hkeeps.trans ?_, fun hno => absurd (Or.inl hfirst) hno⟩
        obtain ⟨t, hmem, i, hocc, rfl⟩ := hfirst
        rw [List.mem_singleton.mp hmem] at hocc ⊢
        exact letter_of_round ht₀ hx₀ hbounded hround hocc
      · constructor
        · rintro (hyes | hlater)
          · exact absurd hyes hfirst
          · exact hletter (hletters.mpr ⟨hlater, hfirst⟩)
        · intro hno
          rw [← other_of_round hround hfirst]
          exact hother fun hlater => hno (Or.inr (hletters.mp hlater).1)

theorem length_rounds (x₀ x : Char) (ts : List Text) (s : Text) :
    (rounds x₀ x ts s).length = s.length := by
  induction ts generalizing s with
  | nil => rfl
  | cons t₀ ts ih =>
      rw [rounds, List.foldl_cons]
      exact (ih _).trans
        ((rewrites_replaceSuffix x₀ x s t₀).length_eq (by simp [refText_length]))

end Rounds

section Rewrite

variable {x₀ x : Char} {a b s : Text}

/-- `SetBootSlot`'s rewrite from the slot with letter `x₀` to the one with `x`. -/
def rewriteSlot (x₀ x : Char) (s : Text) : Text :=
  rewriteContent ['_', x₀] ['_', x] (List.cons_ne_nil _ _) s

theorem length_rewriteSlot (x₀ x : Char) (s : Text) : (rewriteSlot x₀ x s).length = s.length :=
  length_rounds x₀ x texts s

/-- A content without a reference is left alone. -/
theorem rewriteSlot_eq_self (h : '_' ∉ s) : rewriteSlot x₀ x s = s := by
  refine rewriteContent_eq_self fun t _ i hocc => h ?_
  exact List.mem_of_getElem? (underscore_of_occursAt hocc)

/-- No reference to `x₀` has a part in each of the two contents. -/
def Uncrossed (x₀ : Char) (a b : Text) : Prop :=
  ∀ t ∈ texts, ∀ i, OccursAt (refText t x₀) (a ++ b) i →
    i + (t.length + 2) ≤ a.length ∨ a.length ≤ i

/-- Behind a letter that no reference has, a new part can start. -/
theorem uncrossed_of_getLast? {c : Char} (hc : ∀ t ∈ texts, c ∉ refText t x₀)
    (ha : a.getLast? = some c) (b : Text) : Uncrossed x₀ a b := by
  intro t ht i hocc
  by_contra hcross
  have hlast : (a ++ b)[a.length - 1]? = some c := by
    rw [List.getElem?_append_left (by omega), ← List.getLast?_eq_getElem?, ha]
  exact hc t ht (hocc.mem (by omega) (by rw [refText_length]; omega) hlast)

/-- A new part can start with a letter that no reference has. -/
theorem uncrossed_of_head? (hc : ∀ c, b.head? = some c → ∀ t ∈ texts, c ∉ refText t x₀) :
    Uncrossed x₀ a b := by
  intro t ht i hocc
  by_contra hcross
  have hin := hocc.le_length (by simp [refText])
  rw [refText_length, List.length_append] at hin
  have hread : (a ++ b)[a.length]? = b.head? := by
    rw [List.getElem?_append_right (Nat.le_refl _), Nat.sub_self, List.head?_eq_getElem?]
  cases hhead : b.head? with
  | none =>
      rw [List.head?_eq_none_iff.mp hhead, List.length_nil] at hin
      omega
  | some c =>
      exact hc c hhead t ht
        (hocc.mem (by omega) (by rw [refText_length]; omega) (hread.trans hhead))

variable (hx : x ≠ '_') (hx₀ : x₀.isAlphanum = true) (hne : x₀ ≠ x)

include hx hx₀ hne in
theorem rewriteSlot_letter (hbounded : Bounded x₀ s) {j : Nat} (h : LetterAt texts x₀ s j) :
    (rewriteSlot x₀ x s)[j]? = some x :=
  (rounds_getElem? hx hx₀ hne (List.Subset.refl texts) hbounded j).1 h

include hx hx₀ hne in
theorem rewriteSlot_other (hbounded : Bounded x₀ s) {j : Nat} (h : ¬ LetterAt texts x₀ s j) :
    (rewriteSlot x₀ x s)[j]? = s[j]? :=
  (rounds_getElem? hx hx₀ hne (List.Subset.refl texts) hbounded j).2 h

include hx hx₀ hne in
/-- Letters and digits stand where letters and digits stood. -/
theorem alphanum_of_rewriteSlot (hbounded : Bounded x₀ s) {j : Nat} {c : Char}
    (hc : (rewriteSlot x₀ x s)[j]? = some c) (halnum : c.isAlphanum = true) :
    ∃ d, s[j]? = some d ∧ d.isAlphanum = true := by
  by_cases hletter : LetterAt texts x₀ s j
  · exact ⟨x₀, hletter.getElem?, hx₀⟩
  · exact ⟨c, (rewriteSlot_other hx hx₀ hne hbounded hletter).symm.trans hc, halnum⟩

/-- In parts that no reference crosses a letter is one of the part it is in. -/
theorem letterAt_append_left {j : Nat} (hj : j < a.length) :
    LetterAt texts x₀ (a ++ b) j ↔ LetterAt texts x₀ a j := by
  refine exists_congr fun t => and_congr_right fun _ => exists_congr fun i =>
    and_congr_left fun hi => ?_
  exact occursAt_append_right (by rw [refText_length]; omega) b

theorem letterAt_append_right (h : Uncrossed x₀ a b) {j : Nat} :
    LetterAt texts x₀ (a ++ b) (a.length + j) ↔ LetterAt texts x₀ b j := by
  constructor
  · rintro ⟨t, ht, i, hocc, hj⟩
    rcases h t ht i hocc with hin | hout
    · omega
    · obtain ⟨k, rfl⟩ : ∃ k, i = a.length + k := ⟨i - a.length, by omega⟩
      exact ⟨t, ht, k, (occursAt_append_left _ a b k).mp hocc, by omega⟩
  · rintro ⟨t, ht, i, hocc, rfl⟩
    exact ⟨t, ht, a.length + i, (occursAt_append_left _ a b i).mpr hocc, by omega⟩

include hx hx₀ hne in
/-- What the rewrite makes of a position depends on its letter and on the references. -/
theorem rewriteSlot_congr {s' : Text} {j j' : Nat} (hs : Bounded x₀ s) (hs' : Bounded x₀ s')
    (hletter : LetterAt texts x₀ s j ↔ LetterAt texts x₀ s' j') (hsame : s[j]? = s'[j']?) :
    (rewriteSlot x₀ x s)[j]? = (rewriteSlot x₀ x s')[j']? := by
  by_cases h : LetterAt texts x₀ s j
  · rw [rewriteSlot_letter hx hx₀ hne hs h, rewriteSlot_letter hx hx₀ hne hs' (hletter.mp h)]
  · rw [rewriteSlot_other hx hx₀ hne hs h, hsame,
      rewriteSlot_other hx hx₀ hne hs' fun h' => h (hletter.mpr h')]

include hx hx₀ hne in
/-- The rewrite works on parts that no reference crosses one by one. -/
theorem rewriteSlot_append (hbounded : Bounded x₀ (a ++ b)) (h : Uncrossed x₀ a b) :
    rewriteSlot x₀ x (a ++ b) = rewriteSlot x₀ x a ++ rewriteSlot x₀ x b := by
  have hlen := length_rewriteSlot x₀ x a
  apply List.ext_getElem?
  intro j
  rcases Nat.lt_or_ge j a.length with hj | hj
  · rw [List.getElem?_append_left (by omega)]
    exact rewriteSlot_congr hx hx₀ hne hbounded hbounded.of_append_left (letterAt_append_left hj)
      (List.getElem?_append_left hj)
  · obtain ⟨k, rfl⟩ : ∃ k, j = a.length + k := ⟨j - a.length, by omega⟩
    rw [List.getElem?_append_right (by omega), hlen, Nat.add_sub_cancel_left]
    refine rewriteSlot_congr hx hx₀ hne hbounded hbounded.of_append_right
      (letterAt_append_right h) ?_
    rw [List.getElem?_append_right (by omega), Nat.add_sub_cancel_left]

include hx hx₀ hne in
/-- Letters other than the old one are kept. -/
theorem rewriteSlot_keeps (hbounded : Bounded x₀ s) {j : Nat} {c : Char} (hc : s[j]? = some c)
    (hold : c ≠ x₀) : (rewriteSlot x₀ x s)[j]? = some c := by
  rw [← hc]
  refine rewriteSlot_other hx hx₀ hne hbounded fun h => hold ?_
  exact Option.some.inj (hc.symm.trans h.getElem?)

include hx hx₀ hne in
/-- No reference has its letter at the start. -/
theorem head?_rewriteSlot (hbounded : Bounded x₀ s) : (rewriteSlot x₀ x s).head? = s.head? := by
  rw [List.head?_eq_getElem?, List.head?_eq_getElem?]
  exact rewriteSlot_other hx hx₀ hne hbounded fun ⟨_, _, _, _, hj⟩ => absurd hj (by omega)

include hx hx₀ hne in
/-- Every letter of the result is one of the content or the new one. -/
theorem mem_rewriteSlot (hbounded : Bounded x₀ s) {c : Char} (hc : c ∈ rewriteSlot x₀ x s) :
    c ∈ s ∨ c = x := by
  obtain ⟨j, hj⟩ := List.mem_iff_getElem?.mp hc
  by_cases h : LetterAt texts x₀ s j
  · rw [rewriteSlot_letter hx hx₀ hne hbounded h] at hj
    exact Or.inr (Option.some.inj hj).symm
  · rw [rewriteSlot_other hx hx₀ hne hbounded h] at hj
    exact Or.inl (List.mem_of_getElem? hj)

/-- Two bounded parts that no reference crosses are bounded together, if the second one
does not go on with a letter or digit where a reference ends the first one. -/
theorem Bounded.append (ha : Bounded x₀ a) (hb : Bounded x₀ b) (h : Uncrossed x₀ a b)
    (hend : ∀ t ∈ texts, ∀ i, OccursAt (refText t x₀) a i → i + (t.length + 2) = a.length →
      ∀ c, b.head? = some c → c.isAlphanum = false) : Bounded x₀ (a ++ b) := by
  intro t ht i hocc c hc
  rcases h t ht i hocc with hin | hout
  · have hocc' := (occursAt_append_right (by rwa [refText_length]) b).mp hocc
    rcases Nat.lt_or_eq_of_le hin with hlt | heq
    · rw [List.getElem?_append_left hlt] at hc
      exact ha t ht i hocc' c hc
    · rw [heq, List.getElem?_append_right (Nat.le_refl _), Nat.sub_self,
        ← List.head?_eq_getElem?] at hc
      exact hend t ht i hocc' heq c hc
  · obtain ⟨k, rfl⟩ : ∃ k, i = a.length + k := ⟨i - a.length, by omega⟩
    rw [List.getElem?_append_right (by omega)] at hc
    refine hb t ht k ((occursAt_append_left _ a b k).mp hocc) c ?_
    rw [← hc]
    congr 1
    omega

end Rewrite

end AndroidX86Tv.BootControl
