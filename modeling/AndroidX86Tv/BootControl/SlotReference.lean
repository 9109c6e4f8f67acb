import AndroidX86Tv.BootControl.BootConfig

/-!
# What the rewrite does to slot references

A reference is one of the four texts followed by `_` and a letter. A round of
the rewrite changes single letters, each behind an underscore behind the last
letter of a text. Two references can therefore share a changed letter only as
the last letter of one and the first letter of the next.
-/

namespace AndroidX86Tv.BootControl

open ListReplacement

/-- A text followed by the suffix with letter `x`. -/
def refText (text : Text) (x : Char) : Text := text ++ ['_', x]

theorem refText_length (text : Text) (x : Char) : (refText text x).length = text.length + 2 := by
  simp [refText]

theorem refText_getElem?_text {text : Text} {k : Nat} (x : Char) (hk : k < text.length) :
    (refText text x)[k]? = text[k]? := by
  rw [refText, List.getElem?_append_left hk]

theorem refText_getElem?_underscore (text : Text) (x : Char) :
    (refText text x)[text.length]? = some '_' := by
  simp [refText]

theorem refText_getElem?_letter (text : Text) (x : Char) :
    (refText text x)[text.length + 1]? = some x := by
  simp [refText]

/-- The letter and the underscore of a reference that stands in a content. -/
theorem letter_of_occursAt {text content : Text} {x : Char} {i : Nat}
    (h : OccursAt (refText text x) content i) : content[i + (text.length + 1)]? = some x := by
  calc content[i + (text.length + 1)]?
      = (refText text x)[text.length + 1]? := h.getElem? (by simp [refText_length])
    _ = some x := refText_getElem?_letter text x

theorem underscore_of_occursAt {text content : Text} {x : Char} {i : Nat}
    (h : OccursAt (refText text x) content i) : content[i + text.length]? = some '_' := by
  calc content[i + text.length]?
      = (refText text x)[text.length]? := h.getElem? (by simp [refText_length])
    _ = some '_' := refText_getElem?_underscore text x

theorem texts_ne_nil : ∀ t ∈ texts, t ≠ [] := by decide

/-- No text has an underscore among its first two letters. -/
theorem texts_head : ∀ t ∈ texts, t[0]? ≠ some '_' ∧ t[1]? ≠ some '_' := by decide

/-- The letter in front of an underscore in a text ends no text. -/
theorem texts_underscore : ∀ t ∈ texts, ∀ k < t.length, ∀ t₀ ∈ texts,
    t[k + 1]? = some '_' → t[k]? ≠ t₀[t₀.length - 1]? := by decide

/-- A window that shares its letter `k` with the suffix letter of a reference
reads the reference's underscore and the end of its text in front of it. -/
theorem overlap {w d t₀ : Text} {z : Char} {i i₀ k : Nat} (hw : OccursAt w d i)
    (h₀ : OccursAt (refText t₀ z) d i₀) (hk : k < w.length) (hj : i + k = i₀ + (t₀.length + 1))
    (hne : t₀ ≠ []) :
    w[k]? = some z ∧ (∀ m, k = m + 1 → w[m]? = some '_') ∧
      (∀ m, k = m + 2 → w[m]? = t₀[t₀.length - 1]?) := by
  have hlen := refText_length t₀ z
  have hpos := List.length_pos_iff.mpr hne
  refine ⟨?_, ?_, ?_⟩
  · rw [← hw.getElem? hk, hj, letter_of_occursAt h₀]
  · intro m hm
    rw [← hw.getElem? (by omega), show i + m = i₀ + t₀.length by omega,
      underscore_of_occursAt h₀]
  · intro m hm
    rw [← hw.getElem? (by omega), show i + m = i₀ + (t₀.length - 1) by omega,
      h₀.getElem? (by omega), refText_getElem?_text z (by omega)]

/-- A letter of a text is no suffix letter of a reference, unless it is the first. -/
theorem not_overlap_text {t t₀ : Text} {z : Char} {k : Nat} (ht : t ∈ texts) (ht₀ : t₀ ∈ texts)
    (hk : k + 1 < t.length) (hunder : t[k]? = some '_')
    (hend : ∀ m, k = m + 1 → t[m]? = t₀[t₀.length - 1]?) (hz : t[k + 1]? = some z) : False := by
  cases k with
  | zero => exact (texts_head t ht).1 hunder
  | succ m => exact texts_underscore t ht m (by omega) t₀ ht₀ hunder (hend m rfl)

/-- A reference that meets a suffix letter of another one has it as its own
suffix letter or as the first letter of its text. -/
theorem ref_overlap {t t₀ d : Text} {y z : Char} {i i₀ k : Nat} (ht : t ∈ texts)
    (ht₀ : t₀ ∈ texts) (hz : z ≠ '_') (hw : OccursAt (refText t y) d i)
    (h₀ : OccursAt (refText t₀ z) d i₀) (hk : k < t.length + 2)
    (hj : i + k = i₀ + (t₀.length + 1)) :
    (k = 0 ∧ t[0]? = some z) ∨ (k = t.length + 1 ∧ y = z) := by
  have hpos := List.length_pos_iff.mpr (texts_ne_nil t ht)
  obtain ⟨hletter, hunder, hend⟩ :=
    overlap hw h₀ (by rwa [refText_length]) hj (texts_ne_nil t₀ ht₀)
  cases Nat.lt_or_ge k t.length with
  | inl hin =>
      rw [refText_getElem?_text y hin] at hletter
      cases k with
      | zero => exact Or.inl ⟨rfl, hletter⟩
      | succ k =>
          refine absurd hletter fun _ => not_overlap_text ht ht₀ hin ?_ ?_ hletter
          · rw [← refText_getElem?_text y (by omega)]
            exact hunder k rfl
          · intro m hm
            rw [← refText_getElem?_text y (by omega)]
            exact hend m (by omega)
  | inr hout =>
      cases Nat.eq_or_lt_of_le hout with
      | inl heq =>
          rw [← heq, refText_getElem?_underscore] at hletter
          exact absurd (Option.some.inj hletter).symm hz
      | inr hlast =>
          have heq : k = t.length + 1 := by omega
          rw [heq, refText_getElem?_letter] at hletter
          exact Or.inr ⟨heq, Option.some.inj hletter⟩

/-- No reference with letter `x₀` runs into the rest of a reference that starts
with `x` and names another slot than `x`: changing the letter would complete it. -/
def Detached (named : Char → Prop) (x₀ x : Char) (content : Text) : Prop :=
  ∀ t₁ ∈ texts, ∀ t₂ ∈ texts, t₂[0]? = some x → ∀ y, named y → y ≠ x →
    ∀ i, ¬ OccursAt (refText t₁ x₀ ++ (refText t₂ y).tail) content i

section Round

variable {named : Char → Prop} {x₀ x : Char} {t₀ : Text} {s s' : Text}

/-- A letter that a round changed is the suffix letter of a reference. -/
theorem round_changed (h : Rewrites (refText t₀ x₀) (refText t₀ x) s s') {j : Nat}
    (hj : s'[j]? ≠ s[j]?) :
    ∃ i, j = i + (t₀.length + 1) ∧ OccursAt (refText t₀ x₀) s i ∧
      OccursAt (refText t₀ x) s' i := by
  obtain ⟨i, k, rfl, hk, hold, hnew⟩ := h.changed (by simp [refText_length]) hj
  refine ⟨i, ?_, hold, hnew⟩
  rw [hold.getElem? hk, hnew.getElem? (by simpa [refText_length] using hk)] at hj
  rw [refText_length] at hk
  cases Nat.lt_or_ge k t₀.length with
  | inl hin => simp only [refText_getElem?_text _ hin, ne_eq, not_true_eq_false] at hj
  | inr hout =>
      cases Nat.eq_or_lt_of_le hout with
      | inl heq => simp only [← heq, refText_getElem?_underscore, ne_eq, not_true_eq_false] at hj
      | inr hlast => omega

/-- An occurrence in the new content with an unchanged window was there before. -/
theorem occursAt_of_unchanged {w d d' : Text} {i : Nat} (hw : OccursAt w d' i)
    (hsame : ∀ k < w.length, d'[i + k]? = d[i + k]?) : OccursAt w d i := by
  apply (occursAt_iff w d i).mpr
  intro k hk
  rw [← hsame k hk, hw.getElem? hk]

theorem occursAt_append {v w d : Text} {i : Nat} (hv : OccursAt v d i)
    (hw : OccursAt w d (i + v.length)) : OccursAt (v ++ w) d i := by
  obtain ⟨rest, hrest⟩ := hv
  have hdrop : d.drop (i + v.length) = rest := by
    rw [← List.drop_drop, ← hrest, List.drop_left]
  rw [OccursAt, hdrop] at hw
  rw [OccursAt, ← hrest]
  exact (List.prefix_append_right_inj v).mpr hw

theorem occursAt_of_append {v w d : Text} {i : Nat} (h : OccursAt (v ++ w) d i) :
    OccursAt v d i ∧ OccursAt w d (i + v.length) := by
  obtain ⟨rest, hrest⟩ := h
  refine ⟨⟨w ++ rest, by rw [← hrest, List.append_assoc]⟩, rest, ?_⟩
  rw [← List.drop_drop, ← hrest, List.append_assoc, List.drop_left]

variable (ht₀ : t₀ ∈ texts) (hx : x ≠ '_') (hx₀ : x₀ ≠ '_') (hne : x₀ ≠ x)
  (h : Rewrites (refText t₀ x₀) (refText t₀ x) s s')

include ht₀ h in
/-- Behind a letter other than the underscore a round leaves the rest of a text alone. -/
theorem tail_unchanged {t : Text} {p : Nat} (ht : t ∈ texts) (hw : OccursAt t.tail s' (p + 1))
    (hp : s'[p]? ≠ some '_') (k : Nat) (hk : k < t.tail.length) :
    s'[p + 1 + k]? = s[p + 1 + k]? := by
  by_contra hdiff
  obtain ⟨i₀, hj, -, hnew⟩ := round_changed h hdiff
  obtain ⟨hletter, hunder, hend⟩ := overlap hw hnew hk hj (texts_ne_nil t₀ ht₀)
  rw [List.getElem?_tail] at hletter
  cases k with
  | zero =>
      -- the underscore of the changed reference would stand at `p`
      have hread : s'[p]? = some '_' := by
        rw [show p = i₀ + t₀.length by omega, underscore_of_occursAt hnew]
      exact hp hread
  | succ k =>
      have hmid := hunder k rfl
      rw [List.getElem?_tail] at hmid
      rw [List.length_tail] at hk
      refine not_overlap_text ht ht₀ (by omega) hmid ?_ hletter
      intro m hm
      cases m with
      | zero => exact absurd (by simpa [show k = 0 by omega] using hmid) (texts_head t ht).2
      | succ m =>
          rw [← List.getElem?_tail]
          exact hend m (by omega)

theorem refText_tail {t : Text} (ht : t ∈ texts) (y : Char) :
    (refText t y).tail = t.tail ++ ['_', y] := by
  obtain ⟨a, rest, hcons⟩ := List.exists_cons_of_ne_nil (texts_ne_nil t ht)
  simp [refText, hcons]

theorem occursAt_tail {w d : Text} {i : Nat} (hw : OccursAt w d i) (hne : w ≠ []) :
    OccursAt w.tail d (i + 1) := by
  obtain ⟨a, rest, rfl⟩ := List.exists_cons_of_ne_nil hne
  exact (occursAt_of_append (v := [a]) (w := rest) hw).2

include ht₀ hx h in
/-- Behind a letter other than the underscore a round leaves the rest of a
reference alone that does not name `x`. -/
theorem occursAt_tail_of_round {t : Text} {y : Char} {p : Nat} (ht : t ∈ texts) (hy : y ≠ x)
    (hw : OccursAt (refText t y).tail s' (p + 1)) (hp : s'[p]? ≠ some '_') :
    OccursAt (refText t y).tail s (p + 1) := by
  rw [refText_tail ht] at hw ⊢
  obtain ⟨htail, hsuffix⟩ := occursAt_of_append hw
  apply occursAt_append
  · exact occursAt_of_unchanged htail (tail_unchanged ht₀ h ht htail hp)
  · refine occursAt_of_unchanged hsuffix fun k hk => ?_
    by_contra hdiff
    obtain ⟨i₀, hj, -, hnew⟩ := round_changed h hdiff
    have hletter : s'[p + 1 + t.tail.length + k]? = some x := by
      rw [hj, letter_of_occursAt hnew]
    rw [hsuffix.getElem? hk] at hletter
    match k, hk with
    | 0, _ => exact hx (Option.some.inj hletter).symm
    | 1, _ => exact hy (Option.some.inj hletter)

include ht₀ hx h in
/-- In a detached content no round changes the first letter of a reference that
does not name `x`. -/
theorem head_unchanged (hdet : Detached named x₀ x s) {t : Text} {y : Char} {i : Nat}
    (ht : t ∈ texts) (hnamed : named y) (hy : y ≠ x) (hw : OccursAt (refText t y) s' i)
    (hhead : t[0]? = some x) : s'[i]? = s[i]? := by
  by_contra hdiff
  obtain ⟨i₀, rfl, hold, hnew⟩ := round_changed h hdiff
  have hread := letter_of_occursAt hnew
  have htail := occursAt_tail_of_round ht₀ hx h ht hy (occursAt_tail hw (by simp [refText]))
    fun heq => hx (Option.some.inj (hread.symm.trans heq))
  refine hdet t₀ ht₀ t ht hhead y hnamed hy i₀ (occursAt_append hold ?_)
  rw [refText_length]
  exact htail

include ht₀ hx h in
/-- In a detached content a reference in the result that does not name `x` was
there before the round. -/
theorem occursAt_of_round (hdet : Detached named x₀ x s) {t : Text} {y : Char} {i : Nat}
    (ht : t ∈ texts) (hnamed : named y) (hy : y ≠ x) (hw : OccursAt (refText t y) s' i) :
    OccursAt (refText t y) s i := by
  refine occursAt_of_unchanged hw fun k hk => ?_
  by_contra hdiff
  obtain ⟨i₀, hj, -, hnew⟩ := round_changed h hdiff
  rw [refText_length] at hk
  rcases ref_overlap ht ht₀ hx hw hnew hk hj with ⟨rfl, hhead⟩ | ⟨-, heq⟩
  · exact hdiff (head_unchanged ht₀ hx h hdet ht hnamed hy hw hhead)
  · exact hy heq

include ht₀ hx hne h in
/-- In a detached content a round leaves no reference of its text to the old letter. -/
theorem not_occursAt_old (hdet : Detached named x₀ x s) (hnamed : named x₀) (i : Nat) :
    ¬ OccursAt (refText t₀ x₀) s' i := by
  intro hw
  have hbefore := occursAt_of_round ht₀ hx h hdet ht₀ hnamed hne hw
  obtain ⟨i', hle, hlt, hold, hnew⟩ :=
    h.covered (by simp [refText_length]) (by simp [refText]) hbefore
  rw [refText_length] at hlt
  obtain ⟨k, hj⟩ : ∃ k, i + k = i' + (t₀.length + 1) :=
    ⟨i' + (t₀.length + 1) - i, by omega⟩
  rcases ref_overlap ht₀ ht₀ hx hw hnew (by omega) hj with ⟨rfl, hhead⟩ | ⟨-, heq⟩
  · have hsame := head_unchanged ht₀ hx h hdet ht₀ hnamed hne hw hhead
    rw [Nat.add_zero] at hj
    rw [hj] at hsame
    have hletters : some x₀ = some x := by
      calc some x₀
          = s[i' + (t₀.length + 1)]? := (letter_of_occursAt hold).symm
        _ = s'[i' + (t₀.length + 1)]? := hsame.symm
        _ = some x := letter_of_occursAt hnew
    exact hne (Option.some.inj hletters)
  · exact hne heq

include ht₀ hx hx₀ hne h in
/-- A round keeps a content detached. -/
theorem detached_of_round (hdet : Detached named x₀ x s) (hnamed : named x₀) :
    Detached named x₀ x s' := by
  intro t₁ ht₁ t₂ ht₂ hhead y hy hyx i hw
  obtain ⟨href, htail⟩ := occursAt_of_append hw
  have hrefBefore := occursAt_of_round ht₀ hx h hdet ht₁ hnamed hne href
  rw [refText_length] at htail
  have hread : s'[i + t₁.length + 1]? = some x₀ := by
    rw [Nat.add_assoc, letter_of_occursAt href]
  have htailBefore := occursAt_tail_of_round ht₀ hx h ht₂ hyx htail
    fun heq => hx₀ (Option.some.inj (hread.symm.trans heq))
  refine hdet t₁ ht₁ t₂ ht₂ hhead y hy hyx i (occursAt_append hrefBefore ?_)
  rw [refText_length]
  exact htailBefore

include h in
/-- A round changes nothing or leaves a reference that names `x`. -/
theorem eq_or_occursAt_new : s' = s ∨ ∃ i, OccursAt (refText t₀ x) s' i := by
  cases eq_or_ne s' s with
  | inl heq => exact Or.inl heq
  | inr hdiff =>
      obtain ⟨j, hj⟩ : ∃ j, s'[j]? ≠ s[j]? := by
        by_contra hall
        exact hdiff (List.ext_getElem? fun j => by_contra fun hj => hall ⟨j, hj⟩)
      obtain ⟨i, -, -, hnew⟩ := round_changed h hj
      exact Or.inr ⟨i, hnew⟩

end Round

section Rounds

variable {named : Char → Prop} {x₀ x : Char}

theorem rewrites_replaceSuffix (x₀ x : Char) (s t : Text) :
    Rewrites (refText t x₀) (refText t x) s
      (replaceSuffix ['_', x₀] ['_', x] (by simp) s t) := by
  rw [replaceSuffix, findAndReplace_eq]
  exact rewrites_replaceAll (by simp [refText]) _ _

/-- The rounds over some of the texts, in order. -/
def rounds (x₀ x : Char) (ts : List Text) (s : Text) : Text :=
  ts.foldl (replaceSuffix ['_', x₀] ['_', x] (by simp)) s

theorem rewriteContent_eq_rounds (x₀ x : Char) (s : Text) :
    rewriteContent ['_', x₀] ['_', x] (by simp) s = rounds x₀ x texts s := rfl

/-- After rounds over `ts` a reference that does not name `x` was there before,
and no such reference of a text in `ts` names the old letter. -/
theorem occursAt_of_rounds (hx : x ≠ '_') (hx₀ : x₀ ≠ '_') (hne : x₀ ≠ x) {ts : List Text}
    (hts : ts ⊆ texts) {s : Text} (hdet : Detached named x₀ x s) (hnamed₀ : named x₀) {t : Text}
    {y : Char} {i : Nat} (ht : t ∈ texts) (hnamed : named y) (hy : y ≠ x)
    (hw : OccursAt (refText t y) (rounds x₀ x ts s) i) :
    OccursAt (refText t y) s i ∧ (t ∈ ts → y ≠ x₀) := by
  induction ts generalizing s with
  | nil => exact ⟨hw, by simp⟩
  | cons t₀ ts ih =>
      have ht₀ : t₀ ∈ texts := hts (by simp)
      have hround := rewrites_replaceSuffix x₀ x s t₀
      have hdet' := detached_of_round ht₀ hx hx₀ hne hround hdet hnamed₀
      obtain ⟨hocc, hrest⟩ := ih (fun a ha => hts (by simp [ha])) hdet' hw
      refine ⟨occursAt_of_round ht₀ hx hround hdet ht hnamed hy hocc, ?_⟩
      intro hmem hold
      rcases List.mem_cons.mp hmem with rfl | htail
      · subst hold
        exact not_occursAt_old ht₀ hx hne hround hdet hnamed₀ i hocc
      · exact hrest htail hold

/-- The rewrite of a detached content leaves no reference to the old letter and
makes up none to a third one. -/
theorem letter_of_rewrite (hx : x ≠ '_') (hx₀ : x₀ ≠ '_') (hne : x₀ ≠ x) {s : Text}
    (hdet : Detached named x₀ x s) (hnamed₀ : named x₀) {t : Text} {y : Char} {i : Nat}
    (ht : t ∈ texts) (hnamed : named y)
    (hw : OccursAt (refText t y) (rewriteContent ['_', x₀] ['_', x] (by simp) s) i) :
    y = x ∨ (y ≠ x₀ ∧ OccursAt (refText t y) s i) := by
  cases eq_or_ne y x with
  | inl heq => exact Or.inl heq
  | inr hy =>
      rw [rewriteContent_eq_rounds] at hw
      obtain ⟨hocc, hold⟩ := occursAt_of_rounds hx hx₀ hne (List.Subset.refl _) hdet hnamed₀ ht
        hnamed hy hw
      exact Or.inr ⟨hold ht, hocc⟩

/-- Rounds keep at least one reference to the old or the new letter. -/
theorem exists_occursAt_rounds {ts : List Text} (hts : ts ⊆ texts) {s : Text}
    (hc : ∃ t ∈ texts, ∃ y, (y = x₀ ∨ y = x) ∧ ∃ i, OccursAt (refText t y) s i) :
    ∃ t ∈ texts, ∃ y, (y = x₀ ∨ y = x) ∧ ∃ i, OccursAt (refText t y) (rounds x₀ x ts s) i := by
  induction ts generalizing s with
  | nil => exact hc
  | cons t₀ ts ih =>
      apply ih (fun a ha => hts (by simp [ha]))
      rcases eq_or_occursAt_new (rewrites_replaceSuffix x₀ x s t₀) with heq | ⟨i, hnew⟩
      · rwa [heq]
      · exact ⟨t₀, hts (by simp), x, Or.inr rfl, i, hnew⟩

/-- Without a reference to the old letter the rewrite changes nothing. -/
theorem rewriteContent_eq_self {s : Text}
    (hc : ∀ t ∈ texts, ∀ i, ¬ OccursAt (refText t x₀) s i) :
    rewriteContent ['_', x₀] ['_', x] (by simp) s = s := by
  have hall : ∀ ts ⊆ texts, rounds x₀ x ts s = s := by
    intro ts hts
    induction ts with
    | nil => rfl
    | cons t₀ ts ih =>
        have hround : replaceSuffix ['_', x₀] ['_', x] (by simp) s t₀ = s := by
          rw [replaceSuffix, findAndReplace_eq]
          exact replaceAll_eq_self (hc t₀ (hts (by simp))) _
        rw [rounds, List.foldl_cons, hround]
        exact ih fun a ha => hts (by simp [ha])
  exact hall texts (List.Subset.refl _)

/-- Rewriting to the same suffix changes nothing. -/
theorem rewriteContent_same (suffix : Text) (hne : suffix ≠ []) (s : Text) :
    rewriteContent suffix suffix hne s = s := by
  have hround : ∀ t, replaceSuffix suffix suffix hne s t = s := by
    intro t
    rw [replaceSuffix, findAndReplace_eq, replaceAll_self]
  simp [rewriteContent, texts, hround]

end Rounds

end AndroidX86Tv.BootControl
