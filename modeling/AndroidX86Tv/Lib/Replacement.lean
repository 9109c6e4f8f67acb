import Mathlib.Data.List.Basic
import Mathlib.Data.List.Infix

/-!
# Occurrences and left-to-right replacement in lists

`replaceAll` replaces the non-overlapping occurrences of a pattern, scanning
from the left and never looking again at what it has inserted. `Rewrites`
describes the same result as a derivation, on which the facts about single
positions are proved by induction.
-/

namespace ListReplacement

variable {α : Type*}

/-- The pattern stands in the list at position `i`. -/
def OccursAt (pat s : List α) (i : Nat) : Prop :=
  pat <+: s.drop i

instance [DecidableEq α] (pat s : List α) (i : Nat) : Decidable (OccursAt pat s i) :=
  inferInstanceAs (Decidable (pat <+: s.drop i))

theorem prefix_iff_getElem? (pat s : List α) :
    pat <+: s ↔ ∀ k < pat.length, s[k]? = pat[k]? := by
  constructor
  · rintro ⟨rest, rfl⟩ k hk
    exact List.getElem?_append_left hk
  · intro h
    have htake : s.take pat.length = pat := by
      apply List.ext_getElem?
      intro k
      by_cases hk : k < pat.length
      · rw [List.getElem?_take_of_lt hk, h k hk]
      · rw [List.getElem?_eq_none (by simp; omega), List.getElem?_eq_none (by omega)]
    exact htake ▸ List.take_prefix _ _

/-- An occurrence fixes every letter of its window. -/
theorem occursAt_iff (pat s : List α) (i : Nat) :
    OccursAt pat s i ↔ ∀ k < pat.length, s[i + k]? = pat[k]? := by
  simp only [OccursAt, prefix_iff_getElem?, List.getElem?_drop]

theorem OccursAt.getElem? {pat s : List α} {i : Nat} (h : OccursAt pat s i) {k : Nat}
    (hk : k < pat.length) : s[i + k]? = pat[k]? :=
  (occursAt_iff pat s i).mp h k hk

/-- The letters under an occurrence are letters of the pattern. -/
theorem OccursAt.mem {pat s : List α} {i j : Nat} {c : α} (h : OccursAt pat s i) (hle : i ≤ j)
    (hlt : j < i + pat.length) (hc : s[j]? = some c) : c ∈ pat := by
  have hread := h.getElem? (k := j - i) (by omega)
  rw [Nat.add_sub_cancel' hle, hc] at hread
  exact List.mem_of_getElem? hread.symm

theorem OccursAt.le_length {pat s : List α} {i : Nat} (h : OccursAt pat s i) (hne : pat ≠ []) :
    i + pat.length ≤ s.length := by
  have hlen := List.IsPrefix.length_le h
  have hpos := List.length_pos_iff.mpr hne
  rw [List.length_drop] at hlen
  omega

/-- A pattern does not see the letters in front of it. -/
theorem occursAt_append_left (pat pre s : List α) (k : Nat) :
    OccursAt pat (pre ++ s) (pre.length + k) ↔ OccursAt pat s k := by
  simp only [OccursAt, List.drop_append, List.drop_eq_nil_of_le (Nat.le_add_right _ k),
    List.nil_append, Nat.add_sub_cancel_left]

/-- A window that ends in the first list does not see the second one. -/
theorem occursAt_append_right {pat s : List α} {i : Nat} (h : i + pat.length ≤ s.length)
    (rest : List α) : OccursAt pat (s ++ rest) i ↔ OccursAt pat s i := by
  rw [occursAt_iff, occursAt_iff]
  refine forall₂_congr fun k hk => ?_
  rw [List.getElem?_append_left (by omega)]

@[simp] theorem occursAt_cons_succ (pat s : List α) (c : α) (k : Nat) :
    OccursAt pat (c :: s) (k + 1) ↔ OccursAt pat s k := by
  simp [OccursAt]

@[simp] theorem occursAt_zero (pat s : List α) : OccursAt pat s 0 ↔ pat <+: s := by
  simp [OccursAt]

/-- `Rewrites pat rep s t`: `t` is `s` after one scan from the left. -/
inductive Rewrites (pat rep : List α) : List α → List α → Prop
  | nil : Rewrites pat rep [] []
  | skip {c s t} (hmiss : ¬ pat <+: c :: s) (tail : Rewrites pat rep s t) :
      Rewrites pat rep (c :: s) (c :: t)
  | hit {s t} (tail : Rewrites pat rep s t) : Rewrites pat rep (pat ++ s) (rep ++ t)

section Scan

variable [DecidableEq α]

/-- Replace the occurrences of `pat` met while scanning from the left. -/
def replaceAll (pat rep : List α) (s : List α) : List α :=
  match s with
  | [] => []
  | c :: cs =>
      if pat ≠ [] ∧ pat <+: c :: cs then
        rep ++ replaceAll pat rep ((c :: cs).drop pat.length)
      else
        c :: replaceAll pat rep cs
termination_by s.length
decreasing_by
  · rename_i h
    have hpos := List.length_pos_iff.mpr h.1
    simp only [List.length_drop, List.length_cons]
    omega
  · simp

theorem replaceAll_nil (pat rep : List α) : replaceAll pat rep [] = [] := by
  rw [replaceAll]

theorem replaceAll_hit {pat : List α} (hne : pat ≠ []) (rep s : List α) :
    replaceAll pat rep (pat ++ s) = rep ++ replaceAll pat rep s := by
  obtain ⟨c, cs, hc⟩ := List.exists_cons_of_ne_nil hne
  have hs : pat ++ s = c :: (cs ++ s) := by simp [hc]
  have hdrop : (pat ++ s).drop pat.length = s := List.drop_left
  rw [hs, replaceAll, if_pos ⟨hne, hs ▸ List.prefix_append pat s⟩, ← hs, hdrop]

theorem replaceAll_skip {pat : List α} {c : α} {s : List α} (h : ¬ pat <+: c :: s)
    (rep : List α) : replaceAll pat rep (c :: s) = c :: replaceAll pat rep s := by
  rw [replaceAll, if_neg fun hp => h hp.2]

/-- The scan produces a derivation of `Rewrites`. -/
theorem rewrites_replaceAll {pat : List α} (hne : pat ≠ []) (rep s : List α) :
    Rewrites pat rep s (replaceAll pat rep s) := by
  fun_induction replaceAll pat rep s with
  | case1 => exact Rewrites.nil
  | case2 c cs h ih =>
      obtain ⟨rest, hrest⟩ := h.2
      have hdrop : (c :: cs).drop pat.length = rest := by
        rw [← hrest, List.drop_left]
      rw [hdrop] at ih ⊢
      exact hrest ▸ Rewrites.hit ih
  | case3 c cs h ih =>
      exact Rewrites.skip (fun hp => h ⟨hne, hp⟩) ih

/-- Without an occurrence nothing is replaced. -/
theorem replaceAll_eq_self {pat s : List α} (h : ∀ i, ¬ OccursAt pat s i) (rep : List α) :
    replaceAll pat rep s = s := by
  induction s with
  | nil => exact replaceAll_nil pat rep
  | cons c s ih =>
      rw [replaceAll_skip (by simpa using h 0),
        ih fun i => by simpa using h (i + 1)]

/-- Replacing a pattern by itself changes nothing. -/
theorem replaceAll_self (pat s : List α) : replaceAll pat pat s = s := by
  fun_induction replaceAll pat pat s with
  | case1 => rfl
  | case2 c cs h ih =>
      rw [ih]
      exact List.prefix_iff_eq_append.mp h.2
  | case3 c cs h ih => rw [ih]

/-- The letters in front of the first occurrence are copied. -/
theorem replaceAll_append_of_first {pat : List α} (rep pre s : List α)
    (h : ∀ i < pre.length, ¬ OccursAt pat (pre ++ s) i) :
    replaceAll pat rep (pre ++ s) = pre ++ replaceAll pat rep s := by
  induction pre with
  | nil => rfl
  | cons c pre ih =>
      rw [List.cons_append, replaceAll_skip (by simpa using h 0 (by simp)), ih, List.cons_append]
      intro i hi
      simpa using h (i + 1) (by simpa using hi)

end Scan

section SameLength

variable {pat rep : List α} (hlen : rep.length = pat.length)

include hlen in
theorem Rewrites.length_eq {s t : List α} (h : Rewrites pat rep s t) : t.length = s.length := by
  induction h with
  | nil => rfl
  | skip hmiss tail ih => rw [List.length_cons, List.length_cons, ih]
  | hit tail ih => rw [List.length_append, List.length_append, ih, hlen]

include hlen in
/-- A position that changed lies in the window of a replaced occurrence. -/
theorem Rewrites.changed {s t : List α} (h : Rewrites pat rep s t) {j : Nat}
    (hj : t[j]? ≠ s[j]?) :
    ∃ i k, j = i + k ∧ k < pat.length ∧ OccursAt pat s i ∧ OccursAt rep t i := by
  induction h generalizing j with
  | nil => exact absurd rfl hj
  | @skip c s t hmiss tail ih =>
      cases j with
      | zero => exact absurd rfl hj
      | succ j =>
          obtain ⟨i, k, rfl, hk, hs, ht⟩ := ih (by simpa using hj)
          exact ⟨i + 1, k, by omega, hk, by simpa using hs, by simpa using ht⟩
  | @hit s t tail ih =>
      by_cases hlt : j < pat.length
      · exact ⟨0, j, by omega, hlt, by simp, by simp⟩
      · obtain ⟨j, rfl⟩ : ∃ d, j = pat.length + d := ⟨j - pat.length, by omega⟩
        have hj' : t[j]? ≠ s[j]? := by
          rw [List.getElem?_append_right (by omega), List.getElem?_append_right (by omega)] at hj
          simpa [hlen] using hj
        obtain ⟨i, k, rfl, hk, hs, ht⟩ := ih hj'
        refine ⟨pat.length + i, k, by omega, hk, (occursAt_append_left _ _ _ _).mpr hs, ?_⟩
        rw [← hlen]
        exact (occursAt_append_left _ _ _ _).mpr ht

include hlen in
/-- Every occurrence is replaced or overlapped by one that starts earlier and is replaced. -/
theorem Rewrites.covered {s t : List α} (h : Rewrites pat rep s t) (hne : pat ≠ []) {i : Nat}
    (hi : OccursAt pat s i) :
    ∃ i', i' ≤ i ∧ i < i' + pat.length ∧ OccursAt pat s i' ∧ OccursAt rep t i' := by
  induction h generalizing i with
  | nil => simp [OccursAt, hne] at hi
  | @skip c s t hmiss tail ih =>
      cases i with
      | zero => exact absurd (by simpa using hi) hmiss
      | succ i =>
          obtain ⟨i', hle, hlt, hs, ht⟩ := ih (by simpa using hi)
          exact ⟨i' + 1, by omega, by omega, by simpa using hs, by simpa using ht⟩
  | @hit s t tail ih =>
      by_cases hlt : i < pat.length
      · exact ⟨0, by omega, by omega, by simp, by simp⟩
      · obtain ⟨i, rfl⟩ : ∃ d, i = pat.length + d := ⟨i - pat.length, by omega⟩
        obtain ⟨i', hle, hlt', hs, ht⟩ := ih ((occursAt_append_left _ _ _ _).mp hi)
        refine ⟨pat.length + i', by omega, by omega, (occursAt_append_left _ _ _ _).mpr hs, ?_⟩
        rw [← hlen]
        exact (occursAt_append_left _ _ _ _).mpr ht

end SameLength

end ListReplacement
