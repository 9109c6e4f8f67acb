import AndroidX86Tv.Lib.Replacement

/-!
# The first assignment to a key

An assignment is a key with its value behind it, which goes as far as the first
letter that ends values. `assignFirst` gives the first assignment of a list a new
value.
-/

namespace ListReplacement

variable {α : Type*}

/-- The value that stands at the start of a list. -/
def valueOf (ends : α → Bool) (s : List α) : List α := s.takeWhile fun c => !ends c

/-- What is behind the value. -/
def afterValue (ends : α → Bool) (s : List α) : List α := s.dropWhile fun c => !ends c

theorem valueOf_append_afterValue (ends : α → Bool) (s : List α) :
    valueOf ends s ++ afterValue ends s = s :=
  List.takeWhile_append_dropWhile

/-- A list of letters that end no value belongs to the value. -/
theorem afterValue_append {ends : α → Bool} {pre : List α} (h : ∀ c ∈ pre, ends c = false)
    (s : List α) : afterValue ends (pre ++ s) = afterValue ends s :=
  List.dropWhile_append_of_pos fun c hc => by simp [h c hc]

theorem ends_of_mem_valueOf {ends : α → Bool} {s : List α} {c : α} (h : c ∈ valueOf ends s) :
    ends c = false := by
  simpa using List.all_eq_true.mp List.all_takeWhile c h

theorem valueOf_append {ends : α → Bool} {pre : List α} (h : ∀ c ∈ pre, ends c = false)
    (s : List α) : valueOf ends (pre ++ s) = pre ++ valueOf ends s :=
  List.takeWhile_append_of_pos fun c hc => by simp [h c hc]

section MoreEnds

variable {ends ends' : α → Bool} (hends : ∀ c, ends c = true → ends' c = true)

include hends in
/-- What is behind a value starts with a letter that ends values. -/
theorem valueOf_afterValue (s : List α) : valueOf ends' (afterValue ends s) = [] := by
  induction s with
  | nil => rfl
  | cons c s ih =>
      rw [afterValue] at ih ⊢
      cases h : ends c with
      | true => simp [valueOf, h, hends c h]
      | false => simpa [h] using ih

/-- A list that starts with a letter that ends values, or is empty, is behind a value. -/
theorem afterValue_eq_self {s : List α} (h : ∀ c, s.head? = some c → ends c = true) :
    afterValue ends s = s := by
  cases s with
  | nil => rfl
  | cons c s => simp [afterValue, h c rfl]

theorem ends_of_head?_afterValue {s : List α} {c : α} (h : (afterValue ends s).head? = some c) :
    ends c = true := by
  induction s with
  | nil => exact absurd h nofun
  | cons d s ih =>
      rw [afterValue] at ih h
      cases hd : ends d with
      | true =>
          simp only [List.dropWhile_cons, hd, Bool.not_true, Bool.false_eq_true, if_false,
            List.head?_cons, Option.some.injEq] at h
          exact h ▸ hd
      | false => exact ih (by simpa [hd] using h)

include hends in
theorem afterValue_afterValue (s : List α) :
    afterValue ends' (afterValue ends s) = afterValue ends s := by
  simpa [valueOf_afterValue hends] using valueOf_append_afterValue ends' (afterValue ends s)

include hends in
/-- What is written over the value that ends at fewer letters can be taken as written
over the other one exactly when the two values are the same. -/
theorem exists_value_iff {value : List α} (hvalue : ∀ c ∈ value, ends' c = false) (s : List α) :
    (∃ value', (∀ c ∈ value', ends' c = false) ∧
        value ++ afterValue ends s = value' ++ afterValue ends' s) ↔
      ∀ c ∈ valueOf ends s, ends' c = false := by
  constructor
  · rintro ⟨value', hvalue', heq⟩
    have hsame : value = value' := by
      calc value
          = valueOf ends' (value ++ afterValue ends s) := by
            rw [valueOf_append hvalue, valueOf_afterValue hends, List.append_nil]
        _ = valueOf ends' (value' ++ afterValue ends' s) := by rw [heq]
        _ = value' := by
            rw [valueOf_append hvalue', valueOf_afterValue fun _ h => h, List.append_nil]
    have htail : afterValue ends s = afterValue ends' s := by
      rw [hsame] at heq
      exact List.append_cancel_left heq
    have hvalues : valueOf ends s = valueOf ends' s := by
      refine List.append_cancel_right (?_ : _ ++ afterValue ends s = _)
      rw [valueOf_append_afterValue, htail, valueOf_append_afterValue]
    exact fun c hc => ends_of_mem_valueOf (hvalues ▸ hc)
  · intro hs
    refine ⟨value, hvalue, ?_⟩
    calc value ++ afterValue ends s
        = value ++ afterValue ends' (afterValue ends s) := by rw [afterValue_afterValue hends]
      _ = value ++ afterValue ends' (valueOf ends s ++ afterValue ends s) := by
          rw [afterValue_append hs]
      _ = value ++ afterValue ends' s := by rw [valueOf_append_afterValue]

end MoreEnds

/-- The key stands somewhere. -/
def Occurs (key s : List α) : Prop := ∃ i, OccursAt key s i

theorem occurs_append (pre key rest : List α) : Occurs key (pre ++ (key ++ rest)) :=
  ⟨pre.length, by rw [OccursAt, List.drop_left]; exact List.prefix_append key rest⟩

/-- The key stands behind `pre` and not before. -/
def FirstAt (key pre rest : List α) : Prop :=
  ∀ i < pre.length, ¬ OccursAt key (pre ++ (key ++ rest)) i

/-- `t` is `s` with some value in the first assignment to the key. -/
def Reassigned (ends : α → Bool) (key s t : List α) : Prop :=
  ∃ pre rest value, s = pre ++ (key ++ rest) ∧ FirstAt key pre rest ∧
    (∀ c ∈ value, ends c = false) ∧ t = pre ++ (key ++ (value ++ afterValue ends rest))

/-- A letter that ends values and stands at the end of the new list stood at the end of
the old one. -/
theorem Reassigned.getLast? {ends : α → Bool} {key s t : List α} {c : α}
    (h : Reassigned ends key s t) (hne : key ≠ []) (hc : c ∉ key) (hends : ends c = true)
    (hlast : t.getLast? = some c) : s.getLast? = some c := by
  obtain ⟨pre, rest, value, rfl, -, hvalue, rfl⟩ := h
  have hrest := valueOf_append_afterValue ends rest
  cases hafter : afterValue ends rest with
  | nil =>
      -- the last letter would be one of the key or of the value
      rw [hafter, List.append_nil, List.getLast?_append_of_ne_nil _ (by simp [hne])] at hlast
      cases List.mem_append.mp (List.mem_of_getLast? hlast) with
      | inl hkey => exact absurd hkey hc
      | inr hmem => exact absurd hends (by simp [hvalue c hmem])
  | cons d later =>
      rw [hafter] at hrest hlast
      rw [← hrest]
      simp only [← List.append_assoc] at hlast ⊢
      rw [List.getLast?_append_of_ne_nil _ (List.cons_ne_nil d later)] at hlast ⊢
      exact hlast

section Assignments

variable [DecidableEq α]

/-- What is before and behind the first place of the key. -/
def splitFirst (key : List α) : List α → Option (List α × List α)
  | [] => none
  | c :: s =>
      if key <+: c :: s then some ([], (c :: s).drop key.length)
      else (splitFirst key s).map fun split => (c :: split.1, split.2)

/-- The value of the first assignment to the key. -/
def firstValue (ends : α → Bool) (key s : List α) : Option (List α) :=
  (splitFirst key s).map fun split => valueOf ends split.2

/-- The list with another value in the first assignment, if there is one. -/
def assignFirst (ends : α → Bool) (key value s : List α) : Option (List α) :=
  (splitFirst key s).map fun split =>
    split.1 ++ (key ++ (value ++ afterValue ends split.2))

variable {ends : α → Bool} {key value s pre rest : List α} {c : α}

theorem splitFirst_skip (h : ¬ key <+: c :: s) :
    splitFirst key (c :: s) = (splitFirst key s).map fun split => (c :: split.1, split.2) := by
  rw [splitFirst, if_neg h]

/-- Letters at which the key does not stand come before its first place. -/
theorem splitFirst_append (h : ∀ i < pre.length, ¬ OccursAt key (pre ++ s) i) :
    splitFirst key (pre ++ s) = (splitFirst key s).map fun split => (pre ++ split.1, split.2) := by
  induction pre with
  | nil => simp
  | cons c pre ih =>
      have hmiss : ¬ key <+: c :: (pre ++ s) := by
        simpa using h 0 (Nat.succ_pos _)
      have hrest : ∀ i < pre.length, ¬ OccursAt key (pre ++ s) i := fun i hi => by
        simpa using h (i + 1) (Nat.succ_lt_succ hi)
      rw [List.cons_append, splitFirst_skip hmiss, ih hrest, Option.map_map]
      rfl

theorem splitFirst_hit (hne : key ≠ []) (rest : List α) :
    splitFirst key (key ++ rest) = some ([], rest) := by
  obtain ⟨c, cs, hc⟩ := List.exists_cons_of_ne_nil hne
  have hs : key ++ rest = c :: (cs ++ rest) := by rw [hc, List.cons_append]
  have hdrop : (key ++ rest).drop key.length = rest := List.drop_left
  rw [hs, splitFirst, if_pos (hs ▸ List.prefix_append key rest), ← hs, hdrop]

theorem splitFirst_of_firstAt (hne : key ≠ []) (h : FirstAt key pre rest) :
    splitFirst key (pre ++ (key ++ rest)) = some (pre, rest) := by
  rw [splitFirst_append h, splitFirst_hit hne, Option.map_some, List.append_nil]

theorem splitFirst_eq_none (h : ¬ Occurs key s) : splitFirst key s = none := by
  have hall : ∀ i < s.length, ¬ OccursAt key (s ++ []) i := fun i _ hocc =>
    h ⟨i, List.append_nil s ▸ hocc⟩
  have hsplit := splitFirst_append hall
  rwa [List.append_nil] at hsplit

/-- The key stands nowhere or has a first place. -/
theorem exists_firstAt (hne : key ≠ []) (s : List α) :
    ¬ Occurs key s ∨ ∃ pre rest, s = pre ++ (key ++ rest) ∧ FirstAt key pre rest := by
  induction s with
  | nil =>
      refine Or.inl ?_
      rintro ⟨i, hi⟩
      exact hne (by simpa [OccursAt] using hi)
  | cons c s ih =>
      by_cases hhit : key <+: c :: s
      · obtain ⟨rest, hrest⟩ := hhit
        exact Or.inr ⟨[], rest, hrest.symm, fun i hi => absurd hi (Nat.not_lt_zero i)⟩
      · rcases ih with hnone | ⟨pre, rest, rfl, hfirst⟩
        · refine Or.inl ?_
          rintro ⟨i, hi⟩
          cases i with
          | zero => exact hhit (by simpa using hi)
          | succ i => exact hnone ⟨i, by simpa using hi⟩
        · refine Or.inr ⟨c :: pre, rest, rfl, fun i hi => ?_⟩
          cases i with
          | zero => simpa using hhit
          | succ i => simpa using hfirst i (Nat.lt_of_succ_lt_succ hi)

/-- What `assignFirst` does at the first place of the key. -/
theorem assignFirst_of_firstAt (hne : key ≠ []) (h : FirstAt key pre rest) :
    assignFirst ends key value (pre ++ (key ++ rest)) =
      some (pre ++ (key ++ (value ++ afterValue ends rest))) := by
  rw [assignFirst, splitFirst_of_firstAt hne h]
  rfl

theorem assignFirst_eq_none (h : ¬ Occurs key s) : assignFirst ends key value s = none := by
  rw [assignFirst, splitFirst_eq_none h]
  rfl

theorem firstValue_of_firstAt (hne : key ≠ []) (h : FirstAt key pre rest) :
    firstValue ends key (pre ++ (key ++ rest)) = some (valueOf ends rest) := by
  rw [firstValue, splitFirst_of_firstAt hne h]
  rfl

theorem firstValue_eq_none (h : ¬ Occurs key s) : firstValue ends key s = none := by
  rw [firstValue, splitFirst_eq_none h]
  rfl

theorem assignFirst_append (h : ∀ i < pre.length, ¬ OccursAt key (pre ++ s) i) :
    assignFirst ends key value (pre ++ s) = (assignFirst ends key value s).map (pre ++ ·) := by
  rw [assignFirst, assignFirst, splitFirst_append h, Option.map_map, Option.map_map]
  congr 1
  funext split
  exact List.append_assoc _ _ _

section Reassigned

variable {ends' : α → Bool}

/-- A value that another notion of values has written is a change of the value alone
exactly when the old value has no letter that ends values. -/
theorem reassigned_iff (hne : key ≠ []) (hends : ∀ c, ends c = true → ends' c = true)
    (hvalue : ∀ c ∈ value, ends' c = false) (hfirst : FirstAt key pre rest) :
    Reassigned ends' key (pre ++ (key ++ rest)) (pre ++ (key ++ (value ++ afterValue ends rest))) ↔
      ∀ c ∈ valueOf ends rest, ends' c = false := by
  rw [← exists_value_iff hends hvalue]
  constructor
  · rintro ⟨pre', rest', value', hs, hfirst', hvalue', ht⟩
    have hsplit : some (pre, rest) = some (pre', rest') := by
      rw [← splitFirst_of_firstAt hne hfirst, hs, splitFirst_of_firstAt hne hfirst']
    obtain ⟨rfl, rfl⟩ := Prod.mk.injEq .. ▸ Option.some.inj hsplit
    exact ⟨value', hvalue', List.append_cancel_left (List.append_cancel_left ht)⟩
  · rintro ⟨value', hvalue', heq⟩
    exact ⟨pre, rest, value', rfl, hfirst, hvalue', by rw [heq]⟩

end Reassigned

end Assignments

section Separators

variable {key a b : List α} {c : α} {i : Nat}

/-- A word without the letter that starts before it lies before it. -/
theorem prefix_of_append_cons (hc : c ∉ key) (h : key <+: a ++ c :: b) : key <+: a := by
  rcases List.prefix_or_prefix_of_prefix h (List.prefix_append a (c :: b)) with hle | hge
  · exact hle
  · obtain ⟨rest, rfl⟩ := hge
    cases rest with
    | nil => exact (List.append_nil a).symm ▸ List.prefix_refl a
    | cons d rest =>
        obtain ⟨hd, -⟩ := List.cons_prefix_cons.mp ((List.prefix_append_right_inj a).mp h)
        exact absurd (List.mem_append_right a (hd ▸ List.mem_cons_self)) hc

theorem OccursAt.of_append_cons (hc : c ∉ key) (h : OccursAt key (a ++ c :: b) i)
    (hi : i ≤ a.length) : OccursAt key a i := by
  rw [OccursAt, List.drop_append_of_le_length hi] at h
  exact prefix_of_append_cons hc h

end Separators

section Again

variable {ends : α → Bool} {key value s pre rest : List α}

/-- Whether the key stands before a place does not depend on what is behind it there. -/
theorem FirstAt.congr (h : FirstAt key pre rest) (rest' : List α) : FirstAt key pre rest' := by
  intro i hi hocc
  have hin : i + key.length ≤ (pre ++ key).length := by
    rw [List.length_append]
    omega
  rw [← List.append_assoc, occursAt_append_right hin] at hocc
  refine h i hi ?_
  rwa [← List.append_assoc, occursAt_append_right hin]

/-- The last assignment decides. -/
theorem assignFirst_assignFirst [DecidableEq α] (hne : key ≠ [])
    (hvalue : ∀ c ∈ value, ends c = false) (hfirst : FirstAt key pre rest) (value' : List α) :
    assignFirst ends key value' (pre ++ (key ++ (value ++ afterValue ends rest))) =
      assignFirst ends key value' (pre ++ (key ++ rest)) := by
  rw [assignFirst_of_firstAt hne hfirst, assignFirst_of_firstAt hne (hfirst.congr _),
    afterValue_append hvalue, afterValue_afterValue fun _ h => h]

/-- A window that reaches into the second list has its first letter if it starts
in the first list. -/
theorem OccursAt.head?_mem {word a b : List α} {i : Nat} (h : OccursAt word (a ++ b) i)
    (hi : i < a.length) (hover : a.length < i + word.length) :
    ∃ c ∈ word, b.head? = some c := by
  have hin := h.le_length (List.ne_nil_of_length_pos (by omega))
  rw [List.length_append] at hin
  obtain ⟨c, later, rfl⟩ := List.exists_cons_of_ne_nil (List.ne_nil_of_length_pos
    (by omega : 0 < b.length))
  refine ⟨c, h.mem (Nat.le_of_lt hi) hover ?_, rfl⟩
  rw [List.getElem?_append_right (Nat.le_refl _), Nat.sub_self, List.getElem?_cons_zero]

/-- A window that reaches into the second list ends with a letter of it. -/
theorem OccursAt.getLast?_mem {word a b : List α} {i : Nat} (h : OccursAt word (a ++ b) i)
    (hne : word ≠ []) (hover : a.length < i + word.length) :
    ∃ c ∈ b, word.getLast? = some c := by
  have hpos := List.length_pos_iff.mpr hne
  have hin := h.le_length hne
  have hread := h.getElem? (k := word.length - 1) (by omega)
  rw [List.length_append] at hin
  rw [← List.getLast?_eq_getElem?, List.getElem?_append_right (by omega)] at hread
  obtain ⟨c, hc⟩ : ∃ c, b[i + (word.length - 1) - a.length]? = some c :=
    ⟨_, List.getElem?_eq_getElem (by omega)⟩
  exact ⟨c, List.mem_of_getElem? hc, hread.symm.trans hc⟩

theorem Occurs.append_left {word b : List α} (h : Occurs word b) (a : List α) :
    Occurs word (a ++ b) := by
  obtain ⟨i, hocc⟩ := h
  exact ⟨a.length + i, (occursAt_append_left word a b i).mpr hocc⟩

/-- An assignment makes up no occurrence of a word that crosses no end of a value
and ends with no letter of the new one. -/
theorem occurs_of_assigned {word : List α} (hword : ∀ c ∈ word, ends c = false)
    (hlast : ∀ c ∈ value, word.getLast? ≠ some c) (hne : word ≠ [])
    (h : Occurs word (pre ++ (key ++ (value ++ afterValue ends rest)))) :
    Occurs word (pre ++ (key ++ rest)) := by
  obtain ⟨i, hocc⟩ := h
  simp only [← List.append_assoc] at hocc ⊢
  rcases Nat.lt_or_ge i (pre ++ key ++ value).length with hbegins | hbehind
  · rcases Nat.lt_or_ge (pre ++ key ++ value).length (i + word.length) with hcrosses | hin
    · obtain ⟨c, hmem, hhead⟩ := hocc.head?_mem hbegins hcrosses
      exact absurd (ends_of_head?_afterValue hhead) (by simp [hword c hmem])
    · have hocc' := (occursAt_append_right hin _).mp hocc
      rcases Nat.lt_or_ge (pre ++ key).length (i + word.length) with hover | hbefore
      · obtain ⟨c, hmem, hend⟩ := hocc'.getLast?_mem hne hover
        exact absurd hend (hlast c hmem)
      · have hocc'' := (occursAt_append_right hbefore value).mp hocc'
        exact ⟨i, (occursAt_append_right hbefore rest).mpr hocc''⟩
  · obtain ⟨k, rfl⟩ := Nat.exists_eq_add_of_le hbehind
    have hafter : Occurs word (afterValue ends rest) :=
      ⟨k, (occursAt_append_left word _ _ k).mp hocc⟩
    rw [← valueOf_append_afterValue ends rest]
    exact (hafter.append_left _).append_left _

end Again

end ListReplacement
