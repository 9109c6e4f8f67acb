import AndroidX86Tv.BootControl.BootMode
import AndroidX86Tv.BootControl.BoundedReference

/-!
# The two rewrites of the boot config

`SetBootSlot` and the shutdown script rewrite one file. In a content with bounded
references no reference meets the assignment of a mode, so that the slots are rewritten
before the assignment, in the value that the mode replaces and behind it, each alone.
-/

namespace AndroidX86Tv.BootControl

open ListReplacement

/-- The keys that the script looks for. -/
def keys : List Text := [androidKey, modeKey]

theorem keys_ne_nil : ∀ key ∈ keys, key ≠ [] := by decide

theorem keys_underscore : ∀ key ∈ keys, '_' ∉ key := by decide

/-- The second letter of a key is one that follows no bounded reference. -/
theorem keys_second : ∀ key ∈ keys, key[1]?.any Char.isAlphanum = true := by decide

theorem key_second_of_occursAt {key content : Text} {p : Nat} (hkey : key ∈ keys)
    (hp : OccursAt key content p) : ∃ c, content[p + 1]? = some c ∧ c.isAlphanum = true := by
  obtain ⟨c, hc, halnum⟩ := (Option.any_eq_true _ _).mp (keys_second key hkey)
  have hlen : 1 < key.length := (List.getElem?_eq_some_iff.mp hc).1
  exact ⟨c, (hp.getElem? hlen).trans hc, halnum⟩

/-- No text has the last two letters of a key, or starts with the last one. -/
theorem keys_last : ∀ key ∈ keys, 1 < key.length ∧ ∀ t ∈ texts,
    t[0]? ≠ key[key.length - 1]? ∧ ∀ k < t.length, t[k + 1]? = key[key.length - 1]? →
      t[k]? ≠ key[key.length - 2]? := by decide

section Apart

variable {key t s : Text} {x₀ y : Char} {i p : Nat}

/-- A reference and a key do not overlap, but in the letter of the reference. -/
theorem reference_key_apart (hkey : key ∈ keys) (ht : t ∈ texts) (hp : OccursAt key s p)
    (hi : OccursAt (refText t y) s i) (hfirst : p ≠ i + (t.length + 1)) :
    i + (t.length + 2) ≤ p ∨ p + key.length ≤ i := by
  by_contra hmeet
  obtain ⟨hlen, hlast⟩ := keys_last key hkey
  obtain ⟨hstart, hpair⟩ := hlast t ht
  rcases Nat.lt_or_ge (i + t.length) (p + key.length) with hunder | hover
  · -- the underscore of the reference is under the key
    exact keys_underscore key hkey
      (hp.mem (by omega) hunder (underscore_of_occursAt hi))
  · -- the end of the key is under the text
    have hread : ∀ k < t.length, ∀ m < key.length, i + k = p + m → t[k]? = key[m]? := by
      intro k hk m hm heq
      rw [← refText_getElem?_text y hk, ← hi.getElem? (by rw [refText_length]; omega), heq,
        hp.getElem? hm]
    obtain ⟨q, hq⟩ : ∃ q, i + q = p + (key.length - 1) := ⟨p + (key.length - 1) - i, by omega⟩
    have hend := hread q (by omega) (key.length - 1) (by omega) hq
    cases q with
    | zero => exact hstart hend
    | succ q =>
        exact hpair q (by omega) hend (hread q (by omega) (key.length - 2) (by omega) (by omega))

/-- A bounded reference does not have its letter under the first letter of a key. -/
theorem Bounded.key_first (h : Bounded x₀ s) (hkey : key ∈ keys) (ht : t ∈ texts)
    (hp : OccursAt key s p) (hi : OccursAt (refText t x₀) s i) : p ≠ i + (t.length + 1) := by
  rintro rfl
  obtain ⟨c, hnext, halnum⟩ := key_second_of_occursAt hkey hp
  exact absurd halnum (by simp [h t ht i hi c hnext])

theorem Bounded.key_apart (h : Bounded x₀ s) (hkey : key ∈ keys) (ht : t ∈ texts)
    (hp : OccursAt key s p) (hi : OccursAt (refText t x₀) s i) :
    i + (t.length + 2) ≤ p ∨ p + key.length ≤ i :=
  reference_key_apart hkey ht hp hi (h.key_first hkey ht hp hi)

end Apart

section Assignment

variable {key pre rest value post mode : Text} {x₀ x : Char} (hkey : key ∈ keys)
  (hx₀ : x₀.isAlphanum = true)

theorem occursAt_key (pre key rest : Text) : OccursAt key (pre ++ (key ++ rest)) pre.length := by
  rw [OccursAt, List.drop_left]
  exact List.prefix_append key rest

include hkey in
/-- No reference runs into a key. -/
theorem uncrossed_before_key (h : Bounded x₀ (pre ++ (key ++ rest))) :
    Uncrossed x₀ pre (key ++ rest) := by
  intro t ht i hocc
  have hapart := h.key_apart hkey ht (occursAt_key pre key rest) hocc
  omega

include hkey in
/-- No reference runs out of a key, whatever follows it. -/
theorem uncrossed_after_key (h : Bounded x₀ (pre ++ key)) (rest : Text) :
    Uncrossed x₀ (pre ++ key) rest := by
  intro t ht i hocc
  have hp := occursAt_key pre key rest
  rw [← List.append_assoc] at hp
  have hlen : (pre ++ key).length = pre.length + key.length := List.length_append
  have hpos := List.length_pos_iff.mpr (keys_ne_nil key hkey)
  have hfirst : pre.length ≠ i + (t.length + 1) := by
    intro heq
    have hin := (occursAt_append_right (by rw [refText_length]; omega) rest).mp hocc
    have hp' := (occursAt_append_right (by omega) rest).mp hp
    exact h.key_first hkey ht hp' hin heq
  have hapart := reference_key_apart hkey ht hp hocc hfirst
  omega

include hx₀ in
/-- No reference has a letter that ends a value. -/
theorem endsWord_not_mem_refText (c : Char) (hc : endsWord c = true) :
    ∀ t ∈ texts, c ∉ refText t x₀ := by
  have htexts : ∀ t ∈ texts, (t ++ ['_']).any endsWord = false := by decide
  intro t ht hmem
  rw [refText, List.append_cons, List.mem_append, List.mem_singleton] at hmem
  rcases hmem with htext | rfl
  · exact List.any_eq_false.mp (htexts t ht) c htext hc
  · have hcases : c = ' ' ∨ c = '\n' := by simpa [endsWord] using hc
    cases hcases with
    | inl hspace => exact absurd hx₀ (by rw [hspace]; decide)
    | inr hnewline => exact absurd hx₀ (by rw [hnewline]; decide)

include hx₀ in
/-- No reference runs out of a value. -/
theorem uncrossed_after_value (value rest : Text) :
    Uncrossed x₀ value (afterValue endsWord rest) :=
  uncrossed_of_head? fun c hc => endsWord_not_mem_refText hx₀ c (ends_of_head?_afterValue hc)

include hkey in
theorem rewriteSlot_key (x₀ x : Char) : rewriteSlot x₀ x key = key :=
  rewriteSlot_eq_self (keys_underscore key hkey)

variable (hx : x ≠ '_') (hne : x₀ ≠ x)

include hkey hx₀ hx hne in
/-- The rewrite works before an assignment, in its value and behind it one by one. -/
theorem rewriteSlot_assignment
    (h : Bounded x₀ (pre ++ (key ++ (value ++ afterValue endsWord rest)))) :
    rewriteSlot x₀ x (pre ++ (key ++ (value ++ afterValue endsWord rest))) =
      rewriteSlot x₀ x pre ++
        (key ++ (rewriteSlot x₀ x value ++ rewriteSlot x₀ x (afterValue endsWord rest))) := by
  have hkeyPart := h.of_append_right
  have hrest := hkeyPart.of_append_right
  have hafter : Uncrossed x₀ ([] ++ key) (value ++ afterValue endsWord rest) :=
    uncrossed_after_key hkey hkeyPart.of_append_left _
  rw [rewriteSlot_append hx hx₀ hne h (uncrossed_before_key hkey h),
    rewriteSlot_append hx hx₀ hne hkeyPart hafter, rewriteSlot_key hkey,
    rewriteSlot_append hx hx₀ hne hrest (uncrossed_after_value hx₀ value rest)]

include hkey hx₀ in
/-- A value without an underscore keeps the content bounded. -/
theorem bounded_assignment (hmode : '_' ∉ mode)
    (h : Bounded x₀ (pre ++ (key ++ rest))) :
    Bounded x₀ (pre ++ (key ++ (mode ++ afterValue endsWord rest))) := by
  have hcut : Bounded x₀ (((pre ++ key) ++ valueOf endsWord rest) ++ afterValue endsWord rest) := by
    rw [List.append_assoc, valueOf_append_afterValue, List.append_assoc]
    exact h
  have hbefore : Bounded x₀ (pre ++ key) := hcut.of_append_left.of_append_left
  have hvalue : Bounded x₀ mode := fun t _ i hocc =>
    absurd (List.mem_of_getElem? (underscore_of_occursAt hocc)) hmode
  have hnew : Bounded x₀ (mode ++ afterValue endsWord rest) :=
    hvalue.append hcut.of_append_right (uncrossed_after_value hx₀ mode rest)
      fun t _ i hocc => absurd (List.mem_of_getElem? (underscore_of_occursAt hocc)) hmode
  rw [← List.append_assoc]
  refine hbefore.append hnew (uncrossed_after_key hkey hbefore _) fun t ht i hocc hend => ?_
  -- no reference ends with a key
  have hp : OccursAt key (pre ++ key) pre.length := by
    simpa using occursAt_key pre key []
  have hlen : (pre ++ key).length = pre.length + key.length := List.length_append
  have hpos := List.length_pos_iff.mpr (keys_ne_nil key hkey)
  have hapart := hbefore.key_apart hkey ht hp hocc
  omega

include hkey hx₀ hx hne in
/-- A key in the result was there before. -/
theorem occursAt_key_of_rewriteSlot {s : Text} {i : Nat} (h : Bounded x₀ s)
    (hocc : OccursAt key (rewriteSlot x₀ x s) i) : OccursAt key s i := by
  refine occursAt_of_unchanged hocc fun k hk => ?_
  by_contra hdiff
  have hletter : LetterAt texts x₀ s (i + k) :=
    by_contra fun hno => hdiff (rewriteSlot_other hx hx₀ hne h hno)
  obtain ⟨t, ht, i₀, hold, hj⟩ := hletter
  cases k with
  | zero =>
      -- behind the letter stands the second letter of the key
      obtain ⟨c, hnext, halnum⟩ := key_second_of_occursAt hkey hocc
      obtain ⟨d, hd, hdigit⟩ := alphanum_of_rewriteSlot hx hx₀ hne h hnext halnum
      rw [show i + 1 = i₀ + (t.length + 2) by omega] at hd
      exact absurd hdigit (by simp [h t ht i₀ hold d hd])
  | succ k =>
      -- in front of the letter stands an underscore
      have hunder : s[i + k]? = some '_' := by
        rw [show i + k = i₀ + t.length by omega, underscore_of_occursAt hold]
      have hkept := rewriteSlot_keeps hx hx₀ hne h hunder
        (ne_underscore_of_isAlphanum hx₀).symm
      exact keys_underscore key hkey
        (hocc.mem (Nat.le_add_right i k) (by omega) hkept)

include hx₀ hx hne in
/-- The value that the script sees after the slots have been rewritten. -/
theorem afterValue_rewriteSlot (hword : endsWord x = false)
    (h : Bounded x₀ (valueOf endsWord rest ++ afterValue endsWord rest)) :
    afterValue endsWord (rewriteSlot x₀ x (valueOf endsWord rest) ++
        rewriteSlot x₀ x (afterValue endsWord rest)) =
      rewriteSlot x₀ x (afterValue endsWord rest) := by
  rw [afterValue_append]
  · refine afterValue_eq_self fun c hc => ?_
    rw [head?_rewriteSlot hx hx₀ hne h.of_append_right] at hc
    exact ends_of_head?_afterValue hc
  · intro c hc
    rcases mem_rewriteSlot hx hx₀ hne h.of_append_left hc with hmem | rfl
    · exact ends_of_mem_valueOf hmem
    · exact hword

include hkey hx₀ hx hne in
/-- The slot can be rewritten before or after the first assignment to a key. -/
theorem assignFirst_rewriteSlot (hword : endsWord x = false) (hmode : '_' ∉ mode) {s : Text}
    (h : Bounded x₀ s) :
    assignFirst endsWord key mode (rewriteSlot x₀ x s) =
      (assignFirst endsWord key mode s).map (rewriteSlot x₀ x) := by
  have hkeyNe := keys_ne_nil key hkey
  rcases exists_firstAt hkeyNe s with hno | ⟨pre, rest, rfl, hfirst⟩
  · have hno' : ¬ Occurs key (rewriteSlot x₀ x s) := fun ⟨i, hi⟩ =>
      hno ⟨i, occursAt_key_of_rewriteSlot hkey hx₀ hx hne h hi⟩
    rw [assignFirst_eq_none hno, assignFirst_eq_none hno', Option.map_none]
  · have hparts : pre ++ (key ++ rest) =
        pre ++ (key ++ (valueOf endsWord rest ++ afterValue endsWord rest)) := by
      rw [valueOf_append_afterValue]
    have hrewrite := rewriteSlot_assignment hkey hx₀ hx hne (hparts ▸ h)
    rw [← hparts] at hrewrite
    have hfirst' : FirstAt key (rewriteSlot x₀ x pre)
        (rewriteSlot x₀ x (valueOf endsWord rest) ++
          rewriteSlot x₀ x (afterValue endsWord rest)) := by
      intro i hi hocc
      rw [length_rewriteSlot] at hi
      rw [← hrewrite] at hocc
      exact hfirst i hi (occursAt_key_of_rewriteSlot hkey hx₀ hx hne h hocc)
    rw [hrewrite, assignFirst_of_firstAt hkeyNe hfirst', assignFirst_of_firstAt hkeyNe hfirst,
      Option.map_some, rewriteSlot_assignment hkey hx₀ hx hne (bounded_assignment hkey hx₀ hmode h),
      rewriteSlot_eq_self hmode,
      afterValue_rewriteSlot hx₀ hx hne hword (hparts ▸ h).of_append_right.of_append_right]

end Assignment

/-- The letters of the slots. -/
def slotLetters : List Char := ['a', 'b', 'c', 'd']

theorem slotLetters_isAlphanum : ∀ x ∈ slotLetters, x.isAlphanum = true :=
  List.all_eq_true.mp (by decide)

theorem slotLetters_endsWord : ∀ x ∈ slotLetters, endsWord x = false := fun x hx =>
  Bool.eq_false_iff.mpr (List.any_eq_false.mp (by decide : slotLetters.any endsWord = false) x hx)

theorem newMode_underscore (arg : Text) : '_' ∉ newMode arg := by
  have hmodes : ∀ mode ∈ ["recovery".toList, "normal".toList], '_' ∉ mode := by decide
  rw [newMode]
  split
  · exact hmodes _ (by simp)
  · exact hmodes _ (by simp)

section Commutation

variable {x₀ x : Char} (hx₀ : x₀.isAlphanum = true) (hx : x ≠ '_') (hne : x₀ ≠ x)

include hx₀ hx hne in
/-- The slots can be rewritten in the complete lines before or after the unfinished
line is dropped. -/
theorem terminated_rewriteSlot {s : Text} (hnewline : x ≠ '\n') (h : Bounded x₀ s) :
    terminated (rewriteSlot x₀ x s) = rewriteSlot x₀ x (terminated s) := by
  obtain ⟨tail, hlines, htail, hs⟩ := exists_terminated s
  have hparts : Bounded x₀ (terminated s ++ tail) := hs ▸ h
  have huncrossed : Uncrossed x₀ (terminated s) tail := by
    cases hlines with
    | inl hnil =>
        rw [hnil]
        exact fun _ _ _ _ => Or.inr (Nat.zero_le _)
    | inr hlast => exact uncrossed_of_getLast? (endsWord_not_mem_refText hx₀ '\n' rfl) hlast tail
  have hlines' : EndsInNewline (rewriteSlot x₀ x (terminated s)) := by
    cases hlines with
    | inl hnil => exact Or.inl (by rw [hnil]; exact rewriteSlot_eq_self List.not_mem_nil)
    | inr hlast =>
        refine Or.inr ?_
        rw [List.getLast?_eq_getElem?, length_rewriteSlot] at *
        exact rewriteSlot_keeps hx hx₀ hne hparts.of_append_left hlast
          fun heq => absurd hx₀ (by rw [← heq]; decide)
  have htail' : '\n' ∉ rewriteSlot x₀ x tail := fun hmem => by
    rcases mem_rewriteSlot hx hx₀ hne hparts.of_append_right hmem with hold | hnew
    · exact htail hold
    · exact hnewline hnew.symm
  calc terminated (rewriteSlot x₀ x s)
      = terminated (rewriteSlot x₀ x (terminated s ++ tail)) := by rw [← hs]
    _ = terminated (rewriteSlot x₀ x (terminated s) ++ rewriteSlot x₀ x tail) := by
        rw [rewriteSlot_append hx hx₀ hne hparts huncrossed]
    _ = rewriteSlot x₀ x (terminated s) := terminated_append hlines' htail'

end Commutation

/-- The two rewrites of a boot config with bounded references commute. -/
theorem selectBootMode_rewriteSlot_comm {x₀ x : Char} (hx₀ : x₀ ∈ slotLetters)
    (hx : x ∈ slotLetters) {content : Text} (hbounded : Bounded x₀ content) (arg : Text) :
    selectBootMode arg (rewriteSlot x₀ x content) =
      rewriteSlot x₀ x (selectBootMode arg content) := by
  by_cases hne : x₀ = x
  · rw [hne, rewriteSlot, rewriteContent_same, rewriteSlot, rewriteContent_same]
  · have hold := slotLetters_isAlphanum x₀ hx₀
    have hnew := ne_underscore_of_isAlphanum (slotLetters_isAlphanum x hx)
    have hword := slotLetters_endsWord x hx
    have hnewline : x ≠ '\n' := by
      rintro rfl
      exact absurd hword (by decide)
    have hlines : Bounded x₀ (terminated content) := by
      obtain ⟨tail, -, -, hs⟩ := exists_terminated content
      exact (hs ▸ hbounded : Bounded x₀ (terminated content ++ tail)).of_append_left
    have hassign : ∀ key ∈ keys,
        assignFirst endsWord key (newMode arg) (rewriteSlot x₀ x (terminated content)) =
          (assignFirst endsWord key (newMode arg) (terminated content)).map (rewriteSlot x₀ x) :=
      fun key hkey =>
        assignFirst_rewriteSlot hkey hold hnew hne hword (newMode_underscore arg) hlines
    rw [selectBootMode_eq, selectBootMode_eq,
      terminated_rewriteSlot hold hnew hne hnewline hbounded, hassign androidKey (by simp [keys]),
      hassign modeKey (by simp [keys])]
    cases assignFirst endsWord androidKey (newMode arg) (terminated content) with
    | some changed => rw [Option.map_some, Option.some_or, Option.some_or, Option.getD_some,
        Option.getD_some]
    | none =>
        rw [Option.map_none, Option.none_or, Option.none_or]
        cases assignFirst endsWord modeKey (newMode arg) (terminated content) with
        | some changed => rw [Option.map_some, Option.getD_some, Option.getD_some]
        | none => rw [Option.map_none, Option.getD_none, Option.getD_none]

/-- A recovery shutdown and a switch from `_a` to `_b` in a config with two references. -/
theorem selectBootMode_rewriteSlot_two_references :
    selectBootMode "0recovery".toList
        (rewriteSlot 'a' 'b' "linux kernel_a SLOT=_a androidboot.mode=normal\n".toList) =
      rewriteSlot 'a' 'b' (selectBootMode "0recovery".toList
        "linux kernel_a SLOT=_a androidboot.mode=normal\n".toList) :=
  selectBootMode_rewriteSlot_comm (by decide) (by decide) (by decide +kernel) "0recovery".toList

end AndroidX86Tv.BootControl
