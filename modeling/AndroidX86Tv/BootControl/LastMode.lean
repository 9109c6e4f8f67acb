import AndroidX86Tv.BootControl.BootMode

/-!
# Two shutdowns in a row

The second run of the script finds the assignment that the first one has changed,
with a value that ends where the old one did. The mode of the first run is
therefore lost without a trace.
-/

namespace AndroidX86Tv.BootControl

open ListReplacement

theorem endsWord_newMode (arg : Text) : ∀ c ∈ newMode arg, endsWord c = false := by
  intro c hc
  have hvalue := valueEnds_newMode arg c hc
  by_contra hends
  exact absurd (valueEnds_of_endsWord c (by simpa using hends)) (by simp [hvalue])

theorem endsWord_androidKey : ∀ c ∈ androidKey, endsWord c = false := by
  have hkey : androidKey.any endsWord = false := by decide
  exact fun c hc => Bool.eq_false_iff.mpr (List.any_eq_false.mp hkey c hc)

/-- No mode has the letter with which an assignment of `androidboot.mode` begins. -/
theorem androidKey_getLast?_newMode (arg : Text) :
    ∀ c ∈ newMode arg, androidKey.getLast? ≠ some c := by
  have hlast : androidKey.getLast? = some '=' := by decide
  have hmodes : '=' ∉ "recovery".toList ∧ '=' ∉ "normal".toList := by decide
  have hmode : '=' ∉ newMode arg := by
    rw [newMode]
    split
    · exact hmodes.1
    · exact hmodes.2
  rw [hlast]
  rintro c hc heq
  exact hmode (Option.some.inj heq ▸ hc)

/-- The script on complete lines. -/
theorem selectBootMode_of_lines {content : Text} (h : EndsInNewline content) (arg : Text) :
    selectBootMode arg content =
      ((assignFirst endsWord androidKey (newMode arg) content).or
        (assignFirst endsWord modeKey (newMode arg) content)).getD content := by
  rw [selectBootMode_eq, terminated_eq_self h]

/-- What the script makes of a content it makes of its complete lines. -/
theorem selectBootMode_terminated (arg content : Text) :
    selectBootMode arg (terminated content) = selectBootMode arg content := by
  obtain ⟨_, hlines, -, -⟩ := exists_terminated content
  rw [selectBootMode_of_lines hlines, selectBootMode_eq]

section

variable {pre rest : Text} (arg : Text)

theorem selectBootMode_of_android (hfirst : FirstAt androidKey pre rest)
    (hlines : EndsInNewline (pre ++ (androidKey ++ rest))) :
    selectBootMode arg (pre ++ (androidKey ++ rest)) =
      pre ++ (androidKey ++ (newMode arg ++ afterValue endsWord rest)) := by
  rw [selectBootMode_of_lines hlines, assignFirst_of_firstAt androidKey_ne_nil hfirst,
    Option.some_or, Option.getD_some]

theorem selectBootMode_of_mode (hfirst : FirstAt modeKey pre rest)
    (hno : ¬ Occurs androidKey (pre ++ (modeKey ++ rest)))
    (hlines : EndsInNewline (pre ++ (modeKey ++ rest))) :
    selectBootMode arg (pre ++ (modeKey ++ rest)) =
      pre ++ (modeKey ++ (newMode arg ++ afterValue endsWord rest)) := by
  rw [selectBootMode_of_lines hlines, assignFirst_eq_none hno,
    assignFirst_of_firstAt modeKey_ne_nil hfirst, Option.none_or, Option.getD_some]

end

/-- On complete lines the second mode alone is left, whichever assignment is the
one that the first run changes. -/
theorem selectBootMode_twice_of_lines {content : Text} (hlines : EndsInNewline content)
    (first second : Text) :
    selectBootMode second (selectBootMode first content) = selectBootMode second content := by
  have hlines' := selectBootMode_endsInNewline first content
  rcases exists_firstAt androidKey_ne_nil content with hno | ⟨pre, rest, rfl, hfirst⟩
  · rcases exists_firstAt modeKey_ne_nil content with hno' | ⟨pre, rest, rfl, hfirst⟩
    · rw [selectBootMode_of_none first hno hno' hlines]
    · rw [selectBootMode_of_mode first hfirst hno hlines] at hlines' ⊢
      have hnone := fun hocc => hno (occurs_of_assigned endsWord_androidKey
        (androidKey_getLast?_newMode first) androidKey_ne_nil hocc)
      rw [selectBootMode_of_lines hlines', selectBootMode_of_mode second hfirst hno hlines,
        assignFirst_eq_none hnone, Option.none_or,
        assignFirst_assignFirst modeKey_ne_nil (endsWord_newMode first) hfirst,
        assignFirst_of_firstAt modeKey_ne_nil hfirst, Option.getD_some]
  · rw [selectBootMode_of_android first hfirst hlines] at hlines' ⊢
    rw [selectBootMode_of_lines hlines', selectBootMode_of_android second hfirst hlines,
      assignFirst_assignFirst androidKey_ne_nil (endsWord_newMode first) hfirst,
      assignFirst_of_firstAt androidKey_ne_nil hfirst, Option.some_or, Option.getD_some]

/-- The last shutdown decides the boot mode, whatever the ones before it wrote. -/
theorem selectBootMode_selectBootMode (first second content : Text) :
    selectBootMode second (selectBootMode first content) = selectBootMode second content := by
  obtain ⟨_, hlines, -, -⟩ := exists_terminated content
  rw [← selectBootMode_terminated first content, selectBootMode_twice_of_lines hlines,
    selectBootMode_terminated]

end AndroidX86Tv.BootControl
