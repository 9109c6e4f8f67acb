import AndroidX86Tv.BootControl.BootConfig
import AndroidX86Tv.Lib.Assignment

/-!
# The boot mode (scripts/boot-mode-selection.sh)

At a shutdown the script writes the mode of the next boot into the boot config. It
copies the file line by line and changes the first line with an assignment to
`androidboot.mode`; where there is none, it copies the file once more and looks for
`MODE`.

## Implementation notes

A config has no NUL, and no backslash, with which `echo` would not print a line as
it is. The file, its directory and the kernel log are writable.
-/

namespace AndroidX86Tv.BootControl

open ListReplacement

/-- The effect of `cut -c 2-`: each line without its first character. -/
def cutFirst : Bool → Text → Text
  | _, [] => []
  | atStart, c :: text =>
      if c = '\n' then c :: cutFirst true text
      else if atStart then cutFirst false text
      else c :: cutFirst false text

/-- What `$(...)` makes of an output: without the newlines at its end. -/
def captured (output : Text) : Text := (output.reverse.dropWhile (· = '\n')).reverse

/-- `new_mode`, from the first argument. -/
def newMode (arg : Text) : Text :=
  let reason := captured (cutFirst true arg)
  if reason = "recovery".toList ∨ reason = "recovery-update".toList then "recovery".toList
  else "normal".toList

/-- The lines that `read` returns, with what is left of the line it is at. It
fails on a line without its newline. -/
def readLinesFrom (line : Text) : Text → List Text
  | [] => []
  | c :: content =>
      if c = '\n' then line :: readLinesFrom [] content else readLinesFrom (line ++ [c]) content

def readLines (content : Text) : List Text := readLinesFrom [] content

/-- The effect of `printf '%s\n'` on each line. -/
def printLines (lines : List Text) : Text := lines.flatMap fun line => line ++ ['\n']

/-- `grep -q`. -/
def grep (key line : Text) : Bool := decide (key <:+: line)

/-- The effect of `sed "s/key[^ ]*/key$new_mode/"` on a line. -/
def sed (key mode line : Text) : Text := (assignFirst (· == ' ') key mode line).getD line

/-- The loop of a pass, entered with `found`: the flag and what it prints. -/
def passLines (key mode : Text) : Bool → List Text → Bool × Text
  | found, [] => (found, [])
  | found, line :: lines =>
      if found = false ∧ grep key line = true then
        let (found, printed) := passLines key mode true lines
        (found, sed key mode line ++ ['\n'] ++ printed)
      else
        let (found, printed) := passLines key mode found lines
        (found, line ++ ['\n'] ++ printed)

def androidKey : Text := "androidboot.mode=".toList
def modeKey : Text := "MODE=".toList

/-- The config that the script leaves. -/
def selectBootMode (arg content : Text) : Text :=
  match passLines androidKey (newMode arg) false (readLines content) with
  | (true, printed) => printed
  | (false, printed) => (passLines modeKey (newMode arg) false (readLines printed)).2

/-- The letters that end a value for the script. -/
def endsWord (c : Char) : Bool := c == ' ' || c == '\n'

/-- What the lines amount to: the content without an unfinished last line. -/
def terminated (content : Text) : Text := printLines (readLines content)

section Lines

theorem readLinesFrom_line {line : Text} (h : '\n' ∉ line) (acc rest : Text) :
    readLinesFrom acc (line ++ '\n' :: rest) = (acc ++ line) :: readLinesFrom [] rest := by
  induction line generalizing acc with
  | nil => rw [List.nil_append, readLinesFrom, if_pos rfl, List.append_nil]
  | cons c line ih =>
      have hc : c ≠ '\n' := fun heq => h (heq ▸ List.mem_cons_self)
      have hline : '\n' ∉ line := fun hmem => h (List.mem_cons_of_mem c hmem)
      rw [List.cons_append, readLinesFrom, if_neg hc, ih hline, List.append_assoc]
      rfl

theorem readLinesFrom_tail {tail : Text} (h : '\n' ∉ tail) (acc : Text) :
    readLinesFrom acc tail = [] := by
  induction tail generalizing acc with
  | nil => rfl
  | cons c tail ih =>
      have hc : c ≠ '\n' := fun heq => h (heq ▸ List.mem_cons_self)
      rw [readLinesFrom, if_neg hc, ih fun hmem => h (List.mem_cons_of_mem c hmem)]

/-- The lines of a content are read back, and what follows them is dropped. -/
theorem readLines_printLines {lines : List Text} (hlines : ∀ line ∈ lines, '\n' ∉ line)
    {tail : Text} (htail : '\n' ∉ tail) : readLines (printLines lines ++ tail) = lines := by
  induction lines with
  | nil => exact readLinesFrom_tail htail []
  | cons line lines ih =>
      obtain ⟨hline, hrest⟩ := List.forall_mem_cons.mp hlines
      have hcontent : printLines (line :: lines) ++ tail =
          line ++ '\n' :: (printLines lines ++ tail) := by simp [printLines]
      rw [hcontent, readLines, readLinesFrom_line hline]
      exact congrArg (line :: ·) (ih hrest)

/-- Every content is made of lines and an unfinished one. -/
theorem exists_lines (content : Text) : ∃ lines tail, (∀ line ∈ lines, '\n' ∉ line) ∧
    '\n' ∉ tail ∧ content = printLines lines ++ tail := by
  induction content with
  | nil => exact ⟨[], [], by simp, by simp, rfl⟩
  | cons c content ih =>
      obtain ⟨lines, tail, hlines, htail, rfl⟩ := ih
      by_cases hc : c = '\n'
      · exact ⟨[] :: lines, tail, by simpa using hlines, htail, by simp [printLines, hc]⟩
      · cases lines with
        | nil =>
            refine ⟨[], c :: tail, hlines, fun hmem => ?_, rfl⟩
            cases List.mem_cons.mp hmem with
            | inl heq => exact hc heq.symm
            | inr htailMem => exact htail htailMem
        | cons line lines =>
            obtain ⟨hline, hrest⟩ := List.forall_mem_cons.mp hlines
            refine ⟨(c :: line) :: lines, tail, List.forall_mem_cons.mpr ⟨fun hmem => ?_, hrest⟩,
              htail, rfl⟩
            cases List.mem_cons.mp hmem with
            | inl heq => exact hc heq.symm
            | inr hlineMem => exact hline hlineMem

theorem terminated_eq {lines : List Text} (hlines : ∀ line ∈ lines, '\n' ∉ line) {tail : Text}
    (htail : '\n' ∉ tail) : terminated (printLines lines ++ tail) = printLines lines := by
  rw [terminated, readLines_printLines hlines htail]

end Lines

section Passes

variable {key mode : Text}

/-- Once the assignment has been found the lines are copied. -/
theorem passLines_true (key mode : Text) (lines : List Text) :
    passLines key mode true lines = (true, printLines lines) := by
  induction lines with
  | nil => rfl
  | cons line lines ih =>
      rw [passLines, if_neg (fun h => absurd h.1 (by decide)), ih]
      simp [printLines]

/-- On the words of a line the script sees the same value as in the content. -/
theorem afterValue_line {rest : Text} (h : '\n' ∉ rest) (later : Text) :
    afterValue endsWord (rest ++ '\n' :: later) = afterValue (· == ' ') rest ++ '\n' :: later := by
  induction rest with
  | nil => rfl
  | cons c rest ih =>
      have hc : c ≠ '\n' := fun heq => h (heq ▸ List.mem_cons_self)
      have hrest := ih fun hmem => h (List.mem_cons_of_mem c hmem)
      rw [afterValue, afterValue] at hrest ⊢
      by_cases hspace : c = ' '
      · simp [endsWord, hspace]
      · have hword : endsWord c = false := by simp [endsWord, hspace, hc]
        simp [hword, hspace, hrest]

theorem grep_iff {line : Text} : grep key line = true ↔ Occurs key line := by
  rw [grep, decide_eq_true_iff]
  constructor
  · rintro ⟨pre, rest, rfl⟩
    rw [List.append_assoc]
    exact occurs_append pre key rest
  · rintro ⟨i, hi⟩
    exact hi.isInfix.trans (List.drop_suffix i line).isInfix

/-- The key stands in the content where it stands in the first line. -/
theorem occursAt_line {line later : Text} (hkey : '\n' ∉ key) {i : Nat} (hi : i ≤ line.length) :
    OccursAt key (line ++ '\n' :: later) i ↔ OccursAt key line i := by
  constructor
  · exact fun h => OccursAt.of_append_cons hkey h hi
  · intro h
    rw [OccursAt, List.drop_append_of_le_length hi]
    exact h.trans (List.prefix_append _ _)

/-- A line without an assignment is copied. -/
theorem assignFirst_line_none {line : Text} (hkey : '\n' ∉ key) (hnone : ¬ Occurs key line)
    (mode later : Text) : assignFirst endsWord key mode (line ++ '\n' :: later) =
      (assignFirst endsWord key mode later).map ((line ++ ['\n']) ++ ·) := by
  have hcopied : ∀ i < (line ++ ['\n']).length,
      ¬ OccursAt key ((line ++ ['\n']) ++ later) i := by
    intro i hi hocc
    rw [List.append_assoc] at hocc
    rw [List.length_append, List.length_singleton] at hi
    exact hnone ⟨i, (occursAt_line hkey (Nat.le_of_lt_succ hi)).mp hocc⟩
  rw [List.append_cons]
  exact assignFirst_append hcopied

/-- The first assignment of the first line is the first of the content. -/
theorem assignFirst_line_some {pre rest : Text} (hne : key ≠ []) (hkey : '\n' ∉ key)
    (hfirst : FirstAt key pre rest) (hrest : '\n' ∉ rest) (mode later : Text) :
    assignFirst endsWord key mode ((pre ++ (key ++ rest)) ++ '\n' :: later) =
      some (sed key mode (pre ++ (key ++ rest)) ++ '\n' :: later) := by
  have hsed : sed key mode (pre ++ (key ++ rest)) =
      pre ++ (key ++ (mode ++ afterValue (· == ' ') rest)) := by
    rw [sed, assignFirst_of_firstAt hne hfirst, Option.getD_some]
  have hcontent : (pre ++ (key ++ rest)) ++ '\n' :: later =
      pre ++ (key ++ (rest ++ '\n' :: later)) := by
    simp only [List.append_assoc]
  have hfirst' : FirstAt key pre (rest ++ '\n' :: later) := by
    intro i hi hocc
    rw [← hcontent] at hocc
    have hle : i ≤ (pre ++ (key ++ rest)).length := by
      rw [List.length_append]
      omega
    exact hfirst i hi ((occursAt_line hkey hle).mp hocc)
  rw [hcontent, assignFirst_of_firstAt hne hfirst', afterValue_line hrest, hsed]
  simp only [List.append_assoc]

/-- A pass gives the first assignment of the printed lines the new mode. -/
theorem passLines_false (hne : key ≠ []) (hkey : '\n' ∉ key) (mode : Text) {lines : List Text}
    (hlines : ∀ line ∈ lines, '\n' ∉ line) :
    passLines key mode false lines =
      ((assignFirst endsWord key mode (printLines lines)).isSome,
        (assignFirst endsWord key mode (printLines lines)).getD (printLines lines)) := by
  induction lines with
  | nil =>
      have hnone : assignFirst endsWord key mode [] = none := rfl
      rw [passLines, printLines, List.flatMap_nil, hnone]
      rfl
  | cons line lines ih =>
      obtain ⟨hline, hrest⟩ := List.forall_mem_cons.mp hlines
      have hcontent : printLines (line :: lines) = line ++ '\n' :: printLines lines := by
        simp [printLines]
      rcases exists_firstAt hne line with hnone | ⟨pre, rest, rfl, hfirst⟩
      · have hgrep : grep key line = false :=
          Bool.eq_false_iff.mpr fun h => hnone (grep_iff.mp h)
        rw [passLines, if_neg fun h => by simp [hgrep] at h, ih hrest, hcontent,
          assignFirst_line_none hkey hnone]
        cases assignFirst endsWord key mode (printLines lines) with
        | none => simp
        | some changed => simp
      · have hgrep : grep key (pre ++ (key ++ rest)) = true :=
          grep_iff.mpr (occurs_append pre key rest)
        have hword : '\n' ∉ rest := fun hmem =>
          hline (List.mem_append_right _ (List.mem_append_right _ hmem))
        rw [passLines, if_pos ⟨rfl, hgrep⟩, passLines_true, hcontent,
          assignFirst_line_some hne hkey hfirst hword]
        simp

/-- What a pass leaves is a sequence of lines. -/
theorem passLines_printed (key mode : Text) (found : Bool) (lines : List Text) :
    ∃ printed, (passLines key mode found lines).2 = printLines printed := by
  induction lines generalizing found with
  | nil => exact ⟨[], rfl⟩
  | cons line lines ih =>
      rw [passLines]
      split
      · obtain ⟨printed, hprinted⟩ := ih true
        exact ⟨sed key mode line :: printed, by simp [printLines, hprinted]⟩
      · obtain ⟨printed, hprinted⟩ := ih found
        exact ⟨line :: printed, by simp [printLines, hprinted]⟩

end Passes

/-- Every line of the content is complete. -/
def EndsInNewline (content : Text) : Prop := content = [] ∨ content.getLast? = some '\n'

theorem endsInNewline_printLines (lines : List Text) : EndsInNewline (printLines lines) := by
  rcases List.eq_nil_or_concat lines with rfl | ⟨before, line, rfl⟩
  · exact Or.inl rfl
  · exact Or.inr (by simp [printLines])

/-- An unfinished line behind complete ones is dropped. -/
theorem terminated_append {content tail : Text} (h : EndsInNewline content)
    (htail : '\n' ∉ tail) : terminated (content ++ tail) = content := by
  obtain ⟨lines, before, hlines, hbefore, rfl⟩ := exists_lines content
  have hnil : before = [] := by
    cases h with
    | inl hempty => exact (List.append_eq_nil_iff.mp hempty).2
    | inr hlast =>
        by_contra hne
        rw [List.getLast?_append_of_ne_nil _ hne] at hlast
        exact hbefore (List.mem_of_getLast? hlast)
  rw [hnil, List.append_nil, terminated_eq hlines htail]

theorem terminated_eq_self {content : Text} (h : EndsInNewline content) :
    terminated content = content := by
  simpa using terminated_append h (List.not_mem_nil (a := '\n'))

/-- Every content is complete lines and an unfinished one. -/
theorem exists_terminated (content : Text) : ∃ tail, EndsInNewline (terminated content) ∧
    '\n' ∉ tail ∧ content = terminated content ++ tail := by
  obtain ⟨lines, tail, hlines, htail, rfl⟩ := exists_lines content
  rw [terminated_eq hlines htail]
  exact ⟨tail, endsInNewline_printLines lines, htail, rfl⟩

section Keys

theorem androidKey_ne_nil : androidKey ≠ [] := by decide

theorem modeKey_ne_nil : modeKey ≠ [] := by decide

theorem newline_not_mem_androidKey : '\n' ∉ androidKey := by decide

theorem newline_not_mem_modeKey : '\n' ∉ modeKey := by decide

end Keys

/-- The script gives the first assignment its new mode, in the complete lines. -/
theorem selectBootMode_eq (arg content : Text) :
    selectBootMode arg content =
      ((assignFirst endsWord androidKey (newMode arg) (terminated content)).or
        (assignFirst endsWord modeKey (newMode arg) (terminated content))).getD
          (terminated content) := by
  obtain ⟨lines, tail, hlines, htail, rfl⟩ := exists_lines content
  have hread := readLines_printLines hlines htail
  have hagain := readLines_printLines hlines (List.not_mem_nil (a := '\n'))
  rw [List.append_nil] at hagain
  rw [selectBootMode, hread, terminated_eq hlines htail,
    passLines_false androidKey_ne_nil newline_not_mem_androidKey (newMode arg) hlines]
  cases hfound : assignFirst endsWord androidKey (newMode arg) (printLines lines) with
  | some changed => rfl
  | none =>
      have hsecond := passLines_false modeKey_ne_nil newline_not_mem_modeKey (newMode arg) hlines
      simp [hagain, hsecond]

section OnlyMode

/-- The letters that end a value: a space, a quote and the newline. -/
def valueEnds (c : Char) : Bool := c == ' ' || c == '"' || c == '\'' || c == '\n'

/-- The second content is the first one but for the value of the first
`androidboot.mode=` or, where there is none, of the first `MODE=`. -/
structure OnlyModeChanges (content out : Text) : Prop where
  android : Occurs androidKey content → Reassigned valueEnds androidKey content out
  mode : ¬ Occurs androidKey content → Occurs modeKey content →
    Reassigned valueEnds modeKey content out
  neither : ¬ Occurs androidKey content → ¬ Occurs modeKey content → out = content

/-- What the script takes for the value of the assignment that it changes. -/
def replacedValue (content : Text) : Option Text :=
  (firstValue endsWord androidKey content).or (firstValue endsWord modeKey content)

/-- The text has neither of the quotes. -/
def Unquoted (value : Text) : Prop := '"' ∉ value ∧ '\'' ∉ value

variable {content out : Text}

theorem onlyModeChanges_android (h : Occurs androidKey content) :
    OnlyModeChanges content out ↔ Reassigned valueEnds androidKey content out :=
  ⟨fun only => only.android h, fun hre => ⟨fun _ => hre, fun hno => absurd h hno,
    fun hno => absurd h hno⟩⟩

theorem onlyModeChanges_mode (hno : ¬ Occurs androidKey content) (h : Occurs modeKey content) :
    OnlyModeChanges content out ↔ Reassigned valueEnds modeKey content out :=
  ⟨fun only => only.mode hno h, fun hre => ⟨fun hyes => absurd hyes hno, fun _ _ => hre,
    fun _ hno' => absurd h hno'⟩⟩

theorem onlyModeChanges_neither (hno : ¬ Occurs androidKey content)
    (hno' : ¬ Occurs modeKey content) : OnlyModeChanges content out ↔ out = content :=
  ⟨fun only => only.neither hno hno', fun heq => ⟨fun hyes => absurd hyes hno,
    fun _ hyes => absurd hyes hno', fun _ _ => heq⟩⟩

/-- A content of complete lines is not changed only in its mode into incomplete ones. -/
theorem OnlyModeChanges.endsInNewline (h : OnlyModeChanges content out)
    (hout : EndsInNewline out) : EndsInNewline content := by
  have hassigned : ∀ {key : Text}, key ≠ [] → '\n' ∉ key →
      Reassigned valueEnds key content out → EndsInNewline content := by
    intro key hne hkey hre
    cases hout with
    | inl hnil =>
        obtain ⟨pre, rest, value, -, -, -, hvalue⟩ := hre
        simp [hnil, hne] at hvalue
    | inr hlast => exact Or.inr (hre.getLast? hne hkey rfl hlast)
  by_cases handroid : Occurs androidKey content
  · exact hassigned androidKey_ne_nil newline_not_mem_androidKey (h.android handroid)
  · by_cases hmode : Occurs modeKey content
    · exact hassigned modeKey_ne_nil newline_not_mem_modeKey (h.mode handroid hmode)
    · exact h.neither handroid hmode ▸ hout

theorem valueEnds_of_endsWord (c : Char) (h : endsWord c = true) : valueEnds c = true := by
  simp only [endsWord, valueEnds, Bool.or_eq_true] at h ⊢
  tauto

theorem valueEnds_newMode (arg : Text) : ∀ c ∈ newMode arg, valueEnds c = false := by
  have hmodes : ∀ mode ∈ ["recovery".toList, "normal".toList], mode.any valueEnds = false := by
    decide
  have hmode : (newMode arg).any valueEnds = false := by
    rw [newMode]
    split
    · exact hmodes _ (by simp)
    · exact hmodes _ (by simp)
  exact fun c hc => Bool.eq_false_iff.mpr (List.any_eq_false.mp hmode c hc)

theorem unquoted_iff (rest : Text) :
    (∀ c ∈ valueOf endsWord rest, valueEnds c = false) ↔ Unquoted (valueOf endsWord rest) := by
  constructor
  · intro h
    exact ⟨fun hmem => absurd (h _ hmem) (by decide), fun hmem => absurd (h _ hmem) (by decide)⟩
  · rintro ⟨hdouble, hsingle⟩ c hc
    have hword := ends_of_mem_valueOf hc
    have hd : c ≠ '"' := fun heq => hdouble (heq ▸ hc)
    have hs : c ≠ '\'' := fun heq => hsingle (heq ▸ hc)
    simp only [endsWord, Bool.or_eq_false_iff] at hword
    simp [valueEnds, hword.1, hword.2, hd, hs]

theorem selectBootMode_endsInNewline (arg content : Text) :
    EndsInNewline (selectBootMode arg content) := by
  have hprinted : ∀ key lines, EndsInNewline (passLines key (newMode arg) false lines).2 := by
    intro key lines
    obtain ⟨printed, heq⟩ := passLines_printed key (newMode arg) false lines
    exact heq ▸ endsInNewline_printLines printed
  have hfirst := hprinted androidKey (readLines content)
  rw [selectBootMode]
  cases hpass : passLines androidKey (newMode arg) false (readLines content) with
  | mk found printed =>
      cases found with
      | true => rwa [hpass] at hfirst
      | false => exact hprinted modeKey (readLines printed)

section FirstAssignment

variable {pre rest : Text} (arg : Text)

/-- Where there is an `androidboot.mode=`, its value decides. -/
theorem onlyModeChanges_iff_of_android (hfirst : FirstAt androidKey pre rest)
    (hlines : EndsInNewline (pre ++ (androidKey ++ rest))) :
    OnlyModeChanges (pre ++ (androidKey ++ rest))
        (selectBootMode arg (pre ++ (androidKey ++ rest))) ↔ Unquoted (valueOf endsWord rest) := by
  rw [selectBootMode_eq, terminated_eq_self hlines,
    assignFirst_of_firstAt androidKey_ne_nil hfirst, Option.some_or, Option.getD_some,
    onlyModeChanges_android (occurs_append pre androidKey rest),
    reassigned_iff androidKey_ne_nil valueEnds_of_endsWord (valueEnds_newMode arg) hfirst,
    unquoted_iff]

/-- Where there is only a `MODE=`, its value decides. -/
theorem onlyModeChanges_iff_of_mode (hfirst : FirstAt modeKey pre rest)
    (hno : ¬ Occurs androidKey (pre ++ (modeKey ++ rest)))
    (hlines : EndsInNewline (pre ++ (modeKey ++ rest))) :
    OnlyModeChanges (pre ++ (modeKey ++ rest))
        (selectBootMode arg (pre ++ (modeKey ++ rest))) ↔ Unquoted (valueOf endsWord rest) := by
  rw [selectBootMode_eq, terminated_eq_self hlines, assignFirst_eq_none hno,
    assignFirst_of_firstAt modeKey_ne_nil hfirst, Option.none_or, Option.getD_some,
    onlyModeChanges_mode hno (occurs_append pre modeKey rest),
    reassigned_iff modeKey_ne_nil valueEnds_of_endsWord (valueEnds_newMode arg) hfirst,
    unquoted_iff]

/-- A config of complete lines without an assignment is left alone. -/
theorem selectBootMode_of_none {content : Text} (hno : ¬ Occurs androidKey content)
    (hno' : ¬ Occurs modeKey content) (hlines : EndsInNewline content) :
    selectBootMode arg content = content := by
  rw [selectBootMode_eq, terminated_eq_self hlines, assignFirst_eq_none hno,
    assignFirst_eq_none hno', Option.none_or, Option.getD_none]

end FirstAssignment

/-- The script changes only the mode exactly when every line of the config is complete
and no quote is glued to the value that it replaces. -/
theorem selectBootMode_onlyModeChanges_iff (arg content : Text) :
    OnlyModeChanges content (selectBootMode arg content) ↔
      EndsInNewline content ∧ ∀ value ∈ replacedValue content, Unquoted value := by
  by_cases hlines : EndsInNewline content
  · rw [replacedValue]
    rcases exists_firstAt androidKey_ne_nil content with hno | ⟨pre, rest, rfl, hfirst⟩
    · rw [firstValue_eq_none hno, Option.none_or]
      rcases exists_firstAt modeKey_ne_nil content with hno' | ⟨pre, rest, rfl, hfirst⟩
      · rw [firstValue_eq_none hno', onlyModeChanges_neither hno hno',
          selectBootMode_of_none arg hno hno' hlines]
        simp [hlines]
      · rw [firstValue_of_firstAt modeKey_ne_nil hfirst,
          onlyModeChanges_iff_of_mode arg hfirst hno hlines]
        simp [hlines]
    · rw [firstValue_of_firstAt androidKey_ne_nil hfirst, Option.some_or,
        onlyModeChanges_iff_of_android arg hfirst hlines]
      simp [hlines]
  · -- the script prints complete lines only
    have hnot : ¬ OnlyModeChanges content (selectBootMode arg content) := fun h =>
      hlines (h.endsInNewline (selectBootMode_endsInNewline arg content))
    simp [hnot, hlines]

/-- The quote that closes a line behind the mode is lost. -/
theorem selectBootMode_closing_quote :
    ¬ OnlyModeChanges "cmdline=\"androidboot.mode=normal\"\n".toList
      (selectBootMode "0recovery".toList "cmdline=\"androidboot.mode=normal\"\n".toList) := by
  have hcontent : "cmdline=\"androidboot.mode=normal\"\n".toList =
      "cmdline=\"".toList ++ (androidKey ++ "normal\"\n".toList) := by decide
  have hfirst : ∀ i < "cmdline=\"".toList.length,
      ¬ OccursAt androidKey ("cmdline=\"".toList ++ (androidKey ++ "normal\"\n".toList)) i := by
    decide
  have hlast : ("cmdline=\"".toList ++ (androidKey ++ "normal\"\n".toList)).getLast? =
      some '\n' := by decide
  have hquote : '"' ∈ valueOf endsWord "normal\"\n".toList := by decide
  rw [hcontent, onlyModeChanges_iff_of_android _ hfirst (Or.inr hlast)]
  exact fun h => h.1 hquote

end OnlyMode

end AndroidX86Tv.BootControl
