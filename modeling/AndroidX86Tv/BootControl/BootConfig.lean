import Mathlib.Logic.Function.Basic
import AndroidX86Tv.Lib.Replacement

/-!
# The boot config and `BootControlExt::SetBootSlot`

The bootloader reads the slot to boot from a text file. `setBootSlot` rewrites
the suffix after each of four texts, in place. A string is the list of its
bytes, written as characters; a file system call may be refused and the final
write may stop early.
-/

namespace AndroidX86Tv.BootControl

open ListReplacement

abbrev Text := List Char

/-- `std::string::find(str, pos)`, with `none` for `npos`. -/
def find (content str : Text) (pos : Nat) : Option Nat :=
  (List.range' pos (content.length + 1 - pos)).find? fun i => decide (OccursAt str content i)

/-- `std::string::replace(pos, len, str)`. -/
def replace (content : Text) (pos len : Nat) (str : Text) : Text :=
  content.take pos ++ str ++ content.drop (pos + len)

theorem find_eq_some {content str : Text} {pos p : Nat} (h : find content str pos = some p) :
    pos ≤ p ∧ OccursAt str content p ∧ ∀ i, pos ≤ i → i < p → ¬ OccursAt str content i := by
  obtain ⟨hp, -, hbefore⟩ := List.find?_range'_eq_some.mp h
  have hmem := List.mem_of_find?_eq_some h
  refine ⟨(List.mem_range'_1.mp hmem).1, by simpa using hp, ?_⟩
  intro i hle hlt
  simpa using hbefore i hle hlt

theorem find_eq_none {content str : Text} {pos : Nat} (hne : str ≠ [])
    (h : find content str pos = none) {i : Nat} (hi : pos ≤ i) : ¬ OccursAt str content i := by
  intro hocc
  have hle := hocc.le_length hne
  have hmiss := List.find?_eq_none.mp h i (List.mem_range'_1.mpr ⟨hi, by omega⟩)
  simp [hocc] at hmiss

theorem length_replace (content str : Text) {pos len : Nat} (h : pos + len ≤ content.length) :
    (replace content pos len str).length + len = content.length + str.length := by
  simp only [replace, List.length_append, List.length_take, List.length_drop]
  omega

/-- The loop of `findAndReplace`, entered with the search position. -/
def findAndReplaceFrom (findStr replaceStr : Text) (hne : findStr ≠ []) (content : Text)
    (pos : Nat) : Text :=
  match _h : find content findStr pos with
  | none => content
  | some p =>
      findAndReplaceFrom findStr replaceStr hne
        (replace content p findStr.length replaceStr) (p + replaceStr.length)
termination_by content.length - pos
decreasing_by
  obtain ⟨hle, hocc, -⟩ := find_eq_some _h
  have hin := hocc.le_length hne
  have hlen := length_replace content replaceStr hin
  have hpos := List.length_pos_iff.mpr hne
  omega

def findAndReplace (content findStr replaceStr : Text) (hne : findStr ≠ []) : Text :=
  findAndReplaceFrom findStr replaceStr hne content 0

/-- The loop replaces in the rest of the content and keeps what it has passed. -/
theorem findAndReplaceFrom_eq (findStr replaceStr : Text) (hne : findStr ≠ [])
    (content : Text) (pos : Nat) (hpos : pos ≤ content.length) :
    findAndReplaceFrom findStr replaceStr hne content pos =
      content.take pos ++ replaceAll findStr replaceStr (content.drop pos) := by
  fun_induction findAndReplaceFrom findStr replaceStr hne content pos with
  | case1 content pos h =>
      have hmiss : ∀ i, ¬ OccursAt findStr (content.drop pos) i := by
        intro i hocc
        apply find_eq_none hne h (i := pos + i) (by omega)
        simpa only [OccursAt, List.drop_drop] using hocc
      rw [replaceAll_eq_self hmiss, List.take_append_drop]
  | case2 content pos p h ih =>
      obtain ⟨hle, hocc, hbefore⟩ := find_eq_some h
      have hin := hocc.le_length hne
      have hlen := length_replace content replaceStr hin
      -- the rest, cut at the occurrence that was found
      obtain ⟨rest, hrest⟩ := hocc
      have hdropTail : content.drop (p + findStr.length) = rest := by
        rw [← List.drop_drop, ← hrest, List.drop_left]
      have hsplit : content.drop pos =
          (content.drop pos).take (p - pos) ++ (findStr ++ rest) := by
        have hcut := (List.take_append_drop (p - pos) (content.drop pos)).symm
        rwa [List.drop_drop, Nat.add_sub_cancel' hle, ← hrest] at hcut
      have hfirst : ∀ i < ((content.drop pos).take (p - pos)).length,
          ¬ OccursAt findStr ((content.drop pos).take (p - pos) ++ (findStr ++ rest)) i := by
        intro i hi hmatch
        rw [← hsplit] at hmatch
        rw [List.length_take] at hi
        exact hbefore (pos + i) (by omega) (by omega)
          (by simpa only [OccursAt, List.drop_drop] using hmatch)
      have htake : content.take p = content.take pos ++ (content.drop pos).take (p - pos) := by
        rw [← List.take_add, Nat.add_sub_cancel' hle]
      have hcut : p + replaceStr.length = (content.take p ++ replaceStr).length := by
        simp only [List.length_append, List.length_take]
        omega
      rw [ih (by omega), hsplit, replaceAll_append_of_first _ _ _ hfirst, replaceAll_hit hne,
        replace, hdropTail, hcut, List.take_left, List.drop_left, htake]
      simp only [List.append_assoc]

/-- `findAndReplace` is the left-to-right replacement of the occurrences. -/
theorem findAndReplace_eq (content findStr replaceStr : Text) (hne : findStr ≠ []) :
    findAndReplace content findStr replaceStr hne = replaceAll findStr replaceStr content := by
  simpa [findAndReplace] using
    findAndReplaceFrom_eq findStr replaceStr hne content 0 (Nat.zero_le _)

/-- The texts in front of a slot suffix. -/
def texts : List Text :=
  ["kernel".toList, "initrd".toList, "androidboot.slot_suffix=".toList, "SLOT=".toList]

/-- One round of the loop over `texts`. -/
def replaceSuffix (old_suffix new_suffix : Text) (hold : old_suffix ≠ []) (content text : Text) :
    Text :=
  findAndReplace content (text ++ old_suffix) (text ++ new_suffix) (by simp [hold])

/-- The content that `SetBootSlot` writes back. -/
def rewriteContent (old_suffix new_suffix : Text) (hold : old_suffix ≠ []) (content : Text) :
    Text :=
  texts.foldl (replaceSuffix old_suffix new_suffix hold) content

/-- The file system, as far as it is read and written here. -/
abbrev Disk := Text → Option Text

/-- What can go wrong with the file in one call: an open is refused, or the
write stops after a number of bytes. -/
structure FileFaults where
  openRead : Bool
  openWrite : Bool
  writeStop : Option Nat

/-- File input and output succeeds. -/
def FileFaults.none : FileFaults := ⟨false, false, Option.none⟩

/-- The bytes that reach the file, which the open has truncated. -/
def FileFaults.written (faults : FileFaults) (content : Text) : Text :=
  match faults.writeStop with
  | Option.none => content
  | some k => content.take k

/-- System properties; one that is not set reads as the empty text. -/
abbrev Properties := String → Text

/-- `ro.boot.bootctrl_bootcfg`, or the default file name. -/
def bootCfg (props : Properties) : Text :=
  let filename := props "ro.boot.bootctrl_bootcfg"
  if filename = [] then "/boot/grub/android.cfg".toList else filename

def oldSuffix (props : Properties) : Text := props "ro.boot.slot_suffix"

/-- `BootControlExt::SetBootSlot`: the result and the disk afterwards. -/
def setBootSlot (props : Properties) (faults : FileFaults) (new_suffix : Text) (disk : Disk) :
    Bool × Disk :=
  if hold : oldSuffix props = [] then (false, disk)
  else
    match disk (bootCfg props) with
    | Option.none => (false, disk)
    | some content =>
        if faults.openRead then (false, disk)
        else
          let content := rewriteContent (oldSuffix props) new_suffix hold content
          if faults.openWrite then (false, disk)
          else
            (true, Function.update disk (bootCfg props) (some (faults.written content)))

/-- The three tests that `SetBootSlot` makes before it writes. -/
structure Reaches (props : Properties) (faults : FileFaults) (disk : Disk) : Prop where
  suffix : oldSuffix props ≠ []
  readable : disk (bootCfg props) ≠ Option.none ∧ faults.openRead = false
  writable : faults.openWrite = false

theorem setBootSlot_of_not_reaches {props : Properties} {faults : FileFaults} {disk : Disk}
    (h : ¬ Reaches props faults disk) (new_suffix : Text) :
    setBootSlot props faults new_suffix disk = (false, disk) := by
  unfold setBootSlot
  by_cases hold : oldSuffix props = []
  · rw [dif_pos hold]
  · rw [dif_neg hold]
    cases hfile : disk (bootCfg props) with
    | none => rfl
    | some content =>
        cases hread : faults.openRead with
        | true => rfl
        | false =>
            cases hwrite : faults.openWrite with
            | true => rfl
            | false => exact absurd ⟨hold, ⟨by simp [hfile], hread⟩, hwrite⟩ h

theorem setBootSlot_of_reaches {props : Properties} {faults : FileFaults} {disk : Disk}
    (h : Reaches props faults disk) {content : Text} (hfile : disk (bootCfg props) = some content)
    (new_suffix : Text) :
    setBootSlot props faults new_suffix disk =
      (true, Function.update disk (bootCfg props)
        (some (faults.written
          (rewriteContent (oldSuffix props) new_suffix h.suffix content)))) := by
  simp [setBootSlot, h.suffix, hfile, h.readable.2, h.writable]

/-- The file is complete, old or rewritten, and the result says which. -/
def AllOrNothing (props : Properties) (new_suffix content : Text) (result : Bool × Disk) : Prop :=
  (result.1 = true ∧ ∃ hold : oldSuffix props ≠ [], result.2 (bootCfg props) =
      some (rewriteContent (oldSuffix props) new_suffix hold content)) ∨
    (result.1 = false ∧ result.2 (bootCfg props) = some content)

/-- The write of a rewritten content is cut short. -/
def WriteCutShort (props : Properties) (faults : FileFaults) (new_suffix content : Text)
    (disk : Disk) : Prop :=
  Reaches props faults disk ∧ ∃ hold : oldSuffix props ≠ [], ∃ k, faults.writeStop = some k ∧
    k < (rewriteContent (oldSuffix props) new_suffix hold content).length

theorem FileFaults.written_eq_iff (faults : FileFaults) (content : Text) :
    faults.written content = content ↔ ¬ ∃ k, faults.writeStop = some k ∧ k < content.length := by
  unfold FileFaults.written
  cases faults.writeStop with
  | none => simp
  | some k => simp [List.take_eq_self_iff]

/-- `SetBootSlot` is all or nothing exactly when its write is not cut short. -/
theorem setBootSlot_allOrNothing_iff (props : Properties) (faults : FileFaults)
    (new_suffix content : Text) (disk : Disk) (hfile : disk (bootCfg props) = some content) :
    AllOrNothing props new_suffix content (setBootSlot props faults new_suffix disk) ↔
      ¬ WriteCutShort props faults new_suffix content disk := by
  by_cases h : Reaches props faults disk
  · have hwritten := faults.written_eq_iff
      (rewriteContent (oldSuffix props) new_suffix h.suffix content)
    rw [setBootSlot_of_reaches h hfile]
    simp only [AllOrNothing, WriteCutShort, Function.update_self, Option.some.injEq, h.suffix, h,
      true_and, Bool.true_eq_false, false_and, or_false, ne_eq, not_false_eq_true, exists_true_left,
      hwritten]
  · rw [setBootSlot_of_not_reaches h]
    simp only [AllOrNothing, WriteCutShort, hfile, h, false_and, not_false_eq_true, and_self,
      or_true]

/-- A device that booted on slot `_a`. -/
def bootedOnA : Properties := fun key => if key = "ro.boot.slot_suffix" then ['_', 'a'] else []

/-- A disk whose only file is the default boot config. -/
def oneFile (content : Text) : Disk := fun name =>
  if name = "/boot/grub/android.cfg".toList then some content else none

theorem setBootSlot_allOrNothing_full_write :
    AllOrNothing bootedOnA ['_', 'b'] "/kernel_a".toList
      (setBootSlot bootedOnA FileFaults.none ['_', 'b'] (oneFile "/kernel_a".toList)) :=
  (setBootSlot_allOrNothing_iff bootedOnA FileFaults.none ['_', 'b'] "/kernel_a".toList
    (oneFile "/kernel_a".toList) (by decide +kernel)).mpr fun ⟨_, _, _, hstop, _⟩ => by
      simp [FileFaults.none] at hstop

/-- A disk that fills up after three bytes leaves three bytes and reports success. -/
theorem setBootSlot_full_disk :
    ¬ AllOrNothing bootedOnA ['_', 'b'] "/kernel_a".toList
      (setBootSlot bootedOnA ⟨false, false, some 3⟩ ['_', 'b'] (oneFile "/kernel_a".toList)) := by
  have hresult : (setBootSlot bootedOnA ⟨false, false, some 3⟩ ['_', 'b']
      (oneFile "/kernel_a".toList)).1 = true := by decide +kernel
  have hfile : (setBootSlot bootedOnA ⟨false, false, some 3⟩ ['_', 'b']
      (oneFile "/kernel_a".toList)).2 (bootCfg bootedOnA) = some "/ke".toList := by decide +kernel
  have hpart : some "/ke".toList ≠ some (rewriteContent (oldSuffix bootedOnA) ['_', 'b']
      (by decide +kernel) "/kernel_a".toList) := by decide +kernel
  rintro (⟨-, hold, hnew⟩ | ⟨hfalse, -⟩)
  · exact hpart (hfile.symm.trans hnew)
  · rw [hresult] at hfalse
    exact absurd hfalse (by decide)

end AndroidX86Tv.BootControl
