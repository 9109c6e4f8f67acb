import AndroidX86Tv.BootControl.SlotReference

/-!
# `BootControl::setActiveBootSlot`

A call commits to two stores, the A/B metadata kept by libboot_control and the
boot config. libboot_control is a parameter; what is assumed of it is written
out in `Transactional` and `NamesSlots`.
-/

namespace AndroidX86Tv.BootControl

open ListReplacement

/-- The interface of libboot_control used here, over its metadata `M`. -/
structure BootControlImpl (M : Type*) where
  getSuffix : UInt32 → Option Text
  setActiveBootSlot : UInt32 → M → Bool × M
  getActiveBootSlot : M → UInt32

structure CommandResult where
  success : Bool
  errMsg : String
  deriving DecidableEq

def CommandResult.succeeded : CommandResult := ⟨true, "Success"⟩

def CommandResult.failed : CommandResult := ⟨false, "Operation failed"⟩

/-- The two stores. -/
structure BootState (M : Type*) where
  misc : M
  disk : Disk

variable {M : Type*}

/-- `BootControl::setActiveBootSlot`. There is no result where the code would
append a null suffix to a text. -/
def setActiveBootSlot (impl : BootControlImpl M) (props : Properties) (faults : FileFaults)
    (slot : UInt32) (st : BootState M) : Option (CommandResult × BootState M) :=
  let recorded := impl.setActiveBootSlot slot st.misc
  if recorded.1 then
    match impl.getSuffix slot with
    | none => none
    | some new_suffix =>
        let rewritten := setBootSlot props faults new_suffix st.disk
        some (if rewritten.1 then .succeeded else .failed, ⟨recorded.2, rewritten.2⟩)
  else some (.failed, ⟨recorded.2, st.disk⟩)

/-- `SetActiveBootSlot` is all or nothing, and refuses a slot without a suffix. -/
structure Transactional (impl : BootControlImpl M) : Prop where
  refused : ∀ slot m, (impl.setActiveBootSlot slot m).1 = false →
    (impl.setActiveBootSlot slot m).2 = m
  recorded : ∀ slot m, (impl.setActiveBootSlot slot m).1 = true →
    impl.getActiveBootSlot (impl.setActiveBootSlot slot m).2 = slot
  valid : ∀ slot m, (impl.setActiveBootSlot slot m).1 = true → impl.getSuffix slot ≠ none

/-- Suffixes are an underscore and one other character, and tell slots apart. -/
structure NamesSlots (impl : BootControlImpl M) : Prop where
  form : ∀ slot suffix, impl.getSuffix slot = some suffix →
    ∃ x : Char, x ≠ '_' ∧ suffix = ['_', x]
  distinct : ∀ slot slot' suffix, impl.getSuffix slot = some suffix →
    impl.getSuffix slot' = some suffix → slot = slot'

/-- A failure leaves the active slot and the boot config as they were. -/
def FailureKeepsBoth (impl : BootControlImpl M) (before : BootState M)
    (outcome : CommandResult × BootState M) : Prop :=
  outcome.1.success = false →
    impl.getActiveBootSlot outcome.2.misc = impl.getActiveBootSlot before.misc ∧
      outcome.2.disk = before.disk

/-- libboot_control refuses the slot, or it is active already, or `SetBootSlot`
passes all its tests. -/
def FailsCleanly (impl : BootControlImpl M) (props : Properties) (faults : FileFaults)
    (slot : UInt32) (st : BootState M) : Prop :=
  (impl.setActiveBootSlot slot st.misc).1 = false ∨ impl.getActiveBootSlot st.misc = slot ∨
    Reaches props faults st.disk

theorem setActiveBootSlot_of_refused {impl : BootControlImpl M} {slot : UInt32}
    {st : BootState M} (h : (impl.setActiveBootSlot slot st.misc).1 = false)
    (props : Properties) (faults : FileFaults) :
    setActiveBootSlot impl props faults slot st =
      some (.failed, ⟨(impl.setActiveBootSlot slot st.misc).2, st.disk⟩) := by
  simp [setActiveBootSlot, h]

theorem setActiveBootSlot_of_recorded {impl : BootControlImpl M} {slot : UInt32}
    {st : BootState M} {suffix : Text} (h : (impl.setActiveBootSlot slot st.misc).1 = true)
    (hsuffix : impl.getSuffix slot = some suffix) (props : Properties) (faults : FileFaults) :
    setActiveBootSlot impl props faults slot st =
      some (if (setBootSlot props faults suffix st.disk).1 then .succeeded else .failed,
        ⟨(impl.setActiveBootSlot slot st.misc).2,
          (setBootSlot props faults suffix st.disk).2⟩) := by
  simp [setActiveBootSlot, h, hsuffix]

/-- A reported failure changes neither store exactly when the call fails before
the metadata changes, asks for the active slot or does not fail. -/
theorem setActiveBootSlot_failure_iff (impl : BootControlImpl M) (hlaw : Transactional impl)
    (props : Properties) (faults : FileFaults) (slot : UInt32) (st : BootState M) :
    ∃ outcome, setActiveBootSlot impl props faults slot st = some outcome ∧
      (FailureKeepsBoth impl st outcome ↔ FailsCleanly impl props faults slot st) := by
  cases hset : (impl.setActiveBootSlot slot st.misc).1 with
  | false =>
      refine ⟨_, setActiveBootSlot_of_refused hset props faults, ?_⟩
      simp [FailureKeepsBoth, FailsCleanly, hset, hlaw.refused slot st.misc hset]
  | true =>
      obtain ⟨suffix, hsuffix⟩ := Option.ne_none_iff_exists'.mp (hlaw.valid slot st.misc hset)
      refine ⟨_, setActiveBootSlot_of_recorded hset hsuffix props faults, ?_⟩
      have hactive := hlaw.recorded slot st.misc hset
      by_cases hreach : Reaches props faults st.disk
      · obtain ⟨content, hfile⟩ := Option.ne_none_iff_exists'.mp hreach.readable.1
        simp [FailureKeepsBoth, FailsCleanly, hreach, setBootSlot_of_reaches hreach hfile,
          CommandResult.succeeded]
      · simp [FailureKeepsBoth, FailsCleanly, hreach, hset, hactive,
          setBootSlot_of_not_reaches hreach, CommandResult.failed, eq_comm]

/-- A libboot_control with the slots 0 and 1, whose metadata is the active slot. -/
def twoSlots : BootControlImpl UInt32 where
  getSuffix slot := if slot = 0 then some ['_', 'a'] else if slot = 1 then some ['_', 'b'] else none
  setActiveBootSlot slot active := if slot < 2 then (true, slot) else (false, active)
  getActiveBootSlot active := active

theorem twoSlots_transactional : Transactional twoSlots where
  refused slot m h := by
    by_cases hlt : slot < 2 <;> simp [twoSlots, hlt] at h ⊢
  recorded slot m h := by
    by_cases hlt : slot < 2 <;> simp [twoSlots, hlt] at h ⊢
  valid slot m h := by
    have hlt : slot < 2 := by
      by_contra hge
      simp [twoSlots, hge] at h
    have hcases : slot = 0 ∨ slot = 1 := by
      simp only [UInt32.lt_iff_toNat_lt, ← UInt32.toNat_inj] at hlt ⊢
      simp at hlt ⊢
      omega
    rcases hcases with rfl | rfl <;> simp [twoSlots]

theorem twoSlots_suffix {slot : UInt32} {suffix : Text}
    (h : twoSlots.getSuffix slot = some suffix) :
    (slot = 0 ∧ suffix = ['_', 'a']) ∨ (slot = 1 ∧ suffix = ['_', 'b']) := by
  by_cases h0 : slot = 0
  · exact Or.inl ⟨h0, by simpa [twoSlots, h0, eq_comm] using h⟩
  · by_cases h1 : slot = 1
    · exact Or.inr ⟨h1, by simpa [twoSlots, h1, eq_comm] using h⟩
    · simp [twoSlots, h0, h1] at h

theorem twoSlots_names : NamesSlots twoSlots where
  form slot suffix h := by
    rcases twoSlots_suffix h with ⟨-, rfl⟩ | ⟨-, rfl⟩
    · exact ⟨'a', by decide, rfl⟩
    · exact ⟨'b', by decide, rfl⟩
  distinct slot slot' suffix h h' := by
    rcases twoSlots_suffix h with ⟨rfl, rfl⟩ | ⟨rfl, rfl⟩ <;>
      rcases twoSlots_suffix h' with ⟨rfl, heq⟩ | ⟨rfl, heq⟩ <;> simp at heq ⊢

theorem setActiveBootSlot_failure_same :
    ∃ outcome, setActiveBootSlot twoSlots (fun _ => []) FileFaults.none 1 ⟨1, fun _ => none⟩ =
        some outcome ∧
      (FailureKeepsBoth twoSlots ⟨1, fun _ => none⟩ outcome ↔
        FailsCleanly twoSlots (fun _ => []) FileFaults.none 1 ⟨1, fun _ => none⟩) :=
  setActiveBootSlot_failure_iff twoSlots twoSlots_transactional (fun _ => []) FileFaults.none 1
    ⟨1, fun _ => none⟩

/-- With the property `ro.boot.slot_suffix` unset the call fails after slot 1
has become the active one. -/
theorem failure_after_metadata :
    ∃ outcome, setActiveBootSlot twoSlots (fun _ => []) FileFaults.none 1 ⟨0, fun _ => none⟩ =
        some outcome ∧
      ¬ FailureKeepsBoth twoSlots ⟨0, fun _ => none⟩ outcome := by
  refine ⟨(.failed, ⟨1, fun _ => none⟩), rfl, ?_⟩
  intro h
  exact absurd (h rfl).1 (by decide)

/-- A finite sequence of calls with working file access, as long as each of
them reports success. -/
def setActiveBootSlots (impl : BootControlImpl M) (props : Properties) :
    List UInt32 → BootState M → Option (BootState M)
  | [], st => some st
  | slot :: rest, st =>
      match setActiveBootSlot impl props FileFaults.none slot st with
      | some (cr, st') => if cr.success then setActiveBootSlots impl props rest st' else none
      | none => none

/-- A text stands in the content at `i`, followed by the suffix of the slot. -/
def Reference (impl : BootControlImpl M) (content : Text) (slot : UInt32) (i : Nat) : Prop :=
  ∃ text ∈ texts, ∃ suffix, impl.getSuffix slot = some suffix ∧
    OccursAt (text ++ suffix) content i

/-- Every slot reference names the slot. -/
def AllName (impl : BootControlImpl M) (content : Text) (slot : UInt32) : Prop :=
  ∀ slot' i, Reference impl content slot' i → slot' = slot

/-- The first slot asked for that is not the booted one. -/
def firstSwitch (booted : UInt32) (slots : List UInt32) : UInt32 :=
  (slots.find? (· ≠ booted)).getD booted

/-- The letter of a slot. -/
def Named (impl : BootControlImpl M) (x : Char) : Prop :=
  ∃ slot, impl.getSuffix slot = some ['_', x]

/-- No reference to the booted slot runs into the rest of a reference whose first
letter is the letter of `slot` and which names a slot other than `slot`. -/
def CompletesNoReference (impl : BootControlImpl M) (booted slot : UInt32) (content : Text) :
    Prop :=
  ∀ x₀ x, impl.getSuffix booted = some ['_', x₀] → impl.getSuffix slot = some ['_', x] →
    Detached (Named impl) x₀ x content

section Calls

variable {impl : BootControlImpl M} {props : Properties} {x₀ : Char} {booted : UInt32}

/-- One successful call records the slot and rewrites the content. -/
theorem content_of_call (hlaw : Transactional impl) (hold : oldSuffix props = ['_', x₀])
    {slot : UInt32} {st st' : BootState M} {cr : CommandResult} {content : Text}
    (hfile : st.disk (bootCfg props) = some content)
    (hcall : setActiveBootSlot impl props FileFaults.none slot st = some (cr, st'))
    (hok : cr.success = true) :
    ∃ suffix, impl.getSuffix slot = some suffix ∧ impl.getActiveBootSlot st'.misc = slot ∧
      st'.disk (bootCfg props) = some (rewriteContent ['_', x₀] suffix (by simp) content) := by
  cases hset : (impl.setActiveBootSlot slot st.misc).1 with
  | false =>
      rw [setActiveBootSlot_of_refused hset] at hcall
      obtain ⟨rfl, -⟩ := Prod.mk.inj (Option.some.inj hcall)
      exact absurd hok (by decide)
  | true =>
      obtain ⟨suffix, hsuffix⟩ := Option.ne_none_iff_exists'.mp (hlaw.valid slot st.misc hset)
      have hreach : Reaches props FileFaults.none st.disk :=
        ⟨by simp [hold], ⟨by simp [hfile], rfl⟩, rfl⟩
      rw [setActiveBootSlot_of_recorded hset hsuffix,
        setBootSlot_of_reaches hreach hfile] at hcall
      obtain ⟨-, rfl⟩ := Prod.mk.inj (Option.some.inj hcall)
      refine ⟨suffix, hsuffix, hlaw.recorded slot st.misc hset, ?_⟩
      simp [FileFaults.written, FileFaults.none, hold]

/-- A sequence of successful calls, taken apart at its first call. -/
theorem calls_cons {slot : UInt32} {rest : List UInt32} {st st' : BootState M}
    (hrun : setActiveBootSlots impl props (slot :: rest) st = some st') :
    ∃ cr mid, setActiveBootSlot impl props FileFaults.none slot st = some (cr, mid) ∧
      cr.success = true ∧ setActiveBootSlots impl props rest mid = some st' := by
  rw [setActiveBootSlots] at hrun
  cases hcall : setActiveBootSlot impl props FileFaults.none slot st with
  | none => simp [hcall] at hrun
  | some outcome =>
      obtain ⟨cr, mid⟩ := outcome
      cases hok : cr.success with
      | false => simp [hcall, hok] at hrun
      | true => exact ⟨cr, mid, rfl, hok, by simpa [hcall, hok] using hrun⟩

/-- After a sequence of successful calls the last slot is the active one. -/
theorem active_of_calls (hlaw : Transactional impl) (hold : oldSuffix props = ['_', x₀])
    {slots : List UInt32} {last : UInt32} (hlast : slots.getLast? = some last)
    {st st' : BootState M} {content : Text} (hfile : st.disk (bootCfg props) = some content)
    (hrun : setActiveBootSlots impl props slots st = some st') :
    impl.getActiveBootSlot st'.misc = last := by
  induction slots generalizing st content with
  | nil => simp at hlast
  | cons slot rest ih =>
      obtain ⟨cr, mid, hcall, hok, htail⟩ := calls_cons hrun
      obtain ⟨suffix, -, hactive, hfile'⟩ := content_of_call hlaw hold hfile hcall hok
      cases rest with
      | nil =>
          obtain rfl : mid = st' := Option.some.inj htail
          obtain rfl : slot = last := by simpa using hlast
          exact hactive
      | cons next rest => exact ih (by simpa using hlast) hfile' htail

/-- A content without a reference to the booted slot is never changed again. -/
theorem content_frozen (hlaw : Transactional impl) (hname : NamesSlots impl)
    (hold : oldSuffix props = ['_', x₀]) {slots : List UInt32} {st st' : BootState M}
    {content : Text} (hfile : st.disk (bootCfg props) = some content)
    (hgone : ∀ t ∈ texts, ∀ i, ¬ OccursAt (refText t x₀) content i)
    (hrun : setActiveBootSlots impl props slots st = some st') :
    st'.disk (bootCfg props) = some content := by
  induction slots generalizing st with
  | nil =>
      obtain rfl : st = st' := Option.some.inj hrun
      exact hfile
  | cons slot rest ih =>
      obtain ⟨cr, mid, hcall, hok, htail⟩ := calls_cons hrun
      obtain ⟨suffix, hsuffix, -, hfile'⟩ := content_of_call hlaw hold hfile hcall hok
      obtain ⟨x, -, rfl⟩ := hname.form slot suffix hsuffix
      rw [rewriteContent_eq_self hgone] at hfile'
      exact ih hfile' htail

/-- The rewrite to the first slot asked for that is not the booted one is the
only one that changes the content. -/
theorem content_of_calls (hlaw : Transactional impl) (hname : NamesSlots impl)
    (hold : oldSuffix props = ['_', x₀]) (hx₀ : x₀ ≠ '_')
    (hbooted : impl.getSuffix booted = some ['_', x₀]) {slots : List UInt32}
    {st st' : BootState M} {content : Text} (hfile : st.disk (bootCfg props) = some content)
    (hall : AllName impl content booted)
    (hdet : CompletesNoReference impl booted (firstSwitch booted slots) content)
    (hrun : setActiveBootSlots impl props slots st = some st') :
    ∃ x, impl.getSuffix (firstSwitch booted slots) = some ['_', x] ∧
      st'.disk (bootCfg props) = some (rewriteContent ['_', x₀] ['_', x] (by simp) content) := by
  induction slots generalizing st with
  | nil =>
      obtain rfl : st = st' := Option.some.inj hrun
      exact ⟨x₀, hbooted, by rw [rewriteContent_same, hfile]⟩
  | cons slot rest ih =>
      obtain ⟨cr, mid, hcall, hok, htail⟩ := calls_cons hrun
      obtain ⟨suffix, hsuffix, -, hfile'⟩ := content_of_call hlaw hold hfile hcall hok
      rcases eq_or_ne slot booted with rfl | hother
      · have hswitch : firstSwitch slot (slot :: rest) = firstSwitch slot rest := by
          simp [firstSwitch]
        obtain rfl : suffix = ['_', x₀] := Option.some.inj (hsuffix.symm.trans hbooted)
        rw [rewriteContent_same] at hfile'
        rw [hswitch] at hdet ⊢
        exact ih hfile' hdet htail
      · have hswitch : firstSwitch booted (slot :: rest) = slot := by
          simp [firstSwitch, hother]
        rw [hswitch] at hdet ⊢
        obtain ⟨x, hx, rfl⟩ := hname.form slot suffix hsuffix
        have hne : x₀ ≠ x := by
          rintro rfl
          exact hother (hname.distinct slot booted _ hsuffix hbooted)
        -- the rewrite took every reference to the booted slot away
        have hgone : ∀ t ∈ texts, ∀ i, ¬ OccursAt (refText t x₀)
            (rewriteContent ['_', x₀] ['_', x] (by simp) content) i := by
          intro t ht i hocc
          rcases letter_of_rewrite hx hx₀ hne (hdet x₀ x hbooted hsuffix)
            ⟨booted, hbooted⟩ ht ⟨booted, hbooted⟩ hocc with heq | ⟨hself, -⟩
          · exact hne heq
          · exact hself rfl
        exact ⟨x, hsuffix, content_frozen hlaw hname hold hfile' hgone htail⟩

/-- The rewrite makes every reference name the slot it is asked for. -/
theorem allName_of_rewrite (hname : NamesSlots impl) (hx₀ : x₀ ≠ '_')
    (hbooted : impl.getSuffix booted = some ['_', x₀]) {slot : UInt32} {x : Char} (hx : x ≠ '_')
    (hslot : impl.getSuffix slot = some ['_', x]) {content : Text}
    (hall : AllName impl content booted) (hdet : Detached (Named impl) x₀ x content) :
    AllName impl (rewriteContent ['_', x₀] ['_', x] (by simp) content) slot := by
  rintro slot' i ⟨t, ht, suffix, hslot', hocc⟩
  obtain ⟨y, -, rfl⟩ := hname.form slot' suffix hslot'
  rcases eq_or_ne x₀ x with rfl | hne
  · obtain rfl := hname.distinct slot booted _ hslot hbooted
    rw [rewriteContent_same] at hocc
    exact hall slot' i ⟨t, ht, _, hslot', hocc⟩
  · rcases letter_of_rewrite hx hx₀ hne hdet ⟨booted, hbooted⟩ ht ⟨slot', hslot'⟩ hocc with
      rfl | ⟨hy, hbefore⟩
    · exact hname.distinct slot' slot _ hslot' hslot
    · obtain rfl := hall slot' i ⟨t, ht, _, hslot', hbefore⟩
      obtain rfl : y = x₀ := by simpa using hslot'.symm.trans hbooted
      exact absurd rfl hy

/-- The rewrite keeps a reference. -/
theorem exists_reference_of_rewrite
    (hbooted : impl.getSuffix booted = some ['_', x₀]) {slot : UInt32} {x : Char}
    (hslot : impl.getSuffix slot = some ['_', x]) {content : Text}
    (hall : AllName impl content booted) (hone : ∃ slot' i, Reference impl content slot' i) :
    ∃ slot' i, Reference impl (rewriteContent ['_', x₀] ['_', x] (by simp) content) slot' i := by
  obtain ⟨slot', i, href⟩ := hone
  obtain rfl := hall slot' i href
  obtain ⟨t, ht, suffix, hslot', hocc⟩ := href
  obtain rfl : suffix = ['_', x₀] := Option.some.inj (hslot'.symm.trans hbooted)
  obtain ⟨t', ht', y, hy, i', hocc'⟩ :=
    exists_occursAt_rounds (List.Subset.refl _) ⟨t, ht, x₀, Or.inl rfl, i, hocc⟩
  rcases hy with rfl | rfl
  · exact ⟨slot', i', t', ht', _, hbooted, hocc'⟩
  · exact ⟨slot, i', t', ht', _, hslot, hocc'⟩

end Calls

/-- After any sequence of successful calls the config names the slot of the
last call exactly when that is the first slot asked for that is not the booted
one; the metadata always does. -/
theorem config_agrees_iff (impl : BootControlImpl M) (hlaw : Transactional impl)
    (hname : NamesSlots impl) (props : Properties) (booted : UInt32)
    (hbooted : impl.getSuffix booted = some (oldSuffix props)) (st st' : BootState M)
    (content : Text) (hfile : st.disk (bootCfg props) = some content)
    (hall : AllName impl content booted) (hone : ∃ slot i, Reference impl content slot i)
    (slots : List UInt32) (last : UInt32) (hlast : slots.getLast? = some last)
    (hrun : setActiveBootSlots impl props slots st = some st') :
    impl.getActiveBootSlot st'.misc = last ∧
      (CompletesNoReference impl booted (firstSwitch booted slots) content →
        ∃ content', st'.disk (bootCfg props) = some content' ∧
          (AllName impl content' last ↔ last = firstSwitch booted slots)) := by
  obtain ⟨x₀, hx₀, hold⟩ := hname.form booted _ hbooted
  rw [hold] at hbooted
  refine ⟨active_of_calls hlaw hold hlast hfile hrun, fun hdet => ?_⟩
  obtain ⟨x, hx, hfile'⟩ :=
    content_of_calls hlaw hname hold hx₀ hbooted hfile hall hdet hrun
  obtain ⟨x', hx', heq⟩ := hname.form _ _ hx
  obtain rfl : x = x' := by simpa using heq
  have hnamed := allName_of_rewrite hname hx₀ hbooted hx' hx hall
    (hdet x₀ x hbooted hx)
  refine ⟨_, hfile', ?_⟩
  constructor
  · intro hagree
    obtain ⟨slot, i, href⟩ := exists_reference_of_rewrite hbooted hx hall hone
    exact (hagree slot i href).symm.trans (hnamed slot i href)
  · intro hlastSwitch
    rw [hlastSwitch]
    exact hnamed

/-- Slot 0 is active and the boot config holds one reference to it. -/
def oneLine : BootState UInt32 := ⟨0, oneFile "/kernel_a".toList⟩

theorem allName_kernel_a : AllName twoSlots "/kernel_a".toList 0 := by
  rintro slot i ⟨t, ht, suffix, hslot, hocc⟩
  rcases twoSlots_suffix hslot with ⟨rfl, -⟩ | ⟨rfl, rfl⟩
  · rfl
  · have hmem : 'b' ∈ "/kernel_a".toList :=
      List.mem_of_mem_drop (hocc.subset (by simp))
    exact absurd hmem (by decide)

theorem exists_reference_kernel_a : ∃ slot i, Reference twoSlots "/kernel_a".toList slot i :=
  ⟨0, 1, "kernel".toList, by decide, ['_', 'a'], rfl, by decide⟩

theorem config_agrees_after_one_switch :
    ∃ st' content', setActiveBootSlots twoSlots bootedOnA [1] oneLine = some st' ∧
      st'.disk (bootCfg bootedOnA) = some content' ∧ twoSlots.getActiveBootSlot st'.misc = 1 ∧
      AllName twoSlots content' 1 := by
  obtain ⟨st', hrun⟩ : ∃ st', setActiveBootSlots twoSlots bootedOnA [1] oneLine = some st' :=
    Option.isSome_iff_exists.mp (by decide +kernel)
  have hdet : CompletesNoReference twoSlots 0 (firstSwitch 0 [1]) "/kernel_a".toList := by
    intro x₀ x _ hx t₁ _ t₂ ht₂ hhead y _ _ i
    obtain rfl : x = 'b' := by
      rcases twoSlots_suffix hx with ⟨h, -⟩ | ⟨-, h⟩
      · exact absurd h (by decide)
      · simpa using h
    exact absurd hhead (by revert t₂; decide)
  obtain ⟨hactive, hconfig⟩ := config_agrees_iff twoSlots twoSlots_transactional twoSlots_names
    bootedOnA 0 (by decide +kernel) oneLine st' "/kernel_a".toList (by decide +kernel)
    allName_kernel_a exists_reference_kernel_a [1] 1 rfl hrun
  obtain ⟨content', hfile, hiff⟩ := hconfig hdet
  exact ⟨st', content', hrun, hfile, hactive, hiff.mpr (by decide)⟩

/-- Switching to slot 1 and back reports success twice and leaves the config on
slot 1: the second rewrite looks for the suffix the device booted with. -/
theorem switch_back_leaves_config :
    AllName twoSlots "/kernel_a".toList 0 ∧
      (∃ slot i, Reference twoSlots "/kernel_a".toList slot i) ∧
      oneLine.disk (bootCfg bootedOnA) = some "/kernel_a".toList ∧
      ∃ st' content', setActiveBootSlots twoSlots bootedOnA [1, 0] oneLine = some st' ∧
        st'.disk (bootCfg bootedOnA) = some content' ∧
        twoSlots.getActiveBootSlot st'.misc = 0 ∧ ¬ AllName twoSlots content' 0 := by
  have hrun : (setActiveBootSlots twoSlots bootedOnA [1, 0] oneLine).map
      (fun st => (st.misc, st.disk (bootCfg bootedOnA))) = some (0, some "/kernel_b".toList) := by
    decide +kernel
  obtain ⟨st', hst', heq⟩ := Option.map_eq_some_iff.mp hrun
  obtain ⟨hmisc, hfile⟩ := Prod.mk.inj heq
  refine ⟨allName_kernel_a, exists_reference_kernel_a, by decide +kernel, st', _, hst', hfile,
    hmisc, ?_⟩
  intro hagree
  exact absurd (hagree 1 1 ⟨"kernel".toList, by decide, ['_', 'b'], rfl, by decide⟩) (by decide)

end AndroidX86Tv.BootControl
