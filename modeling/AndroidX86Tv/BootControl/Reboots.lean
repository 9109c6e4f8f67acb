import AndroidX86Tv.BootControl.Settings
import AndroidX86Tv.Lib.Simulation

/-!
# The slot and the mode over reboots

Between two reboots a device runs from one slot, and `SetBootSlot` looks for the
suffix of that slot. The bootloader, a parameter, boots the slot that the config
names. Whatever calls are made and modes are selected over any number of reboots,
the device is seen as three slots and a mode: the slot it runs from, the one the
config names, the one in the metadata, and the mode selected last.
-/

namespace AndroidX86Tv.BootControl

open ListReplacement

/-- Suffixes end in one of the four letters. -/
structure LetteredSlots {M : Type*} (impl : BootControlImpl M) : Prop extends NamesSlots impl where
  letter : ∀ slot x, impl.getSuffix slot = some ['_', x] → x ∈ slotLetters

/-- What a device boots and what its kernel tells the system about it: a boot from a
slot has the suffix of the slot among its properties, and the name of one boot config.
The bootloader boots the slot that the references of the config name. -/
structure Bootloader {M : Type*} (impl : BootControlImpl M) where
  props : UInt32 → Properties
  file : Text
  boot : Text → UInt32
  cfg : ∀ slot, bootCfg (props slot) = file
  suffix : ∀ slot suffix, impl.getSuffix slot = some suffix → oldSuffix (props slot) = suffix
  follows : ∀ content slot, AllName impl content slot → (∃ i, Reference impl content slot i) →
    boot content = slot

/-- A call, with what goes wrong with the file, a run of the shutdown script with the reason
for the shutdown, or a reboot. -/
inductive Event where
  | call (slot : UInt32) (faults : FileFaults)
  | select (arg : Text) (writable : Bool)
  | reboot

/-- No write of the file stops early. -/
def Event.Whole : Event → Prop
  | .call _ faults => faults.writeStop = none
  | .select _ _ => True
  | .reboot => True

/-- The slot a device runs from, and its stores. -/
structure Device (M : Type*) where
  booted : UInt32
  stores : BootState M

/-- What a call comes to: it fails before or after the metadata has changed, or it
reports success. -/
inductive Outcome where
  | refused
  | recorded
  | written
  deriving DecidableEq

inductive Turn where
  | call (slot : UInt32) (outcome : Outcome)
  | select (arg : Text) (written : Bool)
  | reboot
  deriving DecidableEq

/-- A device as three slots and the reason that the mode was selected for last. -/
structure Slots where
  booted : UInt32
  config : UInt32
  active : UInt32
  mode : Option Text

/-- A call changes the config if that names the slot the device runs from. -/
def Slots.step (a : Slots) : Turn → Slots
  | .call _ .refused => a
  | .call slot .recorded => { a with active := slot }
  | .call slot .written =>
      { a with active := slot, config := if a.config = a.booted then slot else a.config }
  | .select _ false => a
  | .select arg true => { a with mode := some arg }
  | .reboot => { a with booted := a.config }

section Device

variable {M : Type*} {impl : BootControlImpl M} (loader : Bootloader impl)

/-- `boot-mode-selection.sh` on the file, if there is one. -/
def BootState.select (st : BootState M) (file arg : Text) : Disk :=
  match st.disk file with
  | some content => Function.update st.disk file (some (selectBootMode arg content))
  | none => st.disk

def Device.step (d : Device M) : Event → Option (Device M)
  | .call slot faults =>
      (setActiveBootSlot impl (loader.props d.booted) faults slot d.stores).map
        fun outcome => { d with stores := outcome.2 }
  | .select arg writable =>
      some { d with stores := { d.stores with
        disk := if writable then d.stores.select loader.file arg else d.stores.disk } }
  | .reboot =>
      (d.stores.disk loader.file).map fun content => { d with booted := loader.boot content }

/-- What a step comes to, going by what the call reports. -/
def Device.turn (d : Device M) : Event → Turn
  | .call slot faults =>
      .call slot <|
        match setActiveBootSlot impl (loader.props d.booted) faults slot d.stores with
        | some (cr, _) =>
            if cr.success then .written
            else if (impl.setActiveBootSlot slot d.stores.misc).1 then .recorded
            else .refused
        | none => .refused
  | .select arg writable => .select arg writable
  | .reboot => .reboot

/-- A content names one slot, and no letter or digit follows a reference. -/
structure Names (impl : BootControlImpl M) (x : Char) (slot : UInt32) (content : Text) : Prop where
  suffix : impl.getSuffix slot = some ['_', x]
  bounded : Bounded x content
  all : AllName impl content slot
  one : ∃ i, Reference impl content slot i

/-- A config as it is shipped: it names one slot, in complete lines, and not only in the
value that a mode replaces. -/
structure Shipped (impl : BootControlImpl M) (x₀ : Char) (first : UInt32) (content : Text) :
    Prop where
  suffix : impl.getSuffix first = some ['_', x₀]
  bounded : Bounded x₀ content
  all : AllName impl content first
  lines : EndsInNewline content
  one : ∀ mode, ∃ i, Reference impl (withMode mode content) first i

/-- The slots and the mode of a device. Its config is the shipped one with the letter of one
slot in all its references and the last mode in its assignment. -/
structure Shows (x₀ : Char) (content : Text) (d : Device M) (a : Slots) : Prop where
  booted : d.booted = a.booted
  running : ∃ x, impl.getSuffix a.booted = some ['_', x]
  active : impl.getActiveBootSlot d.stores.misc = a.active
  config : ∃ x, impl.getSuffix a.config = some ['_', x] ∧
    d.stores.disk loader.file = some (rewriteSlot x₀ x (withMode a.mode content)) ∧
    AllName impl (rewriteSlot x₀ x (withMode a.mode content)) a.config

variable {loader} {x x₀ : Char} {slot first : UInt32} {content : Text}

/-- No other slot is named. -/
theorem unreferenced_of_allName (hslot : impl.getSuffix slot = some ['_', x])
    (hall : AllName impl content slot) {slot' : UInt32} {y : Char}
    (hslot' : impl.getSuffix slot' = some ['_', y]) (hne : y ≠ x) : Unreferenced y content := by
  intro t ht i hocc
  obtain rfl := hall slot' i ⟨t, ht, _, hslot', hocc⟩
  exact hne (by simpa using hslot'.symm.trans hslot)

/-- A content with the letter of another slot names that slot, in all its references. -/
theorem Names.relabelled (h : Names impl x₀ first content) (hname : LetteredSlots impl)
    (hslot : impl.getSuffix slot = some ['_', x]) :
    Names impl x slot (rewriteSlot x₀ x content) := by
  have hx₀ := slotLetters_isAlphanum _ (hname.letter _ _ h.suffix)
  have hx := ne_underscore_of_isAlphanum (slotLetters_isAlphanum _ (hname.letter _ _ hslot))
  have hfree := fun hne => unreferenced_of_allName h.suffix h.all hslot hne
  constructor
  · exact hslot
  · exact bounded_relabelled hx₀ h.bounded hfree hx
  · exact allName_of_rewrite hname.toNamesSlots (ne_underscore_of_isAlphanum hx₀) h.suffix hx
      hslot h.all (h.bounded.detached _ _)
  · obtain ⟨i, t, ht, suffix, hsuffix, hocc⟩ := h.one
    obtain rfl : suffix = ['_', x₀] := Option.some.inj (hsuffix.symm.trans h.suffix)
    exact ⟨i, t, ht, _, hslot, (occursAt_relabelled_iff hx₀ h.bounded hfree hx ht).mpr hocc⟩

/-- What a call that gets to the file writes: the config leaves the slot that the device
runs from, or stays. -/
theorem Names.rewrite (h : Names impl x₀ first content) (hname : LetteredSlots impl)
    {booted config : UInt32} {z y : Char} (hbooted : impl.getSuffix booted = some ['_', z])
    (hconfig : impl.getSuffix config = some ['_', x])
    (hslot : impl.getSuffix slot = some ['_', y]) :
    ∃ w, impl.getSuffix (if config = booted then slot else config) = some ['_', w] ∧
      rewriteContent ['_', z] ['_', y] (List.cons_ne_nil _ _) (rewriteSlot x₀ x content) =
        rewriteSlot x₀ w content := by
  rcases eq_or_ne config booted with rfl | hne
  · obtain rfl : z = x := by simpa using hbooted.symm.trans hconfig
    refine ⟨y, by rw [if_pos rfl, hslot], ?_⟩
    exact rewriteSlot_trans (slotLetters_isAlphanum _ (hname.letter _ _ h.suffix)) h.bounded
      (unreferenced_of_allName h.suffix h.all hconfig)
      (slotLetters_isAlphanum _ (hname.letter _ _ hconfig))
      (ne_underscore_of_isAlphanum (slotLetters_isAlphanum _ (hname.letter _ _ hslot)))
  · refine ⟨x, by rw [if_neg hne, hconfig], ?_⟩
    have hletter : z ≠ x := by
      rintro rfl
      exact hne (hname.distinct _ _ _ hconfig hbooted)
    have hnames := h.relabelled hname hconfig
    exact rewriteContent_eq_self (unreferenced_of_allName hnames.suffix hnames.all hbooted hletter)

/-- A shipped config names its slot whatever mode is selected. -/
theorem Shipped.names (h : Shipped impl x₀ first content) (hname : LetteredSlots impl)
    (mode : Option Text) : Names impl x₀ first (withMode mode content) := by
  have hx₀ := slotLetters_isAlphanum _ (hname.letter _ _ h.suffix)
  refine ⟨h.suffix, withMode_bounded hx₀ h.bounded h.lines mode, ?_, h.one mode⟩
  rintro slot i ⟨t, ht, suffix, hslot, hocc⟩
  obtain ⟨y, -, rfl⟩ := hname.form slot suffix hslot
  rcases eq_or_ne y x₀ with rfl | hne
  · exact hname.distinct _ _ _ hslot h.suffix
  · have hfree := unreferenced_of_allName h.suffix h.all hslot hne
    exact absurd hocc (withMode_unreferenced (hname.letter _ _ hslot) hfree h.lines mode t ht i)

/-- Selecting a mode keeps the slot. -/
theorem Shipped.select (h : Shipped impl x₀ first content) (hname : LetteredSlots impl)
    (hslot : impl.getSuffix slot = some ['_', x]) (mode : Option Text) (arg : Text) :
    selectBootMode arg (rewriteSlot x₀ x (withMode mode content)) =
      rewriteSlot x₀ x (withMode (some arg) content) := by
  rw [selectBootMode_relabelled (slotLetters_isAlphanum _ (hname.letter _ _ h.suffix))
    (hname.letter _ _ hslot) (h.names hname mode).bounded (withMode_lines h.lines mode),
    selectBootMode_withMode h.lines]

theorem Device.step_of_call {d : Device M} {slot : UInt32} {faults : FileFaults}
    {outcome : CommandResult × BootState M}
    (h : setActiveBootSlot impl (loader.props d.booted) faults slot d.stores = some outcome) :
    d.step loader (.call slot faults) = some { d with stores := outcome.2 } := by
  simp [step, h]

/-- One step of a device is one step of its slots and its mode. -/
theorem Device.step_shows (hlaw : Transactional impl) (hname : LetteredSlots impl)
    (h : Shipped impl x₀ first content) {d : Device M} {a : Slots}
    (hd : Shows loader x₀ content d a) {e : Event} (he : e.Whole) :
    ∃ d', d.step loader e = some d' ∧ Shows loader x₀ content d' (a.step (d.turn loader e)) := by
  obtain ⟨z, hz⟩ := hd.running
  obtain ⟨x, hx, hfile, hall⟩ := hd.config
  have hold : oldSuffix (loader.props d.booted) = ['_', z] :=
    loader.suffix _ _ (by rw [hd.booted, hz])
  cases e with
  | reboot =>
      have hboot : loader.boot (rewriteSlot x₀ x (withMode a.mode content)) = a.config :=
        loader.follows _ _ hall ((h.names hname a.mode).relabelled hname hx).one
      refine ⟨{ d with booted := a.config }, by simp [step, hfile, hboot], ?_⟩
      exact ⟨rfl, ⟨x, hx⟩, hd.active, x, hx, hfile, hall⟩
  | select arg writable =>
      cases writable with
      | false => exact ⟨d, rfl, hd⟩
      | true =>
          refine ⟨_, rfl, hd.booted, hd.running, hd.active, x, hx, ?_, ?_⟩
          · simp [BootState.select, hfile, h.select hname hx, turn, Slots.step]
          · exact ((h.names hname (some arg)).relabelled hname hx).all
  | call slot faults =>
      cases hset : (impl.setActiveBootSlot slot d.stores.misc).1 with
      | false =>
          have hcall := setActiveBootSlot_of_refused hset (loader.props d.booted) faults
          refine ⟨d, by simp [step, hcall, hlaw.refused slot _ hset], ?_⟩
          simpa [turn, hcall, hset, CommandResult.failed, Slots.step] using hd
      | true =>
          obtain ⟨suffix, hsuffix⟩ :=
            Option.ne_none_iff_exists'.mp (hlaw.valid slot d.stores.misc hset)
          obtain ⟨y, -, rfl⟩ := hname.form slot suffix hsuffix
          have hactive := hlaw.recorded slot d.stores.misc hset
          have hcall := setActiveBootSlot_of_recorded hset hsuffix (loader.props d.booted) faults
          refine ⟨_, step_of_call hcall, ?_⟩
          by_cases hreach : Reaches (loader.props d.booted) faults d.stores.disk
          · have hnames := h.names hname a.mode
            obtain ⟨w, hw, hrewrite⟩ := hnames.rewrite hname hz hx hsuffix
            have hwritten : faults.written (rewriteSlot x₀ w (withMode a.mode content)) =
                rewriteSlot x₀ w (withMode a.mode content) := by
              rw [FileFaults.written_eq_iff]
              rintro ⟨k, hk, -⟩
              exact absurd (hk.symm.trans he) (by simp)
            have hset' := setBootSlot_of_reaches hreach
              ((congrArg _ (loader.cfg _)).trans hfile) ['_', y]
            simp only [turn, hcall, hset', if_true, CommandResult.succeeded, Slots.step]
            refine ⟨hd.booted, hd.running, hactive, w, hw, ?_, (hnames.relabelled hname hw).all⟩
            simp [loader.cfg, hold, hrewrite, hwritten]
          · have hset' := setBootSlot_of_not_reaches hreach ['_', y]
            simp only [turn, hcall, hset', hset, CommandResult.failed, Bool.false_eq_true,
              if_false, if_true, Slots.step]
            exact ⟨hd.booted, hd.running, hactive, x, hx, hfile, hall⟩

/-- What the steps of a run come to. -/
def Device.turns (loader : Bootloader impl) : Device M → List Event → List Turn :=
  Simulation.labels (Device.step loader) (Device.turn loader)

theorem Device.run_slots (hlaw : Transactional impl) (hname : LetteredSlots impl)
    (h : Shipped impl x₀ first content) {d : Device M} {a : Slots}
    (hd : Shows loader x₀ content d a) {events : List Event} (hwhole : ∀ e ∈ events, e.Whole) :
    ∃ d', Simulation.run (Device.step loader) d events = some d' ∧
      Shows loader x₀ content d' (EventHistory.run Slots.step a (d.turns loader events)) := by
  refine Simulation.run_simulates ?_ hd hwhole
  intro d a e hd he
  exact step_shows hlaw hname h hd he

/-- A device that runs from the slot its shipped config names. -/
theorem Shipped.shows (h : Shipped impl x₀ first content) {st : BootState M}
    (hfile : st.disk loader.file = some content) :
    Shows loader x₀ content ⟨first, st⟩ ⟨first, first, impl.getActiveBootSlot st.misc, none⟩ := by
  refine ⟨rfl, ⟨x₀, h.suffix⟩, rfl, x₀, h.suffix, ?_, ?_⟩
  · rw [rewriteSlot_same, hfile]
    rfl
  · rw [rewriteSlot_same]
    exact h.all

end Device

/-- From a shipped config on, whatever calls succeed or fail and whatever modes are selected
over any number of reboots, the device is its three slots and its mode: the config keeps all
its text but the letters of its references, which name one slot, and the value of its mode,
which is the last one selected. -/
theorem Device.run_refines {M : Type*} (impl : BootControlImpl M) (hlaw : Transactional impl)
    (hname : LetteredSlots impl) (loader : Bootloader impl) (x₀ : Char) (first : UInt32)
    (content : Text) (hshipped : Shipped impl x₀ first content) (st : BootState M)
    (hfile : st.disk loader.file = some content) (events : List Event)
    (hwhole : ∀ e ∈ events, e.Whole) :
    ∃ d', Simulation.run (Device.step loader) ⟨first, st⟩ events = some d' ∧
      Shows loader x₀ content d' (EventHistory.run Slots.step
        ⟨first, first, impl.getActiveBootSlot st.misc, none⟩
        (Device.turns loader ⟨first, st⟩ events)) :=
  run_slots hlaw hname hshipped (hshipped.shows hfile) hwhole

/-- The bootloader of a device with two slots boots slot 1 if the config has a
reference to it. -/
def twoSlotsLoader : Bootloader twoSlots where
  props slot key := if key = "ro.boot.slot_suffix" then (twoSlots.getSuffix slot).getD [] else []
  file := "/boot/grub/android.cfg".toList
  boot content :=
    if ∃ t ∈ texts, ∃ i < content.length, OccursAt (refText t 'b') content i then 1 else 0
  cfg _ := rfl
  suffix slot suffix h := by simp [oldSuffix, h]
  follows content slot hall hone := by
    obtain ⟨i, t, ht, suffix, hsuffix, hocc⟩ := hone
    have hin := hocc.le_length (by rcases twoSlots_suffix hsuffix with ⟨-, rfl⟩ | ⟨-, rfl⟩ <;> simp)
    rcases twoSlots_suffix hsuffix with ⟨rfl, rfl⟩ | ⟨rfl, rfl⟩
    · rw [if_neg]
      rintro ⟨t', ht', i', -, hocc'⟩
      exact absurd (hall 1 i' ⟨t', ht', _, rfl, hocc'⟩) (by decide)
    · rw [if_pos]
      refine ⟨t, ht, i, ?_, hocc⟩
      simp only [List.length_append, List.length_cons, List.length_nil] at hin
      omega

theorem twoSlots_lettered : LetteredSlots twoSlots where
  toNamesSlots := twoSlots_names
  letter slot x h := by
    rcases twoSlots_suffix h with ⟨-, heq⟩ | ⟨-, heq⟩
    · obtain rfl : x = 'a' := by simpa using heq
      decide
    · obtain rfl : x = 'b' := by simpa using heq
      decide

/-- A config for slot 0, with a reference before the assignment of the mode. -/
def kernelAndMode : Text := "kernel_a MODE=normal\n".toList

theorem shipped_kernelAndMode : Shipped twoSlots 'a' 0 kernelAndMode where
  suffix := rfl
  bounded := by decide +kernel
  all := by
    rintro slot i ⟨t, ht, suffix, hslot, hocc⟩
    rcases twoSlots_suffix hslot with ⟨rfl, -⟩ | ⟨rfl, rfl⟩
    · rfl
    · have hmem : 'b' ∈ kernelAndMode := List.mem_of_mem_drop (hocc.subset (by simp))
      exact absurd hmem (by decide)
  lines := Or.inr rfl
  one mode := by
    refine ⟨0, "kernel".toList, by decide, ['_', 'a'], rfl, ?_⟩
    cases mode with
    | none => decide
    | some arg =>
        have hfirst : FirstAt modeKey "kernel_a ".toList "normal\n".toList := by
          unfold FirstAt
          decide +kernel
        have hno : ¬ Occurs androidKey ("kernel_a ".toList ++ (modeKey ++ "normal\n".toList)) :=
          fun ⟨i, hi⟩ => absurd
            (List.mem_of_mem_drop (hi.subset (by decide : 'b' ∈ androidKey))) (by decide)
        rw [withMode, show kernelAndMode = "kernel_a ".toList ++ (modeKey ++ "normal\n".toList)
          from rfl, selectBootMode_of_mode arg hfirst hno (Or.inr rfl)]
        exact List.prefix_append _ _

/-- Slot 0 is active and in the config. -/
def kernelStores : BootState UInt32 := ⟨0, oneFile kernelAndMode⟩

/-- Two switches, a reboot after each; the last call comes too late for the config. -/
def twoSwitches : List Event :=
  [.call 1 FileFaults.none, .select "0recovery".toList true, .reboot, .call 0 FileFaults.none,
    .call 1 FileFaults.none, .reboot]

theorem Device.run_refines_two_switches :
    ∃ d', Simulation.run (Device.step twoSlotsLoader) ⟨0, kernelStores⟩ twoSwitches = some d' ∧
      Shows twoSlotsLoader 'a' kernelAndMode d' ⟨0, 0, 1, some "0recovery".toList⟩ := by
  have hturns : Device.turns twoSlotsLoader ⟨0, kernelStores⟩ twoSwitches =
      [.call 1 .written, .select "0recovery".toList true, .reboot, .call 0 .written,
        .call 1 .written, .reboot] := by
    decide +kernel
  obtain ⟨d', hrun, hshows⟩ := Device.run_refines twoSlots twoSlots_transactional
    twoSlots_lettered twoSlotsLoader 'a' 0 kernelAndMode shipped_kernelAndMode kernelStores
    (by decide +kernel) twoSwitches
    (by simp [twoSwitches, Event.Whole, FileFaults.none])
  rw [hturns] at hshows
  exact ⟨d', hrun, hshows⟩

/-- The slot of a call that reports success. -/
def Turn.written : Turn → Option UInt32
  | .call slot .written => some slot
  | .call _ .recorded => none
  | .call _ .refused => none
  | .select _ _ => none
  | .reboot => none

/-- The slot of a call that the metadata takes over. -/
def Turn.recorded : Turn → Option UInt32
  | .call slot .written => some slot
  | .call slot .recorded => some slot
  | .call _ .refused => none
  | .select _ _ => none
  | .reboot => none

/-- Between two reboots the first switch away from the slot the device runs from is the one
that the config follows; the metadata follows the last call. -/
theorem Slots.run_calls {turns : List Turn} (hcalls : .reboot ∉ turns) (a : Slots) :
    ∃ mode, EventHistory.run Slots.step a turns =
      ⟨a.booted,
        if a.config = a.booted then firstSwitch a.booted (turns.filterMap Turn.written)
        else a.config,
        (turns.filterMap Turn.recorded).getLast?.getD a.active, mode⟩ := by
  induction turns generalizing a with
  | nil =>
      obtain ⟨booted, config, active, mode⟩ := a
      refine ⟨mode, ?_⟩
      by_cases hconfig : config = booted <;> simp [EventHistory.run, firstSwitch, hconfig]
  | cons turn rest ih =>
      obtain ⟨mode, hrest⟩ := ih (fun h => hcalls (List.mem_cons_of_mem _ h)) (a.step turn)
      refine ⟨mode, ?_⟩
      rw [EventHistory.run_cons, hrest]
      cases turn with
      | reboot => exact absurd List.mem_cons_self hcalls
      | select arg written => cases written <;> rfl
      | call slot outcome =>
          cases outcome with
          | refused => rfl
          | recorded =>
              rw [List.filterMap_cons_none rfl,
                List.filterMap_cons_some (f := Turn.recorded) (b := slot) rfl, List.getLast?_cons]
              rfl
          | written =>
              rw [List.filterMap_cons_some (f := Turn.written) (b := slot) rfl,
                List.filterMap_cons_some (f := Turn.recorded) (b := slot) rfl, List.getLast?_cons]
              by_cases hconfig : a.config = a.booted
              · by_cases hslot : slot = a.booted
                · simp [Slots.step, firstSwitch, hconfig, hslot]
                · simp [Slots.step, firstSwitch, hconfig, hslot]
              · simp [Slots.step, hconfig]

section Device

variable {M : Type*} {impl : BootControlImpl M} {loader : Bootloader impl} {x₀ : Char}
  {first : UInt32} {content : Text}

/-- At the start of a device's life and after every reboot the config names the slot that
the device runs from. -/
theorem Device.run_booted (hlaw : Transactional impl) (hname : LetteredSlots impl)
    (h : Shipped impl x₀ first content) {d : Device M} {a : Slots}
    (hd : Shows loader x₀ content d a) (hsame : a.config = a.booted) {before : List Event}
    (hwhole : ∀ e ∈ before, e.Whole) (hlast : before = [] ∨ before.getLast? = some .reboot) :
    ∃ d' a', Simulation.run (Device.step loader) d before = some d' ∧
      Shows loader x₀ content d' a' ∧ a'.config = a'.booted := by
  rcases hlast with rfl | hlast
  · exact ⟨d, a, rfl, hd, hsame⟩
  · obtain ⟨earlier, rfl⟩ := List.getLast?_eq_some_iff.mp hlast
    rw [List.forall_mem_append] at hwhole
    obtain ⟨mid, hrun, hmid⟩ := run_slots hlaw hname h hd hwhole.1
    obtain ⟨d', hstep, hd'⟩ := step_shows hlaw hname h hmid (e := .reboot) trivial
    refine ⟨d', _, ?_, hd', rfl⟩
    rw [Simulation.run_append hrun, Simulation.run_cons hstep]
    rfl

end Device

/-- A boot of a device's life, from a reboot or the first start to the next reboot: the device
then runs from the slot of the first successful call for a slot other than the one it ran from,
and this is the slot in the metadata exactly if the last call that the metadata took over names
it. -/
theorem Device.reboot_iff {M : Type*} (impl : BootControlImpl M) (hlaw : Transactional impl)
    (hname : LetteredSlots impl) (loader : Bootloader impl) (x₀ : Char) (first : UInt32)
    (content : Text) (hshipped : Shipped impl x₀ first content) (st : BootState M)
    (hfile : st.disk loader.file = some content) (before calls : List Event)
    (hwhole : ∀ e ∈ before ++ calls, e.Whole)
    (hlast : before = [] ∨ before.getLast? = some .reboot) (hcalls : .reboot ∉ calls) :
    ∃ d d', Simulation.run (Device.step loader) ⟨first, st⟩ before = some d ∧
      Simulation.run (Device.step loader) d (calls ++ [.reboot]) = some d' ∧
      d'.booted = firstSwitch d.booted ((d.turns loader calls).filterMap Turn.written) ∧
      (impl.getActiveBootSlot d'.stores.misc = d'.booted ↔
        ((d.turns loader calls).filterMap Turn.recorded).getLast?.getD
            (impl.getActiveBootSlot d.stores.misc) =
          firstSwitch d.booted ((d.turns loader calls).filterMap Turn.written)) := by
  rw [List.forall_mem_append] at hwhole
  obtain ⟨d, a, hrun, hd, hsame⟩ :=
    run_booted hlaw hname hshipped (hshipped.shows hfile) rfl hwhole.1 hlast
  obtain ⟨mid, hrunCalls, hmid⟩ := run_slots hlaw hname hshipped hd hwhole.2
  obtain ⟨d', hstep, hd'⟩ := step_shows hlaw hname hshipped hmid (e := .reboot) trivial
  have hturns : .reboot ∉ d.turns loader calls := by
    have hlabels : ∀ turn ∈ d.turns loader calls, turn ≠ .reboot := by
      refine Simulation.forall_labels (Q := (· ≠ Event.reboot)) ?_ ?_
      · intro d e he
        cases e with
        | reboot => exact absurd rfl he
        | call slot faults => exact Turn.noConfusion
        | select arg writable => exact Turn.noConfusion
      · exact fun e he heq => hcalls (heq ▸ he)
    exact fun hmem => hlabels _ hmem rfl
  obtain ⟨mode, hcallsRun⟩ := Slots.run_calls hturns a
  rw [hcallsRun, if_pos hsame] at hd'
  refine ⟨d, d', hrun, ?_, ?_, ?_⟩
  · rw [Simulation.run_append hrunCalls, Simulation.run_cons hstep]
    rfl
  · rw [hd'.booted, hd.booted]
    rfl
  · rw [hd'.active, hd'.booted, hd.active, hd.booted]
    rfl

/-- After a switch and a reboot, a switch and another one: the device goes back to the slot
that the metadata has left. -/
theorem Device.reboot_two_switches :
    ∃ d d', Simulation.run (Device.step twoSlotsLoader) ⟨0, kernelStores⟩
        [.call 1 FileFaults.none, .reboot] = some d ∧
      Simulation.run (Device.step twoSlotsLoader) d
        [.call 0 FileFaults.none, .call 1 FileFaults.none, .reboot] = some d' ∧
      d'.booted = 0 ∧ twoSlots.getActiveBootSlot d'.stores.misc ≠ d'.booted := by
  obtain ⟨d, d', hrun, hcalls, hbooted, hiff⟩ := Device.reboot_iff twoSlots
    twoSlots_transactional twoSlots_lettered twoSlotsLoader 'a' 0 kernelAndMode
    shipped_kernelAndMode kernelStores (by decide +kernel)
    [.call 1 FileFaults.none, .reboot]
    [.call 0 FileFaults.none, .call 1 FileFaults.none]
    (by simp [Event.Whole, FileFaults.none]) (Or.inr rfl) (by simp)
  have hseen : (Simulation.run (Device.step twoSlotsLoader) ⟨0, kernelStores⟩
      [.call 1 FileFaults.none, .reboot]).map (fun d => (d.booted,
        (d.turns twoSlotsLoader [.call 0 FileFaults.none, .call 1 FileFaults.none]))) =
      some (1, [.call 0 .written, .call 1 .written]) := by
    decide +kernel
  rw [hrun] at hseen
  obtain ⟨hfrom, hturns⟩ := Prod.mk.inj (Option.some.inj hseen)
  rw [hfrom, hturns] at hbooted hiff
  refine ⟨d, d', hrun, hcalls, hbooted, ?_⟩
  rw [ne_eq, hiff]
  simp [Turn.written, Turn.recorded, firstSwitch]

end AndroidX86Tv.BootControl
