import Mathlib.Data.List.Infix
import Mathlib.Logic.Function.Basic
import AndroidX86Tv.Lib.Commands

/-!
# What a boot script changes

The properties, the services and the mounts of the system, and the variables of the shell
that runs `init.sh`. Init may refuse a value for a property, as it does for a `ro.` one
that has a value.

## Implementation notes

A variable that is not set is empty, but for two whose being set is tested. Variables hold
words without blanks, as those from the command line of the kernel do.
-/

namespace AndroidX86Tv.Graphics

open Commands

/-- The device, and what does not change while the script runs. -/
structure Device where
  gpu : String
  board : String
  product : String
  /-- The driver of a card at an attempt: none without the device of the card, and empty
  where it is not known yet. -/
  driver : Nat → Nat → Option String
  /-- The generation that `i915_capabilities` gives for a card. -/
  generation : String → String
  /-- The number that `[` takes a word for, if any. -/
  number : String → Option Int
  /-- Whether init takes a value for a property that has the first one. -/
  accepts : String → String → String → Bool

/-- The variables that the functions for the graphics read or set. -/
structure Variables where
  gpuOverride : String
  hwc : String
  gralloc : String
  hwaccel : String
  hwcHidl : String
  vulkan : String
  i915GpuGen : String
  video : String
  drmMode : String
  debug : String
  multiPlane : String
  multiPlaneNum : String
  hwcPreferMode : String
  connectorId : String
  modeId : String
  multiRefreshRate : String
  ffmpegCodecLog : String
  ffmpegHwaccelDisable : String
  ffmpegCodec2Deinterlace : Option String
  ffmpegCodec2DeinterlaceVaapi : Option String
  ffmpegCodec2Drm : String

structure Boot where
  vars : Variables
  /-- The properties; empty for one that does not exist. -/
  props : String → String
  started : List String
  /-- What is mounted where, in this order. -/
  mounts : List (String × String)

/-- A word of the script, after the expansion of its variables. -/
abbrev Word := Variables → String

instance : Coe String Word := ⟨fun text _ => text⟩

/-- `${variable:-default}`. -/
def Word.orElse (word default : Word) : Word := fun vars =>
  if word vars = "" then default vars else word vars

variable (d : Device)

/-- `setprop`. -/
def setprop (name : String) (value : Word) (s : Boot) : Boot :=
  if d.accepts name (s.props name) (value s.vars) then
    { s with props := Function.update s.props name (value s.vars) }
  else s

/-- `set_property`, without its log. -/
def setProperty (name : String) (value : Word) : Boot → Boot := setprop d name value

def setPropIfEmpty (name : String) (value : Word) : Boot → Boot :=
  guarded (fun s => s.props name = "") (setProperty d name value)

def start (service : String) (s : Boot) : Boot :=
  { s with started := s.started ++ [service] }

def mountBind (source target : String) (s : Boot) : Boot :=
  { s with mounts := s.mounts ++ [(source, target)] }

def assign (change : Variables → Variables) (s : Boot) : Boot := { s with vars := change s.vars }

/-- The pattern `*text`. -/
def endsIn (text word : String) : Bool := text.toList.isSuffixOf word.toList

/-- The pattern `*text*`. -/
def occursIn (text word : String) : Bool := decide (text.toList <:+: word.toList)

section Properties

variable {d} {name other held : String} {value : Word}

/-- The property has the value. -/
def Holds (name held : String) (s : Boot) : Prop := s.props name = held

theorem setprop_takes {s : Boot} (h : d.accepts name (s.props name) (value s.vars) = true) :
    (setprop d name value s).props name = value s.vars := by
  rw [setprop, if_pos h]
  exact Function.update_self _ _ _

theorem keeps_setprop (h : name ≠ other) :
    Keeps (Holds other held) (setprop d name value) := by
  intro s hs
  rw [setprop]
  split_ifs
  · exact (Function.update_of_ne h.symm _ _).trans hs
  · exact hs

theorem keeps_setProperty (h : name ≠ other) :
    Keeps (Holds other held) (setProperty d name value) := keeps_setprop h

/-- To set a property once more to what it is changes nothing. -/
theorem keeps_setProperty_same : Keeps (Holds other held) (setProperty d name held) := by
  intro s hs
  rw [setProperty, setprop]
  split_ifs
  · by_cases h : other = name
    · rw [Holds, h]
      exact Function.update_self _ _ _
    · exact (Function.update_of_ne h _ _).trans hs
  · exact hs

/-- A property that is not empty is left alone. -/
theorem setPropIfEmpty_skip {s : Boot} (h : s.props name ≠ "") :
    setPropIfEmpty d name value s = s := if_neg fun hset => h (of_decide_eq_true hset)

theorem keeps_setPropIfEmpty (h : held ≠ "") :
    Keeps (Holds other held) (setPropIfEmpty d name value) := by
  by_cases hname : name = other
  · intro s hs
    have hset : s.props name ≠ "" := by
      rw [hname, hs]
      exact h
    rw [setPropIfEmpty_skip hset]
    exact hs
  · exact Keeps.guarded (keeps_setProperty hname)

theorem holds_keeps_assign (change : Variables → Variables) :
    Keeps (Holds other held) (assign change) := fun _ hs => hs

theorem holds_keeps_start (service : String) :
    Keeps (Holds other held) (start service) := fun _ hs => hs

end Properties

section Sets

variable {d} {name : String} {value : Word} {command : Boot → Boot}

/-- A command that starts and mounts nothing. -/
structure Sets (command : Boot → Boot) : Prop where
  started : ∀ s, (command s).started = s.started
  mounts : ∀ s, (command s).mounts = s.mounts

theorem sets_setProperty : Sets (setProperty d name value) := by
  constructor
  · intro s
    rw [setProperty, setprop]
    split_ifs
    · rfl
    · rfl
  · intro s
    rw [setProperty, setprop]
    split_ifs
    · rfl
    · rfl

theorem sets_assign (change : Variables → Variables) : Sets (assign change) :=
  ⟨fun _ => rfl, fun _ => rfl⟩

theorem sets_setPropIfEmpty : Sets (setPropIfEmpty d name value) := by
  have hset : Sets (setProperty d name value) := sets_setProperty
  constructor
  · intro s
    unfold setPropIfEmpty guarded branch
    split_ifs
    · exact hset.started s
    · rfl
  · intro s
    unfold setPropIfEmpty guarded branch
    split_ifs
    · exact hset.mounts s
    · rfl

end Sets

end AndroidX86Tv.Graphics
