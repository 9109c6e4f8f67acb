import AndroidX86Tv.Graphics.UserChoice

/-!
# What the script chooses (init.sh)

A value that is there stays, then the command line of the kernel counts, and then the
device. The card is the first one with a driver at the first attempt that finds any.
-/

namespace AndroidX86Tv.Graphics

open Commands

/-- The first word that is not empty. -/
def firstSet : List String → String
  | [] => ""
  | word :: words => if word = "" then firstSet words else word

/-- The backend of gralloc for a device. -/
def backendOf (gpu : String) : String :=
  if endsIn "virtio_gpu" gpu || endsIn "virtio-pci" gpu then "minigbm_arcvm"
  else if endsIn "nouveau" gpu then "minigbm_gbm_mesa"
  else if endsIn "i915" gpu ||
      (endsIn "amdgpu" gpu || occursIn "vmwgfx" gpu || endsIn "xe" gpu) then
    "minigbm"
  else ""

/-- The composer for a device. -/
def composerOf (gpu : String) : String := if backendOf gpu = "" then "" else "drm_minigbm"

variable {d : Device} {s : Boot}

section Case

@[simp] theorem setProperty_vars (name : String) (value : Word) (s : Boot) :
    (setProperty d name value s).vars = s.vars := by
  rw [setProperty, setprop]
  split_ifs
  · rfl
  · rfl

theorem firstSet_pair (word default : String) :
    firstSet [word, default] = if word = "" then default else word := by
  rw [firstSet, firstSet, firstSet]
  split_ifs with hword hdefault
  · exact hdefault.symm
  · rfl
  · rfl

theorem firstSet_cons (word : String) (words : List String) :
    firstSet (word :: words) = firstSet [word, firstSet words] := by
  rw [firstSet_pair, firstSet]

theorem firstSet_assoc (x y z : String) :
    firstSet [firstSet [x, y], z] = firstSet [x, firstSet [y, z]] := by
  simp only [firstSet_pair]
  split_ifs
  · rfl
  · rfl
  · rfl

theorem firstSet_none (word : String) : firstSet [word, ""] = word := by
  rw [firstSet_pair]
  split_ifs with hword
  · exact hword.symm
  · rfl

/-- The variables after a command: each is set only where it was empty. -/
structure Defaults (backend composer : String) (s s' : Boot) : Prop where
  gralloc : s'.vars.gralloc = firstSet [s.vars.gralloc, backend]
  hwc : s'.vars.hwc = firstSet [s.vars.hwc, composer]

theorem Defaults.trans {backend composer backend' composer' : String} {s s' s'' : Boot}
    (h : Defaults backend composer s s') (h' : Defaults backend' composer' s' s'') :
    Defaults (firstSet [backend, backend']) (firstSet [composer, composer']) s s'' := by
  constructor
  · rw [h'.gralloc, h.gralloc, firstSet_assoc]
  · rw [h'.hwc, h.hwc, firstSet_assoc]

theorem Defaults.of_same {s s' : Boot} (hgralloc : s'.vars.gralloc = s.vars.gralloc)
    (hhwc : s'.vars.hwc = s.vars.hwc) : Defaults "" "" s s' := by
  have hnone : ∀ word, firstSet [word, ""] = word := by
    intro word
    rw [firstSet_pair]
    split_ifs with hword
    · exact hword.symm
    · rfl
  exact ⟨hgralloc.trans (hnone _).symm, hhwc.trans (hnone _).symm⟩

theorem defaults_both (backend composer : String) (s : Boot) :
    Defaults backend composer s (seq [defaultGralloc backend, defaultHwc composer] s) :=
  ⟨(firstSet_pair _ _).symm, (firstSet_pair _ _).symm⟩

theorem fallThrough_radeon (s : Boot) :
    Defaults "" "" s (fallThrough ((grallocArms d).drop 4) s) := by
  have hradeon : fallThrough ((grallocArms d).drop 4) s =
      guarded (fun s => !((!occursIn "VirtualBox" d.board && s.vars.hwaccel != "0") ||
        s.vars.hwaccel == "1")) disableHwaccel s := rfl
  rw [hradeon]
  unfold guarded branch
  split_ifs
  · exact Defaults.of_same rfl rfl
  · exact Defaults.of_same rfl rfl

theorem fallThrough_minigbm (s : Boot) :
    Defaults "minigbm" "drm_minigbm" s (fallThrough ((grallocArms d).drop 3) s) :=
  (defaults_both "minigbm" "drm_minigbm" s).trans (fallThrough_radeon _)

theorem fallThrough_i915 (s : Boot) :
    Defaults "minigbm" "drm_minigbm" s (fallThrough ((grallocArms d).drop 2) s) := by
  refine Defaults.trans (Defaults.of_same ?_ ?_) (fallThrough_minigbm _)
  · simp only [seq, guarded, branch]
    split_ifs
    · simp only [setProperty_vars, assign]
    · rfl
  · simp only [seq, guarded, branch]
    split_ifs
    · simp only [setProperty_vars, assign]
    · rfl

theorem fallThrough_nouveau (s : Boot) :
    Defaults "minigbm_gbm_mesa" "drm_minigbm" s (fallThrough ((grallocArms d).drop 1) s) :=
  (defaults_both "minigbm_gbm_mesa" "drm_minigbm" s).trans (fallThrough_i915 _)

theorem fallThrough_virtio (s : Boot) :
    Defaults "minigbm_arcvm" "drm_minigbm" s (fallThrough (grallocArms d) s) := by
  have hbody : Defaults "minigbm_arcvm" "drm_minigbm" s
      (seq [defaultHwc "drm_minigbm", defaultGralloc "minigbm_arcvm",
        setProperty d "ro.vendor.hwc.drm.present_fence_not_reliable" "true"] s) := by
    constructor
    · simp only [seq, setProperty_vars]
      exact (firstSet_pair _ _).symm
    · simp only [seq, setProperty_vars]
      exact (firstSet_pair _ _).symm
  exact hbody.trans (fallThrough_nouveau _)

theorem defaults_of_backend {backend : String} {s' : Boot} (hbackend : backendOf d.gpu = backend)
    (hset : backend ≠ "") (h : Defaults backend "drm_minigbm" s s') :
    Defaults (backendOf d.gpu) (composerOf d.gpu) s s' := by
  have hcomposer : composerOf d.gpu = "drm_minigbm" := by
    rw [composerOf, hbackend, if_neg hset]
  rw [hbackend, hcomposer]
  exact h

/-- The `case` gives each variable what suits the device, where it is empty. -/
theorem choose_gralloc (s : Boot) :
    Defaults (backendOf d.gpu) (composerOf d.gpu) s (choose (grallocArms d) s) := by
  by_cases hvirtio : (endsIn "virtio_gpu" d.gpu || endsIn "virtio-pci" d.gpu) = true
  · have hchoose : choose (grallocArms d) s = fallThrough (grallocArms d) s := if_pos hvirtio
    rw [hchoose]
    exact defaults_of_backend (if_pos hvirtio) (by decide) (fallThrough_virtio s)
  have hpastVirtio : choose (grallocArms d) s = choose ((grallocArms d).drop 1) s := if_neg hvirtio
  by_cases hnouveau : endsIn "nouveau" d.gpu = true
  · have hchoose : choose ((grallocArms d).drop 1) s = fallThrough ((grallocArms d).drop 1) s :=
      if_pos hnouveau
    rw [hpastVirtio, hchoose]
    exact defaults_of_backend ((if_neg hvirtio).trans (if_pos hnouveau)) (by decide)
      (fallThrough_nouveau s)
  have hpastNouveau : choose ((grallocArms d).drop 1) s = choose ((grallocArms d).drop 2) s :=
    if_neg hnouveau
  by_cases hi915 : endsIn "i915" d.gpu = true
  · have hchoose : choose ((grallocArms d).drop 2) s = fallThrough ((grallocArms d).drop 2) s :=
      if_pos hi915
    have hbackend : backendOf d.gpu = "minigbm" :=
      (if_neg hvirtio).trans ((if_neg hnouveau).trans (if_pos (by rw [hi915, Bool.true_or])))
    rw [hpastVirtio, hpastNouveau, hchoose]
    exact defaults_of_backend hbackend (by decide) (fallThrough_i915 s)
  have hpastI915 : choose ((grallocArms d).drop 2) s = choose ((grallocArms d).drop 3) s :=
    if_neg hi915
  by_cases hother : (endsIn "amdgpu" d.gpu || occursIn "vmwgfx" d.gpu || endsIn "xe" d.gpu) = true
  · have hchoose : choose ((grallocArms d).drop 3) s = fallThrough ((grallocArms d).drop 3) s :=
      if_pos hother
    have hbackend : backendOf d.gpu = "minigbm" :=
      (if_neg hvirtio).trans ((if_neg hnouveau).trans (if_pos (by rw [hother, Bool.or_true])))
    rw [hpastVirtio, hpastNouveau, hpastI915, hchoose]
    exact defaults_of_backend hbackend (by decide) (fallThrough_minigbm s)
  have hnone : backendOf d.gpu = "" :=
    (if_neg hvirtio).trans ((if_neg hnouveau).trans (if_neg (by simp_all)))
  have hpastOther : choose ((grallocArms d).drop 3) s = choose ((grallocArms d).drop 4) s :=
    if_neg hother
  have hcomposer : composerOf d.gpu = "" := by rw [composerOf, hnone, if_pos rfl]
  rw [hnone, hcomposer, hpastVirtio, hpastNouveau, hpastI915, hpastOther]
  by_cases hradeon : endsIn "radeon" d.gpu = true
  · have hchoose : choose ((grallocArms d).drop 4) s = fallThrough ((grallocArms d).drop 4) s :=
      if_pos hradeon
    rw [hchoose]
    exact fallThrough_radeon s
  · have hchoose : choose ((grallocArms d).drop 4) s = disableHwaccel s := if_neg hradeon
    rw [hchoose]
    exact Defaults.of_same rfl rfl

end Case

section Properties

variable {name held : String}

theorem setPropIfEmpty_settles {value : Word} {s : Boot}
    (h : d.accepts name "" (value s.vars) = true) :
    (setPropIfEmpty d name value s).props name = firstSet [s.props name, value s.vars] := by
  rw [firstSet_pair]
  by_cases hempty : s.props name = ""
  · have hset : setPropIfEmpty d name value s = setProperty d name value s :=
      if_pos (decide_eq_true hempty)
    rw [if_pos hempty, hset]
    exact setprop_takes (by rw [hempty]; exact h)
  · rw [if_neg hempty, setPropIfEmpty_skip hempty]

theorem setPropIfEmpty_vars (value : Word) (s : Boot) :
    (setPropIfEmpty d name value s).vars = s.vars := by
  unfold setPropIfEmpty guarded branch
  split_ifs
  · exact setProperty_vars _ _ _
  · rfl

end Properties

section Backend

/-- The state before the property of the backend is given its default. -/
def beforeBackend (d : Device) (s : Boot) : Boot :=
  guarded (fun s => s.vars.hwc ≠ "") (setPropIfEmpty d "ro.hardware.hwcomposer" Variables.hwc)
    (choose (grallocArms d) (chooseCard d s))

/-- What follows it. -/
def afterBackend (d : Device) : Boot → Boot :=
  seq [endGralloc d, initHalHwcomposer d, initHalMedia d, initHalVulkan d]

theorem initGraphics_backend (s : Boot) :
    initGraphics d s =
      afterBackend d (setPropIfEmpty d "ro.hardware.gralloc" (Word.orElse Variables.gralloc "gbm")
        (beforeBackend d s)) := by
  simp only [initGraphics_eq, afterCard, afterBackend, beforeBackend, seq]

theorem afterBackend_keeps {name held : String} (hname : name ∉ laterWrites)
    (hother : name ∉ allocatorProperties) (hheld : held ≠ "") :
    Keeps (Holds name held) (afterBackend d) := by
  have hbuilt : BuiltFrom (Part d laterWrites) (afterBackend d) :=
    .cons (endGralloc_built d) <|
    .cons (initHalHwcomposer_built d) <|
    .cons (initHalMedia_built d) <|
    .cons (initHalVulkan_built d) .nil
  exact hbuilt.keeps fun part hpart => hpart.keeps hname hother hheld

theorem chooseCard_vars (s : Boot) :
    (chooseCard d s).vars.gralloc = s.vars.gralloc ∧ (chooseCard d s).vars.hwc = s.vars.hwc := by
  unfold chooseCard
  simp only [seq, setProperty_vars, guarded, branch]
  split_ifs
  · cases hcard : searchCard d s.vars.hwaccel with
    | none => simp [assign, hcard]
    | some card => simp [assign, hcard]
  · exact ⟨rfl, rfl⟩

theorem chooseCard_keeps {name held : String} (hname : name ∉ cardProperties) :
    Keeps (Holds name held) (chooseCard d) :=
  (chooseCard_plain d).keeps fun _ hpart => hpart.keeps hname

theorem choose_keeps {name held : String} (hname : name ∉ laterWrites) :
    Keeps (Holds name held) (choose (grallocArms d)) :=
  (BuiltFrom.choose (grallocArms_plain d)).keeps fun _ hpart => hpart.keeps hname

/-- What is there before the default of the backend: the property as it was, and the
variable as the command line or the device has it. -/
theorem beforeBackend_spec (s : Boot) :
    (beforeBackend d s).props "ro.hardware.gralloc" = s.props "ro.hardware.gralloc" ∧
      (beforeBackend d s).vars.gralloc = firstSet [s.vars.gralloc, backendOf d.gpu] := by
  have hguarded : Keeps (Holds "ro.hardware.gralloc" (s.props "ro.hardware.gralloc"))
      (guarded (fun s => s.vars.hwc ≠ "")
        (setPropIfEmpty d "ro.hardware.hwcomposer" Variables.hwc)) :=
    Keeps.guarded (Keeps.guarded (keeps_setProperty (by decide)))
  constructor
  · exact hguarded _ (choose_keeps (by decide) _ (chooseCard_keeps (by decide) s rfl))
  · have hvars : (beforeBackend d s).vars = (choose (grallocArms d) (chooseCard d s)).vars := by
      unfold beforeBackend guarded branch
      split_ifs
      · exact setPropIfEmpty_vars _ _
      · rfl
    rw [hvars, (choose_gralloc (chooseCard d s)).gralloc, (chooseCard_vars s).1]

theorem setComposer_settles {s : Boot}
    (h : d.accepts "ro.hardware.hwcomposer" "" s.vars.hwc = true) :
    (guarded (fun s => s.vars.hwc ≠ "")
        (setPropIfEmpty d "ro.hardware.hwcomposer" Variables.hwc) s).props
      "ro.hardware.hwcomposer" = firstSet [s.props "ro.hardware.hwcomposer", s.vars.hwc] := by
  unfold guarded branch
  split_ifs with hset
  · exact setPropIfEmpty_settles h
  · have hnone : s.vars.hwc = "" := by simpa using hset
    rw [hnone, firstSet_none]
    rfl

/-- The property of the composer is set then. -/
theorem beforeBackend_composer {s : Boot}
    (h : d.accepts "ro.hardware.hwcomposer" "" (firstSet [s.vars.hwc, composerOf d.gpu]) = true) :
    (beforeBackend d s).props "ro.hardware.hwcomposer" =
      firstSet [s.props "ro.hardware.hwcomposer", firstSet [s.vars.hwc, composerOf d.gpu]] := by
  have hprops : (choose (grallocArms d) (chooseCard d s)).props "ro.hardware.hwcomposer" =
      s.props "ro.hardware.hwcomposer" :=
    choose_keeps (by decide) _ (chooseCard_keeps (by decide) s rfl)
  have hvars : (choose (grallocArms d) (chooseCard d s)).vars.hwc =
      firstSet [s.vars.hwc, composerOf d.gpu] := by
    rw [(choose_gralloc (chooseCard d s)).hwc, (chooseCard_vars s).2]
  rw [← hprops, ← hvars]
  rw [← hvars] at h
  exact setComposer_settles h

/-- Behind that the two properties keep what they have. -/
theorem initGraphics_settles {s : Boot}
    (hgralloc : d.accepts "ro.hardware.gralloc" ""
      (firstSet [s.vars.gralloc, backendOf d.gpu, "gbm"]) = true)
    (hhwc : d.accepts "ro.hardware.hwcomposer" ""
      (firstSet [s.vars.hwc, composerOf d.gpu]) = true) :
    (initGraphics d s).props "ro.hardware.gralloc" =
        firstSet [s.props "ro.hardware.gralloc", s.vars.gralloc, backendOf d.gpu, "gbm"] ∧
      (firstSet [s.props "ro.hardware.hwcomposer", s.vars.hwc, composerOf d.gpu] ≠ "" →
        (initGraphics d s).props "ro.hardware.hwcomposer" =
          firstSet [s.props "ro.hardware.hwcomposer", s.vars.hwc, composerOf d.gpu]) := by
  obtain ⟨hprops, hvars⟩ := beforeBackend_spec (d := d) s
  have hcomposer := beforeBackend_composer hhwc
  have hword : Word.orElse Variables.gralloc "gbm" (beforeBackend d s).vars =
      firstSet [s.vars.gralloc, backendOf d.gpu, "gbm"] := by
    rw [firstSet_cons, ← firstSet_assoc, ← hvars, firstSet_pair]
    rfl
  have hdefault : (setPropIfEmpty d "ro.hardware.gralloc" (Word.orElse Variables.gralloc "gbm")
      (beforeBackend d s)).props "ro.hardware.gralloc" = _ :=
    setPropIfEmpty_settles (by rw [hword]; exact hgralloc)
  rw [hprops, hword, ← firstSet_cons] at hdefault
  rw [← firstSet_cons] at hcomposer
  have hkept : Keeps (Holds "ro.hardware.hwcomposer"
      ((beforeBackend d s).props "ro.hardware.hwcomposer"))
      (setPropIfEmpty d "ro.hardware.gralloc" (Word.orElse Variables.gralloc "gbm")) :=
    Keeps.guarded (keeps_setProperty (by decide))
  have hset : firstSet [s.props "ro.hardware.gralloc", s.vars.gralloc, backendOf d.gpu, "gbm"] ≠
      "" := by
    simp only [firstSet]
    split_ifs <;> simp_all
  rw [initGraphics_backend]
  constructor
  · exact afterBackend_keeps (by decide) (by decide) hset _ hdefault
  · intro hcomposerSet
    rw [← hcomposer] at hcomposerSet ⊢
    exact afterBackend_keeps (by decide) (by decide) hcomposerSet _ (hkept _ rfl)

end Backend

section Card

/-- No card is suitable before this one, at an earlier attempt or before it at its own. -/
structure First (d : Device) (hwaccel : String) (attempt card : Nat) : Prop where
  attempt_lt : attempt < 20
  card_lt : card < 10
  fits : suitable d hwaccel attempt card = true
  before : ∀ other < card, suitable d hwaccel attempt other = false
  earlier : ∀ attempt' < attempt, ∀ other < 10, suitable d hwaccel attempt' other = false

/-- The first result of a search along a range. -/
theorem findSome?_range {α : Type*} {f : Nat → Option α} {n k : Nat} {a : α} (hlt : k < n)
    (hfound : f k = some a) (hbefore : ∀ j < k, f j = none) :
    (List.range n).findSome? f = some a := by
  induction n with
  | zero => exact absurd hlt (Nat.not_lt_zero k)
  | succ n ih =>
      rw [List.range_succ, List.findSome?_append]
      rcases Nat.lt_succ_iff_lt_or_eq.mp hlt with hless | rfl
      · rw [ih hless, Option.some_or]
      · have hnone : (List.range k).findSome? f = none :=
          List.findSome?_eq_none_iff.mpr fun j hj => hbefore j (List.mem_range.mp hj)
        rw [hnone, Option.none_or]
        simp [hfound]

theorem searchCard_first {hwaccel : String} {attempt card : Nat}
    (h : First d hwaccel attempt card) : searchCard d hwaccel = some card := by
  have hfound : (List.range 10).find? (suitable d hwaccel attempt) = some card := by
    refine List.find?_range_eq_some.mpr
      ⟨h.fits, List.mem_range.mpr h.card_lt, fun other hother => ?_⟩
    rw [h.before other hother]
    rfl
  refine findSome?_range h.attempt_lt hfound fun attempt' hattempt => ?_
  refine List.find?_eq_none.mpr fun other hother => ?_
  rw [h.earlier attempt' hattempt other (List.mem_range.mp hother)]
  exact Bool.false_ne_true

theorem searchCard_none {hwaccel : String}
    (h : ∀ attempt < 20, ∀ card < 10, suitable d hwaccel attempt card = false) :
    searchCard d hwaccel = none := by
  refine List.findSome?_eq_none_iff.mpr fun attempt hattempt => ?_
  refine List.find?_eq_none.mpr fun card hcard => ?_
  rw [h attempt (List.mem_range.mp hattempt) card (List.mem_range.mp hcard)]
  exact Bool.false_ne_true

/-- The card that is chosen. -/
def chosenCard (d : Device) (vars : Variables) : String :=
  if vars.gpuOverride = "" then
    (searchCard d vars.hwaccel).elim "card0" fun card => "card" ++ toString card
  else vars.gpuOverride

theorem chooseCard_eq (s : Boot) :
    chooseCard d s =
      setProperty d "vendor.hwc.drm.device" (fun vars => "/dev/dri/" ++ vars.gpuOverride)
        (setProperty d "gralloc.gbm.device" (fun vars => "/dev/dri/" ++ vars.gpuOverride)
          { s with vars := { s.vars with gpuOverride := chosenCard d s.vars } }) := by
  unfold chooseCard chosenCard
  simp only [seq, guarded, branch, decide_eq_true_eq]
  congr 2
  by_cases hopen : s.vars.gpuOverride = ""
  · rw [if_pos hopen, if_pos hopen]
    cases hcard : searchCard d s.vars.hwaccel with
    | none => simp [assign, hcard, Word.orElse, hopen]
    | some card => simp [assign, hcard, Word.orElse]
  · rw [if_neg hopen, if_neg hopen]
    simp [assign, Word.orElse, hopen]

/-- Init takes the device of the card over what its properties have: they are no `ro.` ones. -/
def TakesCard (d : Device) (s : Boot) : Prop :=
  ∀ name ∈ cardProperties,
    d.accepts name (s.props name) ("/dev/dri/" ++ chosenCard d s.vars) = true

theorem chooseCard_props {s : Boot} (h : TakesCard d s) :
    ∀ name ∈ cardProperties, (chooseCard d s).props name = "/dev/dri/" ++ chosenCard d s.vars := by
  rw [chooseCard_eq]
  generalize hset : setProperty d "gralloc.gbm.device" (fun vars => "/dev/dri/" ++ vars.gpuOverride)
    { s with vars := { s.vars with gpuOverride := chosenCard d s.vars } } = s'
  have hvars : s'.vars.gpuOverride = chosenCard d s.vars := by
    rw [← hset, setProperty_vars]
  have hfirst : s'.props "gralloc.gbm.device" = "/dev/dri/" ++ chosenCard d s.vars := by
    rw [← hset]
    exact setprop_takes (h _ (by decide))
  have hsecond : s'.props "vendor.hwc.drm.device" = s.props "vendor.hwc.drm.device" := by
    rw [← hset]
    exact keeps_setProperty (by decide) _ rfl
  intro name hname
  simp only [cardProperties, List.mem_cons, List.not_mem_nil, or_false] at hname
  rcases hname with rfl | rfl
  · exact keeps_setProperty (by decide) _ hfirst
  · rw [← hvars]
    refine setprop_takes ?_
    rw [hsecond, hvars]
    exact h _ (by decide)

theorem initGraphics_card {s : Boot} (h : TakesCard d s) :
    ∀ name ∈ cardProperties,
      (initGraphics d s).props name = "/dev/dri/" ++ chosenCard d s.vars := by
  intro name hname
  have hother : name ∉ laterWrites ∧ name ∉ allocatorProperties := by
    have hall : ∀ name ∈ cardProperties, name ∉ laterWrites ∧ name ∉ allocatorProperties := by
      decide
    exact hall name hname
  have hset : "/dev/dri/" ++ chosenCard d s.vars ≠ "" := by simp
  have hkeeps : Keeps (Holds name ("/dev/dri/" ++ chosenCard d s.vars)) (afterCard d) :=
    (afterCard_built d).keeps fun part hpart => hpart.keeps hother.1 hother.2 hset
  rw [initGraphics_eq]
  exact hkeeps _ (chooseCard_props h name hname)

end Card

/-- Init takes what the script writes: the backend and the composer where the property has
no value, and the device of the card. -/
structure Takes (d : Device) (s : Boot) : Prop where
  gralloc : d.accepts "ro.hardware.gralloc" ""
    (firstSet [s.vars.gralloc, backendOf d.gpu, "gbm"]) = true
  composer : d.accepts "ro.hardware.hwcomposer" ""
    (firstSet [s.vars.hwc, composerOf d.gpu]) = true
  card : TakesCard d s

/-- What the script leaves where nothing else was chosen before. -/
structure Precedence (d : Device) (s s' : Boot) : Prop where
  gralloc : s'.props "ro.hardware.gralloc" =
    firstSet [s.props "ro.hardware.gralloc", s.vars.gralloc, backendOf d.gpu, "gbm"]
  composer : firstSet [s.props "ro.hardware.hwcomposer", s.vars.hwc, composerOf d.gpu] ≠ "" →
    s'.props "ro.hardware.hwcomposer" =
      firstSet [s.props "ro.hardware.hwcomposer", s.vars.hwc, composerOf d.gpu]
  card : s.vars.gpuOverride ≠ "" →
    ∀ name ∈ cardProperties, s'.props name = "/dev/dri/" ++ s.vars.gpuOverride
  firstCard : s.vars.gpuOverride = "" → ∀ attempt card, First d s.vars.hwaccel attempt card →
    ∀ name ∈ cardProperties, s'.props name = "/dev/dri/card" ++ toString card
  noCard : s.vars.gpuOverride = "" →
    (∀ attempt < 20, ∀ card < 10, suitable d s.vars.hwaccel attempt card = false) →
      ∀ name ∈ cardProperties, s'.props name = "/dev/dri/card0"

/-- On every device and with every command line the script leaves what is there, then takes
the command line and then what suits the device, and the card that is ready first. -/
theorem initGraphics_precedence (d : Device) (s : Boot) (h : Takes d s) :
    Precedence d s (initGraphics d s) := by
  obtain ⟨hgralloc, hcomposer⟩ := initGraphics_settles h.gralloc h.composer
  have hcard := initGraphics_card h.card
  refine ⟨hgralloc, hcomposer, fun hnamed => ?_, fun hopen attempt card hfirst => ?_,
    fun hopen hnone => ?_⟩
  · rw [chosenCard, if_neg hnamed] at hcard
    exact hcard
  · rw [chosenCard, if_pos hopen, searchCard_first hfirst] at hcard
    intro name hname
    rw [hcard name hname, Option.elim_some, ← String.append_assoc]
    rfl
  · rw [chosenCard, if_pos hopen, searchCard_none hnone] at hcard
    exact hcard

/-- The virtual machine's card is there at the second attempt. -/
theorem initGraphics_precedence_virtio :
    Precedence virtioDevice (bootWith "" "") (initGraphics virtioDevice (bootWith "" "")) :=
  initGraphics_precedence virtioDevice (bootWith "" "")
    ⟨by decide +kernel, by decide +kernel, by unfold TakesCard; decide +kernel⟩

end AndroidX86Tv.Graphics
