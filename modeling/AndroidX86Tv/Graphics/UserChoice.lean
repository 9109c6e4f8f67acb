import AndroidX86Tv.Graphics.Triggers

/-!
# The user's choice stands (init.los_codec.rc, init.sh)

What the triggers set for a choice on the settings screen is not changed by the script,
whatever the device, the command line of the kernel and the state of the graphics cards.
-/

namespace AndroidX86Tv.Graphics

open Commands

/-- The properties that name the device of the card. -/
def cardProperties : List String := ["gralloc.gbm.device", "vendor.hwc.drm.device"]

/-- The properties that the script sets behind those, whether they have a value or not. -/
def laterWrites : List String :=
  ["ro.vendor.hwc.drm.present_fence_not_reliable",
    "vendor.hwc.drm.avoid_using_alpha_bits_for_framebuffer", "vendor.hwc.drm.disable_planes",
    "debug.drm.mode.force", "debug.egl.trace", "debug.sf.hwc_service_name",
    "vendor.hwcomposer.planes.enabling", "vendor.hwcomposer.planes.num",
    "vendor.hwcomposer.preferred.mode.limit", "vendor.hwcomposer.connector.id",
    "vendor.hwcomposer.mode.id", "vendor.hwcomposer.connector.multi_refresh_rate",
    "debug.ffmpeg.loglevel", "debug.ffmpeg-codec2.deinterlace",
    "debug.ffmpeg-codec2.deinterlace.vaapi", "persist.ffmpeg-codec2.pixel_format",
    "ro.hardware.vulkan"]

def scriptWrites : List String := cardProperties ++ laterWrites

/-- The services of the composer. -/
def composerServices : List String :=
  ["vendor.hwcomposer-2-1.drmfb", "vendor.hwcomposer-2-1-clone", "vendor.hwcomposer-2-4"]

/-- A part of the script that sets one of the properties, or variables. -/
inductive Plain (d : Device) (names : List String) : (Boot → Boot) → Prop where
  | assigns (change : Variables → Variables) : Plain d names (assign change)
  | sets {name : String} (value : Word) (h : name ∈ names) :
      Plain d names (setProperty d name value)

/-- A part of the script. -/
inductive Part (d : Device) (names : List String) : (Boot → Boot) → Prop where
  | plain {command : Boot → Boot} (h : Plain d names command) : Part d names command
  | defaults (name : String) (value : Word) : Part d names (setPropIfEmpty d name value)
  | starts {service : String} (h : service ∈ composerServices) : Part d names (start service)
  | allocator : Part d names (setAllocator d)
  | codecs : Part d names (mountCodecs d)

section Script

variable (d : Device) {names : List String}

theorem assigns_plain (change : Variables → Variables) :
    BuiltFrom (Plain d names) (assign change) := .leaf (.assigns change)

theorem sets_plain {name : String} (value : Word) (h : name ∈ names) :
    BuiltFrom (Plain d names) (setProperty d name value) := .leaf (.sets value h)

theorem assigns_built (change : Variables → Variables) :
    BuiltFrom (Part d names) (assign change) := .leaf (.plain (.assigns change))

theorem sets_built {name : String} (value : Word) (h : name ∈ names) :
    BuiltFrom (Part d names) (setProperty d name value) := .leaf (.plain (.sets value h))

theorem chooseCard_plain : BuiltFrom (Plain d cardProperties) (chooseCard d) :=
  .cons (.guarded (assigns_plain d _)) <|
  .cons (assigns_plain d _) <|
  .cons (sets_plain d _ (by decide)) <|
  .cons (sets_plain d _ (by decide)) .nil

theorem grallocArms_plain : ∀ arm ∈ grallocArms d, BuiltFrom (Plain d laterWrites) arm.body := by
  simp only [grallocArms, List.forall_mem_cons]
  refine ⟨?_, ?_, ?_, ?_, ?_, ?_, List.forall_mem_nil _⟩
  · exact .cons (assigns_plain d _) (.cons (assigns_plain d _)
      (.cons (sets_plain d _ (by decide)) .nil))
  · exact .cons (assigns_plain d _) (.cons (assigns_plain d _) .nil)
  · exact .cons (assigns_plain d _) (.cons (.guarded (.cons (sets_plain d _ (by decide))
      (.cons (sets_plain d _ (by decide)) .nil))) .nil)
  · exact .cons (assigns_plain d _) (.cons (assigns_plain d _) .nil)
  · exact .guarded (assigns_plain d _)
  · exact assigns_plain d _

theorem setDrmMode_built : BuiltFrom (Part d laterWrites) (setDrmMode d) :=
  .cons (assigns_built d _) (.cons (.guarded (sets_built d _ (by decide))) .nil)

/-- What `init_hal_gralloc` does behind the defaults of the properties. -/
def endGralloc : Boot → Boot :=
  seq
    [setDrmMode d, setAllocator d,
      guarded (fun s => s.vars.debug ≠ "") (setProperty d "debug.egl.trace" "error")]

theorem endGralloc_built : BuiltFrom (Part d laterWrites) (endGralloc d) :=
  .cons (setDrmMode_built d) <|
  .cons (.leaf .allocator) <|
  .cons (.guarded (sets_built d _ (by decide))) .nil

theorem initHalHwcomposer_built : BuiltFrom (Part d laterWrites) (initHalHwcomposer d) :=
  .cons (.guarded (assigns_built d _)) <|
  .cons
    (.branch
      (.cons (sets_built d _ (by decide)) (.cons (.leaf (.starts (by decide))) .nil))
      (.branch
        (.cons (sets_built d _ (by decide)) (.cons (.leaf (.starts (by decide))) .nil))
        (.cons (sets_built d _ (by decide)) (.cons (.leaf (.starts (by decide))) .nil)))) <|
  .cons
    (.guarded <|
      .cons (sets_built d _ (by decide)) <|
      .cons (sets_built d _ (by decide)) <|
      .cons (sets_built d _ (by decide)) <|
      .cons (sets_built d _ (by decide)) <|
      .cons (sets_built d _ (by decide)) <|
      .cons (sets_built d _ (by decide)) .nil)
    .nil

theorem setPixelFormat_built : BuiltFrom (Part d laterWrites) (setPixelFormat d) := by
  apply BuiltFrom.choose
  simp only [List.forall_mem_cons]
  refine ⟨?_, ?_, ?_, List.forall_mem_nil _⟩
  · exact sets_built d _ (by decide)
  · exact .branch (sets_built d _ (by decide)) (sets_built d _ (by decide))
  · exact sets_built d _ (by decide)

theorem initHalMedia_built : BuiltFrom (Part d laterWrites) (initHalMedia d) :=
  .cons (.guarded (sets_built d _ (by decide))) <|
  .cons (.branch (.leaf (.defaults _ _)) (.leaf (.defaults _ _))) <|
  .cons (.guarded (sets_built d _ (by decide))) <|
  .cons (.guarded (sets_built d _ (by decide))) <|
  .cons (.branch (.leaf (.defaults _ _)) (.leaf (.defaults _ _))) <|
  .cons (setPixelFormat_built d) <|
  .cons (.leaf .codecs) .nil

theorem vulkanArms_built : ∀ arm ∈ vulkanArms d, BuiltFrom (Part d laterWrites) arm.body := by
  simp only [vulkanArms, List.forall_mem_cons]
  refine ⟨?_, ?_, ?_, ?_, ?_, ?_, List.forall_mem_nil _⟩
  · exact .branch (assigns_built d _) (assigns_built d _)
  · exact assigns_built d _
  · exact assigns_built d _
  · exact assigns_built d _
  · exact assigns_built d _
  · exact sets_built d _ (by decide)

theorem initHalVulkan_built : BuiltFrom (Part d laterWrites) (initHalVulkan d) :=
  .branch (.choose (vulkanArms_built d)) (sets_built d _ (by decide))

/-- The script behind the choice of the card. -/
def afterCard : Boot → Boot :=
  seq
    [choose (grallocArms d),
      guarded (fun s => s.vars.hwc ≠ "") (setPropIfEmpty d "ro.hardware.hwcomposer" Variables.hwc),
      setPropIfEmpty d "ro.hardware.gralloc" (Word.orElse Variables.gralloc "gbm"),
      endGralloc d, initHalHwcomposer d, initHalMedia d, initHalVulkan d]

theorem initGraphics_eq (s : Boot) : initGraphics d s = afterCard d (chooseCard d s) := by
  simp only [initGraphics, initHalGralloc, afterCard, endGralloc, seq]

theorem afterCard_built : BuiltFrom (Part d laterWrites) (afterCard d) :=
  .cons ((BuiltFrom.choose (grallocArms_plain d)).mono fun _ => .plain) <|
  .cons (.guarded (.leaf (.defaults _ _))) <|
  .cons (.leaf (.defaults _ _)) <|
  .cons (endGralloc_built d) <|
  .cons (initHalHwcomposer_built d) <|
  .cons (initHalMedia_built d) <|
  .cons (initHalVulkan_built d) .nil

variable {d} {names' : List String} {command : Boot → Boot}

theorem Plain.mono (h : Plain d names command) (hnames : names ⊆ names') :
    Plain d names' command := by
  cases h with
  | assigns change => exact .assigns change
  | sets value h => exact .sets value (hnames h)

theorem Part.mono (h : Part d names command) (hnames : names ⊆ names') :
    Part d names' command := by
  cases h with
  | plain h => exact .plain (h.mono hnames)
  | defaults name value => exact .defaults name value
  | starts h => exact .starts h
  | allocator => exact .allocator
  | codecs => exact .codecs

/-- What all parts of the script keep the script keeps. -/
theorem initGraphics_keeps {P : Boot → Prop}
    (hparts : ∀ part, Part d scriptWrites part → Keeps P part) : Keeps P (initGraphics d) := by
  intro s hs
  rw [initGraphics_eq]
  refine (afterCard_built d).keeps (fun part hpart => ?_) _
    ((chooseCard_plain d).keeps (fun part hpart => ?_) s hs)
  · exact hparts part (hpart.mono (List.subset_append_right _ _))
  · exact hparts part (.plain (hpart.mono (List.subset_append_left _ _)))

end Script

section Parts

variable {d : Device} {name held : String} {names : List String} {command : Boot → Boot}

/-- The properties for the interface of the allocator. -/
def allocatorProperties : List String := ["debug.ui.default_mapper", "debug.ui.default_gralloc"]

theorem setAllocator_keeps_other (h : name ∉ allocatorProperties) :
    Keeps (Holds name held) (setAllocator d) := by
  have hmapper : "debug.ui.default_mapper" ≠ name := fun heq => h (heq ▸ by decide)
  have hgralloc : "debug.ui.default_gralloc" ≠ name := fun heq => h (heq ▸ by decide)
  have hskip : Keeps (Holds name held) (seq []) := fun _ hs => hs
  apply Keeps.branch
  · exact Triple.seq_cons (keeps_setProperty hmapper)
      (Triple.seq_cons (keeps_setProperty hgralloc) hskip)
  · exact Triple.seq_cons (keeps_setProperty hmapper)
      (Triple.seq_cons (keeps_setProperty hgralloc)
        (Triple.seq_cons (holds_keeps_start _) hskip))

theorem setAllocator_mounts (s : Boot) : (setAllocator d s).mounts = s.mounts := by
  have hset : ∀ (name : String) (value : Word) (s : Boot),
      (setProperty d name value s).mounts = s.mounts := fun _ _ => sets_setProperty.mounts
  unfold setAllocator branch
  split_ifs
  · simp only [seq, hset]
  · simp only [seq, hset, start]

/-- The file for the engine that suits the device. -/
def engineFile (gpu : String) : String :=
  if endsIn "i915" gpu || endsIn "xe" gpu then codecsIntel else codecsFfmpeg

/-- The script mounts a file where the choice is left to it. -/
theorem mountCodecs_eq (s : Boot) :
    mountCodecs d s =
      if s.props "persist.sys.los.codec2-impl" = "" ∨
          s.props "persist.sys.los.codec2-impl" = "auto" then
        { s with mounts := s.mounts ++ [(engineFile d.gpu, codecsFile)] }
      else s := by
  unfold mountCodecs guarded branch engineFile
  simp only [choose, fallThrough, Bool.or_eq_true, decide_eq_true_eq]
  refine if_congr Iff.rfl ?_ rfl
  by_cases hintel : endsIn "i915" d.gpu = true ∨ endsIn "xe" d.gpu = true
  · rw [if_pos hintel, if_pos hintel, if_neg Bool.false_ne_true]
    rfl
  · rw [if_neg hintel, if_neg hintel, if_pos trivial, if_neg Bool.false_ne_true]
    rfl

theorem mountCodecs_frame (s : Boot) :
    (mountCodecs d s).props = s.props ∧ (mountCodecs d s).started = s.started := by
  rw [mountCodecs_eq]
  split_ifs
  · exact ⟨rfl, rfl⟩
  · exact ⟨rfl, rfl⟩

theorem Plain.keeps (h : Plain d names command) (hname : name ∉ names) :
    Keeps (Holds name held) command := by
  cases h with
  | assigns change => exact holds_keeps_assign change
  | sets value h => exact keeps_setProperty fun heq => hname (heq ▸ h)

theorem Plain.onlySets (h : Plain d names command) : Sets command := by
  cases h with
  | assigns change => exact sets_assign change
  | sets => exact sets_setProperty

/-- A property that the script only gives a default keeps a value that it has. -/
theorem Part.keeps (h : Part d names command) (hname : name ∉ names)
    (hother : name ∉ allocatorProperties) (hheld : held ≠ "") :
    Keeps (Holds name held) command := by
  cases h with
  | plain h => exact h.keeps hname
  | defaults other value => exact keeps_setPropIfEmpty hheld
  | starts => exact holds_keeps_start _
  | allocator => exact setAllocator_keeps_other hother
  | codecs =>
      intro s hs
      rw [Holds, (mountCodecs_frame s).1]
      exact hs

end Parts

section Allocator

variable {d : Device} {version : String} {running : String → Prop}

/-- The interface of the allocator that a backend has, and the services that run, but for
those of the composer. -/
structure Allocates (version : String) (running : String → Prop) (s : Boot) : Prop where
  mapper : Holds "debug.ui.default_mapper" version s
  gralloc : Holds "debug.ui.default_gralloc" version s
  services : ∀ service ∉ composerServices, service ∈ s.started ↔ running service

theorem allocates_of_sets {command : Boot → Boot} (hsets : Sets command)
    (hkeeps : ∀ name ∈ allocatorProperties, Keeps (Holds name version) command) :
    Keeps (Allocates version running) command := by
  intro s hs
  refine ⟨hkeeps _ (by decide) s hs.mapper, hkeeps _ (by decide) s hs.gralloc, ?_⟩
  rw [hsets.started s]
  exact hs.services

theorem start_allocates {service : String}
    (h : service ∈ composerServices ∨ running service) :
    Keeps (Allocates version running) (start service) := by
  intro s hs
  refine ⟨hs.mapper, hs.gralloc, fun other hother => ?_⟩
  rw [start, List.mem_append, List.mem_singleton, hs.services other hother]
  refine ⟨fun hor => hor.elim id fun heq => ?_, Or.inl⟩
  rw [heq] at hother ⊢
  exact h.resolve_left hother

/-- The script follows the interface that is set: it is one of the two, and for the older
one the service runs. -/
theorem setAllocator_allocates
    (h : version = "4" ∨ version = "2" ∧ running "vendor.gralloc-2-0") :
    Keeps (Allocates version running) (setAllocator d) := by
  have hset : ∀ name, Keeps (Allocates version running) (setProperty d name version) := fun name =>
    allocates_of_sets sets_setProperty fun _ _ => keeps_setProperty_same
  have hskip : Keeps (Allocates version running) (seq []) := fun _ hs => hs
  apply Triple.branch
  · rintro s ⟨hs, hfour⟩
    have hversion : version = "4" := hs.gralloc.symm.trans (of_decide_eq_true hfour)
    rw [hversion] at hset hs hskip ⊢
    exact Triple.seq_cons (hset _) (Triple.seq_cons (hset _) hskip) s hs
  · rintro s ⟨hs, hfour⟩
    have hversion : version ≠ "4" := fun heq =>
      of_decide_eq_false hfour (hs.gralloc.trans heq)
    obtain ⟨htwo, hruns⟩ := h.resolve_left hversion
    rw [htwo] at hset hs hskip ⊢
    exact Triple.seq_cons (hset _) (Triple.seq_cons (hset _)
      (Triple.seq_cons (start_allocates (Or.inr hruns)) hskip)) s hs

theorem initGraphics_allocates
    (h : version = "4" ∨ version = "2" ∧ running "vendor.gralloc-2-0") :
    Keeps (Allocates version running) (initGraphics d) := by
  have hheld : version ≠ "" := by
    rcases h with rfl | ⟨rfl, -⟩
    · decide
    · decide
  refine initGraphics_keeps fun part hpart => ?_
  have hdisjoint : ∀ name ∈ allocatorProperties, name ∉ scriptWrites := by decide
  cases hpart with
  | plain h => exact allocates_of_sets h.onlySets fun name hname => h.keeps (hdisjoint name hname)
  | defaults other value =>
      exact allocates_of_sets sets_setPropIfEmpty fun _ _ => keeps_setPropIfEmpty hheld
  | starts hmem => exact start_allocates (Or.inl hmem)
  | allocator => exact setAllocator_allocates h
  | codecs =>
      intro s hs
      obtain ⟨hprops, hstarted⟩ := mountCodecs_frame (d := d) s
      refine ⟨?_, ?_, ?_⟩
      · rw [Holds, hprops]
        exact hs.mapper
      · rw [Holds, hprops]
        exact hs.gralloc
      · rw [hstarted]
        exact hs.services

end Allocator

section Engine

variable {d : Device} {engine : String} {mounts : List (String × String)}

/-- The engine is chosen, and these files are mounted. -/
structure Mounted (engine : String) (mounts : List (String × String)) (s : Boot) : Prop where
  choice : Holds "persist.sys.los.codec2-impl" engine s
  mounts : s.mounts = mounts

theorem initGraphics_mounted (hset : engine ≠ "") (hauto : engine ≠ "auto") :
    Keeps (Mounted engine mounts) (initGraphics d) := by
  refine initGraphics_keeps fun part hpart => ?_
  have hkept : "persist.sys.los.codec2-impl" ∉ scriptWrites := by decide
  cases hpart with
  | plain h =>
      intro s hs
      refine ⟨h.keeps hkept s hs.choice, ?_⟩
      rw [h.onlySets.mounts s, hs.mounts]
  | defaults other value =>
      intro s hs
      refine ⟨keeps_setPropIfEmpty hset s hs.choice, ?_⟩
      rw [sets_setPropIfEmpty.mounts s, hs.mounts]
  | starts => exact fun s hs => ⟨hs.choice, hs.mounts⟩
  | allocator =>
      intro s hs
      exact ⟨setAllocator_keeps_other (by decide) s hs.choice,
        (setAllocator_mounts s).trans hs.mounts⟩
  | codecs =>
      intro s hs
      have hchoice : s.props "persist.sys.los.codec2-impl" = engine := hs.choice
      rw [mountCodecs_eq, hchoice, if_neg (not_or.mpr ⟨hset, hauto⟩)]
      exact hs

end Engine

section Boot

variable {d : Device} {s : Boot} {action : Action}

/-- Then the script runs on what the triggers leave. -/
theorem TriggersFirst.boot {order : List InitStep} (h : TriggersFirst order) :
    ∃ actions : List Action, actions.Perm losCodecActions ∧
      ∀ (d : Device) (s : Boot),
        bootGraphics d order s = initGraphics d (losCodec d actions s) := by
  obtain ⟨actions, hactions, rfl⟩ := h
  refine ⟨actions, hactions, fun d s => ?_⟩
  rw [bootGraphics, List.map_append, seq_append, List.map_map]
  rfl

/-- A backend has a version of the interface, and a service for it. -/
structure IsBackend (action : Action) (version own : String) : Prop where
  service : action.service = some own
  mapper : ("debug.ui.default_mapper", version) ∈ action.sets
  gralloc : ("debug.ui.default_gralloc", version) ∈ action.sets
  known : version = "4" ∨ version = "2" ∧ own = "vendor.gralloc-2-0"
  alone : ∀ set ∈ action.sets, set.1 ∈ allocatorProperties → set.2 = version

theorem isBackend_of_mem (h : action ∈ backendActions) :
    ∃ version own, IsBackend action version own := by
  simp only [backendActions, List.mem_cons, List.not_mem_nil, or_false] at h
  rcases h with rfl | rfl | rfl | rfl | rfl
  · exact ⟨"2", "vendor.gralloc-2-0", rfl, by decide, by decide, .inr ⟨rfl, rfl⟩, by decide⟩
  · exact ⟨"2", "vendor.gralloc-2-0", rfl, by decide, by decide, .inr ⟨rfl, rfl⟩, by decide⟩
  · exact ⟨"4", "vendor.graphics.allocator-4-0-arcvm", rfl, by decide, by decide, .inl rfl,
      by decide⟩
  · exact ⟨"4", "vendor.graphics.allocator-4-0-gbm_mesa", rfl, by decide, by decide, .inl rfl,
      by decide⟩
  · exact ⟨"4", "vendor.graphics.allocator-4-0-nouveau", rfl, by decide, by decide, .inl rfl,
      by decide⟩

section Order

variable {actions : List Action} (hactions : actions.Perm losCodecActions)

include hactions

/-- The backend that was chosen stays: its version of the interface, and its service. -/
theorem script_allocates (h : Fresh d s) (hmem : action ∈ losCodecActions)
    (htriggered : action.triggered s = true) {version own : String}
    (hbackend : IsBackend action version own) :
    Allocates version (· ∈ (losCodec d actions s).started)
      (initGraphics d (losCodec d actions s)) := by
  have hstarted : version = "2" → own = "vendor.gralloc-2-0" →
      "vendor.gralloc-2-0" ∈ (losCodec d actions s).started := by
    rintro - rfl
    have hruns := losCodec_started hactions h hmem htriggered hbackend.service hmem hbackend.service
    exact hruns.mpr rfl
  have hkeeps : Keeps (Allocates version (· ∈ (losCodec d actions s).started)) (initGraphics d) :=
    initGraphics_allocates (hbackend.known.imp id fun hknown =>
      ⟨hknown.1, hstarted hknown.1 hknown.2⟩)
  have hmapper : (losCodec d actions s).props "debug.ui.default_mapper" = version :=
    losCodec_sets hactions h hmem htriggered hbackend.mapper
  have hgralloc : (losCodec d actions s).props "debug.ui.default_gralloc" = version :=
    losCodec_sets hactions h hmem htriggered hbackend.gralloc
  exact hkeeps (losCodec d actions s) ⟨hmapper, hgralloc, fun _ _ => Iff.rfl⟩

/-- What a trigger sets stays set. -/
theorem script_sets (h : Fresh d s) (hmem : action ∈ losCodecActions)
    (htriggered : action.triggered s = true) {name value : String}
    (hset : (name, value) ∈ action.sets) :
    (initGraphics d (losCodec d actions s)).props name = value := by
  have hkept : name ∉ scriptWrites ∧ value ≠ "" := by
    have hall : ∀ action ∈ losCodecActions, ∀ set ∈ action.sets,
        set.1 ∉ scriptWrites ∧ set.2 ≠ "" := by decide +kernel
    exact hall action hmem (name, value) hset
  by_cases hallocator : name ∈ allocatorProperties
  · have hbackends : ∀ action ∈ losCodecActions, ∀ set ∈ action.sets,
        set.1 ∈ allocatorProperties → action ∈ backendActions := by decide +kernel
    obtain ⟨version, own, hbackend⟩ :=
      isBackend_of_mem (hbackends action hmem (name, value) hset hallocator)
    have hallocates := script_allocates hactions h hmem htriggered hbackend
    have hversion : value = version := hbackend.alone (name, value) hset hallocator
    rw [hversion]
    simp only [allocatorProperties, List.mem_cons, List.not_mem_nil, or_false] at hallocator
    rcases hallocator with hname | hname
    · rw [hname]
      exact hallocates.mapper
    · rw [hname]
      exact hallocates.gralloc
  · have hkeeps : Keeps (Holds name value) (initGraphics d) :=
      initGraphics_keeps fun part hpart => hpart.keeps hkept.1 hallocator hkept.2
    exact hkeeps (losCodec d actions s) (losCodec_sets hactions h hmem htriggered hset)

/-- No service but that of the trigger runs for the allocator. -/
theorem script_started (h : Fresh d s) (hmem : action ∈ losCodecActions)
    (htriggered : action.triggered s = true) {own : String} (hown : action.service = some own)
    {other : Action} (hother : other ∈ losCodecActions) {service : String}
    (hservice : other.service = some service) :
    service ∈ (initGraphics d (losCodec d actions s)).started ↔ service = own := by
  have hbackends : ∀ action ∈ losCodecActions, action.service.isSome →
      action ∈ backendActions := by decide +kernel
  have hcomposer : ∀ other ∈ losCodecActions, ∀ service ∈ other.service,
      service ∉ composerServices := by decide +kernel
  obtain ⟨version, own', hbackend⟩ := isBackend_of_mem (hbackends action hmem (by rw [hown]; rfl))
  have hallocates := script_allocates hactions h hmem htriggered hbackend
  rw [hallocates.services service (hcomposer other hother service hservice)]
  exact losCodec_started hactions h hmem htriggered hown hother hservice

/-- The file that the trigger mounts is not mounted over. -/
theorem script_mounts (hmem : action ∈ losCodecActions) (htriggered : action.triggered s = true)
    {own : String × String} (hown : action.mount = some own) :
    (initGraphics d (losCodec d actions s)).mounts = s.mounts ++ [own] := by
  have hengines : ∀ action ∈ losCodecActions, action.mount.isSome →
      action.property = "persist.sys.los.codec2-impl" ∧ action.value ≠ "" ∧
        action.value ≠ "auto" := by decide +kernel
  obtain ⟨hproperty, hset, hauto⟩ := hengines action hmem (by rw [hown]; rfl)
  have hchoice : (losCodec d actions s).props "persist.sys.los.codec2-impl" = action.value := by
    rw [← hproperty, losCodec_property hactions hmem]
    exact of_decide_eq_true htriggered
  have hmounted := initGraphics_mounted (d := d) hset hauto (losCodec d actions s)
    ⟨hchoice, losCodec_mounts hactions hmem htriggered hown⟩
  exact hmounted.mounts

end Order

/-- Where the triggers come before the script, whatever the user chose stands after it, on
every device and with every command line of the kernel: the properties, the one service for
the allocator and the engine. -/
theorem bootGraphics_keeps_choice (d : Device) (s : Boot) (order : List InitStep)
    (horder : TriggersFirst order) (h : Fresh d s) (action : Action)
    (hmem : action ∈ losCodecActions) (htriggered : action.triggered s = true) :
    (∀ name value, (name, value) ∈ action.sets →
        (bootGraphics d order s).props name = value) ∧
      (∀ own, action.service = some own → ∀ other ∈ losCodecActions,
        ∀ service, other.service = some service →
          (service ∈ (bootGraphics d order s).started ↔ service = own)) ∧
      (∀ own, action.mount = some own →
        (bootGraphics d order s).mounts = s.mounts ++ [own]) := by
  obtain ⟨actions, hactions, hboot⟩ := horder.boot
  rw [hboot]
  exact ⟨fun _ _ => script_sets hactions h hmem htriggered,
    fun _ hown _ hother _ => script_started hactions h hmem htriggered hown hother,
    fun _ => script_mounts hactions hmem htriggered⟩

/-- A virtual machine, whose card has the framebuffer of the firmware at first. -/
def virtioDevice : Device where
  gpu := "../../../../bus/virtio/drivers/virtio_gpu"
  board := ""
  product := ""
  driver attempt card :=
    if card = 0 then if attempt = 0 then some "simple-framebuffer" else some "virtio_gpu" else none
  generation _ := ""
  number _ := some 0
  accepts name old _ := !"ro.".toList.isPrefixOf name.toList || old = ""

def noVariables : Variables :=
  ⟨"", "", "", "", "", "", "", "", "", "", "", "", "", "", "", "", "", "", none, none, ""⟩

/-- The system before the triggers, with one persistent property. -/
def bootWith (property value : String) : Boot :=
  ⟨noVariables, fun name => if name = property then value else "", [], []⟩

def nouveauAction : Action :=
  ⟨"persist.sys.los.hardware.gralloc", "minigbm_nouveau",
    [("ro.hardware.gralloc", "minigbm_nouveau"), ("ro.hardware.hwcomposer", "drm_minigbm"),
      ("debug.ui.default_mapper", "4"), ("debug.ui.default_gralloc", "4")],
    some "vendor.graphics.allocator-4-0-nouveau", none⟩

/-- The triggers in the order of the file, and the script. -/
def fileOrder : List InitStep := losCodecActions.map .trigger ++ [.script]

theorem fileOrder_triggersFirst : TriggersFirst fileOrder :=
  ⟨losCodecActions, List.Perm.refl _, rfl⟩

/-- A choice that does not suit the device stands. -/
theorem bootGraphics_keeps_nouveau :
    (∀ name value, (name, value) ∈ nouveauAction.sets →
        (bootGraphics virtioDevice fileOrder (bootWith "persist.sys.los.hardware.gralloc"
          "minigbm_nouveau")).props name = value) ∧
      (∀ own, nouveauAction.service = some own → ∀ other ∈ losCodecActions,
        ∀ service, other.service = some service →
          (service ∈ (bootGraphics virtioDevice fileOrder
            (bootWith "persist.sys.los.hardware.gralloc" "minigbm_nouveau")).started ↔
              service = own)) ∧
      (∀ own, nouveauAction.mount = some own →
        (bootGraphics virtioDevice fileOrder (bootWith "persist.sys.los.hardware.gralloc"
          "minigbm_nouveau")).mounts = [] ++ [own]) :=
  bootGraphics_keeps_choice virtioDevice
    (bootWith "persist.sys.los.hardware.gralloc" "minigbm_nouveau") fileOrder
    fileOrder_triggersFirst ⟨by decide +kernel, by decide +kernel, by simp [bootWith]⟩
    nouveauAction (by decide +kernel) (by decide +kernel)

/-- With the script first the choice would be lost: the property has its value then. -/
example :
    (bootGraphics virtioDevice (.script :: losCodecActions.map .trigger)
      (bootWith "persist.sys.los.hardware.gralloc" "minigbm_nouveau")).props
        "ro.hardware.gralloc" = "minigbm_arcvm" := by
  decide +kernel

end Boot

end AndroidX86Tv.Graphics
