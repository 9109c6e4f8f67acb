import AndroidX86Tv.Graphics.Boot

/-!
# The graphics at boot (init.los_codec.rc, init.sh)

Init applies what the user chose on the settings screen, by triggers on properties. Then
`do_init` of the script chooses for the device what is left open.
-/

namespace AndroidX86Tv.Graphics

open Commands

variable (d : Device)

/-- An action of `init.los_codec.rc`: it runs if the property has the value. -/
structure Action where
  property : String
  value : String
  sets : List (String × String)
  service : Option String
  mount : Option (String × String)
  deriving DecidableEq

def codecsFile : String := "/vendor/etc/media_codecs.xml"
def codecsFfmpeg : String := "/vendor/etc/media_codecs/codecs_ffmpeg.xml"
def codecsIntel : String := "/vendor/etc/media_codecs/codecs_intel.xml"

/-- The actions for the backend of gralloc and of the composer. -/
def backendActions : List Action :=
  [⟨"persist.sys.los.hardware.gralloc", "minigbm",
      [("ro.hardware.gralloc", "minigbm"), ("ro.hardware.hwcomposer", "drm_minigbm"),
        ("debug.ui.default_mapper", "2"), ("debug.ui.default_gralloc", "2")],
      some "vendor.gralloc-2-0", none⟩,
    ⟨"persist.sys.los.hardware.gralloc", "gbm",
      [("ro.hardware.gralloc", "gbm"), ("ro.hardware.hwcomposer", "drm"),
        ("debug.ui.default_mapper", "2"), ("debug.ui.default_gralloc", "2")],
      some "vendor.gralloc-2-0", none⟩,
    ⟨"persist.sys.los.hardware.gralloc", "minigbm_arcvm",
      [("ro.hardware.gralloc", "minigbm_arcvm"), ("ro.hardware.hwcomposer", "drm_minigbm"),
        ("debug.ui.default_mapper", "4"), ("debug.ui.default_gralloc", "4")],
      some "vendor.graphics.allocator-4-0-arcvm", none⟩,
    ⟨"persist.sys.los.hardware.gralloc", "minigbm_gbm_mesa",
      [("ro.hardware.gralloc", "minigbm_gbm_mesa"), ("ro.hardware.hwcomposer", "drm_minigbm"),
        ("debug.ui.default_mapper", "4"), ("debug.ui.default_gralloc", "4")],
      some "vendor.graphics.allocator-4-0-gbm_mesa", none⟩,
    ⟨"persist.sys.los.hardware.gralloc", "minigbm_nouveau",
      [("ro.hardware.gralloc", "minigbm_nouveau"), ("ro.hardware.hwcomposer", "drm_minigbm"),
        ("debug.ui.default_mapper", "4"), ("debug.ui.default_gralloc", "4")],
      some "vendor.graphics.allocator-4-0-nouveau", none⟩]

/-- The actions for the flags of the codecs. -/
def mediaActions : List Action :=
  [⟨"persist.sys.los.media.sf.hwaccel", "1", [("media.sf.hwaccel", "1")], none, none⟩,
    ⟨"persist.sys.los.media.sf.hwaccel", "0", [("media.sf.hwaccel", "0")], none, none⟩,
    ⟨"persist.sys.los.media.sf.hwaccel.drm", "1", [("debug.ffmpeg-codec2.hwaccel.drm", "1")],
      none, none⟩,
    ⟨"persist.sys.los.media.sf.hwaccel.drm", "0", [("debug.ffmpeg-codec2.hwaccel.drm", "0")],
      none, none⟩,
    ⟨"persist.sys.los.media.sf.hwaccel.force", "1", [("debug.ffmpeg-codec2.fast", "1")],
      none, none⟩,
    ⟨"persist.sys.los.media.sf.hwaccel.force", "0", [("debug.ffmpeg-codec2.fast", "0")],
      none, none⟩]

/-- The actions for the engine of the codecs. -/
def engineActions : List Action :=
  [⟨"persist.sys.los.codec2-impl", "ffmpeg", [], none, some (codecsFfmpeg, codecsFile)⟩,
    ⟨"persist.sys.los.codec2-impl", "intel", [], none, some (codecsIntel, codecsFile)⟩]

def losCodecActions : List Action := backendActions ++ mediaActions ++ engineActions

/-- What an action does. -/
def Action.run (action : Action) : Boot → Boot :=
  seq
    [seq (action.sets.map fun set => setprop d set.1 set.2),
      (action.service.elim id start),
      (action.mount.elim id fun mount => mountBind mount.1 mount.2)]

def Action.triggered (action : Action) (s : Boot) : Bool :=
  s.props action.property = action.value

/-- The triggers for these actions, one after the other. -/
def losCodec (actions : List Action) : Boot → Boot :=
  seq (actions.map fun action => guarded action.triggered (action.run d))

/-- The test `[ word -lt bound ]`. -/
def isLess (word : Word) (bound : Int) (s : Boot) : Bool :=
  (d.number (word s.vars)).any fun n => n < bound

/-- The test `[ word -ge bound ]`. -/
def isAtLeast (word : Word) (bound : Int) (s : Boot) : Bool :=
  (d.number (word s.vars)).any fun n => bound ≤ n

/-- A card with a driver, which is that of the firmware's framebuffer only without
acceleration. -/
def suitable (hwaccel : String) (attempt card : Nat) : Bool :=
  match d.driver attempt card with
  | none => false
  | some name => !((occursIn "simple" name || name = "") && hwaccel != "0")

/-- The loops over the attempts and the cards. -/
def searchCard (hwaccel : String) : Option Nat :=
  (List.range 20).findSome? fun attempt => (List.range 10).find? (suitable d hwaccel attempt)

/-- The card, and the properties that name its device. -/
def chooseCard : Boot → Boot :=
  seq
    [guarded (fun s => s.vars.gpuOverride = "")
        (assign fun vars =>
          (searchCard d vars.hwaccel).elim vars fun card =>
            { vars with gpuOverride := "card" ++ toString card }),
      assign fun vars =>
        { vars with gpuOverride := Word.orElse Variables.gpuOverride "card0" vars },
      setProperty d "gralloc.gbm.device" fun vars => "/dev/dri/" ++ vars.gpuOverride,
      setProperty d "vendor.hwc.drm.device" fun vars => "/dev/dri/" ++ vars.gpuOverride]

def setDrmMode : Boot → Boot :=
  seq
    [assign fun vars =>
        if "ET1602".toList.isPrefixOf d.product.toList then { vars with drmMode := "1366x768" }
        else if vars.video ≠ "" then { vars with drmMode := vars.video }
        else vars,
      guarded (fun s => s.vars.drmMode ≠ "")
        (setProperty d "debug.drm.mode.force" Variables.drmMode)]

/-- `HWC=${HWC:-default}`. -/
def defaultHwc (default : Word) : Boot → Boot :=
  assign fun vars => { vars with hwc := Word.orElse Variables.hwc default vars }

/-- `GRALLOC=${GRALLOC:-default}`. -/
def defaultGralloc (default : Word) : Boot → Boot :=
  assign fun vars => { vars with gralloc := Word.orElse Variables.gralloc default vars }

def disableHwaccel : Boot → Boot := assign fun vars => { vars with hwaccel := "0" }

/-- The `case` of `init_hal_gralloc`. -/
def grallocArms : List (Arm Boot) :=
  [⟨endsIn "virtio_gpu" d.gpu || endsIn "virtio-pci" d.gpu,
      seq
        [defaultHwc "drm_minigbm", defaultGralloc "minigbm_arcvm",
          setProperty d "ro.vendor.hwc.drm.present_fence_not_reliable" "true"], true⟩,
    ⟨endsIn "nouveau" d.gpu,
      seq [defaultGralloc "minigbm_gbm_mesa", defaultHwc "drm_minigbm"], true⟩,
    ⟨endsIn "i915" d.gpu,
      seq
        [assign fun vars => { vars with i915GpuGen := d.generation vars.gpuOverride },
          guarded (isLess d Variables.i915GpuGen 9)
            (seq
              [setProperty d "vendor.hwc.drm.avoid_using_alpha_bits_for_framebuffer" "1",
                setProperty d "vendor.hwc.drm.disable_planes" "1"])], true⟩,
    ⟨endsIn "amdgpu" d.gpu || occursIn "vmwgfx" d.gpu || endsIn "xe" d.gpu,
      seq [defaultGralloc "minigbm", defaultHwc "drm_minigbm"], true⟩,
    ⟨endsIn "radeon" d.gpu,
      guarded
        (fun s => !((!occursIn "VirtualBox" d.board && s.vars.hwaccel != "0") ||
          s.vars.hwaccel == "1"))
        disableHwaccel, false⟩,
    ⟨true, disableHwaccel, false⟩]

/-- The interface of the allocator, which follows that of a backend that was chosen. -/
def setAllocator : Boot → Boot :=
  branch (fun s => s.props "debug.ui.default_gralloc" = "4")
    (seq
      [setProperty d "debug.ui.default_mapper" "4", setProperty d "debug.ui.default_gralloc" "4"])
    (seq
      [setProperty d "debug.ui.default_mapper" "2", setProperty d "debug.ui.default_gralloc" "2",
        start "vendor.gralloc-2-0"])

def initHalGralloc : Boot → Boot :=
  seq
    [chooseCard d,
      choose (grallocArms d),
      guarded (fun s => s.vars.hwc ≠ "") (setPropIfEmpty d "ro.hardware.hwcomposer" Variables.hwc),
      setPropIfEmpty d "ro.hardware.gralloc" (Word.orElse Variables.gralloc "gbm"),
      setDrmMode d,
      setAllocator d,
      guarded (fun s => s.vars.debug ≠ "") (setProperty d "debug.egl.trace" "error")]

def initHalHwcomposer : Boot → Boot :=
  seq
    [guarded (fun s => s.vars.hwaccel = "0" || occursIn "radeon" d.gpu)
        (assign fun vars =>
          { vars with hwcHidl := Word.orElse Variables.hwcHidl "default-2.1" vars }),
      branch (fun s => s.vars.hwcHidl = "drmfb")
        (seq
          [setProperty d "debug.sf.hwc_service_name" "drmfb",
            start "vendor.hwcomposer-2-1.drmfb"])
        (branch (fun s => s.vars.hwcHidl = "default-2.1")
          (seq
            [setProperty d "debug.sf.hwc_service_name" "default_clone",
              start "vendor.hwcomposer-2-1-clone"])
          (seq
            [setProperty d "debug.sf.hwc_service_name" "default",
              start "vendor.hwcomposer-2-4"])),
      guarded (fun s => s.vars.hwc = "drm_celadon" || s.vars.hwc = "drm_minigbm_celadon")
        (seq
          [setProperty d "vendor.hwcomposer.planes.enabling" Variables.multiPlane,
            setProperty d "vendor.hwcomposer.planes.num" Variables.multiPlaneNum,
            setProperty d "vendor.hwcomposer.preferred.mode.limit" Variables.hwcPreferMode,
            setProperty d "vendor.hwcomposer.connector.id" Variables.connectorId,
            setProperty d "vendor.hwcomposer.mode.id" Variables.modeId,
            setProperty d "vendor.hwcomposer.connector.multi_refresh_rate"
              Variables.multiRefreshRate])]

/-- The pixel format that the codecs are to use. -/
def setPixelFormat : Boot → Boot :=
  choose
    [⟨endsIn "virtio_gpu" d.gpu || endsIn "virtio-pci" d.gpu || endsIn "nouveau" d.gpu ||
        endsIn "radeon" d.gpu,
        setProperty d "persist.ffmpeg-codec2.pixel_format" "RGBX_8888", false⟩,
      ⟨endsIn "i915" d.gpu || endsIn "xe" d.gpu || endsIn "amdgpu" d.gpu,
        branch (fun s => s.props "ro.hardware.gralloc" ≠ "minigbm")
          (setProperty d "persist.ffmpeg-codec2.pixel_format" "RGBX_8888")
          (setProperty d "persist.ffmpeg-codec2.pixel_format" "YUV_420"), false⟩,
      ⟨true, setProperty d "persist.ffmpeg-codec2.pixel_format" "RGB_565", false⟩]

/-- The engine, where the user leaves the choice to the script. -/
def mountCodecs : Boot → Boot :=
  guarded
    (fun s => s.props "persist.sys.los.codec2-impl" = "" ||
      s.props "persist.sys.los.codec2-impl" = "auto")
    (choose
      [⟨endsIn "i915" d.gpu || endsIn "xe" d.gpu, mountBind codecsIntel codecsFile, false⟩,
        ⟨true, mountBind codecsFfmpeg codecsFile, false⟩])

def initHalMedia : Boot → Boot :=
  seq
    [guarded (isAtLeast d Variables.ffmpegCodecLog 1)
        (setProperty d "debug.ffmpeg.loglevel" "verbose"),
      branch (isAtLeast d Variables.ffmpegHwaccelDisable 1)
        (setPropIfEmpty d "media.sf.hwaccel" "0") (setPropIfEmpty d "media.sf.hwaccel" "1"),
      guarded (fun s => s.vars.ffmpegCodec2Deinterlace.isSome)
        (setProperty d "debug.ffmpeg-codec2.deinterlace" fun vars =>
          vars.ffmpegCodec2Deinterlace.getD ""),
      guarded (fun s => s.vars.ffmpegCodec2DeinterlaceVaapi.isSome)
        (setProperty d "debug.ffmpeg-codec2.deinterlace.vaapi" fun vars =>
          vars.ffmpegCodec2DeinterlaceVaapi.getD ""),
      branch (isAtLeast d Variables.ffmpegCodec2Drm 1)
        (setPropIfEmpty d "debug.ffmpeg-codec2.hwaccel.drm" "1")
        (setPropIfEmpty d "debug.ffmpeg-codec2.hwaccel.drm" "0"),
      setPixelFormat d,
      mountCodecs d]

/-- `VULKAN=${VULKAN:-default}`. -/
def defaultVulkan (default : Word) : Boot → Boot :=
  assign fun vars => { vars with vulkan := Word.orElse Variables.vulkan default vars }

/-- The `case` of `init_hal_vulkan`. -/
def vulkanArms : List (Arm Boot) :=
  [⟨endsIn "i915" d.gpu,
      branch (isLess d Variables.i915GpuGen 9) (defaultVulkan "intel_hasvk")
        (defaultVulkan "intel"), true⟩,
    ⟨endsIn "xe" d.gpu, defaultVulkan "intel", true⟩,
    ⟨endsIn "amdgpu" d.gpu, defaultVulkan "radeon", true⟩,
    ⟨endsIn "virtio_gpu" d.gpu || endsIn "virtio-pci" d.gpu, defaultVulkan "virtio", true⟩,
    ⟨endsIn "nouveau" d.gpu, defaultVulkan "nouveau", true⟩,
    ⟨true, setProperty d "ro.hardware.vulkan" (Word.orElse Variables.vulkan "pastel"), false⟩]

def initHalVulkan : Boot → Boot :=
  branch (fun s => s.vars.hwaccel ≠ "0") (choose (vulkanArms d))
    (setProperty d "ro.hardware.vulkan" (Word.orElse Variables.vulkan "pastel"))

/-- The part of `do_init` for the graphics. -/
def initGraphics : Boot → Boot :=
  seq [initHalGralloc d, initHalHwcomposer d, initHalMedia d, initHalVulkan d]

/-- What init runs of the two files: an action, if its trigger is met, or the script. -/
inductive InitStep where
  | trigger (action : Action)
  | script

def InitStep.run : InitStep → Boot → Boot
  | .trigger action => guarded action.triggered (action.run d)
  | .script => initGraphics d

/-- The boot, as far as the graphics go, in the order that init takes. -/
def bootGraphics (order : List InitStep) : Boot → Boot := seq (order.map (InitStep.run d))

/-- The order that `init.los_codec.rc` relies on: the persistent properties, and with them
the triggers, come before the script, the triggers in any order. -/
def TriggersFirst (order : List InitStep) : Prop :=
  ∃ actions : List Action, actions.Perm losCodecActions ∧
    order = actions.map InitStep.trigger ++ [.script]

end AndroidX86Tv.Graphics
