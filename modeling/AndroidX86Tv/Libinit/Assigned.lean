import AndroidX86Tv.Libinit.Properties

/-!
# What `vendor_load_properties` assigns

Every property is assigned at most once, whichever way the hash maps are gone
through. The result is therefore one function of the properties before, and
leaves all others alone.
-/

namespace AndroidX86Tv.Libinit

open KeyedWrites

/-- The line in a file, if it can be read. -/
def DmiId.line (dmi : DmiId) (file : String) : Option String :=
  (dmi.content file).map fun text => String.ofList text.dropLast

/-- The map that applies to the vendor. -/
def DmiId.roBuildPropMap (dmi : DmiId) : List (String × String) :=
  if isLenovo dmi then kLenovoDmiIdToRoBuildPropMap else kDmiIdToRoBuildPropMap

def DalvikHeapInfo.writes (dhi : DalvikHeapInfo) : List (String × String) :=
  [("dalvik.vm.heapstartsize", dhi.heapstartsize),
    ("dalvik.vm.heapgrowthlimit", dhi.heapgrowthlimit), ("dalvik.vm.heapsize", dhi.heapsize),
    ("dalvik.vm.heaptargetutilization", dhi.heaptargetutilization),
    ("dalvik.vm.heapminfree", dhi.heapminfree), ("dalvik.vm.heapmaxfree", dhi.heapmaxfree)]

/-- What is to be assigned: the heap profile for the size of the memory, the two properties
of an insecure adb, and for each DMI file that can be read its line, for the vendor's four
product properties under the name of every source. -/
inductive Assigned (totalram : UInt64) (dmi : DmiId) (props : Properties) :
    String → String → Prop
  | heap {prop value} (h : (prop, value) ∈ (dalvikHeapInfo totalram).writes) :
      Assigned totalram dmi props prop value
  | misc {prop} (hadb : insecureAdb props = true)
      (h : prop = "ro.adb.secure" ∨ prop = "ro.secure") : Assigned totalram dmi props prop "0"
  | property {file prop value} (h : (file, prop) ∈ kDmiIdToPropertyMap)
      (hline : dmi.line file = some value) : Assigned totalram dmi props prop value
  | product {file prop source value} (h : (file, prop) ∈ dmi.roBuildPropMap)
      (hsource : source ∈ roPropsDefaultSourceOrder) (hline : dmi.line file = some value) :
      Assigned totalram dmi props ("ro.product." ++ source ++ prop) value

def roProductNames (prop : String) : List String :=
  roPropsDefaultSourceOrder.map fun source => "ro.product." ++ source ++ prop

/-- The writes of a loop over a map of DMI files. -/
def dmiWrites (dmi : DmiId) (names : String → List String) (map : List (String × String)) :
    List (String × String) :=
  map.flatMap fun entry =>
    (dmi.line entry.1).elim [] fun value => (names entry.2).map fun prop => (prop, value)

theorem mem_dmiWrites {dmi : DmiId} {names : String → List String}
    {map : List (String × String)} {prop value : String} :
    (prop, value) ∈ dmiWrites dmi names map ↔
      ∃ file name, (file, name) ∈ map ∧ dmi.line file = some value ∧ prop ∈ names name := by
  constructor
  · intro h
    obtain ⟨⟨file, name⟩, hmem, hin⟩ := List.mem_flatMap.mp h
    cases hline : dmi.line file with
    | none => simp [hline] at hin
    | some line =>
        obtain ⟨hprop, rfl⟩ : prop ∈ names name ∧ line = value := by simpa [hline] using hin
        exact ⟨file, name, hmem, hline, hprop⟩
  · rintro ⟨file, name, hmem, hline, hprop⟩
    refine List.mem_flatMap.mpr ⟨(file, name), hmem, ?_⟩
    simp [hline, hprop]

/-- A loop writes to names of its entries only, to each at most once. -/
theorem dmiWrites_keys (dmi : DmiId) (names : String → List String)
    (map : List (String × String)) :
    ((dmiWrites dmi names map).map Prod.fst).Sublist (map.flatMap fun entry => names entry.2) := by
  induction map with
  | nil => exact List.Sublist.refl _
  | cons entry map ih =>
      rw [dmiWrites, List.flatMap_cons, List.flatMap_cons, List.map_append]
      refine List.Sublist.append ?_ ih
      cases dmi.line entry.1 with
      | none => exact List.nil_sublist _
      | some value => simp [Function.comp_def]

section

variable (area : PropertyArea)

theorem propertyOverride_eq (prop value : String) (props : Properties) :
    propertyOverride area prop value true props = write area.overridden props (prop, value) := by
  unfold propertyOverride
  cases h : props prop with
  | none => simp [write, h, PropertyArea.overridden]
  | some old => simp [write, h, PropertyArea.overridden]

theorem setRoBuildProp_eq (prop value : String) (props : Properties) :
    setRoBuildProp area prop value true props =
      writes area.overridden props ((roProductNames prop).map fun name => (name, value)) := by
  simp [setRoBuildProp, roProductNames, propertyOverride_eq, writes, List.foldl_map]

theorem setDalvikHeap_eq (totalram : UInt64) (props : Properties) :
    setDalvikHeap area totalram props =
      writes area.overridden props (dalvikHeapInfo totalram).writes := by
  simp [setDalvikHeap, propertyOverride_eq, DalvikHeapInfo.writes, writes]

variable {area}

theorem forEachDmiId_eq {dmi : DmiId} {set : String → String → Properties → Properties}
    {names : String → List String}
    (hset : ∀ prop value props, set prop value props =
      writes area.overridden props ((names prop).map fun name => (name, value)))
    (map : List (String × String)) (props : Properties) :
    forEachDmiId dmi set map props = writes area.overridden props (dmiWrites dmi names map) := by
  induction map generalizing props with
  | nil => rfl
  | cons entry map ih =>
      rw [dmiWrites, List.flatMap_cons, writes_append]
      refine (ih _).trans ?_
      congr 1
      cases hfile : dmi.content entry.1 with
      | none => simp [DmiId.readFileToString, DmiId.line, hfile]
      | some text =>
          have htext := dmi.ended _ _ hfile
          simp [DmiId.readFileToString, DmiId.line, hfile, htext, hset]

end

def miscWrites (props : Properties) : List (String × String) :=
  if insecureAdb props then [("ro.adb.secure", "0"), ("ro.secure", "0")] else []

/-- All writes, with the two maps in some order. -/
def allWrites (totalram : UInt64) (dmi : DmiId) (props : Properties)
    (property roBuildProp : List (String × String)) : List (String × String) :=
  (dalvikHeapInfo totalram).writes ++ (miscWrites props ++
    (dmiWrites dmi (fun prop => [prop]) property ++ dmiWrites dmi roProductNames roBuildProp))

/-- The names of all properties that can be assigned. -/
def assignable (dmi : DmiId) : List String :=
  ["dalvik.vm.heapstartsize", "dalvik.vm.heapgrowthlimit", "dalvik.vm.heapsize",
    "dalvik.vm.heaptargetutilization", "dalvik.vm.heapminfree", "dalvik.vm.heapmaxfree"] ++
    (["ro.adb.secure", "ro.secure"] ++
      (kDmiIdToPropertyMap.flatMap (fun entry => [entry.2]) ++
        dmi.roBuildPropMap.flatMap fun entry => roProductNames entry.2))

theorem assignable_nodup (dmi : DmiId) : (assignable dmi).Nodup := by
  unfold assignable DmiId.roBuildPropMap
  cases isLenovo dmi with
  | false => decide +kernel
  | true => decide +kernel

section

variable {totalram : UInt64} {dmi : DmiId} {props : Properties}
  {property roBuildProp : List (String × String)}
  (hproperty : property.Perm kDmiIdToPropertyMap)
  (hroBuildProp : roBuildProp.Perm dmi.roBuildPropMap)

include hproperty hroBuildProp

/-- No property is written twice. -/
theorem allWrites_nodup :
    ((allWrites totalram dmi props property roBuildProp).map Prod.fst).Nodup := by
  have hmisc : ((miscWrites props).map Prod.fst).Sublist ["ro.adb.secure", "ro.secure"] := by
    unfold miscWrites
    cases insecureAdb props with
    | false => exact List.nil_sublist _
    | true => exact List.Sublist.refl _
  have hkeys := ((List.Sublist.refl ((dalvikHeapInfo totalram).writes.map Prod.fst)).append
    (hmisc.append ((dmiWrites_keys dmi (fun prop => [prop]) property).append
      (dmiWrites_keys dmi roProductNames roBuildProp))))
  have hperm := (hproperty.flatMap_right fun entry => [entry.2]).append
    (hroBuildProp.flatMap_right fun entry => roProductNames entry.2)
  have hnodup := ((hperm.append_left ["ro.adb.secure", "ro.secure"]).append_left _).nodup_iff.mpr
    (assignable_nodup dmi)
  simp only [allWrites, List.map_append]
  exact hkeys.nodup hnodup

theorem mem_allWrites {prop value : String} :
    (prop, value) ∈ allWrites totalram dmi props property roBuildProp ↔
      Assigned totalram dmi props prop value := by
  simp only [allWrites, List.mem_append, mem_dmiWrites]
  constructor
  · rintro (h | h | ⟨file, name, hmem, hline, hprop⟩ | ⟨file, name, hmem, hline, hprop⟩)
    · exact .heap h
    · unfold miscWrites at h
      cases hadb : insecureAdb props with
      | false => simp [hadb] at h
      | true =>
          obtain ⟨rfl, rfl⟩ | ⟨rfl, rfl⟩ : (prop = "ro.adb.secure" ∧ value = "0") ∨
              (prop = "ro.secure" ∧ value = "0") := by simpa [hadb] using h
          · exact .misc hadb (.inl rfl)
          · exact .misc hadb (.inr rfl)
    · obtain rfl := List.mem_singleton.mp hprop
      exact .property (hproperty.mem_iff.mp hmem) hline
    · obtain ⟨source, hsource, rfl⟩ := List.mem_map.mp hprop
      exact .product (hroBuildProp.mem_iff.mp hmem) hsource hline
  · intro h
    cases h with
    | heap h => exact .inl h
    | misc hadb h =>
        refine .inr (.inl ?_)
        rcases h with rfl | rfl <;> simp [miscWrites, hadb]
    | property h hline =>
        exact .inr (.inr (.inl ⟨_, _, hproperty.mem_iff.mpr h, hline, List.mem_singleton_self _⟩))
    | product h hsource hline =>
        exact .inr (.inr (.inr ⟨_, _, hroBuildProp.mem_iff.mpr h, hline,
          List.mem_map_of_mem hsource⟩))

end

/-- `vendor_load_properties` is its writes. -/
theorem vendorLoadProperties_eq_writes (area : PropertyArea) (totalram : UInt64) (dmi : DmiId)
    (order : MapOrder) (props : Properties) :
    ∃ roBuildProp, roBuildProp.Perm dmi.roBuildPropMap ∧
      vendorLoadProperties area totalram dmi order props = writes area.overridden props
        (allWrites totalram dmi props order.property roBuildProp) := by
  have hadb : insecureAdb (writes area.overridden props (dalvikHeapInfo totalram).writes) =
      insecureAdb props := by
    refine congrArg (· == some "1") (writes_of_not_mem ?_)
    simp [DalvikHeapInfo.writes]
  have hmisc : setMiscProperties area (setDalvikHeap area totalram props) =
      writes area.overridden props ((dalvikHeapInfo totalram).writes ++ miscWrites props) := by
    rw [writes_append, setDalvikHeap_eq, setMiscProperties, hadb, miscWrites]
    cases insecureAdb props with
    | false => rfl
    | true => simp [propertyOverride_eq, writes]
  have hproperty : ∀ props,
      forEachDmiId dmi (fun prop value => propertyOverride area prop value true) order.property
        props = writes area.overridden props
          (dmiWrites dmi (fun prop => [prop]) order.property) := by
    apply forEachDmiId_eq
    exact propertyOverride_eq area
  have hproduct : ∀ map props,
      forEachDmiId dmi (fun prop value => setRoBuildProp area prop value true) map props =
        writes area.overridden props (dmiWrites dmi roProductNames map) := by
    apply forEachDmiId_eq
    exact setRoBuildProp_eq area
  unfold vendorLoadProperties setPropertiesFromDmiId DmiId.roBuildPropMap
  cases isLenovo dmi with
  | false =>
      refine ⟨order.roBuildProp, order.roBuildProp_perm, ?_⟩
      simp [hmisc, hproperty, hproduct, allWrites, writes_append]
  | true =>
      refine ⟨order.lenovoRoBuildProp, order.lenovoRoBuildProp_perm, ?_⟩
      simp [hmisc, hproperty, hproduct, allWrites, writes_append]

/-- Whatever order the hash maps are gone through in, the properties with something assigned
are overridden with it, once, and all others are as before. -/
theorem vendorLoadProperties_assigns (area : PropertyArea) (totalram : UInt64) (dmi : DmiId)
    (order : MapOrder) (props : Properties) (prop : String) :
    (∀ value, Assigned totalram dmi props prop value →
      vendorLoadProperties area totalram dmi order props prop =
        area.overridden prop value (props prop)) ∧
      ((∀ value, ¬ Assigned totalram dmi props prop value) →
        vendorLoadProperties area totalram dmi order props prop = props prop) := by
  obtain ⟨roBuildProp, hperm, heq⟩ :=
    vendorLoadProperties_eq_writes area totalram dmi order props
  have hmem : ∀ value, (prop, value) ∈ allWrites totalram dmi props order.property roBuildProp ↔
      Assigned totalram dmi props prop value := fun value =>
    mem_allWrites order.property_perm hperm
  rw [heq]
  constructor
  · intro value hvalue
    exact writes_of_mem (allWrites_nodup order.property_perm hperm) ((hmem value).mpr hvalue)
  · intro hnone
    refine writes_of_not_mem fun hkey => ?_
    obtain ⟨⟨_, value⟩, hin, rfl⟩ := List.mem_map.mp hkey
    exact hnone value ((hmem value).mp hin)

/-- A property area that takes every value. -/
def roomyArea : PropertyArea where
  update _ _ value := value
  add _ value := some value

/-- The files of a Lenovo notebook; the others cannot be read. -/
def lenovoFiles : List (String × String) :=
  [("sys_vendor", "LENOVO\n"), ("product_name", "20XW\n"), ("product_family", "ThinkPad X1\n")]

def lenovoDmiId : DmiId where
  content file := (lenovoFiles.lookup file).map String.toList
  ended := by
    intro file text h
    obtain ⟨line, hline, rfl⟩ := Option.map_eq_some_iff.mp h
    obtain ⟨before, after, hfiles, -⟩ := List.lookup_eq_some_iff.mp hline
    have hmem : (file, line) ∈ lenovoFiles := by
      rw [hfiles]
      exact List.mem_append_right before List.mem_cons_self
    have hall : ∀ entry ∈ lenovoFiles, entry.2.toList ≠ [] := by decide +kernel
    exact hall (file, line) hmem

/-- The maps from their ends on. -/
def reversedMaps : MapOrder where
  property := kDmiIdToPropertyMap.reverse
  roBuildProp := kDmiIdToRoBuildPropMap.reverse
  lenovoRoBuildProp := kLenovoDmiIdToRoBuildPropMap.reverse
  property_perm := List.reverse_perm _
  roBuildProp_perm := List.reverse_perm _
  lenovoRoBuildProp_perm := List.reverse_perm _

/-- The name of the product is that of its family. -/
theorem vendorLoadProperties_assigns_lenovo :
    Assigned 8589934592 lenovoDmiId (fun _ => none) "ro.product.system.name" "ThinkPad X1" ∧
      vendorLoadProperties roomyArea 8589934592 lenovoDmiId reversedMaps (fun _ => none)
        "ro.product.system.name" = some "ThinkPad X1" := by
  have hline : lenovoDmiId.line "product_family" = some "ThinkPad X1" := by decide +kernel
  have hassigned : Assigned 8589934592 lenovoDmiId (fun _ => none)
      ("ro.product." ++ "system." ++ "name") "ThinkPad X1" :=
    .product (by decide +kernel) (by decide) hline
  exact ⟨hassigned, (vendorLoadProperties_assigns roomyArea 8589934592 lenovoDmiId reversedMaps
    (fun _ => none) ("ro.product." ++ "system." ++ "name")).1 "ThinkPad X1" hassigned⟩

end AndroidX86Tv.Libinit
