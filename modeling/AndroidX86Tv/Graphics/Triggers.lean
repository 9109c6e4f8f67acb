import Mathlib.Data.List.Nodup
import AndroidX86Tv.Graphics.InitScript
import AndroidX86Tv.Lib.KeyedWrites

/-!
# What the triggers leave (init.los_codec.rc)

No property that a trigger waits for is set by one, and no two actions that run set the
same property. So each action that runs leaves what it sets.
-/

namespace AndroidX86Tv.Graphics

open Commands KeyedWrites

/-- What init makes of a value for a property. -/
def taken (d : Device) (name value old : String) : String :=
  if d.accepts name old value then value else old

variable {d : Device} {s : Boot}

theorem setprop_eq (name value : String) (s : Boot) :
    setprop d name value s = { s with props := write (taken d) s.props (name, value) } := by
  rw [setprop, write, taken]
  split_ifs
  · rfl
  · rw [Function.update_eq_self]

theorem setprops_eq (sets : List (String × String)) (s : Boot) :
    seq (sets.map fun set => setprop d set.1 set.2) s =
      { s with props := writes (taken d) s.props sets } := by
  induction sets generalizing s with
  | nil => rfl
  | cons set sets ih =>
      rw [List.map_cons, seq, setprop_eq, ih]
      rfl

theorem Action.run_eq (action : Action) (s : Boot) :
    action.run d s =
      { s with
        props := writes (taken d) s.props action.sets
        started := s.started ++ action.service.toList
        mounts := s.mounts ++ action.mount.toList } := by
  rw [Action.run, seq, setprops_eq]
  cases hservice : action.service with
  | none =>
      cases hmount : action.mount with
      | none => simp [seq]
      | some mount => simp [seq, mountBind]
  | some service =>
      cases hmount : action.mount with
      | none => simp [seq, start]
      | some mount => simp [seq, start, mountBind]

/-- The actions that run. -/
def running (actions : List Action) (s : Boot) : List Action :=
  actions.filter (Action.triggered · s)

/-- No trigger waits for what an action sets. -/
def Independent (actions : List Action) : Prop :=
  ∀ action ∈ actions, ∀ other ∈ actions, other.property ∉ action.sets.map Prod.fst

theorem triggers_eq {actions : List Action} (h : Independent actions) (s : Boot) :
    seq (actions.map fun action => guarded action.triggered (action.run d)) s =
      { s with
        props := writes (taken d) s.props ((running actions s).flatMap Action.sets)
        started := s.started ++ (running actions s).flatMap (·.service.toList)
        mounts := s.mounts ++ (running actions s).flatMap (·.mount.toList) } := by
  induction actions generalizing s with
  | nil => simp [seq, running]
  | cons action actions ih =>
      have hrest : Independent actions := fun one hone other hother =>
        h one (List.mem_cons_of_mem _ hone) other (List.mem_cons_of_mem _ hother)
      rw [List.map_cons, seq, ih hrest]
      cases htriggered : action.triggered s with
      | false =>
          have hskip : guarded action.triggered (action.run d) s = s := by
            simp [guarded, branch, htriggered]
          simp [hskip, running, htriggered]
      | true =>
          have hrun : guarded action.triggered (action.run d) s = action.run d s := by
            simp [guarded, branch, htriggered]
          have hsame : running actions (action.run d s) = running actions s := by
            apply List.filter_congr
            intro other hother
            have hkept := h action List.mem_cons_self other (List.mem_cons_of_mem _ hother)
            rw [Action.triggered, Action.triggered, Action.run_eq]
            simp only [writes_of_not_mem hkept]
          rw [hrun, hsame, Action.run_eq]
          simp [running, htriggered, writes_append]

/-- Two actions do not both run, or set different properties. -/
def Apart (action other : Action) : Prop :=
  (action.property = other.property ∧ action.value ≠ other.value) ∨
    ∀ set ∈ action.sets, set.1 ∉ other.sets.map Prod.fst

instance (action other : Action) : Decidable (Apart action other) :=
  inferInstanceAs (Decidable (_ ∨ _))

theorem Apart.of_triggered {action other : Action} (h : Apart action other)
    (haction : action.triggered s = true) (hother : other.triggered s = true) :
    ∀ set ∈ action.sets, set.1 ∉ other.sets.map Prod.fst := by
  refine h.resolve_left fun hsame => hsame.2 ?_
  rw [← of_decide_eq_true haction, hsame.1]
  exact of_decide_eq_true hother

theorem Apart.symm {action other : Action} (h : Apart action other) : Apart other action := by
  cases h with
  | inl h => exact .inl ⟨h.1.symm, h.2.symm⟩
  | inr h =>
      refine .inr fun set hset hname => ?_
      obtain ⟨set', hset', heq⟩ := List.mem_map.mp hname
      exact h set' hset' (List.mem_map.mpr ⟨set, hset, heq.symm⟩)

theorem running_nodup {actions : List Action} (hapart : actions.Pairwise Apart)
    (hnodup : ∀ action ∈ actions, (action.sets.map Prod.fst).Nodup) (s : Boot) :
    (((running actions s).flatMap Action.sets).map Prod.fst).Nodup := by
  rw [List.map_flatMap, List.nodup_flatMap]
  constructor
  · exact fun action haction => hnodup action (List.mem_of_mem_filter haction)
  · have hruns := hapart.filter (Action.triggered · s)
    refine hruns.imp_of_mem fun haction hother h => ?_
    have hdisjoint := h.of_triggered (List.mem_filter.mp haction).2 (List.mem_filter.mp hother).2
    intro name hname hname'
    obtain ⟨set, hset, rfl⟩ := List.mem_map.mp hname
    exact hdisjoint set hset hname'

theorem losCodec_independent : Independent losCodecActions := by
  unfold Independent
  decide +kernel

theorem losCodec_apart : losCodecActions.Pairwise Apart := by
  decide +kernel

/-- Nothing that an action sets or starts is there yet, and init takes what it sets. -/
structure Fresh (d : Device) (s : Boot) : Prop where
  unset : ∀ action ∈ losCodecActions, ∀ set ∈ action.sets, s.props set.1 = ""
  takes : ∀ action ∈ losCodecActions, ∀ set ∈ action.sets, d.accepts set.1 "" set.2 = true
  stopped : ∀ action ∈ losCodecActions, ∀ service ∈ action.service, service ∉ s.started

section Order

/-! The actions run in any order. -/

variable {action : Action} {actions : List Action} (hactions : actions.Perm losCodecActions)

include hactions

theorem losCodec_eq (s : Boot) :
    losCodec d actions s =
      { s with
        props := writes (taken d) s.props ((running actions s).flatMap Action.sets)
        started := s.started ++ (running actions s).flatMap (·.service.toList)
        mounts := s.mounts ++ (running actions s).flatMap (·.mount.toList) } := by
  refine triggers_eq (fun one hone other hother => ?_) s
  exact losCodec_independent one (hactions.mem_iff.mp hone) other (hactions.mem_iff.mp hother)

theorem mem_running (hmem : action ∈ losCodecActions) (htriggered : action.triggered s = true) :
    action ∈ running actions s :=
  List.mem_filter.mpr ⟨hactions.mem_iff.mpr hmem, htriggered⟩

/-- An action that runs leaves what it sets. -/
theorem losCodec_sets (h : Fresh d s) (hmem : action ∈ losCodecActions)
    (htriggered : action.triggered s = true) {name value : String}
    (hset : (name, value) ∈ action.sets) : (losCodec d actions s).props name = value := by
  have hwrite : (name, value) ∈ (running actions s).flatMap Action.sets :=
    List.mem_flatMap.mpr ⟨action, mem_running hactions hmem htriggered, hset⟩
  have hapart : actions.Pairwise Apart := hactions.symm.pairwise losCodec_apart Apart.symm
  have honce : ∀ action ∈ losCodecActions, (action.sets.map Prod.fst).Nodup := by
    decide +kernel
  have hnodup := running_nodup (s := s) hapart fun action haction =>
    honce action (hactions.mem_iff.mp haction)
  rw [losCodec_eq hactions]
  refine (writes_of_mem hnodup hwrite).trans ?_
  rw [taken, h.unset action hmem _ hset, if_pos (h.takes action hmem _ hset)]

end Order

/-- What one of the elements contributes alone. -/
theorem flatMap_of_unique {α β : Type*} {l : List α} {f : α → List β} {a : α} (hnodup : l.Nodup)
    (hmem : a ∈ l) (hothers : ∀ b ∈ l, b ≠ a → f b = []) : l.flatMap f = f a := by
  obtain ⟨before, after, rfl⟩ := List.append_of_mem hmem
  obtain ⟨-, htail, hdisjoint⟩ := List.nodup_append.mp hnodup
  have hbefore : before.flatMap f = [] := by
    refine List.flatMap_eq_nil_iff.mpr fun b hb => hothers b (List.mem_append_left _ hb) ?_
    exact hdisjoint b hb a List.mem_cons_self
  have hafter : after.flatMap f = [] := by
    refine List.flatMap_eq_nil_iff.mpr fun b hb =>
      hothers b (List.mem_append_right _ (List.mem_cons_of_mem a hb)) ?_
    rintro rfl
    exact (List.nodup_cons.mp htail).1 hb
  rw [List.flatMap_append, List.flatMap_cons, hbefore, hafter, List.append_nil, List.nil_append]

/-- The actions that have something of a kind wait for values of one property. -/
def Exclusive {α : Type*} (part : Action → Option α) : Prop :=
  ∀ action ∈ losCodecActions, ∀ other ∈ losCodecActions, (part action).isSome →
    (part other).isSome → action.property = other.property ∧
      (action.value = other.value → action = other)

theorem service_exclusive : Exclusive Action.service := by
  unfold Exclusive
  decide +kernel

theorem mount_exclusive : Exclusive Action.mount := by
  unfold Exclusive
  decide +kernel

section Order

variable {action : Action} {actions : List Action} (hactions : actions.Perm losCodecActions)

include hactions

/-- Then only one of them runs. -/
theorem running_exclusive {α : Type*} {part : Action → Option α} (h : Exclusive part)
    (hmem : action ∈ losCodecActions) (htriggered : action.triggered s = true) {own : α}
    (hown : part action = some own) :
    (running actions s).flatMap (fun other => (part other).toList) = [own] := by
  have hlisted : losCodecActions.Nodup := by decide +kernel
  have hnodup : (running actions s).Nodup :=
    List.Nodup.filter _ (hactions.nodup_iff.mpr hlisted)
  have halone : ∀ other ∈ running actions s, other ≠ action → (part other).toList = [] := by
    intro other hother hne
    obtain ⟨hmem', hothers⟩ := List.mem_filter.mp hother
    cases hpart : part other with
    | none => rfl
    | some one =>
        obtain ⟨hproperty, hsame⟩ := h other (hactions.mem_iff.mp hmem') action hmem
          (by rw [hpart]; rfl) (by rw [hown]; rfl)
        have hvalue : other.value = action.value := by
          rw [← of_decide_eq_true hothers, hproperty]
          exact of_decide_eq_true htriggered
        exact absurd (hsame hvalue) hne
  rw [flatMap_of_unique hnodup (mem_running hactions hmem htriggered) halone, hown]
  rfl

/-- The service of the action runs, and no other one that an action could have started. -/
theorem losCodec_started (h : Fresh d s) (hmem : action ∈ losCodecActions)
    (htriggered : action.triggered s = true) {own : String} (hown : action.service = some own)
    {other : Action} (hother : other ∈ losCodecActions) {service : String}
    (hservice : service ∈ other.service) :
    service ∈ (losCodec d actions s).started ↔ service = own := by
  have hfresh := h.stopped other hother service hservice
  rw [losCodec_eq hactions]
  simp only [running_exclusive hactions service_exclusive hmem htriggered hown, List.mem_append,
    List.mem_singleton]
  exact or_iff_right hfresh

theorem losCodec_mounts (hmem : action ∈ losCodecActions) (htriggered : action.triggered s = true)
    {own : String × String} (hown : action.mount = some own) :
    (losCodec d actions s).mounts = s.mounts ++ [own] := by
  rw [losCodec_eq hactions]
  simp only [running_exclusive hactions mount_exclusive hmem htriggered hown]

/-- No trigger is set off by the actions. -/
theorem losCodec_property (hmem : action ∈ losCodecActions) :
    (losCodec d actions s).props action.property = s.props action.property := by
  rw [losCodec_eq hactions]
  apply writes_of_not_mem
  rw [List.map_flatMap, List.mem_flatMap]
  rintro ⟨other, hother, hname⟩
  have hlisted := hactions.mem_iff.mp (List.mem_filter.mp hother).1
  exact losCodec_independent other hlisted action hmem hname

end Order

end AndroidX86Tv.Graphics
