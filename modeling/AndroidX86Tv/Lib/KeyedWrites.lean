import Mathlib.Logic.Function.Basic
import Mathlib.Data.List.Nodup

/-!
# Writes to a store, each at one key

A write changes the value at its key, to one that may depend on the value there.
Writes at distinct keys give the same store in any order: at the key of one of
them its own effect, and the old value elsewhere.
-/

namespace KeyedWrites

variable {K V A : Type*} [DecidableEq K] (act : K → A → V → V)

def write (store : K → V) (w : K × A) : K → V :=
  Function.update store w.1 (act w.1 w.2 (store w.1))

def writes (store : K → V) (ws : List (K × A)) : K → V := ws.foldl (write act) store

@[simp] theorem writes_nil (store : K → V) : writes act store [] = store := rfl

theorem writes_cons (store : K → V) (w : K × A) (ws : List (K × A)) :
    writes act store (w :: ws) = writes act (write act store w) ws := rfl

theorem writes_append (store : K → V) (ws ws' : List (K × A)) :
    writes act store (ws ++ ws') = writes act (writes act store ws) ws' :=
  List.foldl_append

variable {act}

/-- A key without a write keeps its value. -/
theorem writes_of_not_mem {store : K → V} {ws : List (K × A)} {k : K}
    (h : k ∉ ws.map Prod.fst) : writes act store ws k = store k := by
  induction ws generalizing store with
  | nil => rfl
  | cons w ws ih =>
      rw [List.map_cons, List.mem_cons, not_or] at h
      rw [writes_cons, ih h.2, write, Function.update_of_ne h.1]

/-- If no two writes share a key, each has its effect on the value before all of them. -/
theorem writes_of_mem {store : K → V} {ws : List (K × A)} (hnodup : (ws.map Prod.fst).Nodup)
    {k : K} {a : A} (h : (k, a) ∈ ws) : writes act store ws k = act k a (store k) := by
  induction ws generalizing store with
  | nil => exact absurd h List.not_mem_nil
  | cons w ws ih =>
      obtain ⟨hhead, htail⟩ := List.nodup_cons.mp hnodup
      rw [writes_cons]
      rcases List.mem_cons.mp h with rfl | hmem
      · rw [writes_of_not_mem hhead, write, Function.update_self]
      · have hne : k ≠ w.1 := by
          rintro rfl
          exact hhead (List.mem_map.mpr ⟨_, hmem, rfl⟩)
        rw [ih htail hmem, write, Function.update_of_ne hne]

end KeyedWrites
