import Mathlib.Tactic.SplitIfs

/-!
# Commands and their conditions

A command changes a state. Commands run one after the other, under a condition, or as the
arms of a `case`, where an arm may fall through to the next one. The rules say what holds
after a command from what held before it.
-/

namespace Commands

variable {S : Type*}

/-- The commands one after the other. -/
def seq : List (S → S) → S → S
  | [], s => s
  | command :: commands, s => seq commands (command s)

def branch (condition : S → Bool) (command other : S → S) (s : S) : S :=
  if condition s then command s else other s

/-- A command that runs under a condition only. -/
def guarded (condition : S → Bool) (command : S → S) : S → S := branch condition command id

/-- An arm of a `case`. -/
structure Arm (S : Type*) where
  applies : Bool
  body : S → S
  /-- The arm ends with `;&`. -/
  falls : Bool

/-- The bodies from the first arm on, up to one that does not fall through. -/
def fallThrough : List (Arm S) → S → S
  | [], s => s
  | arm :: arms, s => if arm.falls then fallThrough arms (arm.body s) else arm.body s

/-- The `case`: the first arm that applies, and those that it falls through to. -/
def choose : List (Arm S) → S → S
  | [], s => s
  | arm :: arms, s => if arm.applies then fallThrough (arm :: arms) s else choose arms s

/-- Where the first condition holds the command brings about the second. -/
def Triple (P : S → Prop) (command : S → S) (Q : S → Prop) : Prop := ∀ s, P s → Q (command s)

/-- The command keeps the condition. -/
def Keeps (P : S → Prop) (command : S → S) : Prop := Triple P command P

variable {P Q R : S → Prop} {command other : S → S} {commands : List (S → S)}
  {condition : S → Bool} {arms : List (Arm S)}

theorem Triple.seq_cons (hfirst : Triple P command R) (hrest : Triple R (seq commands) Q) :
    Triple P (seq (command :: commands)) Q := fun s hs => hrest _ (hfirst s hs)

theorem Triple.branch (hthen : Triple (fun s => P s ∧ condition s = true) command Q)
    (helse : Triple (fun s => P s ∧ condition s = false) other Q) :
    Triple P (branch condition command other) Q := by
  intro s hs
  unfold Commands.branch
  cases hcondition : condition s with
  | true => exact hthen s ⟨hs, hcondition⟩
  | false => exact helse s ⟨hs, hcondition⟩

theorem Keeps.branch (hthen : Keeps P command) (helse : Keeps P other) :
    Keeps P (branch condition command other) :=
  Triple.branch (fun s hs => hthen s hs.1) fun s hs => helse s hs.1

theorem Keeps.guarded (h : Keeps P command) : Keeps P (guarded condition command) :=
  Keeps.branch h fun _ hs => hs

theorem keeps_fallThrough (h : ∀ arm ∈ arms, Keeps P arm.body) : Keeps P (fallThrough arms) := by
  induction arms with
  | nil => exact fun _ hs => hs
  | cons arm arms ih =>
      obtain ⟨hfirst, hrest⟩ := List.forall_mem_cons.mp h
      intro s hs
      rw [fallThrough]
      split_ifs
      · exact ih hrest _ (hfirst s hs)
      · exact hfirst s hs

/-- Whatever arm applies. -/
theorem keeps_choose (h : ∀ arm ∈ arms, Keeps P arm.body) : Keeps P (choose arms) := by
  induction arms with
  | nil => exact fun _ hs => hs
  | cons arm arms ih =>
      intro s hs
      rw [choose]
      split_ifs
      · exact keeps_fallThrough h s hs
      · exact ih (List.forall_mem_cons.mp h).2 s hs

/-- A command that is put together from others. -/
inductive BuiltFrom (L : (S → S) → Prop) : (S → S) → Prop where
  | leaf {command : S → S} (h : L command) : BuiltFrom L command
  | nil : BuiltFrom L (seq [])
  | cons {command : S → S} {commands : List (S → S)} (hfirst : BuiltFrom L command)
      (hrest : BuiltFrom L (seq commands)) : BuiltFrom L (seq (command :: commands))
  | branch {condition : S → Bool} {command other : S → S} (hthen : BuiltFrom L command)
      (helse : BuiltFrom L other) : BuiltFrom L (branch condition command other)
  | guarded {condition : S → Bool} {command : S → S} (h : BuiltFrom L command) :
      BuiltFrom L (guarded condition command)
  | choose {arms : List (Arm S)} (h : ∀ arm ∈ arms, BuiltFrom L arm.body) :
      BuiltFrom L (choose arms)

/-- What all its parts keep a command keeps. -/
theorem BuiltFrom.keeps {L : (S → S) → Prop} (h : BuiltFrom L command)
    (hleaf : ∀ part, L part → Keeps P part) : Keeps P command := by
  induction h with
  | leaf h => exact hleaf _ h
  | nil => exact fun _ hs => hs
  | cons _ _ hfirst hrest => exact Triple.seq_cons hfirst hrest
  | branch _ _ hthen helse => exact Keeps.branch hthen helse
  | guarded _ h => exact Keeps.guarded h
  | choose _ h => exact keeps_choose h

theorem BuiltFrom.mono {L L' : (S → S) → Prop} (h : BuiltFrom L command)
    (hleaf : ∀ part, L part → L' part) : BuiltFrom L' command := by
  induction h with
  | leaf h => exact .leaf (hleaf _ h)
  | nil => exact .nil
  | cons _ _ hfirst hrest => exact .cons hfirst hrest
  | branch _ _ hthen helse => exact .branch hthen helse
  | guarded _ h => exact .guarded h
  | choose _ h => exact .choose h

theorem seq_append (commands others : List (S → S)) (s : S) :
    seq (commands ++ others) s = seq others (seq commands s) := by
  induction commands generalizing s with
  | nil => rfl
  | cons command commands ih => exact ih (command s)

end Commands
