import Mathlib.Data.List.DropRight
import Mathlib.Data.List.Flatten

/-!
# Framing of a stream by a mark on the first item

A frame has `n` items, of which the first is marked and no other is. A receiver
that drops items up to a marked one and then takes `n` of them loses at most the
first frame after junk: the frame that junk runs into holds a mark inside.
-/

namespace StreamFraming

variable {α : Type*} (starts : α → Bool)

/-- The stream from its first marked item on. -/
def seek (s : List α) : List α := s.dropWhile fun a => !starts a

/-- The first item is marked and no other is. -/
def wellFormed : List α → Bool
  | [] => false
  | a :: rest => starts a && rest.all fun b => !starts b

/-- The well-formed frames that a receiver of `n` items at a time takes from a stream. -/
def deframe (n : Nat) (s : List α) : List (List α) :=
  if 0 < n ∧ n ≤ (seek starts s).length then
    [(seek starts s).take n].filter (wellFormed starts) ++ deframe n ((seek starts s).drop n)
  else []
termination_by s.length
decreasing_by
  have hle := (List.dropWhile_sublist (fun a => !starts a) (l := s)).length_le
  simp only [List.length_drop, seek] at *
  omega

@[simp] theorem seek_nil : seek starts ([] : List α) = [] := rfl

@[simp] theorem seek_seek (s : List α) : seek starts (seek starts s) = seek starts s :=
  List.dropWhile_idempotent _ _

theorem seek_sublist (s : List α) : (seek starts s).Sublist s := List.dropWhile_sublist _

theorem seek_eq_drop (s : List α) : seek starts s = s.drop (s.findIdx starts) := by
  rw [seek, List.dropWhile_eq_drop_findIdx_not]
  simp

variable {starts}

theorem seek_cons {a : α} (h : starts a = true) (s : List α) : seek starts (a :: s) = a :: s :=
  List.dropWhile_cons_of_neg (by simp [h])

theorem seek_append_of_unmarked {s : List α} (h : ∀ a ∈ s, starts a = false) (t : List α) :
    seek starts (s ++ t) = seek starts t :=
  List.dropWhile_append_of_pos fun a ha => by simp [h a ha]

theorem seek_eq_nil {s : List α} (h : seek starts s = []) : ∀ a ∈ s, starts a = false := by
  simpa [seek] using List.dropWhile_eq_nil_iff.mp h

/-- Where there is a mark, what follows the stream stays. -/
theorem seek_append {s : List α} (h : seek starts s ≠ []) (t : List α) :
    seek starts (s ++ t) = seek starts s ++ t := by
  rw [seek, List.dropWhile_append, if_neg (by simpa [seek] using h)]
  rfl

/-- Seeking in the first part first does not matter. -/
theorem seek_seek_append (s t : List α) :
    seek starts (seek starts s ++ t) = seek starts (s ++ t) := by
  by_cases h : seek starts s = []
  · rw [h, List.nil_append, seek_append_of_unmarked (seek_eq_nil h)]
  · rw [seek_append h, seek_append (by rwa [seek_seek]), seek_seek]

/-- The stream is empty or starts with a marked item. -/
theorem seek_eq_self_iff {s : List α} :
    seek starts s = s ↔ ∀ a rest, s = a :: rest → starts a = true := by
  cases s with
  | nil => simp
  | cons a rest =>
      by_cases ha : starts a = true
      · simp [seek_cons ha, ha]
      · have hshort : (seek starts (a :: rest)).length ≤ rest.length := by
          rw [seek, List.dropWhile_cons_of_pos (by simpa using ha)]
          exact (seek_sublist starts rest).length_le
        constructor
        · intro h
          rw [h, List.length_cons] at hshort
          omega
        · intro h
          exact absurd (h a rest rfl) ha

theorem wellFormed_append_cons {s t : List α} {a : α} (hs : s ≠ []) (ha : starts a = true) :
    wellFormed starts (s ++ a :: t) = false := by
  cases s with
  | nil => exact absurd rfl hs
  | cons b s => simp [wellFormed, ha]

theorem deframe_of_lt {n : Nat} {s : List α} (h : (seek starts s).length < n) :
    deframe starts n s = [] := by
  rw [deframe, if_neg (by omega)]

theorem deframe_of_le {n : Nat} {s : List α} (hn : 0 < n) (h : n ≤ (seek starts s).length) :
    deframe starts n s = [(seek starts s).take n].filter (wellFormed starts) ++
      deframe starts n ((seek starts s).drop n) := by
  rw [deframe, if_pos ⟨hn, h⟩]

/-- The frames depend on the stream from its first mark on. -/
theorem deframe_congr {n : Nat} {s t : List α} (h : seek starts s = seek starts t) :
    deframe starts n s = deframe starts n t := by
  by_cases hlong : 0 < n ∧ n ≤ (seek starts s).length
  · rw [deframe_of_le (s := s) hlong.1 hlong.2, h, ← deframe_of_le hlong.1 (h ▸ hlong.2)]
  · rw [deframe, if_neg hlong, deframe, if_neg (h ▸ hlong)]

/-- A stream of well-formed frames, behind items without a mark, gives these frames. -/
theorem deframe_frames {n : Nat} {frames : List (List α)}
    (hframes : ∀ frame ∈ frames, frame.length = n ∧ wellFormed starts frame = true)
    {unmarked : List α} (h : ∀ a ∈ unmarked, starts a = false) :
    deframe starts n (unmarked ++ frames.flatten) = frames := by
  rw [deframe_congr (seek_append_of_unmarked h _)]
  clear h
  induction frames with
  | nil =>
      rw [List.flatten_nil, deframe]
      cases n with
      | zero => rfl
      | succ n => exact if_neg (by simp)
  | cons frame frames ih =>
      obtain ⟨hlength, hwell⟩ := hframes frame List.mem_cons_self
      have hrest := ih fun f hf => hframes f (List.mem_cons_of_mem _ hf)
      cases frame with
      | nil => simp [wellFormed] at hwell
      | cons a rest =>
          have hseek : seek starts ((a :: rest) :: frames).flatten =
              (a :: rest) ++ frames.flatten := by
            have ha : starts a = true := by
              simp only [wellFormed, Bool.and_eq_true] at hwell
              exact hwell.1
            exact seek_cons ha _
          have hlong : n ≤ ((a :: rest) ++ frames.flatten).length := by
            rw [List.length_append]
            omega
          have hpos : 0 < n := by
            rw [← hlength, List.length_cons]
            omega
          rw [deframe_of_le hpos (by rwa [hseek]), hseek, List.take_left' hlength,
            List.drop_left' hlength, hrest]
          simp [hwell]

/-- What starts in junk and runs into a frame takes the mark of that frame inside. -/
theorem deframe_cut {n : Nat} {junk frame : List α} {frames : List (List α)}
    (hmarked : seek starts junk ≠ []) (hshort : (seek starts junk).length < n)
    (hframes : ∀ f ∈ frame :: frames, f.length = n ∧ wellFormed starts f = true) :
    deframe starts n (junk ++ (frame :: frames).flatten) = frames := by
  obtain ⟨hlength, hwell⟩ := hframes frame List.mem_cons_self
  have hothers := fun f hf => hframes f (List.mem_cons_of_mem frame hf)
  cases frame with
  | nil => simp [wellFormed] at hwell
  | cons a rest =>
      simp only [wellFormed, Bool.and_eq_true, List.all_eq_true, Bool.not_eq_true'] at hwell
      obtain ⟨ha, hrest⟩ := hwell
      rw [List.length_cons] at hlength
      obtain ⟨gap, hgap⟩ : ∃ gap, n - (seek starts junk).length = gap + 1 :=
        Nat.exists_eq_add_of_le' (by omega)
      have hseek : seek starts (junk ++ ((a :: rest) :: frames).flatten) =
          seek starts junk ++ a :: (rest ++ frames.flatten) := seek_append hmarked _
      have hlong : n ≤ (seek starts junk ++ a :: (rest ++ frames.flatten)).length := by
        simp only [List.length_append, List.length_cons]
        omega
      have htake : (seek starts junk ++ a :: (rest ++ frames.flatten)).take n =
          seek starts junk ++ a :: (rest ++ frames.flatten).take gap := by
        rw [List.take_append, List.take_of_length_le (by omega), hgap, List.take_succ_cons]
      have hdrop : (seek starts junk ++ a :: (rest ++ frames.flatten)).drop n =
          rest.drop gap ++ frames.flatten := by
        rw [List.drop_append, List.drop_eq_nil_of_le (by omega), hgap, List.drop_succ_cons,
          List.nil_append, List.drop_append_of_le_length (by omega)]
      rw [deframe_of_le (by omega) (by rwa [hseek]), hseek, htake, hdrop,
        deframe_frames hothers fun b hb => hrest b (List.mem_of_mem_drop hb)]
      simp [wellFormed_append_cons hmarked ha]

/-- The frames are made of items of the stream, in their order. -/
theorem deframe_sublist (n : Nat) (s : List α) : (deframe starts n s).flatten.Sublist s := by
  induction s using deframe.induct starts n with
  | case1 s h ih =>
      rw [deframe_of_le h.1 h.2, List.flatten_append]
      refine List.Sublist.trans ?_ (seek_sublist starts s)
      have hfirst : ([(seek starts s).take n].filter (wellFormed starts)).flatten.Sublist
          ((seek starts s).take n) := by
        cases hwell : wellFormed starts ((seek starts s).take n) with
        | true => simp [hwell]
        | false => simp [hwell]
      simpa using hfirst.append ih
  | case2 s h =>
      rw [deframe, if_neg h]
      exact List.nil_sublist s

/-- Every frame is well formed and has its length. -/
theorem wellFormed_of_mem_deframe {n : Nat} {s frame : List α}
    (h : frame ∈ deframe starts n s) : frame.length = n ∧ wellFormed starts frame = true := by
  induction s using deframe.induct starts n with
  | case1 s hs ih =>
      rw [deframe_of_le hs.1 hs.2, List.mem_append, List.mem_filter, List.mem_singleton] at h
      cases h with
      | inl hfirst =>
          obtain ⟨rfl, hwell⟩ := hfirst
          exact ⟨List.length_take_of_le hs.2, hwell⟩
      | inr hrest => exact ih hrest
  | case2 s hs =>
      rw [deframe, if_neg hs] at h
      exact absurd h List.not_mem_nil

/-- After junk at most the first frame is lost, and no other. -/
theorem deframe_junk_append {n : Nat} (hn : 0 < n) (junk : List α) {frames : List (List α)}
    (hframes : ∀ frame ∈ frames, frame.length = n ∧ wellFormed starts frame = true) :
    deframe starts n (junk ++ frames.flatten) = deframe starts n junk ++ frames ∨
      deframe starts n (junk ++ frames.flatten) = deframe starts n junk ++ frames.tail := by
  induction junk using deframe.induct starts n with
  | case1 junk h ih =>
      -- A whole frame lies in the junk.
      have hseek : seek starts (junk ++ frames.flatten) = seek starts junk ++ frames.flatten :=
        seek_append (List.ne_nil_of_length_pos (by omega)) _
      have hlong : n ≤ (seek starts (junk ++ frames.flatten)).length := by
        rw [hseek, List.length_append]
        omega
      rw [deframe_of_le hn hlong, deframe_of_le hn h.2, hseek, List.take_append_of_le_length h.2,
        List.drop_append_of_le_length h.2, List.append_assoc, List.append_assoc]
      exact ih.imp (congrArg _) (congrArg _)
  | case2 junk h =>
      have hshort : (seek starts junk).length < n := by omega
      rw [deframe_of_lt hshort, List.nil_append, List.nil_append]
      by_cases hnil : seek starts junk = []
      · exact Or.inl (deframe_frames hframes (seek_eq_nil hnil))
      · cases frames with
        | nil =>
            left
            rw [List.flatten_nil, List.append_nil, deframe_of_lt hshort]
        | cons frame frames =>
            exact Or.inr (deframe_cut hnil hshort hframes)

/-- What is found in the junk, and then the frames, or all but the first. -/
theorem deframe_resynchronises {n : Nat} (hn : 0 < n) (junk : List α) {frames : List (List α)}
    (hframes : ∀ frame ∈ frames, frame.length = n ∧ wellFormed starts frame = true) :
    ∃ inJunk delivered, inJunk.flatten.Sublist junk ∧
      (delivered = frames ∨ delivered = frames.tail) ∧
      deframe starts n (junk ++ frames.flatten) = inJunk ++ delivered := by
  cases deframe_junk_append hn junk hframes with
  | inl hall => exact ⟨_, frames, deframe_sublist n junk, Or.inl rfl, hall⟩
  | inr hlost => exact ⟨_, frames.tail, deframe_sublist n junk, Or.inr rfl, hlost⟩

end StreamFraming
