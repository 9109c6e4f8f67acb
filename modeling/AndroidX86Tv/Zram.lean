import Mathlib.Data.List.TakeWhile
import Mathlib.Data.Nat.Digits.Lemmas

/-!
# The size of the swap in memory (init.zram.sh)

The script takes eight characters of the line of `/proc/meminfo` for the size of the
memory. Those are all of its digits up to 99999999 kB. Of a longer number they are the
first ones, and the swap is sized for a machine with a tenth of the memory or less.

## Implementation notes

The numbers stay far below the limit of the arithmetic of the shell. What the kernel is
asked for is a list of effects in their order.
-/

namespace AndroidX86Tv.Zram

/-- The machine and the variables that the command line of the kernel sets. -/
structure Machine where
  /-- `MemTotal`, in kB. -/
  memTotal : Nat
  /-- `uname -m`. -/
  machine : String
  /-- `ro.config.low_ram`. -/
  lowRam : String
  disksize : Bool
  useDedup : Bool
  zsHandle : Bool
  zspage : Bool
  disableZram : String

inductive Effect where
  | write (path text : String)
  | mkswap (device : String)
  | swapon (device : String) (priority : Nat)
  deriving DecidableEq

def digitChar (digit : Nat) : Char := Char.ofNat (48 + digit)

/-- A number as the kernel and the shell print it. -/
def decimal (n : Nat) : List Char :=
  if n = 0 then ['0'] else ((Nat.digits 10 n).map digitChar).reverse

/-- A number right-justified in eight columns. -/
def padded (n : Nat) : List Char := List.replicate (8 - (decimal n).length) ' ' ++ decimal n

def memTotalLabel : List Char := "MemTotal:       ".toList

/-- The line of `/proc/meminfo`. -/
def memTotalStr (memTotal : Nat) : List Char :=
  memTotalLabel ++ padded memTotal ++ " kB".toList

/-- What the arithmetic of the shell takes a text for. -/
def shellNumber (text : List Char) : Nat :=
  ((text.dropWhile (· = ' ')).takeWhile Char.isDigit).foldl
    (fun n c => n * 10 + (c.toNat - 48)) 0

/-- `${MemTotalStr:16:8}`. -/
def memTotalRead (memTotal : Nat) : Nat :=
  shellNumber (((memTotalStr memTotal).drop 16).take 8)

def ramSizeGB (memTotal : Nat) : Nat := memTotal / 1048576 + 1

def zRamSizeMB (ramSizeGB : Nat) (machine : String) : Nat :=
  let size := if ramSizeGB ≤ 2 then ramSizeGB * 1024 * 3 / 4 else ramSizeGB * 1024 / 2
  let size := if ramSizeGB > 8 then ramSizeGB * 1024 / 4 else size
  if machine ≠ "x86_64" ∧ size > 4096 then 4096 else size

def megabytes (size : Nat) : String := String.ofList (decimal size ++ ['M'])

def disksizeFile : String := "/sys/block/zram0/disksize"

def configureZramParameters (m : Machine) : List Effect :=
  let size := zRamSizeMB (ramSizeGB (memTotalRead m.memTotal)) m.machine
  (if m.lowRam = "true" then [.write "/sys/block/zram0/comp_algorithm" "lz4"] else []) ++
    (if m.disksize then
      (if m.useDedup then [.write "/sys/block/zram0/use_dedup" "1"] else []) ++
        [.write disksizeFile (megabytes size)] ++
        (if m.zsHandle then [.write "/sys/kernel/slab/zs_handle/store_user" "0"] else []) ++
        (if m.zspage then [.write "/sys/kernel/slab/zspage/store_user" "0"] else []) ++
        [.mkswap "/dev/block/zram0", .swapon "/dev/block/zram0" 32758]
    else []) ++
    [.write "/proc/sys/vm/swappiness" "80"]

def zramScript (m : Machine) : List Effect :=
  if m.disableZram ≠ "1" then configureZramParameters m else []

section Digits

theorem digitChar_spec : ∀ digit < 10, (digitChar digit).isDigit = true ∧
    (digitChar digit).toNat - 48 = digit ∧ digitChar digit ≠ ' ' := by
  decide

/-- The digits of a number as they are printed. -/
def printed (digits : List Nat) : List Char := (digits.map digitChar).reverse

theorem foldl_printed {digits : List Nat} (h : ∀ digit ∈ digits, digit < 10) :
    (printed digits).foldl (fun n c => n * 10 + (c.toNat - 48)) 0 = Nat.ofDigits 10 digits := by
  induction digits with
  | nil => rfl
  | cons digit digits ih =>
      obtain ⟨hdigit, hrest⟩ := List.forall_mem_cons.mp h
      have hprinted : printed (digit :: digits) = printed digits ++ [digitChar digit] := by
        simp [printed]
      rw [hprinted, List.foldl_append, ih hrest, Nat.ofDigits_cons]
      simp only [List.foldl_cons, List.foldl_nil, (digitChar_spec digit hdigit).2.1]
      omega

theorem printed_isDigit {digits : List Nat} (h : ∀ digit ∈ digits, digit < 10) :
    ∀ c ∈ printed digits, c.isDigit = true ∧ c ≠ ' ' := by
  intro c hc
  obtain ⟨digit, hdigit, rfl⟩ := List.mem_map.mp (List.mem_reverse.mp hc)
  obtain ⟨hisDigit, -, hblank⟩ := digitChar_spec digit (h digit hdigit)
  exact ⟨hisDigit, hblank⟩

/-- Digits behind blanks are read as the number that they print. -/
theorem shellNumber_printed {digits : List Nat} (h : ∀ digit ∈ digits, digit < 10) (blanks : Nat) :
    shellNumber (List.replicate blanks ' ' ++ printed digits) = Nat.ofDigits 10 digits := by
  have hdigits := printed_isDigit h
  have hdrop : (List.replicate blanks ' ' ++ printed digits).dropWhile (· = ' ') =
      printed digits := by
    rw [List.dropWhile_append_of_pos (by simp)]
    refine List.dropWhile_eq_self_iff.mpr fun hlength => ?_
    simpa using (hdigits _ (List.getElem_mem hlength)).2
  have htake : (printed digits).takeWhile Char.isDigit = printed digits :=
    List.takeWhile_eq_self_iff.mpr fun c hc => (hdigits c hc).1
  rw [shellNumber, hdrop, htake, foldl_printed h]

theorem decimal_eq {n : Nat} (h : n ≠ 0) : decimal n = printed (Nat.digits 10 n) := if_neg h

theorem digits_lt (n : Nat) : ∀ digit ∈ Nat.digits 10 n, digit < 10 :=
  fun _ hdigit => Nat.digits_lt_base (by decide) hdigit

theorem shellNumber_decimal (n : Nat) : shellNumber (decimal n) = n := by
  by_cases hzero : n = 0
  · rw [hzero]
    decide
  · have hread := shellNumber_printed (digits_lt n) 0
    rw [List.replicate_zero, List.nil_append, Nat.ofDigits_digits] at hread
    rw [decimal_eq hzero, hread]

theorem decimal_injective {n k : Nat} (h : decimal n = decimal k) : n = k := by
  rw [← shellNumber_decimal n, h, shellNumber_decimal]

end Digits

section MemTotal

/-- What remains of a number of more than eight digits. -/
def firstEight (n : Nat) : Nat := n / 10 ^ ((Nat.digits 10 n).length - 8)

theorem memTotalStr_field (n : Nat) :
    ((memTotalStr n).drop 16).take 8 = (padded n).take 8 := by
  have hlabel : memTotalLabel.length = 16 := by decide
  have hwidth : 8 ≤ (padded n).length := by
    rw [padded, List.length_append, List.length_replicate]
    omega
  have hline : memTotalStr n = memTotalLabel ++ (padded n ++ " kB".toList) :=
    List.append_assoc ..
  rw [hline, List.drop_left' hlabel, List.take_append_of_le_length hwidth]

/-- The script reads the number, or its first eight digits. -/
theorem memTotalRead_eq (n : Nat) : memTotalRead n = firstEight n := by
  rw [memTotalRead, memTotalStr_field]
  by_cases hzero : n = 0
  · rw [hzero]
    decide
  have hlength : (decimal n).length = (Nat.digits 10 n).length := by
    rw [decimal_eq hzero, printed, List.length_reverse, List.length_map]
  rw [padded, hlength, decimal_eq hzero, firstEight]
  rcases Nat.le_total (Nat.digits 10 n).length 8 with hshort | hlong
  · have hwhole : (List.replicate (8 - (Nat.digits 10 n).length) ' ' ++
        printed (Nat.digits 10 n)).length = 8 := by
      rw [List.length_append, List.length_replicate, printed, List.length_reverse,
        List.length_map]
      omega
    rw [List.take_of_length_le hwhole.le, shellNumber_printed (digits_lt n),
      Nat.ofDigits_digits, Nat.sub_eq_zero_of_le hshort, Nat.pow_zero, Nat.div_one]
  · have htake : (printed (Nat.digits 10 n)).take 8 =
        printed ((Nat.digits 10 n).drop ((Nat.digits 10 n).length - 8)) := by
      rw [printed, printed, List.take_reverse, List.length_map, List.map_drop]
    have hread := shellNumber_printed
      (fun digit hdigit => digits_lt n digit (List.mem_of_mem_drop hdigit) :
        ∀ digit ∈ (Nat.digits 10 n).drop ((Nat.digits 10 n).length - 8), digit < 10) 0
    rw [List.replicate_zero, List.nil_append] at hread
    rw [Nat.sub_eq_zero_of_le hlong, List.replicate_zero, List.nil_append, htake, hread]
    exact (Nat.self_div_pow_eq_ofDigits_drop _ n (by decide)).symm

theorem firstEight_of_lt {n : Nat} (h : n < 10 ^ 8) : firstEight n = n := by
  have hlength : (Nat.digits 10 n).length ≤ 8 :=
    (Nat.digits_length_le_iff (by decide) n).mpr h
  rw [firstEight, Nat.sub_eq_zero_of_le hlength, Nat.pow_zero, Nat.div_one]

/-- Of nine digits or more, at least one is lost. -/
theorem firstEight_le {n : Nat} (h : 10 ^ 8 ≤ n) : firstEight n ≤ n / 10 := by
  have hlength : 8 < (Nat.digits 10 n).length := (Nat.lt_digits_length_iff (by decide) n).mpr h
  exact Nat.div_le_div_left (Nat.le_self_pow (by omega) 10) (by decide)

theorem le_firstEight {n : Nat} (h : 10 ^ 8 ≤ n) : 10 ^ 7 ≤ firstEight n := by
  have hlength : 8 < (Nat.digits 10 n).length := (Nat.lt_digits_length_iff (by decide) n).mpr h
  have hpow : 10 ^ ((Nat.digits 10 n).length - 1) ≤ n :=
    (Nat.lt_digits_length_iff (by decide) n).mp (by omega)
  have hsplit : 10 ^ ((Nat.digits 10 n).length - 1) =
      10 ^ 7 * 10 ^ ((Nat.digits 10 n).length - 8) := by
    rw [← Nat.pow_add]
    congr 1
    omega
  exact (Nat.le_div_iff_mul_le (by positivity)).mpr (hsplit ▸ hpow)

end MemTotal

section Size

/-- A quarter of the memory from nine GB on, with the limit of the other machines. -/
theorem zRamSizeMB_large {gb : Nat} (h : 8 < gb) (machine : String) :
    zRamSizeMB gb machine =
      if machine = "x86_64" then gb * 256 else min (gb * 256) 4096 := by
  have hquarter : gb * 1024 / 4 = gb * 256 := by omega
  by_cases hmachine : machine = "x86_64"
  · simp [zRamSizeMB, hmachine, h, hquarter]
  · simp only [zRamSizeMB, h, if_true, hquarter, hmachine, if_false, ne_eq, not_false_eq_true,
      true_and]
    split <;> omega

/-- Of a number of nine digits or more the size differs, but for the limit of four GB. -/
theorem zRamSizeMB_firstEight_iff {n : Nat} (h : 10 ^ 8 ≤ n) (machine : String) :
    zRamSizeMB (ramSizeGB (firstEight n)) machine = zRamSizeMB (ramSizeGB n) machine ↔
      machine ≠ "x86_64" ∧ 15 * 2 ^ 20 ≤ firstEight n := by
  have hle := firstEight_le h
  have hge := le_firstEight h
  have hread : 8 < ramSizeGB (firstEight n) := by
    unfold ramSizeGB
    omega
  have hreal : 8 < ramSizeGB n := by
    unfold ramSizeGB
    omega
  rw [zRamSizeMB_large hread, zRamSizeMB_large hreal]
  unfold ramSizeGB
  by_cases hmachine : machine = "x86_64"
  · simp only [hmachine, if_true, ne_eq, not_true, false_and, iff_false]
    omega
  · simp only [hmachine, if_false, ne_eq, not_false_eq_true, true_and]
    omega

theorem megabytes_injective {size other : Nat} (h : megabytes size = megabytes other) :
    size = other := by
  have hchars := String.ofList_injective h
  exact decimal_injective (List.append_cancel_right hchars)

/-- The one size that the script asks for. -/
theorem mem_zramScript_iff (m : Machine) (size : Nat) :
    Effect.write disksizeFile (megabytes size) ∈ zramScript m ↔
      m.disableZram ≠ "1" ∧ m.disksize = true ∧
        size = zRamSizeMB (ramSizeGB (memTotalRead m.memTotal)) m.machine := by
  have hfile : Effect.write disksizeFile (megabytes size) ∈ configureZramParameters m ↔
      m.disksize = true ∧ megabytes size =
        megabytes (zRamSizeMB (ramSizeGB (memTotalRead m.memTotal)) m.machine) := by
    -- every other file that is written has another name
    simp only [configureZramParameters, List.mem_append, List.mem_ite_nil_right,
      List.mem_cons, List.not_mem_nil, or_false, Effect.write.injEq, disksizeFile,
      reduceCtorEq, String.reduceEq, false_and, and_false, false_or, true_and]
  rw [zramScript, List.mem_ite_nil_right, hfile]
  exact and_congr_right fun _ => and_congr_right fun _ =>
    ⟨megabytes_injective, congrArg megabytes⟩

/-- The swap has the size for the memory of the machine up to 99999999 kB, and with more
memory only where the limit of four GB is reached with the first eight digits as well. -/
theorem zramScript_size_iff (m : Machine) :
    Effect.write disksizeFile (megabytes (zRamSizeMB (ramSizeGB m.memTotal) m.machine)) ∈
        zramScript m ↔
      m.disableZram ≠ "1" ∧ m.disksize = true ∧
        (m.memTotal < 10 ^ 8 ∨
          m.machine ≠ "x86_64" ∧ 15 * 2 ^ 20 ≤ firstEight m.memTotal) := by
  rw [mem_zramScript_iff, memTotalRead_eq]
  refine and_congr_right fun _ => and_congr_right fun _ => ?_
  rcases Nat.lt_or_ge m.memTotal (10 ^ 8) with hshort | hlong
  · rw [firstEight_of_lt hshort]
    exact ⟨fun _ => Or.inl hshort, fun _ => rfl⟩
  · rw [eq_comm, zRamSizeMB_firstEight_iff hlong]
    exact ⟨Or.inr, fun h => h.resolve_left (Nat.not_lt.mpr hlong)⟩

end Size

end AndroidX86Tv.Zram
