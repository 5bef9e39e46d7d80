import Mathlib.Algebra.BigOperators.Fin
import Mathlib.Algebra.Order.BigOperators.Group.Finset
import Mathlib.Algebra.Order.Field.Rat
import Mathlib.Tactic.NormNum
import IcsGateway.Common.StrTo

/-!
# The load of the processor

`SystemInfo::LoadCPU` reads the counters of the line `cpu` in `/proc/stat` and divides the busy
time, times a hundred, by the whole (`Common/ComSysInfo.cpp:85`). Counters, sums and the product
are of 32 bits.
-/

namespace IcsGateway

open Lib ComUtil

/-- The counters of the processors and their sums; `Common/ComSysInfo.h:19`. -/
structure CPUEntry where
  times : Fin 10 → UInt32
  totalTime : UInt32
  activeTime : UInt32
  idleTime : UInt32

/-- The members of `SystemInfo` that `LoadCPU` writes. The load is kept as the operands of the
division. -/
structure SystemInfo where
  cpu : CPUEntry
  cpuLoad : UInt32 × UInt32

/-- `operator>>(uint&)`: a number that does not fit becomes the greatest, a negative one wraps. -/
def uintOfDigits (neg : Bool) (n : Nat) : UInt32 × Bool :=
  if 2 ^ 32 - 1 < n then (UInt32.ofNat (2 ^ 32 - 1), true)
  else (if neg then -UInt32.ofNat n else UInt32.ofNat n, false)

namespace CPUEntry

/-- The indices of the counters; `Common/ComSysInfo.h:8–17`. -/
def user : Fin 10 := 0
def nice : Fin 10 := 1
def sys : Fin 10 := 2
def idle : Fin 10 := 3
def iow : Fin 10 := 4
def irq : Fin 10 := 5
def sirq : Fin 10 := 6
def steal : Fin 10 := 7
def guest : Fin 10 := 8
def gnice : Fin 10 := 9

/-- The loop that reads the counters. -/
def readTimes : List (Fin 10) → (Fin 10 → UInt32) → InputStream → (Fin 10 → UInt32)
  | [], times, _ => times
  | i :: is, times, ss =>
    let (v, ss) := ss.extract isspace uintOfDigits 0 (times i)
    readTimes is (Function.update times i v) ss

/-- The sums over the counters. -/
def ofTimes (times : Fin 10 → UInt32) : CPUEntry :=
  let active := times user + times nice + times sys + times irq + times sirq + times steal +
    times guest + times gnice
  let idle := times idle + times iow
  { times := times, totalTime := active + idle, activeTime := active, idleTime := idle }

end CPUEntry

namespace SystemInfo

/-- The loop over the lines; `cpu` is the word that was read last. -/
def scan (s : SystemInfo) (cpu : List Char) : List COMStr → Bool × SystemInfo
  | [] => (false, s)
  | line :: lines =>
    let (cpu, ss) := (InputStream.ofText line.toList).extractWord isspace cpu
    if cpu = ['c', 'p', 'u'] then
      let entry := CPUEntry.ofTimes (CPUEntry.readTimes (List.finRange 10) s.cpu.times ss)
      (true, { cpu := entry, cpuLoad := (entry.activeTime * 100, entry.totalTime) })
    else scan s cpu lines

/-- `SystemInfo::LoadCPU` on the text of `/proc/stat`; `Common/ComSysInfo.cpp:85`. -/
def loadCPU (s : SystemInfo) (stat : COMStr) : Bool × SystemInfo :=
  scan s [] (getlines '\n' [] stat.toList)

/-- The load before it is rounded. -/
def load (s : SystemInfo) : ℚ := s.cpuLoad.1.toNat / s.cpuLoad.2.toNat

end SystemInfo

/-! ### What `/proc/stat` says -/

/-- Counters behind white space, and nothing or white space behind them. -/
inductive Counters : List Char → List Nat → Prop
  | nil (tail : List Char) (htail : ∀ c ∈ tail.head?, isspace c = true) : Counters tail []
  | cons (b : Char) (ws ds rest : List Char) (ns : List Nat) (hb : isspace b = true)
    (hws : Blank ws) (hne : ds ≠ []) (hds : ∀ c ∈ ds, c.isDigit = true) (hrest : Counters rest ns) :
    Counters (b :: ws ++ (ds ++ rest)) (Nat.ofDigitChars 10 ds 0 :: ns)

/-- The first word of a line. -/
def firstWord (line : COMStr) : List Char :=
  (line.toList.dropWhile isspace).takeWhile (!isspace ·)

/-- The first line `cpu` of the text has these counters. -/
def CpuStat (stat : COMStr) (n : Fin 10 → Nat) : Prop :=
  ∃ before fields after, getlines '\n' [] stat.toList =
      before ++ String.ofList ('c' :: 'p' :: 'u' :: fields) :: after ∧
    (∀ line ∈ before, firstWord line ≠ ['c', 'p', 'u']) ∧ Counters fields (List.ofFn n)

/-- Counters as the kernel prints them. -/
def printCounters (ns : List Nat) : List Char := ns.flatMap fun n ↦ ' ' :: Nat.toDigits 10 n

/-- What is printed are these counters. -/
theorem counters_print (ns : List Nat) : Counters (printCounters ns) ns := by
  induction ns with
  | nil => exact .nil [] (by simp)
  | cons n ns ih =>
    have hdigits : ∀ c ∈ Nat.toDigits 10 n, c.isDigit = true := fun c hc ↦
      Nat.isDigit_of_mem_toDigits (by decide) (by decide) hc
    have hcons := Counters.cons ' ' [] (Nat.toDigits 10 n) (printCounters ns) ns (by decide)
      (by simp [Blank]) Nat.toDigits_ne_nil hdigits ih
    rw [Nat.ofDigitChars_ten_toDigits] at hcons
    exact hcons

/-- A printed line `cpu`, alone in the text. -/
theorem cpuStat_print (n : Fin 10 → Nat) :
    CpuStat (String.ofList ('c' :: 'p' :: 'u' :: printCounters (List.ofFn n) ++ ['\n'])) n := by
  have hbreak : ∀ ns, '\n' ∉ printCounters ns := by
    intro ns hmem
    obtain ⟨m, -, hm⟩ := List.mem_flatMap.mp hmem
    rcases List.mem_cons.mp hm with hblank | hdigit
    · exact absurd hblank (by decide)
    · exact absurd (Nat.isDigit_of_mem_toDigits (by decide) (by decide) hdigit) (by decide)
  have hword : '\n' ∉ 'c' :: 'p' :: 'u' :: printCounters (List.ofFn n) := by
    simp [hbreak]
  refine ⟨[], printCounters (List.ofFn n), [], ?_, by simp, counters_print _⟩
  rw [String.toList_ofList, getlines_append_cons hword]
  rfl

namespace CPUEntry

/-- The exact sum of the busy counters. -/
def active (n : Fin 10 → Nat) : Nat :=
  n user + n nice + n sys + n irq + n sirq + n steal + n guest + n gnice

/-- The exact sum of all counters. -/
def total (n : Fin 10 → Nat) : Nat := ∑ i, n i

/-- A counter that is not read stays. -/
private theorem readTimes_of_notMem {is : List (Fin 10)} {i : Fin 10} (h : i ∉ is)
    (times : Fin 10 → UInt32) (ss : InputStream) : readTimes is times ss i = times i := by
  induction is generalizing times ss with
  | nil => rfl
  | cons j is ih =>
    rw [List.mem_cons, not_or] at h
    show readTimes is (Function.update times j _) _ i = times i
    rw [ih h.2, Function.update_of_ne h.1]

/-- Behind counters stands no digit. -/
private theorem head_of_counters {cs : List Char} {ns : List Nat} (h : Counters cs ns) :
    ∀ c ∈ cs.head?, isspace c = true := by
  cases h with
  | nil _ htail => exact htail
  | cons b ws ds rest ns hb =>
    intro c hc
    cases hc
    exact hb

/-- The counters that the loop reads. -/
private theorem map_readTimes {is : List (Fin 10)} (hnodup : is.Nodup) {cs : List Char}
    {ns : List Nat} (h : Counters cs ns) (hlen : is.length = ns.length)
    (hns : ∀ n ∈ ns, n < 2 ^ 32) (times : Fin 10 → UInt32) (eof : Bool)
    (heof : ns ≠ [] → eof = false) :
    is.map (readTimes is times { rest := cs, eof := eof, fail := false }) =
      ns.map UInt32.ofNat := by
  induction h generalizing is times eof with
  | nil tail htail =>
    rw [List.eq_nil_of_length_eq_zero hlen]
    rfl
  | cons b ws ds rest ns hb hws hne hds hrest ih =>
    obtain ⟨i, is, rfl⟩ := List.exists_cons_of_length_eq_add_one hlen
    rw [List.nodup_cons] at hnodup
    obtain ⟨hn, hns⟩ := List.forall_mem_cons.mp hns
    have hcut : Cut isspace (b :: ws ++ (ds ++ rest)) (b :: ws) none ds rest := by
      constructor
      · rfl
      · exact List.forall_mem_cons.mpr ⟨hb, hws⟩
      · exact hds
      · intro c hc
        exact (blanks_isspace c (head_of_counters hrest c hc)).1
      · exact fun _ hnil ↦ absurd hnil hne
    have hread := InputStream.extract_ofText blanks_isspace hcut uintOfDigits 0 (times i)
    have hvalue : uintOfDigits (none == some true) (Nat.ofDigitChars 10 ds 0) =
        (UInt32.ofNat (Nat.ofDigitChars 10 ds 0), false) := by
      rw [uintOfDigits, if_neg (by omega)]
      rfl
    rw [if_neg hne, hvalue, InputStream.ofText] at hread
    have heof' : ns ≠ [] → rest.isEmpty = false := by
      intro hns'
      cases hrest with
      | nil => exact absurd rfl hns'
      | cons => rfl
    rw [heof (List.cons_ne_nil _ _)]
    simp only [readTimes, hread, List.map_cons]
    rw [readTimes_of_notMem hnodup.1, Function.update_self,
      ih hnodup.2 (Nat.succ.inj hlen) hns _ _ heof']

/-- The counters that are read from fields. -/
theorem readTimes_counters {fields : List Char} {n : Fin 10 → Nat}
    (h : Counters fields (List.ofFn n)) (hn : ∀ i, n i < 2 ^ 32) (times : Fin 10 → UInt32) :
    readTimes (List.finRange 10) times (InputStream.ofText fields) =
      fun i ↦ UInt32.ofNat (n i) := by
  have hns : ∀ m ∈ List.ofFn n, m < 2 ^ 32 := by
    intro m hm
    obtain ⟨i, rfl⟩ := (List.mem_ofFn' n m).mp hm
    exact hn i
  have hmap := map_readTimes (List.nodup_finRange 10) h
    (by rw [List.length_finRange, List.length_ofFn]) hns times false fun _ ↦ rfl
  rw [List.ofFn_eq_map, List.map_map, List.map_inj_left] at hmap
  funext i
  exact hmap i (List.mem_finRange i)

/-- The busy and the idle counters make up the whole. -/
theorem total_eq (n : Fin 10 → Nat) : total n = active n + (n idle + n iow) := by
  rw [total, Fin.sum_univ_castSucc, Fin.sum_univ_castSucc, Fin.sum_univ_eight]
  show n 0 + n 1 + n 2 + n 3 + n 4 + n 5 + n 6 + n 7 + n 8 + n 9 =
    n 0 + n 1 + n 2 + n 5 + n 6 + n 7 + n 8 + n 9 + (n 3 + n 4)
  omega

/-- The sums of counters that fit together do not wrap. -/
theorem ofTimes_exact {n : Fin 10 → Nat} (h : total n < 2 ^ 32) :
    (ofTimes fun i ↦ UInt32.ofNat (n i)).activeTime.toNat = active n ∧
      (ofTimes fun i ↦ UInt32.ofNat (n i)).totalTime.toNat = total n := by
  have hactive : active n ≤ total n := by
    rw [total_eq]
    omega
  have hsum : (ofTimes fun i ↦ UInt32.ofNat (n i)).activeTime = UInt32.ofNat (active n) := by
    simp only [ofTimes, active, UInt32.ofNat_add]
  have hwhole : (ofTimes fun i ↦ UInt32.ofNat (n i)).totalTime = UInt32.ofNat (total n) := by
    simp only [ofTimes, total_eq, active, UInt32.ofNat_add]
  rw [hsum, hwhole, UInt32.toNat_ofNat', UInt32.toNat_ofNat', Nat.mod_eq_of_lt h,
    Nat.mod_eq_of_lt (by omega)]
  exact ⟨rfl, rfl⟩

end CPUEntry

namespace SystemInfo

/-- The lines before the first line `cpu` are passed over. -/
private theorem scan_append (s : SystemInfo) {before : List COMStr}
    (h : ∀ line ∈ before, firstWord line ≠ ['c', 'p', 'u']) {cpu : List Char}
    (hcpu : cpu ≠ ['c', 'p', 'u']) (fields : List Char) (after : List COMStr)
    (hfields : ∀ c ∈ fields.head?, isspace c = true) (hne : fields ≠ []) :
    scan s cpu (before ++ String.ofList ('c' :: 'p' :: 'u' :: fields) :: after) =
      (true,
        { cpu := CPUEntry.ofTimes (CPUEntry.readTimes (List.finRange 10) s.cpu.times
            (InputStream.ofText fields))
          cpuLoad := ((CPUEntry.ofTimes (CPUEntry.readTimes (List.finRange 10) s.cpu.times
              (InputStream.ofText fields))).activeTime * 100,
            (CPUEntry.ofTimes (CPUEntry.readTimes (List.finRange 10) s.cpu.times
              (InputStream.ofText fields))).totalTime) }) := by
  induction before generalizing cpu with
  | nil =>
    obtain ⟨b, rest, rfl⟩ := List.exists_cons_of_ne_nil hne
    have hword := InputStream.extractWord_append isspace cpu ['c', 'p', 'u']
      (List.cons_ne_nil _ _) (by simp [isspace]) (hfields b rfl) rest
    rw [List.nil_append, scan, String.toList_ofList]
    simp only [List.cons_append, List.nil_append] at hword
    simp only [hword, if_true]
  | cons line before ih =>
    obtain ⟨hline, hbefore⟩ := List.forall_mem_cons.mp h
    have hword := InputStream.extractWord_ofText isspace cpu line.toList
    have hnot : ((InputStream.ofText line.toList).extractWord isspace cpu).1 ≠ ['c', 'p', 'u'] := by
      rw [hword]
      split
      · exact hcpu
      · exact hline
    rw [List.cons_append, scan]
    simp only [if_neg hnot]
    exact ih hbefore hnot

/-- What `LoadCPU` leaves for a text with counters that fit together. -/
private theorem loadCPU_of_cpuStat (s : SystemInfo) {stat : COMStr} {n : Fin 10 → Nat}
    (h : CpuStat stat n) (hsum : CPUEntry.total n < 2 ^ 32) :
    (loadCPU s stat).1 = true ∧
      (loadCPU s stat).2.load =
        ((CPUEntry.active n * 100 % 2 ^ 32 : Nat) : ℚ) / CPUEntry.total n := by
  obtain ⟨before, fields, after, hlines, hbefore, hfields⟩ := h
  have hne : fields ≠ [] := by
    rintro rfl
    rw [List.ofFn_succ] at hfields
    cases hfields
  have hn : ∀ i, n i < 2 ^ 32 := fun i ↦
    Nat.lt_of_le_of_lt (Finset.single_le_sum (fun _ _ ↦ Nat.zero_le _) (Finset.mem_univ i)) hsum
  obtain ⟨hactive, htotal⟩ := CPUEntry.ofTimes_exact hsum
  have hnil : [] ≠ ['c', 'p', 'u'] := (List.cons_ne_nil _ _).symm
  rw [loadCPU, hlines, scan_append s hbefore hnil fields after
    (CPUEntry.head_of_counters hfields) hne, CPUEntry.readTimes_counters hfields hn]
  refine ⟨rfl, ?_⟩
  have hnum : ((CPUEntry.ofTimes fun i ↦ UInt32.ofNat (n i)).activeTime * 100).toNat =
      CPUEntry.active n * 100 % 2 ^ 32 := by
    rw [← hactive]
    exact UInt32.toNat_mul ..
  rw [load, ← hnum, ← htotal]

/-- The load is the busy part of the whole in percent. -/
def LoadRight (s : SystemInfo) (n : Fin 10 → Nat) : Prop :=
  s.load = 100 * CPUEntry.active n / CPUEntry.total n ∧ 0 ≤ s.load ∧ s.load ≤ 100

/-- The load comes out right exactly when a hundred times the busy time fits into 32 bits. -/
theorem loadCPU_right_iff (s : SystemInfo) (stat : COMStr) (n : Fin 10 → Nat)
    (h : CpuStat stat n) (hne : ∃ i, n i ≠ 0) (hsum : CPUEntry.total n < 2 ^ 32) :
    (loadCPU s stat).1 = true ∧ LoadRight (loadCPU s stat).2 n ↔
      CPUEntry.active n * 100 < 2 ^ 32 := by
  obtain ⟨hdone, hload⟩ := loadCPU_of_cpuStat s h hsum
  have hpos : 0 < CPUEntry.total n := by
    obtain ⟨i, hi⟩ := hne
    exact Nat.lt_of_lt_of_le (Nat.pos_of_ne_zero hi)
      (Finset.single_le_sum (fun _ _ ↦ Nat.zero_le _) (Finset.mem_univ i))
  have hle : CPUEntry.active n ≤ CPUEntry.total n := by
    have htotal : CPUEntry.total n = CPUEntry.active n + (n CPUEntry.idle + n CPUEntry.iow) :=
      CPUEntry.total_eq n
    omega
  have hposQ : (0 : ℚ) < CPUEntry.total n := by exact_mod_cast hpos
  rw [and_iff_right hdone, LoadRight, hload]
  constructor
  · rintro ⟨heq, -⟩
    rw [div_left_inj' hposQ.ne'] at heq
    have hmod : CPUEntry.active n * 100 % 2 ^ 32 = 100 * CPUEntry.active n := by
      exact_mod_cast heq
    omega
  · intro hfits
    rw [Nat.mod_eq_of_lt hfits]
    have hcomm : ((CPUEntry.active n * 100 : Nat) : ℚ) = 100 * CPUEntry.active n := by
      push_cast
      exact mul_comm _ _
    have hleQ : (CPUEntry.active n : ℚ) ≤ CPUEntry.total n := by exact_mod_cast hle
    rw [hcomm]
    have hnonneg : (0 : ℚ) ≤ 100 * CPUEntry.active n := by
      exact_mod_cast Nat.zero_le (100 * CPUEntry.active n)
    refine ⟨rfl, div_nonneg hnonneg hposQ.le, ?_⟩
    rw [div_le_iff₀ hposQ]
    exact mul_le_mul_of_nonneg_left hleQ (by norm_num)

/-- The counters of a machine that has been up for a while. -/
theorem loadCPU_right_hour : ∃ stat, CpuStat stat ![3600, 20, 400, 350000, 120, 7, 9, 0, 0, 0] ∧
    (loadCPU ⟨⟨fun _ ↦ 0, 0, 0, 0⟩, (0, 0)⟩ stat).1 = true ∧
      LoadRight (loadCPU ⟨⟨fun _ ↦ 0, 0, 0, 0⟩, (0, 0)⟩ stat).2
        ![3600, 20, 400, 350000, 120, 7, 9, 0, 0, 0] := by
  refine ⟨_, cpuStat_print _, ?_⟩
  rw [loadCPU_right_iff _ _ _ (cpuStat_print _) ⟨0, by decide⟩ (by decide)]
  decide

/-- From 42949673 ticks on a busy processor has a load near zero. -/
theorem not_loadRight_busy :
    ¬ ∀ (s : SystemInfo) (stat : COMStr) (n : Fin 10 → Nat), CpuStat stat n → (∃ i, n i ≠ 0) →
      CPUEntry.total n < 2 ^ 32 → (loadCPU s stat).1 = true ∧ LoadRight (loadCPU s stat).2 n := by
  intro h
  have hsum : CPUEntry.total ![42949673, 0, 0, 0, 0, 0, 0, 0, 0, 0] < 2 ^ 32 := by decide
  have hstat := cpuStat_print ![42949673, 0, 0, 0, 0, 0, 0, 0, 0, 0]
  have hright := (h ⟨⟨fun _ ↦ 0, 0, 0, 0⟩, (0, 0)⟩ _ _ hstat ⟨0, by decide⟩ hsum).2.1
  rw [(loadCPU_of_cpuStat _ hstat hsum).2] at hright
  have hactive : CPUEntry.active ![42949673, 0, 0, 0, 0, 0, 0, 0, 0, 0] = 42949673 := by decide
  have htotal : CPUEntry.total ![42949673, 0, 0, 0, 0, 0, 0, 0, 0, 0] = 42949673 := by decide
  have hwrap : 42949673 * 100 % 2 ^ 32 = 4 := by decide
  rw [hactive, htotal, hwrap] at hright
  norm_num at hright

end SystemInfo

end IcsGateway
