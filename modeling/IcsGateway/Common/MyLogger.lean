import Mathlib.Algebra.Group.Nat.Defs
import IcsGateway.Common.ComUtil
import IcsGateway.Lib.Files

/-!
# The logger

`MyLogger` (`Common/ComUtil.h`, `Common/ComUtil.cpp`) appends to one file and moves it away when
it has grown too large. The last `maxIndex` files moved away are kept, the oldest at index 0.
-/

namespace IcsGateway

open Lib

namespace MyLogger

/-- `MyLogger::maxIndex`; `Common/ComUtil.cpp:731`. -/
def maxIndex : Nat := 10

/-- `MyLogger::maxFileSize`; `Common/ComUtil.cpp:732`. -/
def maxFileSize : Nat := 5242880

/-- The content of a file. -/
abbrev Log := List UInt8

/-- The `i`-th backup, `filePath + std::to_string(i)`. -/
def backup (filePath : COMStr) (i : Nat) : COMStr := filePath ++ toString i

variable (filePath : COMStr)

/-- The renames of a file that is too large: to the first free index, or with all of them moved
down by one; `Common/ComUtil.h:524–543`. -/
def rotate (fs : Files COMStr Log) : Files COMStr Log :=
  let i := Files.firstFree (backup filePath) fs 0 maxIndex
  if i < maxIndex then fs.rename filePath (backup filePath i)
  else (fs.shiftDown (backup filePath) (maxIndex - 1)).rename filePath
    (backup filePath (maxIndex - 1))

/-- `MyLogger::checkMaxSize`. The size that `ftell` returns is cast to 32 bits;
`Common/ComUtil.h:505`. -/
def checkMaxSize (fs : Files COMStr Log) : Files COMStr Log :=
  match fs filePath with
  | none => fs
  | some log =>
    let size := log.length % 2 ^ 32
    (if maxFileSize ≤ size then rotate filePath fs else fs).append filePath []

/-- What `doLog` keeps from one entry to the next. -/
structure State where
  fs : Files COMStr Log
  obsCount : Nat

/-- One entry written by the loop of `MyLogger::doLog` to the file; `Common/ComUtil.cpp:760–779`. -/
def doLog (s : State) (entry : Log) : State :=
  let s := if 50000 ≤ s.obsCount then ⟨checkMaxSize filePath s.fs, 0⟩ else s
  ⟨s.fs.append filePath (entry ++ [10]), s.obsCount + 1⟩

/-! ### Runs -/

/-- What is done with the files. -/
inductive Op where
  | checkMaxSize
  | append (content : Log)

/-- One operation. -/
def step : Op → Files COMStr Log → Files COMStr Log
  | .checkMaxSize, fs => checkMaxSize filePath fs
  | .append content, fs => fs.append filePath content

/-- The file that an operation checks. -/
def checkedLog : Op → Files COMStr Log → List Log
  | .checkMaxSize, fs => (fs filePath).toList
  | .append _, _ => []

/-- The operations in order. -/
def run : List Op → Files COMStr Log → Files COMStr Log
  | [], fs => fs
  | op :: ops, fs => run ops (step filePath op fs)

/-- The files checked by a run, in order, as they are when they are checked. -/
def checkedLogs : List Op → Files COMStr Log → List Log
  | [], _ => []
  | op :: ops, fs => checkedLog filePath op fs ++ checkedLogs ops (step filePath op fs)

/-- The backups are those of the last `maxIndex` logs, from index 0 and oldest first. -/
structure KeepsRecent (fs : Files COMStr Log) (logs : List Log) : Prop where
  present : ∀ i, (fs (backup filePath i)).isSome ↔ i < min logs.length maxIndex
  content : ∀ i, i < min logs.length maxIndex →
    fs (backup filePath i) = logs[logs.length - min logs.length maxIndex + i]?

/-! ### One step -/

variable {filePath} {fs : Files COMStr Log} {logs : List Log}

private theorem backup_injective : Function.Injective (backup filePath) := by
  intro i j h
  have hrepr : (toString i).toList = (toString j).toList := by
    have hlist : filePath.toList ++ (toString i).toList =
        filePath.toList ++ (toString j).toList := by
      rw [← String.toList_append, ← String.toList_append]
      exact congrArg String.toList h
    exact List.append_cancel_left hlist
  have hdigits : Nat.toDigits 10 i = Nat.toDigits 10 j := by
    rw [← Nat.toList_repr, ← Nat.toList_repr]
    exact hrepr
  rw [← Nat.ofDigitChars_ten_toDigits (n := i), hdigits, Nat.ofDigitChars_ten_toDigits]

/-- No backup has the name of the file. -/
theorem backup_ne (i : Nat) : backup filePath i ≠ filePath := by
  intro h
  have hlist : filePath.toList ++ (toString i).toList = filePath.toList ++ [] := by
    rw [← String.toList_append, List.append_nil]
    exact congrArg String.toList h
  have hrepr : Nat.toDigits 10 i = [] := by
    rw [← Nat.toList_repr]
    exact List.append_cancel_left hlist
  exact Nat.toDigits_ne_nil hrepr

/-- Each index in one equation. -/
theorem keepsRecent_iff_getElem? :
    KeepsRecent filePath fs logs ↔
      ∀ i, fs (backup filePath i) = logs[logs.length - maxIndex + i]? := by
  have hstart : logs.length - min logs.length maxIndex = logs.length - maxIndex := by omega
  constructor
  · intro h i
    by_cases hi : i < min logs.length maxIndex
    · rw [h.content i hi, hstart]
    · have hnone : fs (backup filePath i) = none := by
        rw [← Option.not_isSome_iff_eq_none]
        exact fun hsome ↦ hi ((h.present i).mp hsome)
      rw [hnone, List.getElem?_eq_none (by omega)]
  · intro h
    refine ⟨?_, ?_⟩
    · intro i
      rw [h i, isSome_getElem?]
      omega
    · intro i _
      rw [h i, hstart]

/-- Appending to the file leaves the backups. -/
private theorem append_backup (fs : Files COMStr Log) (content : Log) (i : Nat) :
    fs.append filePath content (backup filePath i) = fs (backup filePath i) :=
  Files.append_of_ne fs content (backup_ne i)

/-- With backups to spare, the file becomes the next of them. -/
private theorem rotate_filling {log : Log} (hlog : fs filePath = some log)
    (h : ∀ i, fs (backup filePath i) = logs[logs.length - maxIndex + i]?)
    (hlt : logs.length < maxIndex) (i : Nat) :
    rotate filePath fs (backup filePath i) = (logs ++ [log])[i]? := by
  have hfree : Files.firstFree (backup filePath) fs 0 maxIndex = logs.length := by
    rw [Files.firstFree_eq (k := logs.length) (backup filePath) _ 0 maxIndex (Nat.zero_le _)]
    · omega
    · intro j
      rw [h j, isSome_getElem?]
      omega
  simp only [rotate, hfree, hlt, if_true]
  by_cases hi : i = logs.length
  · subst hi
    rw [Files.rename_dst _ _ (Option.isSome_of_eq_some hlog), hlog, List.getElem?_concat_length]
  · rw [Files.rename_of_ne _ (backup_ne i) (fun heq ↦ hi (backup_injective heq)), h i]
    have hstart : logs.length - maxIndex + i = i := by omega
    rw [hstart, List.getElem?_append]
    split
    · rfl
    · have hout : [log][i - logs.length]? = none := List.getElem?_eq_none (by simp; omega)
      rw [hout, List.getElem?_eq_none (by omega)]

/-- With none to spare, each backup takes the place of the one before it. -/
private theorem rotate_shifting {log : Log} (hlog : fs filePath = some log)
    (h : ∀ i, fs (backup filePath i) = logs[logs.length - maxIndex + i]?)
    (hge : maxIndex ≤ logs.length) (i : Nat) :
    rotate filePath fs (backup filePath i) =
      (logs ++ [log])[logs.length + 1 - maxIndex + i]? := by
  have hfree : Files.firstFree (backup filePath) fs 0 maxIndex = maxIndex := by
    rw [Files.firstFree_eq (k := maxIndex) (backup filePath) _ 0 maxIndex (Nat.zero_le _)]
    · omega
    · intro j
      rw [h j, isSome_getElem?]
      omega
  have hall (j : Nat) (_ : 1 ≤ j) (hj : j ≤ maxIndex - 1) :
      (fs (backup filePath j)).isSome := by
    rw [h j, isSome_getElem?]
    have hpos : 0 < maxIndex := by decide
    omega
  have hlast : maxIndex = maxIndex - 1 + 1 := rfl
  simp only [rotate, hfree, Nat.lt_irrefl, if_false]
  by_cases hi : i = maxIndex - 1
  · have hcur : fs.shiftDown (backup filePath) (maxIndex - 1) filePath = some log := by
      rw [Files.shiftDown_of_ne fs _ fun j _ ↦ (backup_ne j).symm, hlog]
    have hindex : logs.length + 1 - maxIndex + i = logs.length := by omega
    rw [hindex, List.getElem?_concat_length, hi,
      Files.rename_dst _ _ (Option.isSome_of_eq_some hcur), hcur]
  · rw [Files.rename_of_ne _ (backup_ne i) (fun heq ↦ hi (backup_injective heq))]
    by_cases hlt : i < maxIndex - 1
    · rw [Files.shiftDown_lt backup_injective fs _ hall hlt, h (i + 1),
        List.getElem?_append_left (by omega)]
      congr 1
      omega
    · have hframe (j : Nat) (hj : j ≤ maxIndex - 1) : backup filePath i ≠ backup filePath j := by
        intro heq
        have := backup_injective heq
        omega
      rw [Files.shiftDown_of_ne fs _ hframe, h i, List.getElem?_eq_none (by omega),
        List.getElem?_eq_none (by rw [List.length_append, List.length_singleton]; omega)]

/-- A rotation makes the file the most recent backup. -/
theorem rotate_keepsRecent {log : Log} (hlog : fs filePath = some log)
    (h : KeepsRecent filePath fs logs) :
    KeepsRecent filePath (rotate filePath fs) (logs ++ [log]) := by
  rw [keepsRecent_iff_getElem?] at h ⊢
  intro i
  rw [List.length_append, List.length_singleton]
  rcases Nat.lt_or_ge logs.length maxIndex with hlt | hge
  · have hstart : logs.length + 1 - maxIndex + i = i := by omega
    rw [hstart]
    exact rotate_filling hlog h hlt i
  · exact rotate_shifting hlog h hge i

/-- Backups that hold the recent logs do not hold a further one as well, unless it is the last. -/
private theorem not_keepsRecent_concat {log : Log} (h : KeepsRecent filePath fs logs)
    (hlog : log ∉ logs) : ¬ KeepsRecent filePath fs (logs ++ [log]) := by
  intro hconcat
  rw [keepsRecent_iff_getElem?] at h hconcat
  let i := logs.length - (logs.length + 1 - maxIndex)
  have hpos : 0 < maxIndex := by decide
  have hnew : fs (backup filePath i) = some log := by
    rw [hconcat i, ← List.getElem?_concat_length]
    congr 1
    rw [List.length_append, List.length_singleton]
    omega
  rw [h i] at hnew
  exact hlog (List.mem_of_getElem? hnew)

/-- The size that `checkMaxSize` sees reaches the maximum: the low 32 bits of the file's. -/
def Full (log : Log) : Prop := maxFileSize ≤ log.length % 2 ^ 32

theorem checkMaxSize_of_full {log : Log} (hlog : fs filePath = some log) (h : Full log) :
    checkMaxSize filePath fs = (rotate filePath fs).append filePath [] := by
  rw [Full] at h
  simp only [checkMaxSize, hlog, if_pos h]

theorem checkMaxSize_of_not_full {log : Log} (hlog : fs filePath = some log)
    (h : ¬ Full log) : checkMaxSize filePath fs = fs.append filePath [] := by
  rw [Full] at h
  simp only [checkMaxSize, hlog, if_neg h]

/-- The backups alone decide what is kept. -/
theorem keepsRecent_append (content : Log) :
    KeepsRecent filePath (fs.append filePath content) logs ↔ KeepsRecent filePath fs logs := by
  simp only [keepsRecent_iff_getElem?, append_backup]

/-- There is always a file to append to. -/
private theorem isSome_step (op : Op) (hfile : (fs filePath).isSome) :
    (step filePath op fs filePath).isSome := by
  obtain ⟨log, hlog⟩ := Option.isSome_iff_exists.mp hfile
  cases op with
  | checkMaxSize => simp only [step, checkMaxSize, hlog, Files.append_self, Option.isSome_some]
  | append content => simp only [step, Files.append_self, Option.isSome_some]

/-- A step keeps the recent logs exactly when a file that it checks is seen as full. -/
private theorem step_keepsRecent_iff (op : Op) (hfile : (fs filePath).isSome)
    (hfull : ∀ log ∈ logs, Full log) (h : KeepsRecent filePath fs logs) :
    KeepsRecent filePath (step filePath op fs) (logs ++ checkedLog filePath op fs) ↔
      ∀ log ∈ checkedLog filePath op fs, Full log := by
  cases op with
  | append content =>
    simp only [step, checkedLog, List.append_nil, List.not_mem_nil, false_imp_iff, implies_true,
      iff_true]
    exact (keepsRecent_append content).mpr h
  | checkMaxSize =>
    obtain ⟨log, hlog⟩ := Option.isSome_iff_exists.mp hfile
    simp only [step, checkedLog, hlog, Option.toList_some, List.mem_singleton, forall_eq]
    by_cases hlast : Full log
    · rw [checkMaxSize_of_full hlog hlast, keepsRecent_append]
      exact iff_of_true (rotate_keepsRecent hlog h) hlast
    · rw [checkMaxSize_of_not_full hlog hlast, keepsRecent_append]
      apply iff_of_false ?_ hlast
      exact not_keepsRecent_concat h fun hmem ↦ hlast (hfull log hmem)

/-- Induction on the run, from any state that keeps the logs checked so far. -/
private theorem run_keepsRecent_iff (ops : List Op) (hfile : (fs filePath).isSome)
    (hfull : ∀ log ∈ logs, Full log) (h : KeepsRecent filePath fs logs) :
    (∀ pre, pre <+: ops → KeepsRecent filePath (run filePath pre fs)
        (logs ++ checkedLogs filePath pre fs)) ↔
      ∀ log ∈ checkedLogs filePath ops fs, Full log := by
  induction ops generalizing fs logs with
  | nil =>
    simp only [List.prefix_nil, forall_eq, run, checkedLogs, List.append_nil, List.not_mem_nil,
      false_imp_iff, implies_true, iff_true]
    exact h
  | cons op ops ih =>
    have hstep := step_keepsRecent_iff op hfile hfull h
    have hsplit : (∀ pre, pre <+: op :: ops → KeepsRecent filePath (run filePath pre fs)
          (logs ++ checkedLogs filePath pre fs)) ↔
        ∀ pre, pre <+: ops → KeepsRecent filePath (run filePath pre (step filePath op fs))
          ((logs ++ checkedLog filePath op fs) ++
            checkedLogs filePath pre (step filePath op fs)) := by
      constructor
      · intro hall pre hpre
        have hcons := hall (op :: pre) ((List.prefix_cons_inj op).mpr hpre)
        rw [run, checkedLogs, ← List.append_assoc] at hcons
        exact hcons
      · intro hall pre hpre
        rcases List.prefix_cons_iff.mp hpre with rfl | ⟨pre', rfl, hpre'⟩
        · rw [run, checkedLogs, List.append_nil]
          exact h
        · rw [run, checkedLogs, ← List.append_assoc]
          exact hall pre' hpre'
    rw [hsplit, checkedLogs, List.forall_mem_append]
    by_cases hop : ∀ log ∈ checkedLog filePath op fs, Full log
    · rw [ih (isSome_step op hfile) (List.forall_mem_append.mpr ⟨hfull, hop⟩) (hstep.mpr hop)]
      exact (and_iff_right hop).symm
    · have hfirst := hop ∘ hstep.mp
      apply iff_of_false
      · intro hall
        have hnil := hall [] List.nil_prefix
        rw [run, checkedLogs, List.append_nil] at hnil
        exact hfirst hnil
      · exact fun hall ↦ hop hall.1

variable (filePath)

/-- From a log file without backups, every state of a run keeps the most recent of the logs checked
exactly when each check sees a size of at least `maxFileSize`. -/
theorem run_keepsRecent (ops : List Op) (fs : Files COMStr Log) (hfile : (fs filePath).isSome)
    (hnone : ∀ i, fs (backup filePath i) = none) :
    (∀ pre, pre <+: ops →
        KeepsRecent filePath (run filePath pre fs) (checkedLogs filePath pre fs)) ↔
      ∀ log ∈ checkedLogs filePath ops fs, maxFileSize ≤ log.length % 2 ^ 32 := by
  have hempty : KeepsRecent filePath fs [] := by
    rw [keepsRecent_iff_getElem?]
    exact hnone
  have hrun := run_keepsRecent_iff ops hfile (fun _ h ↦ absurd h List.not_mem_nil) hempty
  simp only [List.nil_append] at hrun
  exact hrun

/-- A log of exactly the maximum is kept as the only backup. -/
theorem run_keepsRecent_once :
    let fs := Files.write (fun _ ↦ none) "log" (List.replicate maxFileSize 0)
    ∀ pre, pre <+: [Op.checkMaxSize] →
      KeepsRecent "log" (run "log" pre fs) (checkedLogs "log" pre fs) := by
  intro fs
  have hlog : fs "log" = some (List.replicate maxFileSize 0) := Files.write_self ..
  have hnone (i : Nat) : fs (backup "log" i) = none := Files.write_of_ne _ _ (backup_ne i)
  apply (run_keepsRecent "log" [.checkMaxSize] fs (Option.isSome_of_eq_some hlog) hnone).mpr
  intro log hmem
  rw [checkedLogs, checkedLog, checkedLogs, hlog, List.append_nil, Option.toList_some,
    List.mem_singleton] at hmem
  rw [hmem, List.length_replicate]
  decide

/-- A log of 4 GiB has size 0 in 32 bits, and is not moved away. -/
theorem not_keepsRecent_fourGiB :
    let log : Log := List.replicate (2 ^ 32) 0
    let fs := Files.write (fun _ ↦ none) "log" log
    maxFileSize ≤ log.length ∧ (∀ i, fs (backup "log" i) = none) ∧
      checkedLogs "log" [.checkMaxSize] fs = [log] ∧
      ¬ KeepsRecent "log" (run "log" [.checkMaxSize] fs) [log] := by
  intro log fs
  have hlog : fs "log" = some log := Files.write_self ..
  have hnone (i : Nat) : fs (backup "log" i) = none := Files.write_of_ne _ _ (backup_ne i)
  have hlength : log.length = 2 ^ 32 := List.length_replicate
  have hsmall : ¬ Full log := by
    rw [Full, hlength]
    decide
  refine ⟨?_, hnone, ?_, ?_⟩
  · rw [hlength]
    decide
  · rw [checkedLogs, checkedLog, checkedLogs, hlog, List.append_nil, Option.toList_some]
  · intro h
    rw [run, step, run, checkMaxSize_of_not_full hlog hsmall, keepsRecent_append] at h
    have hfirst := (h.present 0).mpr (by decide)
    rw [hnone 0] at hfirst
    exact absurd hfirst Bool.false_ne_true

/-! ### The logging thread -/

/-- What `doLog` does with the files for these entries. -/
def logOps : Nat → List Log → List Op
  | _, [] => []
  | obsCount, entry :: entries =>
    if 50000 ≤ obsCount then
      .checkMaxSize :: .append (entry ++ [10]) :: logOps 1 entries
    else .append (entry ++ [10]) :: logOps (obsCount + 1) entries

private theorem foldl_doLog (s : State) (entries : List Log) :
    (entries.foldl (doLog filePath) s).fs = run filePath (logOps s.obsCount entries) s.fs := by
  induction entries generalizing s with
  | nil => rfl
  | cons entry entries ih =>
    rw [List.foldl_cons, ih, logOps, doLog]
    split
    · rfl
    · rfl

/-- The thread keeps the most recent of the logs it has checked, whatever it is given to write. -/
theorem doLog_keepsRecent (s : State) (entries : List Log) (hfile : (s.fs filePath).isSome)
    (hnone : ∀ i, s.fs (backup filePath i) = none)
    (hfull : ∀ log ∈ checkedLogs filePath (logOps s.obsCount entries) s.fs, Full log) :
    KeepsRecent filePath (entries.foldl (doLog filePath) s).fs
      (checkedLogs filePath (logOps s.obsCount entries) s.fs) := by
  rw [foldl_doLog]
  have hempty : KeepsRecent filePath s.fs [] := keepsRecent_iff_getElem?.mpr hnone
  have hrun := run_keepsRecent_iff (logOps s.obsCount entries) hfile
    (fun _ h ↦ absurd h List.not_mem_nil) hempty
  simp only [List.nil_append] at hrun
  exact hrun.mpr hfull _ (List.prefix_refl _)

end MyLogger

end IcsGateway
