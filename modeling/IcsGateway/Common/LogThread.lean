import IcsGateway.Common.LogPrint
import IcsGateway.Common.MyLogger
import IcsGateway.Lib.Transition

/-!
# From `print` to the disk

Any thread of a process may call `MyLogger::print`, which puts an entry into a queue; the logging
thread takes the entries out and appends them to the log file, which it moves away from time to
time. The steps of the threads interleave in any order; the queue is only touched under a lock
(`Common/ComUtil.cpp:742–863`).
-/

namespace IcsGateway.LogThread

open Lib MyLogger

/-- An entry and the end of its line in the file; the characters of a C string are bytes. -/
def bytes (entry : List Char) : Log := entry.map fun c ↦ UInt8.ofNat c.toNat

/-- What the file gets for some entries. -/
def lines (entries : List (List Char)) : Log := entries.flatMap fun e ↦ bytes e ++ [10]

/-- The logger with its thread, and what has happened, which no code reads. -/
structure Logger where
  log : LogState
  out : UInt32
  /-- The entry that the thread has taken and not yet written. -/
  entry : Option (List Char)
  /-- The thread has left its loop. -/
  ended : Bool
  disk : State
  stdout : List (List Char)
  /-- The entries put into the queue. -/
  printed : List (List Char)
  /-- The entries the thread is done with. -/
  handled : List (List Char)
  /-- Those of them that were written to the file. -/
  filed : List (List Char)

/-- A step of one of the threads. -/
inductive Event where
  /-- A thread calls `print`. -/
  | print (type : LogPrio) (group : LogGroup) (now message : CString)
  | setMask (mask : UInt32)
  | setPrio (prio : UInt32)
  | setOut (out : UInt32)
  | stop
  /-- The logging thread begins a round of its loop. -/
  | take
  /-- It writes the entry it has taken; the file can be opened to look at its size, and to append to
  it, or not. -/
  | write (reads appends : Bool)

/-- The logger after `init` and `setFile`; `Common/ComUtil.cpp:788`, `Common/ComUtil.h:499`. -/
def initial (fs : Files COMStr Log) : Logger where
  log := ⟨false, 65535, 65535, []⟩
  out := 2
  entry := none
  ended := false
  disk := ⟨fs, 1000⟩
  stdout := []
  printed := []
  handled := []
  filed := []

variable (filePath : COMStr)

/-- `checkMaxSize` without the opening for `doLog` at its end; `Common/ComUtil.h:505–544`. -/
def moveFull (fs : Files COMStr Log) : Files COMStr Log :=
  match fs filePath with
  | none => fs
  | some log => if maxFileSize ≤ log.length % 2 ^ 32 then rotate filePath fs else fs

/-- What an entry does to the disk; `Common/ComUtil.cpp:760–779`. The file is looked at only where
it can be opened to read, and appended to where it can be opened so, by `checkMaxSize` or by `doLog`;
the backups that are there can be opened. -/
def writeFile (reads appends : Bool) (s : State) (entry : Log) : State :=
  let s := if 50000 ≤ s.obsCount then ⟨if reads then moveFull filePath s.fs else s.fs, 0⟩ else s
  ⟨if appends then s.fs.append filePath (entry ++ [10]) else s.fs, s.obsCount + 1⟩

/-- Where the file can be opened this is `MyLogger::doLog`. -/
theorem writeFile_eq_doLog (s : State) (entry : Log) :
    writeFile filePath true true s entry = doLog filePath s entry := by
  rw [writeFile, doLog, if_pos rfl, if_pos rfl]
  split
  · cases hlog : s.fs filePath with
    | none => simp only [moveFull, checkMaxSize, hlog]
    | some log => simp only [moveFull, checkMaxSize, hlog, Files.append_append, List.nil_append]
  · rfl

/-- What is printed where the file cannot be opened; `Common/ComUtil.cpp:777`. -/
def failText : List Char := ("MyLogger::print() fail to open file " ++ filePath).toList

namespace Logger

/-- A round begins: the thread ends after `stop`, and waits for an entry;
`Common/ComUtil.cpp:744–754`. -/
def take (s : Logger) : Logger :=
  if s.ended || s.entry.isSome then s
  else if s.log.stopped then { s with ended := true }
  else match s.log.logQueue with
    | [] => s
    | entry :: rest => { s with entry := some entry, log := { s.log with logQueue := rest } }

/-- The rest of the round; `Common/ComUtil.cpp:756–781`. -/
def write (reads appends : Bool) (s : Logger) : Logger :=
  match s.entry with
  | none => s
  | some entry =>
    let s := if gbit s.out 0 then { s with stdout := s.stdout ++ [entry] } else s
    let s :=
      if gbit s.out 1 then
        let s := { s with disk := writeFile filePath reads appends s.disk (bytes entry) }
        if appends then { s with filed := s.filed ++ [entry] }
        else { s with stdout := s.stdout ++ [failText filePath] }
      else s
    { s with entry := none, handled := s.handled ++ [entry] }

end Logger

/-- A step. -/
def step (s : Logger) : Event → Logger
  | .print type group now message =>
    match print type group now message s.log with
    | none => s
    | some log => { s with
        log := log
        printed := s.printed ++ log.logQueue.drop s.log.logQueue.length }
  | .setMask mask => { s with log := { s.log with mask := mask } }
  | .setPrio prio => { s with log := { s.log with prio := prio } }
  | .setOut out => { s with out := out }
  | .stop => { s with log := { s.log with stopped := true } }
  | .take => s.take
  | .write reads appends => s.write filePath reads appends

/-- `print` looks no name up outside of its table. -/
def Defined (s : Logger) : Event → Prop
  | .print type group now message => (print type group now message s.log).isSome
  | _ => True

/-- What the disk holds: the backups, the oldest first, and the file. -/
def onDisk (fs : Files COMStr Log) : Log :=
  ((List.range maxIndex).flatMap fun i ↦ (fs (backup filePath i)).getD []) ++
    (fs filePath).getD []

/-! ### The queue -/

/-- `print` leaves the queue as it is or puts one entry behind the others. -/
theorem logQueue_of_print {type : LogPrio} {group : LogGroup} {now message : CString}
    {log log' : LogState} (h : print type group now message log = some log') :
    ∃ new, log'.logQueue = log.logQueue ++ new := by
  unfold print at h
  split at h
  · cases h
    exact ⟨[], (List.append_nil _).symm⟩
  · split at h
    · cases h
      exact ⟨[], (List.append_nil _).symm⟩
    · rw [Option.bind_eq_bind, Option.bind_eq_some_iff] at h
      obtain ⟨name, -, h⟩ := h
      cases h
      exact ⟨_, rfl⟩

/-- Every entry printed is handled, in hand or in the queue, in the order of the calls, and the
entries filed are handled. -/
structure InOrder (s : Logger) : Prop where
  printed : s.printed = s.handled ++ s.entry.toList ++ s.log.logQueue
  filed : s.filed.Sublist s.handled

variable {filePath} {s : Logger}

/-- Nothing has been printed. -/
theorem inOrder_initial (fs : Files COMStr Log) : InOrder (initial fs) :=
  ⟨rfl, List.Sublist.slnil⟩

/-- Nothing is written without an entry. -/
theorem Logger.write_of_none {reads appends : Bool} (h : s.entry = none) :
    s.write filePath reads appends = s := by
  rw [Logger.write, h]

/-- What the rest of a round changes: it is done with the entry, which is filed where the file is
not switched off and can be opened. -/
theorem Logger.write_of_some (filePath : COMStr) (reads appends : Bool) {entry : List Char}
    (h : s.entry = some entry) :
    let s' := s.write filePath reads appends
    s'.entry = none ∧ s'.log = s.log ∧ s'.printed = s.printed ∧ s'.out = s.out ∧
      s'.handled = s.handled ++ [entry] ∧
      s'.filed = (if gbit s.out 1 = true ∧ appends = true then s.filed ++ [entry] else s.filed) ∧
      s'.disk = if gbit s.out 1 then writeFile filePath reads appends s.disk (bytes entry)
        else s.disk := by
  intro s'
  have hs' : s' = s.write filePath reads appends := rfl
  rw [Logger.write, h] at hs'
  cases hstd : gbit s.out 0 <;> cases hfile : gbit s.out 1 <;> cases appends <;>
    simp only [hs', hstd, hfile, if_true, Bool.false_eq_true, if_false, and_false, and_true,
      and_self]

/-- A step keeps the order. -/
theorem InOrder.step (h : InOrder s) (e : Event) : InOrder (step filePath s e) := by
  cases e with
  | print type group now message =>
    rw [LogThread.step]
    split
    · exact h
    · next log hprint =>
      obtain ⟨new, hnew⟩ := logQueue_of_print hprint
      refine ⟨?_, h.filed⟩
      simp only [hnew, List.drop_left, h.printed, List.append_assoc]
  | take =>
    rw [LogThread.step, Logger.take]
    split
    · exact h
    · next hfree =>
      have hentry : s.entry = none := by
        rw [Bool.or_eq_true, not_or, Option.not_isSome_iff_eq_none] at hfree
        exact hfree.2
      split
      · exact ⟨h.printed, h.filed⟩
      · split
        · exact h
        · next entry rest hqueue =>
          refine ⟨?_, h.filed⟩
          rw [h.printed, hentry, hqueue]
          simp
  | write reads appends =>
    cases hentry : s.entry with
    | none =>
      rw [LogThread.step, Logger.write_of_none hentry]
      exact h
    | some entry =>
      obtain ⟨hdone, hlog, hprinted, -, hhandled, hfiled, -⟩ :=
        Logger.write_of_some filePath reads appends hentry
      refine ⟨?_, ?_⟩
      · rw [LogThread.step, hdone, hlog, hprinted, hhandled, h.printed, hentry]
        simp
      · rw [LogThread.step, hfiled, hhandled]
        split
        · exact h.filed.append (List.Sublist.refl [entry])
        · exact h.filed.trans (List.sublist_append_left s.handled [entry])
  | setMask | setPrio | setOut | stop => exact ⟨h.printed, h.filed⟩

/-! ### The disk -/

/-- Lists by index are the lists in order. -/
theorem flatMap_range_getElem? {α : Type} (l : List (List α)) (n : Nat) :
    ((List.range n).flatMap fun i ↦ l[i]?.getD []) = (l.take n).flatten := by
  induction n with
  | zero => rfl
  | succ n ih =>
    rw [List.range_succ, List.flatMap_append, ih, List.take_add_one, List.flatten_append,
      List.flatMap_singleton]
    cases l[n]? with
    | none => rfl
    | some x => simp

/-- The backups are the last of the logs moved away. -/
theorem onDisk_eq {fs : Files COMStr Log} {logs : List Log} (h : KeepsRecent filePath fs logs) :
    onDisk filePath fs =
      (logs.drop (logs.length - maxIndex)).flatten ++ (fs filePath).getD [] := by
  rw [keepsRecent_iff_getElem?] at h
  have hbackups : ((List.range maxIndex).flatMap fun i ↦ (fs (backup filePath i)).getD []) =
      (List.range maxIndex).flatMap fun i ↦ (logs.drop (logs.length - maxIndex))[i]?.getD [] := by
    congr 1
    funext i
    rw [h i, List.getElem?_drop]
  rw [onDisk, hbackups, flatMap_range_getElem?, List.take_of_length_le]
  rw [List.length_drop]
  omega

/-- A rotation leaves no file. -/
theorem rotate_self (filePath : COMStr) (fs : Files COMStr Log) :
    rotate filePath fs filePath = none := by
  unfold rotate
  split
  · exact Files.rename_src fs (backup_ne _).symm
  · exact Files.rename_src _ (backup_ne _).symm

/-- All that was written is in the logs moved away, each a large one, and in the file. -/
structure Stored (filePath : COMStr) (total : Log) (fs : Files COMStr Log) (logs : List Log) :
    Prop where
  recent : KeepsRecent filePath fs logs
  large : ∀ log ∈ logs, maxFileSize ≤ log.length
  total : logs.flatten ++ (fs filePath).getD [] = total

section Stored

variable {total : Log} {fs : Files COMStr Log} {logs : List Log}

/-- Appending to the file. -/
theorem Stored.append (h : Stored filePath total fs logs) (content : Log) :
    Stored filePath (total ++ content) (fs.append filePath content) logs := by
  refine ⟨(keepsRecent_append content).mpr h.recent, h.large, ?_⟩
  rw [Files.append_self, Option.getD_some, ← List.append_assoc, h.total]

/-- Moving the file away, if it is too large. -/
theorem Stored.moveFull (h : Stored filePath total fs logs) :
    ∃ logs, Stored filePath total (moveFull filePath fs) logs := by
  cases hlog : fs filePath with
  | none =>
    refine ⟨logs, ?_⟩
    rw [LogThread.moveFull, hlog]
    exact h
  | some log =>
    by_cases hfull : maxFileSize ≤ log.length % 2 ^ 32
    · refine ⟨logs ++ [log], ?_⟩
      simp only [LogThread.moveFull, hlog, if_pos hfull]
      refine ⟨rotate_keepsRecent hlog h.recent, ?_, ?_⟩
      · intro log' hlog'
        rcases List.mem_append.mp hlog' with hlog' | hlog'
        · exact h.large log' hlog'
        · rw [List.mem_singleton.mp hlog']
          exact Nat.le_trans hfull (Nat.mod_le _ _)
      · have htotal := h.total
        rw [hlog, Option.getD_some] at htotal
        rw [List.flatten_append, List.flatten_singleton, htotal, rotate_self]
        exact List.append_nil _
    · refine ⟨logs, ?_⟩
      simp only [LogThread.moveFull, hlog, if_neg hfull]
      exact h

/-- Writing an entry, or failing to. -/
theorem Stored.writeFile {s : State} (h : Stored filePath total s.fs logs) (reads appends : Bool)
    (entry : Log) :
    ∃ logs, Stored filePath (total ++ if appends then entry ++ [10] else [])
      (writeFile filePath reads appends s entry).fs logs := by
  obtain ⟨s', hs'⟩ : ∃ s' : State, s' = if 50000 ≤ s.obsCount then
    ⟨if reads then LogThread.moveFull filePath s.fs else s.fs, 0⟩ else s := ⟨_, rfl⟩
  have hmoved : ∃ logs, Stored filePath total s'.fs logs := by
    rw [hs']
    split
    · cases reads with
      | true => exact h.moveFull
      | false => exact ⟨logs, h⟩
    · exact ⟨logs, h⟩
  obtain ⟨logs', h'⟩ := hmoved
  refine ⟨logs', ?_⟩
  rw [LogThread.writeFile, ← hs']
  cases appends with
  | true => exact h'.append _
  | false =>
    rw [if_neg Bool.false_ne_true, List.append_nil]
    exact h'

/-- Large logs are long. -/
theorem length_flatten_of_large {logs : List Log} (h : ∀ log ∈ logs, maxFileSize ≤ log.length) :
    logs.length * maxFileSize ≤ logs.flatten.length := by
  induction logs with
  | nil => exact Nat.le_of_eq (Nat.zero_mul _)
  | cons log logs ih =>
    rw [List.forall_mem_cons] at h
    rw [List.length_cons, List.flatten_cons, List.length_append, Nat.succ_mul]
    have hrest := ih h.2
    have hlog := h.1
    omega

/-- The disk holds the end of what was written: all of it, or as much as the backups hold. -/
theorem Stored.onDisk (h : Stored filePath total fs logs) :
    ∃ older, total = older ++ onDisk filePath fs ∧
      (older = [] ∨ maxIndex * maxFileSize ≤ (onDisk filePath fs).length) := by
  refine ⟨(logs.take (logs.length - maxIndex)).flatten, ?_, ?_⟩
  · rw [onDisk_eq h.recent, ← List.append_assoc, ← List.flatten_append, List.take_append_drop,
      h.total]
  · by_cases hfew : logs.length ≤ maxIndex
    · left
      rw [Nat.sub_eq_zero_of_le hfew, List.take_zero, List.flatten_nil]
    · right
      have hrecent : ∀ log ∈ logs.drop (logs.length - maxIndex), maxFileSize ≤ log.length :=
        fun log hlog ↦ h.large log (List.mem_of_mem_drop hlog)
      have hlarge := length_flatten_of_large hrecent
      rw [List.length_drop, Nat.sub_sub_self (Nat.le_of_not_le hfew)] at hlarge
      rw [onDisk_eq h.recent, List.length_append]
      exact Nat.le_add_right_of_le hlarge

end Stored

/-! ### Runs -/

/-- The backups are a few logs in order, each a large one. -/
structure Rotated (filePath : COMStr) (fs : Files COMStr Log) (logs : List Log) : Prop where
  few : logs.length ≤ maxIndex
  backups : ∀ i, fs (backup filePath i) = logs[i]?
  large : ∀ log ∈ logs, maxFileSize ≤ log.length

/-- All of it is on the disk. -/
theorem Rotated.stored {fs : Files COMStr Log} {logs : List Log} (h : Rotated filePath fs logs) :
    Stored filePath (LogThread.onDisk filePath fs) fs logs := by
  have hnone : logs.length - maxIndex = 0 := Nat.sub_eq_zero_of_le h.few
  have hrecent : KeepsRecent filePath fs logs := by
    rw [keepsRecent_iff_getElem?]
    intro i
    rw [hnone, Nat.zero_add]
    exact h.backups i
  refine ⟨hrecent, h.large, ?_⟩
  rw [onDisk_eq hrecent, hnone, List.drop_zero]

/-- The file is not switched off, and can always be opened to append to it. -/
structure Open (es : List Event) : Prop where
  out : ∀ out, .setOut out ∈ es → gbit out 1 = true
  appends : ∀ reads appends, .write reads appends ∈ es → appends = true

/-- What holds in a run on some events. -/
structure Inv (filePath : COMStr) (fs : Files COMStr Log) (es : List Event) (s : Logger) :
    Prop where
  inOrder : InOrder s
  stored : ∃ logs, Stored filePath (onDisk filePath fs ++ lines s.filed) s.disk.fs logs
  filing : Open es → gbit s.out 1 = true ∧ s.filed = s.handled

/-- Nothing has been logged. -/
theorem inv_initial {filePath : COMStr} {fs : Files COMStr Log} {logs : List Log}
    (hstart : Rotated filePath fs logs) (es : List Event) : Inv filePath fs es (initial fs) := by
  refine ⟨inOrder_initial fs, ⟨logs, ?_⟩, fun _ ↦ ⟨(by decide : gbit 2 1 = true), rfl⟩⟩
  have htotal : onDisk filePath fs ++ lines (initial fs).filed = onDisk filePath fs :=
    List.append_nil _
  rw [htotal]
  exact hstart.stored

/-- The thread writes its entry. -/
theorem Inv.write {fs : Files COMStr Log} {es : List Event} {reads appends : Bool}
    (hwrite : .write reads appends ∈ es) (h : Inv filePath fs es s) :
    Inv filePath fs es (s.write filePath reads appends) := by
  cases hentry : s.entry with
  | none =>
    rw [Logger.write_of_none hentry]
    exact h
  | some entry =>
    obtain ⟨-, -, -, hout, hhandled, hfiled, hdisk⟩ :=
      Logger.write_of_some filePath reads appends hentry
    refine ⟨h.inOrder.step (.write reads appends), ?_, ?_⟩
    · obtain ⟨logs, hstored⟩ := h.stored
      rw [hfiled, hdisk]
      cases hfile : gbit s.out 1 with
      | false => exact ⟨logs, by simpa using hstored⟩
      | true =>
        obtain ⟨logs', hstored'⟩ := hstored.writeFile reads appends (bytes entry)
        refine ⟨logs', ?_⟩
        cases appends with
        | true =>
          have hlines : lines (s.filed ++ [entry]) = lines s.filed ++ (bytes entry ++ [10]) := by
            rw [lines, List.flatMap_append, List.flatMap_singleton, ← lines]
          rw [if_pos ⟨rfl, rfl⟩, hlines, ← List.append_assoc]
          exact hstored'
        | false =>
          rw [if_neg Bool.false_ne_true, List.append_nil] at hstored'
          simpa using hstored'
    · intro hopen
      obtain ⟨hfile, hsame⟩ := h.filing hopen
      rw [hout, hfiled, hhandled, if_pos ⟨hfile, hopen.appends reads appends hwrite⟩, hsame]
      exact ⟨hfile, rfl⟩

/-- Taking an entry writes nothing. -/
theorem Logger.take_frame (s : Logger) : s.take.out = s.out ∧ s.take.disk = s.disk ∧
    s.take.handled = s.handled ∧ s.take.filed = s.filed := by
  unfold Logger.take
  split
  · exact ⟨rfl, rfl, rfl, rfl⟩
  · split
    · exact ⟨rfl, rfl, rfl, rfl⟩
    · split <;> exact ⟨rfl, rfl, rfl, rfl⟩

/-- A step that touches neither the disk nor what was written. -/
theorem Inv.frame {fs : Files COMStr Log} {es : List Event} {s' : Logger}
    (h : Inv filePath fs es s) (horder : InOrder s') (hout : s'.out = s.out)
    (hdisk : s'.disk = s.disk) (hhandled : s'.handled = s.handled) (hfiled : s'.filed = s.filed) :
    Inv filePath fs es s' := by
  refine ⟨horder, ?_, ?_⟩
  · rw [hfiled, hdisk]
    exact h.stored
  · rw [hout, hfiled, hhandled]
    exact h.filing

/-- Any step. -/
theorem inv_step {fs : Files COMStr Log} {es : List Event} {e : Event} (hdef : Defined s e)
    (he : e ∈ es) (h : Inv filePath fs es s) : Inv filePath fs es (step filePath s e) := by
  have horder : InOrder (step filePath s e) := h.inOrder.step e
  cases e with
  | print type group now message =>
    obtain ⟨log, hprint⟩ := Option.isSome_iff_exists.mp hdef
    rw [step, hprint] at horder ⊢
    exact h.frame horder rfl rfl rfl rfl
  | take =>
    obtain ⟨hout, hdisk, hhandled, hfiled⟩ := s.take_frame
    exact h.frame horder hout hdisk hhandled hfiled
  | write reads appends => exact h.write he
  | setOut out =>
    exact ⟨horder, h.stored, fun hopen ↦ ⟨hopen.out out he, (h.filing hopen).2⟩⟩
  | setMask | setPrio | stop => exact h.frame horder rfl rfl rfl rfl

end IcsGateway.LogThread
