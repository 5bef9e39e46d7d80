import IcsGateway.Bridge.Report

/-!
# The two threads of the Bridge

The listener and the timer thread work on one Redis. Their operations are interleaved in any
order: an event is the one operation of the listener for a message, the start of a tick, or
the next operation of the tick that runs. A history, which no code reads, names the messages
by number and records whose data stand under a key, and which messages a tick has read.
-/

namespace IcsGateway.Bridge

open Lib

/-- An accepted message: its type, its object, and how many ticks had begun before it. -/
structure Message where
  deviceType : COMStr
  object : Object
  begun : Nat

/-- A report: its text, and the messages whose data were read for it. -/
structure Report where
  text : COMStr
  shows : List Nat

/-- What has happened so far. -/
structure History where
  messages : List Message
  /-- The message whose data stand under a key. -/
  source : COMStr → Option Nat
  /-- The messages whose data the running tick has read. -/
  read : List Nat
  reports : List Report
  /-- The messages replaced by a later one before a tick had read them. -/
  overwritten : List Nat
  begun : Nat
  completed : Nat

namespace History

/-- The messages a tick has read. -/
def seen (h : History) : List Nat := h.reports.flatMap (·.shows) ++ h.read

/-- A message is stored. -/
def store (h : History) (deviceType : COMStr) (object : Object) : History :=
  { h with
    messages := h.messages ++ [⟨deviceType, object, h.begun⟩]
    source := fun k ↦
      if k = collectorKey deviceType then some h.messages.length else h.source k
    overwritten := h.overwritten ++
      (h.source (collectorKey deviceType)).toList.filter (· ∉ h.seen) }

/-- A tick begins. -/
def tick (h : History) : History := { h with read := [], begun := h.begun + 1 }

/-- The tick reads a key. -/
def get (h : History) (k : COMStr) : History := { h with read := h.read ++ (h.source k).toList }

/-- The tick sets a key. Data are gone from a key that is set to no text. -/
def set (h : History) (k text : COMStr) : History :=
  { h with source := fun k' ↦ if k' = k ∧ text = "" then none else h.source k' }

/-- The tick pushes a report. -/
def push (h : History) (text : COMStr) : History :=
  { h with reports := h.reports ++ [⟨text, h.read⟩], read := [] }

/-- The tick has ended. -/
def complete (h : History) : History := { h with completed := h.completed + 1 }

/-- The next operation of a tick. -/
def observe (h : History) : RedisProg Unit → History
  | .done _ => h
  | .get k _ => h.get k
  | .set k text _ => h.set k text
  | .push _ text _ => h.push text

/-- The history of a Bridge that has just started. -/
def empty : History := ⟨[], fun _ ↦ none, [], [], [], 0, 0⟩

end History

/-- The Bridge at work: Redis, what the running tick has still to do, and the history. -/
structure Threads where
  redis : Redis
  timer : Option (RedisProg Unit)
  history : History

/-- The next thing to happen. -/
inductive Event where
  /-- The listener handles a message, with at most one operation. -/
  | message (msg : COMStr)
  /-- The timer starts a tick, unless one runs. -/
  | tick (timeStamp : COMStr)
  /-- The running tick does its next operation. -/
  | timer

/-- One event. A tick ends with its last operation. -/
def step (P : Poco) (cfg : BridgeConfig) (s : Threads) : Event → Threads
  | .message msg =>
    { s with
      redis := listen P cfg.collector s.redis msg
      history := match accepted P cfg.collector msg with
        | none => s.history
        | some (d, jmsg) => s.history.store d.deviceType jmsg }
  | .tick timeStamp =>
    match s.timer with
    | some _ => s
    | none =>
      { s with timer := some (dataPointProcessor P cfg timeStamp), history := s.history.tick }
  | .timer =>
    match s.timer with
    | none => s
    | some p =>
      match p.step s.redis with
      | (.done (.ok _), redis) => ⟨redis, none, (s.history.observe p).complete⟩
      | (.done (.error _), redis) => ⟨redis, none, s.history.observe p⟩
      | (p', redis) => ⟨redis, some p', s.history.observe p⟩

/-- The Bridge when it starts. -/
def start (redis : Redis) : Threads := ⟨redis, none, .empty⟩

/-- The tick has read the key of a type and is about to clear it. -/
def Clearing (s : Threads) (deviceType : COMStr) : Prop :=
  ∃ v p, s.timer = some (.set (collectorKey deviceType) v p)

/-- The listener does not store data of a type that the tick is about to clear. -/
def Uncontended (P : Poco) (cfg : BridgeConfig) (s : Threads) (e : Event) : Prop :=
  ∀ msg, e = .message msg → ∀ d jmsg, accepted P cfg.collector msg = some (d, jmsg) →
    ¬ Clearing s d.deviceType

/-- The messages among the events. -/
def messagesOf (es : List Event) : List COMStr :=
  es.filterMap fun
    | .message msg => some msg
    | _ => none

/-- The tags of a message stand in a report. -/
def Shows (P : Poco) (text : COMStr) (m : Message) : Prop :=
  ∃ report : Object, text = P.stringify (.object .value report) ∧
    ∀ key ∈ tagKeys, reportedTags report m.deviceType key = (tags m.object key).map Var.reparse

/-- A message is in one report, once, with its tags. -/
def ReportedOnce (P : Poco) (h : History) (n : Nat) (m : Message) : Prop :=
  (h.reports.flatMap (·.shows)).count n = 1 ∧ ∃ r ∈ h.reports, n ∈ r.shows ∧ Shows P r.text m

/-- None of the messages shown is of a type. -/
def History.Lacks (h : History) (shows : List Nat) (t : COMStr) : Prop :=
  ∀ n ∈ shows, ∀ m, h.messages[n]? = some m → m.deviceType ≠ t

/-- The data the `i`-th report has for a type are those of no message: there are no tags, or, in the
first report, the tags that Redis held before. -/
def Bare (P : Poco) (before : Redis) (i : Nat) (report : Object) (t : COMStr) : Prop :=
  (∀ key ∈ tagKeys, reportedTags report t key = []) ∨
    i = 0 ∧ ∃ o, P.parse (before.vals (collectorKey t)) = .ok (.object .ptr o) ∧
      ∀ key ∈ tagKeys, reportedTags report t key = tags o key

/-- The `i`-th report has the tags of each message it shows under the type of that message, and for
any other configured type the data of no message. -/
def Tells (P : Poco) (cfg : BridgeConfig) (before : Redis) (h : History) (i : Nat) (r : Report) :
    Prop :=
  ∃ report : Object, r.text = P.stringify (.object .value report) ∧
    (∀ n ∈ r.shows, ∃ m, h.messages[n]? = some m ∧
      ∀ key ∈ tagKeys, reportedTags report m.deviceType key = (tags m.object key).map Var.reparse) ∧
    ∀ d ∈ cfg.collector.devices, h.Lacks r.shows d.deviceType →
      Bare P before i report d.deviceType

/-- The reports are what was put in front of the queue, each telling what it shows; and every
message that was not overwritten before a tick had read it, and after which a tick has begun and
ended, is in one of them. -/
structure ExactlyOnce (P : Poco) (cfg : BridgeConfig) (before : Redis) (s : Threads) : Prop where
  queue : s.redis.lists m2cDataQueue =
    (s.history.reports.map (·.text)).reverse ++ before.lists m2cDataQueue
  told : ∀ i r, s.history.reports[i]? = some r → Tells P cfg before s.history i r
  once : ∀ n m, s.history.messages[n]? = some m → n ∉ s.history.overwritten →
    m.begun < s.history.completed → ReportedOnce P s.history n m

/-! ### A tick that is not interrupted -/

/-- The events of the timer thread alone do what the program does uninterrupted. -/
private def Finishes (P : Poco) (cfg : BridgeConfig) (p : RedisProg Unit) : Prop :=
  ∀ redis h, ∃ n, (run (step P cfg) ⟨redis, some p, h⟩ (List.replicate n .timer)).redis =
    (p.exec redis).2

private theorem finishes_of_step {P : Poco} {cfg : BridgeConfig} {p : RedisProg Unit}
    (h : ∀ redis, Finishes P cfg (p.step redis).1) : Finishes P cfg p := by
  intro redis history
  have hp' := h redis
  rw [← Prog.exec_step p redis]
  rcases hstep : p.step redis with ⟨p', redis'⟩
  rw [hstep] at hp'
  cases p' with
  | done r =>
    refine ⟨1, ?_⟩
    simp only [List.replicate, run, step, hstep]
    cases r <;> rfl
  | _ =>
    obtain ⟨n, hn⟩ := hp' redis' (history.observe p)
    refine ⟨n + 1, ?_⟩
    rw [← hn, List.replicate_succ, run, step]
    simp only [hstep]

private theorem finishes (P : Poco) (cfg : BridgeConfig) (p : RedisProg Unit) :
    Finishes P cfg p := by
  induction p with
  | done r => exact fun redis _ ↦ ⟨0, rfl⟩
  | get k next ih => exact finishes_of_step fun redis ↦ ih (redis.vals k)
  | set k v next ih => exact finishes_of_step fun _ ↦ ih
  | push k v next ih => exact finishes_of_step fun _ ↦ ih

/-- A tick that the listener does not interrupt leaves Redis as `DataPointProcessor` does. -/
theorem run_tick_uninterrupted (P : Poco) (cfg : BridgeConfig) (timeStamp : COMStr) (s : Threads)
    (h : s.timer = none) :
    ∃ n, (run (step P cfg) s (.tick timeStamp :: List.replicate n .timer)).redis =
      ((dataPointProcessor P cfg timeStamp).exec s.redis).2 := by
  obtain ⟨n, hn⟩ := finishes P cfg (dataPointProcessor P cfg timeStamp) s.redis s.history.tick
  refine ⟨n, ?_⟩
  rw [← hn, run, step, h]

end IcsGateway.Bridge
