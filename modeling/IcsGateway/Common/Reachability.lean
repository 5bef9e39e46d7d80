import Mathlib.Algebra.Order.Field.Rat
import Mathlib.Tactic.NormNum
import IcsGateway.Common.ComPinger
import IcsGateway.Common.Numerals
import IcsGateway.Lib.Backtracking

/-!
# How reachable a host is

`ComPinger::Ping` counts the packets that come in, `ComPinger::SysPing` reads the counts that the
command `ping` prints (`Common/ComSysNetwork.cpp:454,541`). Both divide integers.
-/

namespace IcsGateway.ComPinger

open Lib ComUtil

/-! ### By packets -/

/-- What the sockets do for a call of `Ping`. -/
structure Sockets where
  opened : Bool
  timeoutSet : Bool
  answers : Nat → Answer

/-- The quotient of two integers, none of a division by zero. -/
def quotient (a b : Nat) : Option Nat := if b = 0 then none else some (a / b)

/-- `ComPinger::Ping`; `Common/ComSysNetwork.cpp:454`. -/
def ping (pid : Nat) (sockets : Sockets) (packet inbuf : List UInt8) (pingTimes : Nat) :
    Option Nat :=
  if !sockets.opened then some 0
  else if !sockets.timeoutSet then some 0
  else
    let s := PingState.rounds pid sockets.answers (.start packet inbuf) pingTimes
    if s.rcvs = 0 ∨ s.sents = 0 then some 0 else quotient s.rcvs s.sents

/-- The identifier of the packet behind its header. -/
def icmpId (inbuf : List UInt8) : Nat :=
  256 * (inbuf.getD (headerLength inbuf + 4) 0).toNat +
    (inbuf.getD (headerLength inbuf + 5) 0).toNat

/-- An echo reply to a request of this process comes in. -/
def Answer.OwnReply (pid : Nat) (a : Answer) : Prop :=
  a.sentsz = 8 ∧ ∃ bytes ∈ a.received, icmpType (receive bytes) = icmpEchoReply ∧
    icmpId (receive bytes) = pid % 2 ^ 16

instance (pid : Nat) (a : Answer) : Decidable (a.OwnReply pid) :=
  match h : a.received with
  | none => isFalse fun ⟨_, b, hb, _⟩ ↦ by rw [h] at hb; cases hb
  | some bytes =>
    decidable_of_iff (a.sentsz = 8 ∧ icmpType (receive bytes) = icmpEchoReply ∧
        icmpId (receive bytes) = pid % 2 ^ 16) (by
      rw [Answer.OwnReply, h]
      simp only [Option.mem_def, Option.some.injEq, exists_eq_left'])

/-- An echo request of this process, with any sequence. -/
def ownRequest (pid : Nat) : List UInt8 → Bool
  | [type, code, ck₀, ck₁, id₀, id₁, seq₀, seq₁] =>
    type = icmpEcho ∧ code = 0 ∧ 256 * id₀.toNat + id₁.toNat = pid % 2 ^ 16 ∧
      checksum [type, code, ck₀, ck₁, id₀, id₁, seq₀, seq₁] = some 0
  | _ => false

/-- In a round of `Ping` an echo request of this process is sent whole. -/
def Requests (pid : Nat) (sockets : Sockets) (packet inbuf : List UInt8) (n i : Nat) : Prop :=
  (sockets.answers i).sentsz = 8 ∧
    ∃ s ∈ (PingState.rounds pid sockets.answers (.start packet inbuf) n).sent,
      s.1 = i ∧ ownRequest pid s.2 = true

instance (pid : Nat) (sockets : Sockets) (packet inbuf : List UInt8) (n : Nat) :
    DecidablePred (Requests pid sockets packet inbuf n) :=
  fun _ ↦ inferInstanceAs (Decidable (_ ∧ _))

/-- The requests that are sent. -/
def requests (pid : Nat) (sockets : Sockets) (packet inbuf : List UInt8) (n : Nat) : Nat :=
  if sockets.opened ∧ sockets.timeoutSet then
    Nat.count (Requests pid sockets packet inbuf n) n
  else 0

/-- The replies to them that come in. -/
def replies (pid : Nat) (sockets : Sockets) (n : Nat) : Nat :=
  if sockets.opened ∧ sockets.timeoutSet then
    Nat.count (fun i ↦ (sockets.answers i).OwnReply pid) n
  else 0

/-- The part of the requests that is answered, zero of none. -/
def measure (r s : Nat) : ℚ := if s = 0 then 0 else r / s

/-- `Ping` gives the part of its requests that is answered. -/
def PingRight (pid : Nat) (sockets : Sockets) (packet inbuf : List UInt8) (n : Nat) : Prop :=
  ∃ q, ping pid sockets packet inbuf n = some q ∧
    (q : ℚ) = measure (replies pid sockets n) (requests pid sockets packet inbuf n)

/-- What `Ping` returns: one where an echo reply comes in every round, and else zero. -/
private theorem ping_eq (pid : Nat) {sockets : Sockets} (hopened : sockets.opened = true)
    (htimeout : sockets.timeoutSet = true) (packet inbuf : List UInt8) (n : Nat) :
    ping pid sockets packet inbuf n =
      some (if 0 < n ∧ ∀ i < n, (sockets.answers i).EchoReply then 1 else 0) := by
  obtain ⟨hsents, hrcvs⟩ := PingState.counts_rounds pid sockets.answers packet inbuf n
  have hall := Nat.count_iff_forall (p := fun i ↦ (sockets.answers i).EchoReply) (n := n)
  have hle := Nat.count_le (p := fun i ↦ (sockets.answers i).EchoReply) (n := n)
  rw [ping, hopened, htimeout]
  simp only [Bool.not_true, Bool.false_eq_true, if_false, hsents, hrcvs, ← hall]
  by_cases hnone : Nat.count (fun i ↦ (sockets.answers i).EchoReply) n = 0 ∨ n = 0
  · rw [if_pos hnone, if_neg (by omega)]
  · rw [if_neg hnone, quotient, if_neg (by omega)]
    by_cases hfull : Nat.count (fun i ↦ (sockets.answers i).EchoReply) n = n
    · rw [if_pos ⟨by omega, hfull⟩, hfull, Nat.div_self (by omega)]
    · rw [if_neg fun h ↦ hfull h.2, Nat.div_eq_of_lt (by omega)]

/-- It is one with the sequence that it gives. -/
theorem ownRequest_iff {pid : Nat} {d : List UInt8} :
    ownRequest pid d = true ↔ ∃ seq, IsEchoRequest pid seq d := by
  constructor
  · intro h
    unfold ownRequest at h
    split at h
    · next type code ck₀ ck₁ id₀ id₁ seq₀ seq₁ =>
      rw [decide_eq_true_iff] at h
      obtain ⟨rfl, rfl, hid, hsum⟩ := h
      exact ⟨_, ck₀, ck₁, id₀, id₁, seq₀, seq₁, rfl, hid, rfl, hsum⟩
    · cases h
  · rintro ⟨seq, ck₀, ck₁, id₀, id₁, seq₀, seq₁, rfl, hid, -, hsum⟩
    rw [ownRequest, decide_eq_true_iff]
    exact ⟨rfl, rfl, hid, hsum⟩

/-- A round sends a request where all eight bytes go out and no packet came in before: behind that
one it sends zeros. -/
theorem requests_round_iff (pid : Nat) (sockets : Sockets) (packet inbuf : List UInt8) {n i : Nat}
    (hi : i < n) : Requests pid sockets packet inbuf n i ↔
      (sockets.answers i).sentsz = 8 ∧ ∀ j < i, ¬ (sockets.answers j).Receives := by
  rw [Requests]
  apply and_congr_right
  intro hsent
  constructor
  · rintro ⟨⟨_, d⟩, hd, rfl, hown⟩
    obtain ⟨seq, hseq⟩ := ownRequest_iff.mp hown
    obtain ⟨-, -, rfl⟩ := (PingState.mem_sent_rounds pid _ packet inbuf n _ d).mp hd
    by_contra hfirst
    rw [if_neg hfirst] at hseq
    exact not_isEchoRequest_zeros pid seq hseq
  · intro hfirst
    refine ⟨(i, echoRequest pid i), ?_, rfl, ownRequest_iff.mpr ⟨i % 65536, ?_⟩⟩
    · rw [PingState.mem_sent_rounds, if_pos hfirst]
      exact ⟨hi, by omega, rfl⟩
    · rw [← echoRequest_mod]
      exact (isEchoRequest_echoRequest_iff pid _).mpr (Nat.mod_lt i (by decide))

/-- A reply to a request of this process is an echo reply, in a round that sends all eight bytes. -/
private theorem OwnReply.echoReply {pid : Nat} {a : Answer} (h : a.OwnReply pid) :
    a.EchoReply := by
  obtain ⟨hsent, bytes, hbytes, htype, -⟩ := h
  exact ⟨hsent, bytes, hbytes, htype⟩

/-- An echo reply is a packet that comes in. -/
private theorem EchoReply.receives {a : Answer} (h : a.EchoReply) : a.Receives := by
  obtain ⟨hsent, bytes, hbytes, -⟩ := h
  exact ⟨hsent, by rw [Option.mem_def.mp hbytes]; rfl⟩

/-- Where a round sends all eight bytes, the first that does sends a request. -/
private theorem exists_request {sockets : Sockets} {i : Nat}
    (hi : (sockets.answers i).sentsz = 8) :
    ∃ k ≤ i, (sockets.answers k).sentsz = 8 ∧ ∀ j < k, ¬ (sockets.answers j).Receives := by
  induction i using Nat.strongRecOn with
  | ind i ih =>
    by_cases hfirst : ∀ j < i, ¬ (sockets.answers j).Receives
    · exact ⟨i, Nat.le_refl i, hi, hfirst⟩
    · push Not at hfirst
      obtain ⟨j, hj, hreceives⟩ := hfirst
      obtain ⟨k, hk, hrest⟩ := ih j hj hreceives.1
      exact ⟨k, by omega, hrest⟩

/-- The measure is zero exactly without a reply. -/
private theorem measure_eq_zero_iff {r s : Nat} (h : s = 0 → r = 0) : measure r s = 0 ↔ r = 0 := by
  rw [measure]
  by_cases hs : s = 0
  · rw [if_pos hs]
    exact ⟨fun _ ↦ h hs, fun _ ↦ rfl⟩
  · rw [if_neg hs, div_eq_zero_iff]
    simp only [Nat.cast_eq_zero, hs, or_false]

/-- Of one request, the measure counts the replies. -/
private theorem measure_one (r : Nat) : measure r 1 = r := by
  rw [measure, if_neg (by decide), Nat.cast_one, div_one]

/-- `Ping` over sockets that work. -/
private theorem pingRight_open_iff (pid : Nat) {sockets : Sockets}
    (hopened : sockets.opened = true) (htimeout : sockets.timeoutSet = true)
    (packet inbuf : List UInt8) (n : Nat) :
    PingRight pid sockets packet inbuf n ↔
      (∀ i < n, (sockets.answers i).EchoReply) ∧
          Nat.count (fun i ↦ (sockets.answers i).OwnReply pid) n = 1 ∨
        (∀ i < n, ¬ (sockets.answers i).OwnReply pid) ∧
          (n = 0 ∨ ∃ i < n, ¬ (sockets.answers i).EchoReply) := by
  have hr : replies pid sockets n = Nat.count (fun i ↦ (sockets.answers i).OwnReply pid) n := by
    rw [replies, if_pos ⟨hopened, htimeout⟩]
  have hs : requests pid sockets packet inbuf n =
      Nat.count (Requests pid sockets packet inbuf n) n := by
    rw [requests, if_pos ⟨hopened, htimeout⟩]
  have hnone : replies pid sockets n = 0 ↔ ∀ i < n, ¬ (sockets.answers i).OwnReply pid := by
    rw [hr]
    exact Nat.count_iff_forall_not
  rw [PingRight, ping_eq pid hopened htimeout]
  simp only [Option.some.injEq, exists_eq_left']
  by_cases hecho : 0 < n ∧ ∀ i < n, (sockets.answers i).EchoReply
  · -- a packet comes in in the first round, so only that one sends a request
    obtain ⟨hpos, hall⟩ := hecho
    have hfirst : (sockets.answers 0).EchoReply := hall 0 hpos
    have hone : requests pid sockets packet inbuf n = 1 := by
      obtain ⟨m, rfl⟩ : ∃ m, n = m + 1 := ⟨n - 1, by omega⟩
      have hzero : Requests pid sockets packet inbuf (m + 1) 0 :=
        (requests_round_iff pid sockets packet inbuf hpos).mpr ⟨hfirst.1, nofun⟩
      have hlater : Nat.count (fun k ↦ Requests pid sockets packet inbuf (m + 1) (k + 1)) m = 0 := by
        rw [Nat.count_iff_forall_not]
        intro i hi hrequest
        rw [requests_round_iff pid sockets packet inbuf (Nat.succ_lt_succ hi)] at hrequest
        exact hrequest.2 0 (Nat.succ_pos i) (EchoReply.receives hfirst)
      rw [hs, Nat.count_succ', hlater, if_pos hzero]
    have hno : ¬ (n = 0 ∨ ∃ i < n, ¬ (sockets.answers i).EchoReply) := by
      rintro (hn | ⟨i, hi, hnot⟩)
      · omega
      · exact hnot (hall i hi)
    rw [if_pos ⟨hpos, hall⟩, hone, measure_one, hr, eq_comm, or_iff_left fun h ↦ hno h.2,
      and_iff_right hall]
    exact Nat.cast_inj
  · have hsome : requests pid sockets packet inbuf n = 0 → replies pid sockets n = 0 := by
      rw [hs, hnone, Nat.count_iff_forall_not]
      intro hsent i hi hown
      obtain ⟨k, hk, hrequest⟩ := exists_request hown.1
      exact hsent k (by omega)
        ((requests_round_iff pid sockets packet inbuf (by omega)).mpr hrequest)
    rw [if_neg hecho, Nat.cast_zero, eq_comm, measure_eq_zero_iff hsome, hnone]
    constructor
    · intro hnot
      refine .inr ⟨hnot, ?_⟩
      by_contra hno
      push Not at hno
      exact hecho ⟨by omega, hno.2⟩
    · rintro (⟨hall, hown⟩ | ⟨hnot, -⟩)
      · have hn : n = 0 := by
          by_contra hn
          exact hecho ⟨by omega, hall⟩
        rw [hn, Nat.count_zero] at hown
        cases hown
      · exact hnot

/-- `Ping` gives the part of its requests that is answered exactly where it fails before it sends
any, where every round brings an echo reply and one of them is a reply to its own, or where none is
and some round, if there is one, brings no echo reply. -/
theorem pingRight_iff (pid : Nat) (sockets : Sockets) (packet inbuf : List UInt8) (n : Nat) :
    PingRight pid sockets packet inbuf n ↔
      sockets.opened = false ∨ sockets.timeoutSet = false ∨
        (∀ i < n, (sockets.answers i).EchoReply) ∧
          Nat.count (fun i ↦ (sockets.answers i).OwnReply pid) n = 1 ∨
        (∀ i < n, ¬ (sockets.answers i).OwnReply pid) ∧
          (n = 0 ∨ ∃ i < n, ¬ (sockets.answers i).EchoReply) := by
  cases hopened : sockets.opened with
  | false => simp [PingRight, ping, requests, measure, hopened]
  | true =>
    cases htimeout : sockets.timeoutSet with
    | false => simp [PingRight, ping, requests, measure, hopened, htimeout]
    | true =>
      rw [pingRight_open_iff pid hopened htimeout]
      simp

/-! ### By what `ping` prints -/

/-- The text between the two counts. -/
def transmitted : List Char :=
  [' ', 'p', 'a', 'c', 'k', 'e', 't', 's', ' ', 't', 'r', 'a', 'n', 's', 'm', 'i', 't', 't', 'e',
    'd', ',', ' ']

/-- The text behind them. -/
def received : List Char := [' ', 'r', 'e', 'c', 'e', 'i', 'v', 'e', 'd']

/-- `(\d+) packets transmitted, (\d+) received`. -/
def statExp : Regex :=
  .seq (.group 1 (.plus (.chars Char.isDigit))) (.seq (.lit transmitted)
    (.seq (.group 2 (.plus (.chars Char.isDigit))) (.lit received)))

/-- `ComPinger::SysPing`, none where it divides by zero; `Common/ComSysNetwork.cpp:541`. -/
def sysPing (execRead : COMStr → COMStr) (ip : COMStr) (pingTimes : Int32) : Option Nat :=
  if ip = "" then some 0
  else
    let cmd := "timeout 1 ping -c " ++ toString pingTimes.toInt ++ " " ++ ip
    match Regex.search statExp [] (execRead cmd).toList with
    | some m =>
      let snd := toUnsigned (getNumber (String.ofList (m.str 1)))
      let rcv := toUnsigned (getNumber (String.ofList (m.str 2)))
      quotient rcv snd
    | none => some 0

/-- The counts at the front of a text. -/
def Statistics (cs sd rd : List Char) : Prop :=
  ∃ after, cs = sd ++ (transmitted ++ (rd ++ (received ++ after))) ∧
    (sd ≠ [] ∧ ∀ c ∈ sd, c.isDigit = true) ∧ rd ≠ [] ∧ ∀ c ∈ rd, c.isDigit = true

/-- The counts at the first place that has some. -/
def Prints (text : COMStr) (sd rd : List Char) : Prop :=
  ∃ k ≤ text.toList.length, Statistics (text.toList.drop k) sd rd ∧
    ∀ j < k, ∀ sd' rd', ¬ Statistics (text.toList.drop j) sd' rd'

/-- `SysPing` gives the part of the requests that is answered as `ping` prints it, zero where it
prints nothing. -/
def SysPingRight (execRead : COMStr → COMStr) (ip : COMStr) (pingTimes : Int32) : Prop :=
  let text := execRead ("timeout 1 ping -c " ++ toString pingTimes.toInt ++ " " ++ ip)
  (∀ sd rd, ip ≠ "" → Prints text sd rd → ∃ q, sysPing execRead ip pingTimes = some q ∧
    (q : ℚ) = measure (valueOf 10 rd) (valueOf 10 sd)) ∧
  ((ip = "" ∨ ∀ sd rd, ¬ Prints text sd rd) → sysPing execRead ip pingTimes = some 0)

/-! ### What the expression finds -/

open Regex

/-- What begins with a blank fails before a digit. -/
private theorem fails_lit_of_digit (w : List Char) (u : Cursor)
    (h : ∃ c ∈ u.rest.head?, c.isDigit = true) : Fails (.lit (' ' :: w)) u := by
  obtain ⟨c, hc, hdigit⟩ := h
  rw [Fails, run_lit, if_neg]
  rintro ⟨rest, hrest⟩
  rw [← hrest] at hc
  cases hc
  cases hdigit

/-- A number at the front, by its digits. -/
private theorem exists_number (cs : List Char) : ∃ w rest, cs = w ++ rest ∧
    (∀ c ∈ w, c.isDigit = true) ∧ ∀ c ∈ rest.head?, c.isDigit = false := by
  refine ⟨cs.takeWhile Char.isDigit, cs.dropWhile Char.isDigit,
    List.takeWhile_append_dropWhile.symm, fun c hc ↦ List.mem_takeWhile_imp hc, ?_⟩
  intro c hc
  have hnot := List.head?_dropWhile_not Char.isDigit cs
  rw [Option.mem_def.mp hc] at hnot
  simpa using hnot

/-- The part behind the first count. -/
private def behindSent : Regex :=
  .seq (.lit transmitted) (.seq (.group 2 (.plus (.chars Char.isDigit))) (.lit received))

section

variable {s : Cursor} {ds rest : List Char}

/-- The first count is read to its end. -/
private theorem run_statExp (hs : s.rest = ds ++ rest) (hne : ds ≠ [])
    (hds : ∀ c ∈ ds, c.isDigit = true) (hrest : ∀ c ∈ rest.head?, c.isDigit = false) :
    run statExp s = run behindSent ((s.advance ds rest).keep 1 ds) :=
  run_seq_group_plus (fun u hu ↦ (fails_lit_of_digit _ u hu).seq _) hs hne hds hrest

/-- The text between the counts is passed over. -/
private theorem run_transmitted (hs : s.rest = transmitted ++ rest) :
    run behindSent s =
      run (.seq (.group 2 (.plus (.chars Char.isDigit))) (.lit received))
        (s.advance transmitted rest) := by
  have hprefix : transmitted <+: s.rest := by
    rw [hs]
    exact List.prefix_append _ _
  rw [behindSent, run_seq, run_lit, if_pos hprefix, hs, List.drop_left, List.flatMap_cons,
    List.flatMap_nil, List.append_nil]

/-- The second count is read to its end. -/
private theorem run_behindSent (hs : s.rest = transmitted ++ (ds ++ rest)) (hne : ds ≠ [])
    (hds : ∀ c ∈ ds, c.isDigit = true) (hrest : ∀ c ∈ rest.head?, c.isDigit = false) :
    run behindSent s =
      run (.lit received) (((s.advance transmitted (ds ++ rest)).advance ds rest).keep 2 ds) := by
  rw [run_transmitted hs]
  exact run_seq_group_plus (fun u hu ↦ fails_lit_of_digit _ u hu) rfl hne hds hrest

/-- Without a digit there is no count. -/
private theorem fails_count (h : ∀ c ∈ s.rest.head?, c.isDigit = false) (i : Nat) (t : Regex) :
    Fails (.seq (.group i (.plus (.chars Char.isDigit))) t) s :=
  (((fails_chars h).seq _).group i).seq t

/-- The counts are found at the front, and kept. -/
private theorem first_statExp {sd rd : List Char} (h : Statistics s.rest sd rd) :
    ∃ t, First statExp s t ∧ t.str 1 = sd ∧ t.str 2 = rd := by
  obtain ⟨after, hs, ⟨hsd, hsent⟩, hrd, hreceived⟩ := h
  have hrest : ∀ c ∈ (transmitted ++ (rd ++ (received ++ after))).head?, c.isDigit = false := by
    rintro c hc
    cases hc
    decide
  have hrest' : ∀ c ∈ (received ++ after).head?, c.isDigit = false := by
    rintro c hc
    cases hc
    decide
  obtain ⟨u, hu⟩ : ∃ u, u = ((((s.advance sd (transmitted ++ (rd ++ (received ++ after)))).keep 1
      sd).advance transmitted (rd ++ (received ++ after))).advance rd
        (received ++ after)).keep 2 rd := ⟨_, rfl⟩
  have hurest : u.rest = received ++ after := by
    rw [hu]
    rfl
  have hrun : run statExp s = [u.advance received after] := by
    rw [run_statExp hs hsd hsent hrest, run_behindSent rfl hrd hreceived hrest', ← hu, run_lit,
      if_pos (by rw [hurest]; exact List.prefix_append _ _), hurest, List.drop_left]
  refine ⟨u.advance received after, ?_, ?_, ?_⟩
  · rw [First, hrun]
    rfl
  · simp [hu, Cursor.str, Cursor.keep, Cursor.advance]
  · simp [hu, Cursor.str, Cursor.keep, Cursor.advance]

/-- Without counts at the front nothing is found there. -/
private theorem fails_statExp (h : ∀ sd rd, ¬ Statistics s.rest sd rd) : Fails statExp s := by
  obtain ⟨sd, rest, hs, hsd, hrest⟩ := exists_number s.rest
  by_cases hne : sd = []
  · rw [hne, List.nil_append] at hs
    apply fails_count
    rw [hs]
    exact hrest
  · rw [Fails, run_statExp hs hne hsd hrest]
    by_cases hsep : transmitted <+: rest
    · obtain ⟨tail, rfl⟩ := hsep
      obtain ⟨rd, rest', rfl, hrd, hrest'⟩ := exists_number tail
      by_cases hne' : rd = []
      · have hu : (((s.advance sd (transmitted ++ (rd ++ rest'))).keep 1 sd)).rest =
            transmitted ++ rest' := by
          rw [hne']
          rfl
        rw [run_transmitted hu]
        exact fails_count hrest' 2 _
      · rw [run_behindSent rfl hne' hrd hrest', run_lit, if_neg]
        rintro ⟨after, hafter⟩
        apply h sd rd
        refine ⟨after, ?_, ⟨hne, hsd⟩, hne', hrd⟩
        rw [hs, hafter]
        rfl
    · exact Fails.seq (by rw [Fails, run_lit]; exact if_neg hsep) _

end

/-- What a search finds in a text are the counts at the first place that has some. -/
private theorem search_of_prints {text : COMStr} {sd rd : List Char} (h : Prints text sd rd) :
    ∃ t, search statExp [] text.toList = some t ∧ t.str 1 = sd ∧ t.str 2 = rd := by
  obtain ⟨k, hk, hstat, hfirst⟩ := h
  obtain ⟨t, ht, hsd, hrd⟩ := first_statExp (s := placeAt [] text.toList k) hstat
  exact ⟨t, search_eq_some hk ht fun j hj ↦ fails_statExp (hfirst j hj), hsd, hrd⟩

/-- Without counts anywhere it finds nothing. -/
private theorem search_of_not_prints {text : COMStr} (h : ∀ sd rd, ¬ Prints text sd rd) :
    search statExp [] text.toList = none := by
  have hnone : ∀ k ≤ text.toList.length, ∀ sd rd, ¬ Statistics (text.toList.drop k) sd rd := by
    intro k
    induction k using Nat.strongRecOn with
    | ind k ih =>
      intro hk sd rd hstat
      exact h sd rd ⟨k, hk, hstat, fun j hj ↦ ih j hj (by omega)⟩
  exact search_eq_none fun k hk ↦ fails_statExp (hnone k hk)

/-! ### When they are right -/

/-- A number as an unsigned `int`. -/
def toUInt (n : Nat) : Nat := if 2 ^ 64 ≤ n then 2 ^ 32 - 1 else n % 2 ^ 32

/-- Digits as the code reads them. -/
private theorem toUnsigned_getNumber {ds : List Char} (hne : ds ≠ [])
    (hds : ∀ c ∈ ds, c.isDigit = true) :
    toUnsigned (getNumber (String.ofList ds)) = toUInt (valueOf 10 ds) := by
  have hdigits : IsDigits 10 ds := ⟨hne, fun c hc ↦ by rw [digit?_ten (hds c hc)]; rfl⟩
  have hfront : Front (String.ofList ds).toList (valueOf 10 ds) := by
    rw [String.toList_ofList]
    exact (Numeral.decimal ds hdigits).front
  rw [getNumber_of_front hfront, wrap, toUInt, toUnsigned, Int.natAbs_natCast]
  by_cases hlong : 2 ^ 64 ≤ valueOf 10 ds
  · rw [if_pos hlong, if_pos hlong]
    decide
  · have hmod := Int.bmod_emod (x := valueOf 10 ds) (m := 2 ^ 32)
    rw [if_neg hlong, if_neg hlong]
    omega

/-- The counts at the first place of a text are found in one way. -/
private theorem Prints.number {text : COMStr} {sd rd : List Char} (h : Prints text sd rd) :
    (sd ≠ [] ∧ ∀ c ∈ sd, c.isDigit = true) ∧ rd ≠ [] ∧ ∀ c ∈ rd, c.isDigit = true := by
  obtain ⟨_, _, ⟨_, _, hsd, hrd⟩, _⟩ := h
  exact ⟨hsd, hrd⟩

/-- What `SysPing` returns of counts. -/
private theorem sysPing_of_prints {execRead : COMStr → COMStr} {ip : COMStr} {pingTimes : Int32}
    (hip : ip ≠ "") {sd rd : List Char} (h : Prints
      (execRead ("timeout 1 ping -c " ++ toString pingTimes.toInt ++ " " ++ ip)) sd rd) :
    sysPing execRead ip pingTimes =
      quotient (toUInt (valueOf 10 rd)) (toUInt (valueOf 10 sd)) := by
  obtain ⟨t, ht, hsd, hrd⟩ := search_of_prints h
  obtain ⟨⟨hsne, hsdig⟩, hrne, hrdig⟩ := h.number
  rw [sysPing, if_neg hip]
  simp only [ht, hsd, hrd, toUnsigned_getNumber hsne hsdig, toUnsigned_getNumber hrne hrdig]

/-- A number goes so many times into another, and as often, with or without a remainder, when
both are unsigned integers. -/
def GoesInto (s r : Nat) : Prop :=
  ∃ k, r = k * s ∧ k * toUInt s ≤ toUInt r ∧ toUInt r < (k + 1) * toUInt s

/-- For numbers that fit: one that is not zero divides the other. -/
theorem goesInto_iff_of_lt {r s : Nat} (hr : r < 2 ^ 32) (hs : s < 2 ^ 32) :
    GoesInto s r ↔ s ≠ 0 ∧ s ∣ r := by
  have hfits (n : Nat) (h : n < 2 ^ 32) : toUInt n = n := by
    rw [toUInt, if_neg (by omega), Nat.mod_eq_of_lt h]
  rw [GoesInto, hfits r hr, hfits s hs]
  constructor
  · rintro ⟨k, rfl, -, hlt⟩
    have hs0 : s ≠ 0 := by
      rintro rfl
      exact Nat.not_lt_zero _ hlt
    exact ⟨hs0, Nat.dvd_mul_left s k⟩
  · rintro ⟨hs0, k, rfl⟩
    refine ⟨k, Nat.mul_comm s k, ?_, ?_⟩
    · rw [Nat.mul_comm]
    · rw [Nat.mul_comm, Nat.add_mul, Nat.one_mul]
      omega

/-- The quotient of the counts as unsigned integers is their fraction exactly where the first goes
into the second. -/
private theorem quotient_right_iff (r s : Nat) :
    (∃ q, quotient (toUInt r) (toUInt s) = some q ∧ (q : ℚ) = measure r s) ↔ GoesInto s r := by
  rw [quotient, GoesInto]
  by_cases hzero : toUInt s = 0
  · simp [hzero]
  · have hs : s ≠ 0 := by
      rintro rfl
      exact hzero rfl
    have hne : (s : ℚ) ≠ 0 := by exact_mod_cast hs
    have hpos : 0 < toUInt s := Nat.pos_of_ne_zero hzero
    rw [if_neg hzero, measure, if_neg hs]
    simp only [Option.some.injEq, exists_eq_left', eq_div_iff hne]
    constructor
    · intro h
      have hr : r = toUInt r / toUInt s * s := by exact_mod_cast h.symm
      refine ⟨toUInt r / toUInt s, hr, Nat.div_mul_le_self _ _, ?_⟩
      rw [Nat.mul_comm]
      exact Nat.lt_mul_div_succ _ hpos
    · rintro ⟨k, hr, hle, hlt⟩
      have hk : toUInt r / toUInt s = k := Nat.div_eq_of_lt_le hle hlt
      rw [hk]
      exact_mod_cast hr.symm

/-- `SysPing` gives the part of the requests that is answered exactly where the first count that
`ping` prints, if it prints some, goes into the second. -/
theorem sysPingRight_iff (execRead : COMStr → COMStr) (ip : COMStr) (pingTimes : Int32) :
    SysPingRight execRead ip pingTimes ↔ ∀ sd rd, ip ≠ "" →
      Prints (execRead ("timeout 1 ping -c " ++ toString pingTimes.toInt ++ " " ++ ip)) sd rd →
      GoesInto (valueOf 10 sd) (valueOf 10 rd) := by
  have hzero : (ip = "" ∨ ∀ sd rd, ¬ Prints
      (execRead ("timeout 1 ping -c " ++ toString pingTimes.toInt ++ " " ++ ip)) sd rd) →
      sysPing execRead ip pingTimes = some 0 := by
    intro hcase
    rw [sysPing]
    by_cases hip : ip = ""
    · rw [if_pos hip]
    · rw [if_neg hip]
      simp only [search_of_not_prints (hcase.resolve_left hip)]
  rw [SysPingRight]
  simp only [and_iff_left hzero]
  constructor
  · intro h sd rd hip hprints
    have hright := h sd rd hip hprints
    rw [sysPing_of_prints hip hprints] at hright
    exact (quotient_right_iff _ _).mp hright
  · intro h sd rd hip hprints
    rw [sysPing_of_prints hip hprints]
    exact (quotient_right_iff _ _).mpr (h sd rd hip hprints)

/-- Both give the part of the requests that is answered exactly where each does. -/
theorem reachability_right_iff (pid : Nat) (sockets : Sockets) (packet inbuf : List UInt8)
    (n : Nat) (execRead : COMStr → COMStr) (ip : COMStr) (pingTimes : Int32) :
    PingRight pid sockets packet inbuf n ∧ SysPingRight execRead ip pingTimes ↔
      (sockets.opened = false ∨ sockets.timeoutSet = false ∨
        (∀ i < n, (sockets.answers i).EchoReply) ∧
          Nat.count (fun i ↦ (sockets.answers i).OwnReply pid) n = 1 ∨
        (∀ i < n, ¬ (sockets.answers i).OwnReply pid) ∧
          (n = 0 ∨ ∃ i < n, ¬ (sockets.answers i).EchoReply)) ∧
      ∀ sd rd, ip ≠ "" →
        Prints (execRead ("timeout 1 ping -c " ++ toString pingTimes.toInt ++ " " ++ ip)) sd rd →
        GoesInto (valueOf 10 sd) (valueOf 10 rd) := by
  rw [pingRight_iff, sysPingRight_iff]

/-- A process whose second of two requests is answered gets zero. -/
theorem not_pingRight_half :
    ¬ ∀ (pid : Nat) (sockets : Sockets) (packet inbuf : List UInt8) (n : Nat)
      (execRead : COMStr → COMStr) (ip : COMStr) (pingTimes : Int32),
      PingRight pid sockets packet inbuf n ∧ SysPingRight execRead ip pingTimes := by
  intro h
  have hright := (h 1 ⟨true, true, fun i ↦ ⟨8, if i = 1 then some firstReply else none⟩⟩ [] [] 2
    (fun _ ↦ "") "" 1).1
  rw [pingRight_open_iff 1 rfl rfl] at hright
  revert hright
  decide

end IcsGateway.ComPinger
