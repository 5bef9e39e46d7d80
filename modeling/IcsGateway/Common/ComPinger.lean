import Mathlib.Data.Nat.Count
import Mathlib.Data.List.Basic
import IcsGateway.Common.Checksum

/-!
# Pings

`ComPinger::Ping` sends an echo request in every round and waits for a packet
(`Common/ComSysNetwork.cpp:454`). It builds the request through `pkt`, which stands at the buffer
that is sent until a packet comes in, and at that packet from then on.
-/

namespace IcsGateway.ComPinger

open Lib

/-- `ICMP_ECHO`. -/
def icmpEcho : UInt8 := 8

/-- `ICMP_ECHOREPLY`. -/
def icmpEchoReply : UInt8 := 0

/-- What the socket answers in a round: the result of `sendto`, and the packet that `recvfrom`
gives, if it gives one. -/
structure Answer where
  sentsz : Int
  received : Option (List UInt8)

/-- The locals of `Ping`: where `pkt` stands, at `packet` or so many bytes behind the start of
`inbuf`, and, for the record, what was sent in which round. -/
structure PingState where
  packet : List UInt8
  inbuf : List UInt8
  pkt : Option Nat
  sents : Nat
  rcvs : Nat
  sent : List (Nat × List UInt8)

/-- The header of a request: the identifier in the order of the network, the sequence in that of
the host. -/
def header (pid i : Nat) (ck : UInt16) : List UInt8 :=
  [icmpEcho, 0, lowByte ck, highByte ck, UInt8.ofNat (pid % 65536 / 256),
    UInt8.ofNat (pid % 65536 % 256), UInt8.ofNat (i % 65536 % 256), UInt8.ofNat (i % 65536 / 256)]

/-- The request, with the checksum of its header; `Common/ComSysNetwork.cpp:489–494`. -/
def echoRequest (pid i : Nat) : List UInt8 :=
  header pid i ((checksum (header pid i 0)).getD 0)

/-- A packet as `recvfrom` leaves it in the cleared buffer. -/
def receive (bytes : List UInt8) : List UInt8 :=
  bytes.take 192 ++ List.replicate (192 - bytes.length) 0

/-- `iph->ihl << 2`. -/
def headerLength (inbuf : List UInt8) : Nat := ((inbuf.getD 0 0) &&& 0x0F).toNat * 4

/-- The type of the packet behind its header. -/
def icmpType (inbuf : List UInt8) : UInt8 := inbuf.getD (headerLength inbuf) 0

namespace PingState

/-- Eight bytes written through `pkt`. -/
def store (s : PingState) (bytes : List UInt8) : PingState :=
  match s.pkt with
  | none => { s with packet := bytes }
  | some off => { s with inbuf := s.inbuf.take off ++ bytes ++ s.inbuf.drop (off + 8) }

/-- A round; `Common/ComSysNetwork.cpp:485–532`. -/
def round (pid i : Nat) (a : Answer) (s : PingState) : PingState :=
  let s := { s with packet := List.replicate 8 0 }
  let s := s.store (echoRequest pid i)
  let s := { s with sents := s.sents + 1 }
  if a.sentsz < 0 then s
  else
    let s := { s with sent := s.sent ++ [(i, s.packet)] }
    if a.sentsz ≠ 8 then s
    else
      let s := { s with inbuf := List.replicate 192 0 }
      match a.received with
      | none => s
      | some bytes =>
        let inbuf := receive bytes
        let s := { s with inbuf := inbuf, pkt := some (headerLength inbuf) }
        if icmpType inbuf = icmpEchoReply then { s with rcvs := s.rcvs + 1 } else s

/-- The locals before the loop; the buffers hold what the stack held. -/
def start (packet inbuf : List UInt8) : PingState where
  packet := packet
  inbuf := inbuf
  pkt := none
  sents := 0
  rcvs := 0
  sent := []

/-- The locals after so many rounds. -/
def rounds (pid : Nat) (answers : Nat → Answer) (s : PingState) : Nat → PingState
  | 0 => s
  | n + 1 => round pid n (answers n) (rounds pid answers s n)

end PingState

/-! ### What a round does -/

/-- A packet comes in. -/
def Answer.Receives (a : Answer) : Prop := a.sentsz = 8 ∧ a.received.isSome = true

instance (a : Answer) : Decidable a.Receives := inferInstanceAs (Decidable (_ ∧ _))

/-- An echo reply comes in, of whatever request. -/
def Answer.EchoReply (a : Answer) : Prop :=
  a.sentsz = 8 ∧ ∃ bytes ∈ a.received, icmpType (receive bytes) = icmpEchoReply

instance (a : Answer) : Decidable a.EchoReply :=
  match h : a.received with
  | none => isFalse fun ⟨_, b, hb, _⟩ ↦ by rw [h] at hb; cases hb
  | some bytes =>
    decidable_of_iff (a.sentsz = 8 ∧ icmpType (receive bytes) = icmpEchoReply) (by
      rw [Answer.EchoReply, h]
      simp only [Option.mem_def, Option.some.injEq, exists_eq_left'])

namespace PingState

variable (pid i : Nat) (a : Answer) (s : PingState)

/-- Writing through `pkt` changes one of the buffers. -/
private theorem store_frame (bytes : List UInt8) :
    (s.store bytes).pkt = s.pkt ∧ (s.store bytes).sents = s.sents ∧
      (s.store bytes).rcvs = s.rcvs ∧ (s.store bytes).sent = s.sent ∧
      (s.store bytes).packet = if s.pkt = none then bytes else s.packet := by
  rw [store]
  cases s.pkt with
  | none => simp
  | some off => simp

/-- What a round does to `pkt`, to the counts and to the record. -/
private theorem round_fields :
    (s.round pid i a).pkt = (if a.Receives then
        a.received.map fun bytes ↦ headerLength (receive bytes) else s.pkt) ∧
      (s.round pid i a).sents = s.sents + 1 ∧
      (s.round pid i a).rcvs = s.rcvs + (if a.EchoReply then 1 else 0) ∧
      (s.round pid i a).sent = if a.sentsz < 0 then s.sent else s.sent ++
        [(i, if s.pkt = none then echoRequest pid i else List.replicate 8 0)] := by
  obtain ⟨hpkt, hsents, hrcvs, hsent, hpacket⟩ :=
    store_frame { s with packet := List.replicate 8 0 } (echoRequest pid i)
  rw [round]
  by_cases hshort : a.sentsz = 8
  · have hfail : ¬ a.sentsz < 0 := by omega
    have hfull : ¬ a.sentsz ≠ 8 := not_not.mpr hshort
    cases hr : a.received with
    | none =>
      have hreceives : ¬ a.Receives := by simp [Answer.Receives, hr]
      have hecho : ¬ a.EchoReply := by simp [Answer.EchoReply, hr]
      simp only [if_neg hfail, if_neg hfull, if_neg hreceives, if_neg hecho, hpkt, hsents, hrcvs,
        hsent, hpacket, Nat.add_zero, and_self]
    | some bytes =>
      have hreceives : a.Receives := ⟨hshort, by rw [hr]; rfl⟩
      simp only [if_neg hfail, if_neg hfull, if_pos hreceives, Option.map_some]
      by_cases htype : icmpType (receive bytes) = icmpEchoReply
      · have hecho : a.EchoReply := ⟨hshort, bytes, hr, htype⟩
        simp only [if_pos htype, if_pos hecho, hsents, hrcvs, hsent, hpacket, and_self]
      · have hecho : ¬ a.EchoReply := by
          rintro ⟨-, bytes', hbytes, htype'⟩
          rw [hr] at hbytes
          cases hbytes
          exact htype htype'
        simp only [if_neg htype, if_neg hecho, hsents, hrcvs, hsent, hpacket, Nat.add_zero,
          and_self]
  · have hreceives : ¬ a.Receives := fun h ↦ hshort h.1
    have hecho : ¬ a.EchoReply := fun h ↦ hshort h.1
    have hne : a.sentsz ≠ 8 := hshort
    by_cases hfail : a.sentsz < 0
    · simp only [if_pos hfail, if_neg hreceives, if_neg hecho, hpkt, hsents, hrcvs, hsent,
        Nat.add_zero, and_self]
    · simp only [if_neg hfail, if_pos hne, if_neg hreceives, if_neg hecho, hpkt, hsents, hrcvs,
        hsent, hpacket, Nat.add_zero, and_self]

/-! ### Runs -/

variable (answers : Nat → Answer) (packet inbuf : List UInt8)

/-- `pkt` stays where it is until a packet comes in. -/
theorem pkt_rounds (n : Nat) : (rounds pid answers (start packet inbuf) n).pkt = none ↔
    ∀ j < n, ¬ (answers j).Receives := by
  induction n with
  | zero => simp [rounds, start]
  | succ n ih =>
    rw [rounds, (round_fields pid n (answers n) _).1, Nat.forall_lt_succ_right, ← ih]
    by_cases hreceives : (answers n).Receives
    · obtain ⟨bytes, hbytes⟩ := Option.isSome_iff_exists.mp hreceives.2
      simp [hreceives, hbytes]
    · simp [hreceives]

/-- What is sent in which round. -/
theorem mem_sent_rounds (n i : Nat) (d : List UInt8) :
    (i, d) ∈ (rounds pid answers (start packet inbuf) n).sent ↔
      i < n ∧ 0 ≤ (answers i).sentsz ∧
        d = if ∀ j < i, ¬ (answers j).Receives then echoRequest pid i
          else List.replicate 8 0 := by
  induction n with
  | zero => simp [rounds, start]
  | succ n ih =>
    rw [rounds, (round_fields pid n (answers n) _).2.2.2]
    simp only [pkt_rounds]
    by_cases hfail : (answers n).sentsz < 0
    · rw [if_pos hfail, ih]
      constructor
      · rintro ⟨hlt, hsend⟩
        exact ⟨by omega, hsend⟩
      · rintro ⟨hlt, hsent, hd⟩
        have hne : i ≠ n := by
          rintro rfl
          omega
        exact ⟨by omega, hsent, hd⟩
    · rw [if_neg hfail, List.mem_append, List.mem_singleton, ih, Prod.mk.injEq]
      constructor
      · rintro (⟨hlt, hsend⟩ | ⟨rfl, hd⟩)
        · exact ⟨by omega, hsend⟩
        · exact ⟨by omega, by omega, hd⟩
      · rintro ⟨hlt, hsent, hd⟩
        by_cases hi : i = n
        · rw [hi] at hd ⊢
          exact .inr ⟨rfl, hd⟩
        · exact .inl ⟨by omega, hsent, hd⟩

/-- Every round counts as sent, and every echo reply as received. -/
theorem counts_rounds (n : Nat) :
    (rounds pid answers (start packet inbuf) n).sents = n ∧
      (rounds pid answers (start packet inbuf) n).rcvs =
        Nat.count (fun i ↦ (answers i).EchoReply) n := by
  induction n with
  | zero => exact ⟨rfl, rfl⟩
  | succ n ih =>
    obtain ⟨-, hsents, hrcvs, -⟩ :=
      round_fields pid n (answers n) (rounds pid answers (start packet inbuf) n)
    rw [rounds, hsents, hrcvs, ih.1, ih.2, Nat.count_succ]
    exact ⟨rfl, rfl⟩

end PingState

/-! ### What is sent -/

/-- An echo request with the identifier of a process and a sequence, and a checksum with which the
whole comes to zero. -/
def IsEchoRequest (pid i : Nat) (d : List UInt8) : Prop :=
  ∃ ck₀ ck₁ id₀ id₁ seq₀ seq₁, d = [icmpEcho, 0, ck₀, ck₁, id₀, id₁, seq₀, seq₁] ∧
    256 * id₀.toNat + id₁.toNat = pid % 2 ^ 16 ∧ word seq₀ seq₁ = i ∧ checksum d = some 0

/-- The request of a round is right while the sequence has room for the round. -/
theorem isEchoRequest_echoRequest_iff (pid i : Nat) :
    IsEchoRequest pid i (echoRequest pid i) ↔ i < 65536 := by
  obtain ⟨ck, hck⟩ : ∃ ck, ck = (checksum (header pid i 0)).getD 0 := ⟨_, rfl⟩
  have hlen : (header pid i 0).length ≤ 65535 := by
    show 8 ≤ 65535
    decide
  have hsum : checksum (header pid i 0) = some ck := by
    rw [hck, checksum_eq hlen]
    rfl
  have hzero : checksum (echoRequest pid i) = some 0 := by
    rw [echoRequest, ← hck]
    exact checksum_stored [icmpEcho, 0] _ (by decide) hlen hsum
  have hseq : word (UInt8.ofNat (i % 65536 % 256)) (UInt8.ofNat (i % 65536 / 256)) = i % 65536 := by
    rw [word, UInt8.toNat_ofNat', UInt8.toNat_ofNat']
    omega
  constructor
  · rintro ⟨_, _, _, _, seq₀, seq₁, hd, -, hi, -⟩
    simp only [echoRequest, header, List.cons.injEq, and_true] at hd
    obtain ⟨-, -, -, -, -, -, rfl, rfl⟩ := hd
    rw [hseq] at hi
    omega
  · intro hi
    refine ⟨_, _, _, _, _, _, rfl, ?_, ?_, hzero⟩
    · rw [UInt8.toNat_ofNat', UInt8.toNat_ofNat']
      omega
    · rw [hseq]
      omega

/-- The sequence of a request counts in 16 bits. -/
theorem echoRequest_mod (pid i : Nat) : echoRequest pid (i % 65536) = echoRequest pid i := by
  have hheader : header pid (i % 65536) = header pid i := by
    funext ck
    rw [header, header, Nat.mod_mod]
  rw [echoRequest, echoRequest, hheader]

/-- Zeros are no request. -/
theorem not_isEchoRequest_zeros (pid i : Nat) :
    ¬ IsEchoRequest pid i (List.replicate 8 0) := by
  rintro ⟨_, _, _, _, _, _, hd, -⟩
  have htype : (0 : UInt8) = icmpEcho := (List.cons.inj hd).1
  exact absurd htype (by decide)

/-- Whatever the socket answers, all that `Ping` sends are its own echo requests exactly when it
sends nothing after a packet came in, and nothing in a round that the sequence has no room for. -/
theorem ping_sends_iff (pid n : Nat) (answers : Nat → Answer) (packet inbuf : List UInt8) :
    (∀ i d, (i, d) ∈ (PingState.rounds pid answers (.start packet inbuf) n).sent →
        IsEchoRequest pid i d) ↔
      ∀ i < n, 0 ≤ (answers i).sentsz → i < 65536 ∧ ∀ j < i, ¬ (answers j).Receives := by
  simp only [PingState.mem_sent_rounds]
  constructor
  · intro h i hi hsent
    have hright := h i _ ⟨hi, hsent, rfl⟩
    by_cases hfirst : ∀ j < i, ¬ (answers j).Receives
    · rw [if_pos hfirst, isEchoRequest_echoRequest_iff] at hright
      exact ⟨hright, hfirst⟩
    · rw [if_neg hfirst] at hright
      exact absurd hright (not_isEchoRequest_zeros pid i)
  · rintro h i d ⟨hi, hsent, rfl⟩
    obtain ⟨hroom, hfirst⟩ := h i hi hsent
    rw [if_pos hfirst, isEchoRequest_echoRequest_iff]
    exact hroom

/-- The packet of an echo reply to the first request of process 1: a header of twenty bytes and the
reply. -/
def firstReply : List UInt8 :=
  [0x45, 0, 0, 28, 0, 0, 0, 0, 64, 1, 0xF9, 0x8D, 192, 168, 0, 1, 192, 168, 0, 2] ++
    [icmpEchoReply, 0, 0xFF, 0xFE, 0, 1, 0, 0]

/-- In the round after a reply eight zeros are sent. -/
theorem not_isEchoRequest_second :
    ¬ ∀ (pid n : Nat) (answers : Nat → Answer) (packet inbuf : List UInt8), 1 ≤ n →
      ∀ i d, (i, d) ∈ (PingState.rounds pid answers (.start packet inbuf) n).sent →
        IsEchoRequest pid i d := by
  intro h
  have hsent := (PingState.mem_sent_rounds 1 (fun _ ↦ ⟨8, some firstReply⟩) [] [] 2 1
    (List.replicate 8 0)).mpr ⟨by decide, by decide, ?_⟩
  · exact not_isEchoRequest_zeros 1 1 (h 1 2 _ [] [] (by decide) 1 _ hsent)
  · rw [if_neg]
    intro hnone
    exact hnone 0 (by decide) ⟨rfl, rfl⟩

end IcsGateway.ComPinger
