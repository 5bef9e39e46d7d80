import IcsGateway.Lib.Chunks
import IcsGateway.Common.RedisGrammar

/-!
# A stream of replies cut anywhere

The replies as a server sends them, and what `parseReply` makes of the front of a stream of them. It
delivers the replies that are complete, but for one that ends in a null bulk string at the end of
the buffer, and throws when the buffer ends in the header of an array
(`3rd.party.raspi/include/Utils.hpp:298,313`).
-/

namespace IcsGateway.RedisParser

open Lib

/-! ### Replies -/

/-- Simple strings, errors and integers. -/
inductive SimpleType where
  | string
  | error
  | integer
  deriving DecidableEq

/-- The type as it is sent. -/
def SimpleType.byte : SimpleType → UInt8
  | string => 43
  | error => 45
  | integer => 58

/-- A reply other than an array. -/
inductive Item where
  | simple (type : SimpleType) (text : { text : Bytes // NoCrlf text })
  | bulk (text : { text : Bytes // text.length < 2 ^ 31 - 2 })
  | null

/-- A reply. -/
inductive Reply where
  | item (item : Item)
  | array (items : { items : List Item // items.length < 2 ^ 31 - 2 })

/-- A length in decimal digits. -/
def decimal (n : Nat) : Bytes := (Nat.toDigits 10 n).map fun c ↦ c.toNat.toUInt8

namespace Item

/-- The text of an item. -/
def encode : Item → Bytes
  | simple type text => type.byte :: (text.val ++ crlf)
  | bulk text => 36 :: (decimal text.val.length ++ crlf ++ (text.val ++ crlf))
  | null => 36 :: ([45, 49] ++ crlf)

/-- Its type as it is sent. -/
def byte : Item → UInt8
  | simple type _ => type.byte
  | bulk _ => 36
  | null => 36

/-- Its content; a null string is called back as an empty one. -/
def content : Item → Bytes
  | simple _ text => text.val
  | bulk text => text.val
  | null => []

/-- What the parser wants to see behind it. -/
def ahead : Item → Nat
  | null => 1
  | _ => 0

end Item

namespace Reply

/-- The header of an array behind its type. -/
def header (items : List Item) : Bytes := decimal items.length ++ crlf

/-- The text of a reply. -/
def encode : Reply → Bytes
  | item i => i.encode
  | array items => 42 :: (header items.val ++ items.val.flatMap Item.encode)

/-- The callback of a reply. -/
def call : Reply → Call
  | item i => .string i.byte i.content
  | array items => .array (items.val.map Item.content)

/-- The reply ends in a null bulk string. -/
def EndsInNull : Reply → Prop
  | item i => i = .null
  | array items => items.val.getLast? = some .null

/-- What the parser wants to see behind it. -/
def ahead : Reply → Nat
  | item i => i.ahead
  | array items => (items.val.getLast?.map Item.ahead).getD 0

end Reply

/-! ### They are what the parser accepts -/

/-- The digits are accumulated one after the other. -/
theorem accumulate_append (xs ys : Bytes) (len : Int32) :
    accumulate (xs ++ ys) len = (accumulate xs len).bind (accumulate ys) := by
  induction xs generalizing len with
  | nil => rfl
  | cons b bs ih =>
    rw [List.cons_append, accumulate, accumulate]
    split
    · rfl
    · exact ih _

/-- A digit is accumulated. -/
private theorem accumulate_digit {d : Nat} (hd : d < 10) (len : Int32) :
    accumulate [(Nat.digitChar d).toNat.toUInt8] len = .ok (len * 10 + Int32.ofNat d) := by
  have hbyte : ∀ d < 10, (Nat.digitChar d).toNat.toUInt8.toNat = 48 + d := by decide
  have hval : ((Nat.digitChar d).toNat.toUInt8.toNat : Int) - 48 = d := by
    rw [hbyte d hd]
    omega
  rw [accumulate, hval, if_neg (by omega), Int32.ofInt_eq_ofNat]
  rfl

/-- A decimal number is accumulated in `int` arithmetic. -/
theorem accumulate_decimal (n : Nat) : accumulate (decimal n) 0 = .ok (Int32.ofNat n) := by
  induction n using Nat.strongRecOn with
  | ind n ih =>
    by_cases hn : n < 10
    · rw [decimal, Nat.toDigits_of_lt_base hn, List.map_singleton, accumulate_digit hn]
      simp
    · have hsplit : decimal n = decimal (n / 10) ++ [(Nat.digitChar (n % 10)).toNat.toUInt8] := by
        rw [decimal, Nat.toDigits_of_base_le (by decide) (by omega), List.map_append]
        rfl
      have hten : (10 : Int32) = Int32.ofNat 10 := rfl
      rw [hsplit, accumulate_append, ih (n / 10) (by omega)]
      simp only [Except.bind]
      rw [accumulate_digit (Nat.mod_lt n (by decide)), hten, ← Int32.ofNat_mul, ← Int32.ofNat_add,
        Nat.div_add_mod']

/-- The digits of a number. -/
theorem mem_decimal {n : Nat} {b : UInt8} (h : b ∈ decimal n) : 48 ≤ b ∧ b ≤ 57 := by
  obtain ⟨c, hc, rfl⟩ := List.mem_map.mp h
  have hdigit := Nat.isDigit_of_mem_toDigits (by decide) (by decide) hc
  have hrange : 48 ≤ c.toNat ∧ c.toNat ≤ 57 := by
    rw [Char.isDigit, Bool.and_eq_true, decide_eq_true_eq, decide_eq_true_eq] at hdigit
    exact ⟨hdigit.1, hdigit.2⟩
  rw [UInt8.le_iff_toNat_le, UInt8.le_iff_toNat_le, Nat.toUInt8_eq, UInt8.toNat_ofNat']
  show 48 ≤ c.toNat % 2 ^ 8 ∧ c.toNat % 2 ^ 8 ≤ 57
  omega

/-- A decimal number is a line. -/
theorem noCrlf_decimal (n : Nat) : NoCrlf (decimal n) := by
  intro h
  have hmem : (13 : UInt8) ∈ decimal n := h.subset (by simp [crlf])
  exact absurd (mem_decimal hmem).1 (by decide)

/-- A decimal number is read as a length. -/
theorem lengthOf_decimal (n : Nat) : lengthOf (decimal n) = .ok (Int32.ofNat n) := by
  rw [← accumulate_decimal n]
  have hhead : ∀ digits, decimal n ≠ 45 :: digits := by
    intro digits heq
    have hmem : (45 : UInt8) ∈ decimal n := by rw [heq]; exact List.mem_cons_self ..
    exact absurd (mem_decimal hmem).1 (by decide)
  unfold lengthOf
  split
  · next digits heq => exact absurd heq (hhead digits)
  · rfl

/-- An item is one. -/
theorem Item.isItem (i : Item) : IsItem i.encode i.content i.ahead := by
  cases i with
  | simple type text => exact .simple (by cases type <;> rfl) text.property
  | bulk text =>
    have hlt := text.property
    exact .bulk (noCrlf_decimal _) (lengthOf_decimal _)
      (Int32.toInt_ofNat_of_lt (by omega)) (by omega) rfl
  | null =>
    have hhead : NoCrlf [45, 49] := by
      rw [← findclr_eq_none_iff]
      rfl
    exact @IsItem.negative _ (-1) hhead rfl (by decide)

/-- Items are. -/
theorem isItems (items : List Item) :
    IsItems items.length (items.flatMap Item.encode) (items.map Item.content)
      ((items.getLast?.map Item.ahead).getD 0) := by
  induction items with
  | nil => exact .nil
  | cons i items ih =>
    have h := IsItems.cons i.isItem ih
    cases items with
    | nil => exact h
    | cons j items =>
      rw [if_neg (by simp)] at h
      exact h

/-- A reply is. -/
theorem Reply.isReply (r : Reply) : IsReply r.encode r.call r.ahead := by
  cases r with
  | item i =>
    have h := i.isItem
    cases i with
    | simple type text => exact .item h
    | bulk text => exact .item h
    | null => exact .item h
  | array items =>
    have hlt := items.property
    have hint := @Int32.toInt_ofNat_of_lt items.val.length (by omega)
    apply IsReply.array (noCrlf_decimal _) (lengthOf_decimal _)
    · rw [Int32.lt_iff_toInt_lt, hint, Int32.toInt_zero]
      omega
    · rw [hint]
      exact isItems items.val

/-- A stream of replies. -/
def replies : Encoding Reply UInt8 where
  encode := Reply.encode
  ahead := Reply.ahead
  encode_ne_nil r := by
    cases r with
    | item i => cases i <;> exact List.cons_ne_nil _ _
    | array items => exact List.cons_ne_nil _ _

/-! ### The front of a stream -/

/-- The front ends in the header of an array. -/
inductive CutsHeader : List Reply → Bytes → Prop
  | here {items : { items : List Item // items.length < 2 ^ 31 - 2 }} {rs : List Reply}
      {front : Bytes} (hfront : front <+: Reply.header items.val)
      (hne : front ≠ Reply.header items.val) : CutsHeader (.array items :: rs) (42 :: front)
  | behind (r : Reply) {rs : List Reply} {front : Bytes} (h : CutsHeader rs front) :
      CutsHeader (r :: rs) (r.encode ++ front)

/-- The front ends with a reply that ends in a null bulk string. -/
inductive EndsInNull : List Reply → Bytes → Prop
  | here {r : Reply} {rs : List Reply} (h : r.EndsInNull) : EndsInNull (r :: rs) r.encode
  | behind (r : Reply) {rs : List Reply} {front : Bytes} (h : EndsInNull rs front) :
      EndsInNull (r :: rs) (r.encode ++ front)

/-- The replies that lie in the first `n` bytes of the stream. -/
def inside : List Reply → Nat → List Reply
  | [], _ => []
  | r :: rs, n => if r.encode.length ≤ n then r :: inside rs (n - r.encode.length) else []

/-- Nothing is no cut header. -/
theorem not_cutsHeader_nil (rs : List Reply) : ¬ CutsHeader rs [] := by
  intro h
  generalize hnil : ([] : Bytes) = front at h
  cases h with
  | here => cases hnil
  | behind r => exact replies.encode_ne_nil r (List.append_eq_nil_iff.mp hnil.symm).1

/-- Nothing does not end in null. -/
theorem not_endsInNull_nil (rs : List Reply) : ¬ EndsInNull rs [] := by
  intro h
  generalize hnil : ([] : Bytes) = front at h
  cases h with
  | @here r => exact replies.encode_ne_nil r hnil.symm
  | behind r => exact replies.encode_ne_nil r (List.append_eq_nil_iff.mp hnil.symm).1

/-- A cut header has no line end. -/
theorem noCrlf_of_cut {items : List Item} {front : Bytes} (h : front <+: Reply.header items)
    (hne : front ≠ Reply.header items) : NoCrlf front :=
  noCrlf_of_isPrefix (noCrlf_decimal _) h hne

/-- A cut header does not begin with a whole reply. -/
theorem cutsHeader_cons_iff (r : Reply) (rs : List Reply) (front : Bytes) :
    CutsHeader (r :: rs) (r.encode ++ front) ↔ CutsHeader rs front := by
  constructor
  · intro h
    generalize hwhole : r.encode ++ front = whole at h
    cases h with
    | @here items _ front' hfront hne =>
      -- a cut header is shorter than the reply
      have htail := (List.cons.inj hwhole).2
      have hlong : Reply.header items.val <+: front' := by
        rw [← htail]
        exact (List.prefix_append _ _).trans (List.prefix_append _ _)
      exact absurd (hfront.eq_of_length_le hlong.length_le) hne
    | behind _ h => rwa [List.append_cancel_left hwhole]
  · exact fun h ↦ .behind r h

/-- Only what follows the replies in front can be a cut header. -/
theorem cutsHeader_append_iff (rs rs' : List Reply) (front : Bytes) :
    CutsHeader (rs ++ rs') (replies.stream rs ++ front) ↔ CutsHeader rs' front := by
  induction rs with
  | nil => exact Iff.rfl
  | cons r rs ih =>
    rw [← ih, replies.stream_cons, List.append_assoc]
    exact cutsHeader_cons_iff r (rs ++ rs') (replies.stream rs ++ front)

/-- The front of a reply is a cut header exactly if it has the type of an array and no line end. -/
theorem cutsHeader_iff {r : Reply} {rs : List Reply} {front : Bytes} (hfront : front <+: r.encode) :
    CutsHeader (r :: rs) front ↔ ∃ line, front = 42 :: line ∧ NoCrlf line := by
  constructor
  · intro h
    generalize hall : r :: rs = all at h
    cases h with
    | here hline hne => exact ⟨_, rfl, noCrlf_of_cut hline hne⟩
    | @behind r' rs' rest h =>
      cases hall
      have hnil : rest = [] := by
        have hle := hfront.length_le
        rw [List.length_append] at hle
        exact List.length_eq_zero_iff.mp (by omega)
      rw [hnil] at h
      exact absurd h (not_cutsHeader_nil rs)
  · rintro ⟨line, rfl, hline⟩
    cases r with
    | item i =>
      obtain ⟨type, body, heq, hne⟩ := i.isItem.eq_cons
      rw [Reply.encode, heq] at hfront
      exact absurd (List.cons_prefix_cons.mp hfront).1.symm hne
    | array items =>
      cases prefix_append_cases (List.cons_prefix_cons.mp hfront).2 with
      | inl hcut => exact .here hcut.1 hcut.2
      | inr hbehind =>
        obtain ⟨post, rfl, -⟩ := hbehind
        exact absurd ⟨decimal items.val.length, post, rfl⟩ hline

/-- At most one byte is wanted behind a reply, and one exactly behind a null bulk string. -/
theorem Reply.ahead_spec (r : Reply) : r.ahead ≤ 1 ∧ (0 < r.ahead ↔ r.EndsInNull) := by
  have hitem : ∀ i : Item, i.ahead ≤ 1 ∧ (0 < i.ahead ↔ i = .null) := by
    intro i
    cases i with
    | null => simp [Item.ahead]
    | simple type text => simp [Item.ahead]
    | bulk text => simp [Item.ahead]
  cases r with
  | item i => exact hitem i
  | array items =>
    rw [Reply.ahead, Reply.EndsInNull]
    cases items.val.getLast? with
    | none => simp
    | some i => simpa using hitem i

/-- The front of a stream holds the first reply with what it wants to see, or it ends in it. -/
theorem front_cases {r : Reply} {rs : List Reply} {front : Bytes}
    (h : front <+: replies.stream (r :: rs)) :
    (∃ post, front = r.encode ++ post ∧ post <+: replies.stream rs ∧ r.ahead ≤ post.length) ∨
      front <+: r.encode ∧ (front = r.encode → r.EndsInNull) ∧
        replies.taken (r :: rs) front.length = [] := by
  cases prefix_append_cases h with
  | inl hcut =>
    have hlt : front.length < r.encode.length := by
      apply Nat.lt_of_le_of_ne hcut.1.length_le
      exact fun heq ↦ hcut.2 (hcut.1.eq_of_length heq)
    refine .inr ⟨hcut.1, fun heq ↦ absurd heq hcut.2, ?_⟩
    exact replies.taken_of_lt (Nat.lt_of_lt_of_le hlt (Nat.le_add_right _ _)) rs
  | inr hbehind =>
    obtain ⟨post, rfl, hpost⟩ := hbehind
    by_cases hahead : r.ahead ≤ post.length
    · exact .inl ⟨post, rfl, hpost, hahead⟩
    · have hspec := r.ahead_spec
      have hnil : post = [] := List.length_eq_zero_iff.mp (by omega)
      have hnull : r.EndsInNull := hspec.2.mp (by omega)
      rw [hnil, List.append_nil]
      refine .inr ⟨List.prefix_refl _, fun _ ↦ hnull, ?_⟩
      exact replies.taken_of_lt (Nat.lt_add_of_pos_right (hspec.2.mpr hnull)) rs

/-- The loop on the front of a stream, behind what is done. -/
private theorem parseLoop_front (rs : List Reply) (done : Bytes) {front : Bytes}
    (hfront : front <+: replies.stream rs) :
    ∃ fuel outcome, (∀ calls, parseLoop (done ++ front) fuel done.length done.length calls =
        some (calls ++ (replies.taken rs front.length).map Reply.call, outcome)) ∧
      (CutsHeader rs front → outcome = .error (.logicError "redis invalid array size -1")) ∧
      (¬ CutsHeader rs front → outcome =
        .ok (done.length + (replies.stream (replies.taken rs front.length)).length : Nat)) := by
  induction rs generalizing done front with
  | nil =>
    have hnil : front = [] := List.prefix_nil.mp hfront
    subst hnil
    refine ⟨1, .ok done.length, ?_, ?_, ?_⟩
    · intro calls
      simp only [List.append_nil, parseLoop_nil, Encoding.taken, List.map_nil]
    · intro h
      cases h
    · exact fun _ ↦ rfl
  | cons r rs ih =>
    cases front_cases hfront with
    | inl hfits =>
      -- the first reply is read, and the loop goes on behind it
      obtain ⟨post, rfl, hpost, hahead⟩ := hfits
      have htaken : replies.taken (r :: rs) (r.encode ++ post).length =
          r :: replies.taken rs post.length := replies.taken_cons hahead rs
      have hne : r.encode ++ post ≠ [] := by
        intro heq
        exact replies.encode_ne_nil r (List.append_eq_nil_iff.mp heq).1
      have hread := parseOne_append r.isReply done hahead
      obtain ⟨fuel, outcome, hloop, hcut, hwhole⟩ := ih (done ++ r.encode) hpost
      refine ⟨fuel + 1, outcome, ?_, ?_, ?_⟩
      · intro calls
        rw [parseLoop_succ done hne, ← List.append_assoc, hread]
        simp only
        rw [hloop, htaken, List.map_cons, List.append_assoc]
        rfl
      · exact fun h ↦ hcut ((cutsHeader_cons_iff r rs post).mp h)
      · intro h
        rw [hwhole fun hc ↦ h ((cutsHeader_cons_iff r rs post).mpr hc), htaken,
          replies.stream_cons, List.length_append, List.length_append, Nat.add_assoc]
        rfl
    | inr hcut =>
      obtain ⟨hpre, hnull, htaken⟩ := hcut
      rw [htaken]
      by_cases hnil : front = []
      · subst hnil
        refine ⟨1, .ok done.length, ?_, ?_, fun _ ↦ rfl⟩
        · intro calls
          simp only [List.append_nil, parseLoop_nil, List.map_nil]
        · intro h
          obtain ⟨line, hline, -⟩ := (cutsHeader_iff hpre).mp h
          cases hline
      · by_cases hcut : CutsHeader (r :: rs) front
        · obtain ⟨line, rfl, hline⟩ := (cutsHeader_iff hpre).mp hcut
          refine ⟨1, .error (.logicError "redis invalid array size -1"), ?_, fun _ ↦ rfl,
            fun h ↦ absurd hcut h⟩
          intro calls
          rw [parseLoop_succ done hnil, parseOne_header hline, List.map_nil, List.append_nil]
        · have hnone := parseOne_cut r.isReply done hpre hnil
            (fun heq ↦ r.ahead_spec.2.mpr (hnull heq))
            (fun line heq hline ↦ hcut ((cutsHeader_iff hpre).mpr ⟨line, heq, hline⟩))
          refine ⟨1, .ok done.length, ?_, fun h ↦ absurd h hcut, fun _ ↦ rfl⟩
          intro calls
          rw [parseLoop_succ done hnil, hnone, List.map_nil, List.append_nil]

/-- `parseReply` on the front of a stream. -/
theorem parses_front (rs : List Reply) {front : Bytes} (hfront : front <+: replies.stream rs) :
    ∃ outcome, Parses front ((replies.taken rs front.length).map Reply.call) outcome ∧
      (CutsHeader rs front → outcome = .error (.logicError "redis invalid array size -1")) ∧
      (¬ CutsHeader rs front →
        outcome = .ok (replies.stream (replies.taken rs front.length)).length) := by
  obtain ⟨fuel, outcome, hloop, hcut, hwhole⟩ := parseLoop_front rs [] hfront
  refine ⟨outcome, ⟨fuel, hloop []⟩, hcut, ?_⟩
  intro hno
  rw [hwhole hno, List.length_nil, Nat.zero_add]

/-- The front of a reply ends in null if it is all of one that does. -/
theorem endsInNull_iff {r : Reply} {rs : List Reply} {front : Bytes} (h : front <+: r.encode) :
    EndsInNull (r :: rs) front ↔ front = r.encode ∧ r.EndsInNull := by
  constructor
  · intro hnull
    generalize hall : r :: rs = all at hnull
    cases hnull with
    | here hr =>
      cases hall
      exact ⟨rfl, hr⟩
    | @behind _ _ rest hrest =>
      cases hall
      have hnil : rest = [] := by
        have hle := h.length_le
        rw [List.length_append] at hle
        exact List.length_eq_zero_iff.mp (by omega)
      rw [hnil] at hrest
      exact absurd hrest (not_endsInNull_nil rs)
  · rintro ⟨rfl, hr⟩
    exact .here hr

/-- Behind a reply with what it wants to see, the front ends in null if the rest does. -/
theorem endsInNull_cons_iff {r : Reply} {rs : List Reply} {front : Bytes}
    (h : r.ahead ≤ front.length) :
    EndsInNull (r :: rs) (r.encode ++ front) ↔ EndsInNull rs front := by
  constructor
  · intro hnull
    generalize hwhole : r.encode ++ front = whole at hnull
    cases hnull with
    | here hr =>
      have hnil : front = [] := List.append_right_eq_self.mp hwhole
      have hpos := r.ahead_spec.2.mpr hr
      rw [hnil] at h
      exact absurd hpos (Nat.not_lt.mpr h)
    | behind _ hrest => rwa [List.append_cancel_left hwhole]
  · exact fun hrest ↦ .behind r hrest

/-- What lies inside is taken, unless the front ends in null. -/
theorem taken_inside (rs : List Reply) {front : Bytes} (hfront : front <+: replies.stream rs) :
    ¬ EndsInNull rs front ∧ inside rs front.length = replies.taken rs front.length ∨
      EndsInNull rs front ∧
        (replies.taken rs front.length).length < (inside rs front.length).length := by
  induction rs generalizing front with
  | nil =>
    refine .inl ⟨?_, rfl⟩
    intro h
    cases h
  | cons r rs ih =>
    cases front_cases hfront with
    | inl hfits =>
      obtain ⟨post, rfl, hpost, hahead⟩ := hfits
      have htaken : replies.taken (r :: rs) (r.encode ++ post).length =
          r :: replies.taken rs post.length := replies.taken_cons hahead rs
      have hinside : inside (r :: rs) (r.encode ++ post).length = r :: inside rs post.length := by
        rw [inside, List.length_append, if_pos (Nat.le_add_right _ _), Nat.add_sub_cancel_left]
      rw [endsInNull_cons_iff hahead, hinside, htaken]
      cases ih hpost with
      | inl hin => exact .inl ⟨hin.1, by rw [hin.2]⟩
      | inr hin => exact .inr ⟨hin.1, Nat.succ_lt_succ hin.2⟩
    | inr hcut =>
      obtain ⟨hpre, hnull, htaken⟩ := hcut
      rw [htaken]
      by_cases hwhole : front = r.encode
      · refine .inr ⟨(endsInNull_iff hpre).mpr ⟨hwhole, hnull hwhole⟩, ?_⟩
        rw [inside, hwhole, if_pos (Nat.le_refl _)]
        exact Nat.zero_lt_succ _
      · refine .inl ⟨fun h ↦ hwhole ((endsInNull_iff hpre).mp h).1, ?_⟩
        have hlt : front.length < r.encode.length := by
          apply Nat.lt_of_le_of_ne hpre.length_le
          exact fun heq ↦ hwhole (hpre.eq_of_length heq)
        rw [inside, if_neg (Nat.not_le.mpr hlt)]

/-- The replies that lie in the front are called back in order, and the call returns their length. -/
def Delivers (rs : List Reply) (front : Bytes) : Prop :=
  Parses front ((inside rs front.length).map Reply.call)
    (.ok (replies.stream (inside rs front.length)).length)

/-- The front of a stream delivers what lies in it unless it ends in the header of an array or in
null. -/
theorem delivers_iff (rs : List Reply) {front : Bytes} (hfront : front <+: replies.stream rs) :
    Delivers rs front ↔ ¬ CutsHeader rs front ∧ ¬ EndsInNull rs front := by
  obtain ⟨outcome, hparses, hcut, hwhole⟩ := parses_front rs hfront
  constructor
  · intro h
    obtain ⟨hcalls, houtcome⟩ := hparses.unique h
    constructor
    · intro hc
      rw [hcut hc] at houtcome
      cases houtcome
    · intro hnull
      have hlengths := congrArg List.length hcalls
      rw [List.length_map, List.length_map] at hlengths
      cases taken_inside rs hfront with
      | inl hin => exact hin.1 hnull
      | inr hin => exact absurd hlengths (Nat.ne_of_lt hin.2)
  · rintro ⟨hc, hnull⟩
    cases taken_inside rs hfront with
    | inl hin =>
      rw [Delivers, hin.2, ← hwhole hc]
      exact hparses
    | inr hin => exact absurd hin.1 hnull

/-! ### The stream in chunks -/

/-- `parseReply` returns, with a length. -/
def Decodes (front : Bytes) (calls : List Call) (len : Nat) : Prop := Parses front calls (.ok len)

/-- It decodes the fronts of streams that do not end in the header of an array. -/
theorem decoder : Decoder replies Reply.call (fun rs front ↦ ¬ CutsHeader rs front) Decodes where
  good_iff rs front hfront calls len := by
    obtain ⟨outcome, hparses, hcut, hwhole⟩ := parses_front rs hfront
    constructor
    · intro h
      obtain ⟨hcalls, houtcome⟩ := hparses.unique h
      have hc : ¬ CutsHeader rs front := by
        intro hc
        rw [hcut hc] at houtcome
        cases houtcome
      rw [hwhole hc] at houtcome
      refine ⟨hc, hcalls.symm, ?_⟩
      have hint := Except.ok.inj houtcome
      omega
    · rintro ⟨hc, rfl, rfl⟩
      rw [Decodes, ← hwhole hc]
      exact hparses
  good_append rs rs' front := not_congr (cutsHeader_append_iff rs rs' front)

/-- A stream does not end in the header of an array. -/
theorem not_cutsHeader_stream (rs : List Reply) : ¬ CutsHeader rs (replies.stream rs) := by
  have h := cutsHeader_append_iff rs [] []
  rw [List.append_nil, List.append_nil] at h
  intro hc
  cases h.mp hc

/-- For every stream of replies, every front of it delivers exactly the replies that lie in it,
unless it ends in the header of an array or with a null bulk string that ends a reply; and feeding
it in chunks delivers the same replies as feeding it at once exactly if no chunk ends in the header
of an array. -/
theorem delivers_and_feeds_iff (rs : List Reply) :
    (∀ front, front <+: replies.stream rs →
      (Delivers rs front ↔ ¬ CutsHeader rs front ∧ ¬ EndsInNull rs front)) ∧
    ∀ chunks : List Bytes, chunks.flatten = replies.stream rs →
      ((∃ calls, Feeds Decodes [] [replies.stream rs] calls ∧ Feeds Decodes [] chunks calls) ↔
        ∀ pre, pre <+: chunks → ¬ CutsHeader rs pre.flatten) := by
  refine ⟨fun front hfront ↦ delivers_iff rs hfront, ?_⟩
  intro chunks hchunks
  constructor
  · rintro ⟨calls, -, hfeeds⟩ pre hpre
    by_cases hne : pre = []
    · rw [hne]
      exact not_cutsHeader_nil rs
    · exact ((decoder.feeds_iff hchunks calls).mp hfeeds).1 pre hpre hne
  · intro hgood
    refine ⟨_, (decoder.feeds_iff (by simp) _).mpr ⟨?_, rfl⟩,
      (decoder.feeds_iff hchunks _).mpr ⟨fun pre hpre _ ↦ hgood pre hpre, rfl⟩⟩
    intro pre hpre hne
    have hall : pre = [replies.stream rs] := by
      cases pre with
      | nil => exact absurd rfl hne
      | cons chunk pre =>
        obtain ⟨rfl, hrest⟩ := List.cons_prefix_cons.mp hpre
        rw [List.prefix_nil.mp hrest]
    rw [hall, List.flatten_singleton]
    exact not_cutsHeader_stream rs

/-- An array of one null bulk string. -/
def oneArray : List Reply := [.array ⟨[.null], by decide⟩]

/-- A null bulk string. -/
def oneNull : List Reply := [.item .null]

/-- The first byte of the array makes the call throw, and the null bulk string is not called back. -/
theorem not_delivers_cut :
    ([42] <+: replies.stream oneArray ∧
      Parses [42] [] (.error (.logicError "redis invalid array size -1")) ∧
      ¬ Delivers oneArray [42]) ∧
    Parses (replies.stream oneNull) [] (.ok 0) ∧
      inside oneNull (replies.stream oneNull).length = oneNull ∧
      ¬ Delivers oneNull (replies.stream oneNull) := by
  have harray : Parses [42] [] (.error (.logicError "redis invalid array size -1")) :=
    ⟨1, by decide⟩
  have hnull : Parses (replies.stream oneNull) [] (.ok 0) := ⟨1, by decide⟩
  refine ⟨⟨⟨_, rfl⟩, harray, ?_⟩, hnull, rfl, ?_⟩
  · intro h
    cases (harray.unique h).2
  · intro h
    cases (hnull.unique h).1

end IcsGateway.RedisParser
