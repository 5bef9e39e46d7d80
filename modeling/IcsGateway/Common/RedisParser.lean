import Mathlib.Algebra.Group.Int.Defs
import Mathlib.Algebra.Group.Nat.Defs
import Mathlib.Data.List.Infix

/-!
# Replies of a Redis server

`RedisParser::parseReply` reads the replies at the front of a buffer and calls back for each that it
finds complete (`3rd.party.raspi/include/Utils.hpp:257–384`). A pointer into the buffer is an offset
here, and the null pointer is `none`. The parsers of one reply look at the bytes from `buff` to
`end`, their `view`, and return offsets into it.
-/

namespace IcsGateway.RedisParser

/-- The bytes of a `std::string`. -/
abbrev Bytes := List UInt8

/-- What ends a call other than a return: an exception, or an access outside of the buffer, of which
the language says nothing. -/
inductive Stop where
  | logicError (what : String)
  | outOfBounds
  deriving DecidableEq, Repr

/-- A call of `onStringCB` or of `onArrayStringCB`. -/
inductive Call where
  | string (type : UInt8) (text : Bytes)
  | array (items : List Bytes)
  deriving DecidableEq, Repr

/-- Carriage return and line feed. -/
def crlf : Bytes := [13, 10]

/-- `+`, `-` and `:`. -/
def isSimple (type : UInt8) : Bool := type = 43 || type = 45 || type = 58

/-- `findclr`; `3rd.party.raspi/include/Utils.hpp:259`. -/
def findclr : Bytes → Option Nat
  | a :: b :: view => if a = 13 ∧ b = 10 then some 0 else (findclr (b :: view)).map (· + 1)
  | _ => none

/-- `parseSimpleString`; `3rd.party.raspi/include/Utils.hpp:267`. -/
def parseSimpleString (view : Bytes) : Bytes × Option Nat :=
  match findclr view with
  | none => ([], none)
  | some p => (view.take p, some (p + 2))

/-- The digits of a length in `int` arithmetic; `3rd.party.raspi/include/Utils.hpp:284–289`. -/
def accumulate : Bytes → Int32 → Except Stop Int32
  | [], len => .ok len
  | b :: bs, len =>
    let val : Int := b.toNat - 48
    if val < 0 ∨ val > 9 then .error (.logicError "bulk string length error format")
    else accumulate bs (len * 10 + Int32.ofInt val)

/-- A length and its sign; `3rd.party.raspi/include/Utils.hpp:277–290`. -/
def lengthOf : Bytes → Except Stop Int32
  | 45 :: digits => (accumulate digits 0).map fun len ↦ -len
  | digits => accumulate digits 0

/-- `parseLength`; `3rd.party.raspi/include/Utils.hpp:273`. -/
def parseLength (view : Bytes) : Except Stop (Int32 × Option Nat) :=
  match findclr view with
  | none => .ok (-1, none)
  | some p => (lengthOf (view.take p)).map fun len ↦ (len, some (p + 2))

/-- `std::string(p, len)`. -/
def slice (view : Bytes) (p len : Nat) : Except Stop Bytes :=
  if p + len ≤ view.length then .ok ((view.drop p).take len) else .error .outOfBounds

/-- `parseBulkString`, where `len + 2` is an `int`; `3rd.party.raspi/include/Utils.hpp:293`. -/
def parseBulkString (view : Bytes) : Except Stop (Bytes × Option Int) := do
  match ← parseLength view with
  | (_, none) => pure ([], none)
  | (len, some p) =>
    if p + (len + 2).toInt > view.length then pure ([], none)
    else if len < 0 then pure ([], some p)
    else
      let text ← slice view p len.toInt.toNat
      pure (text, some (p + (len + 2).toInt))

/-- The switch over the types other than `*`, the same in `parseArrayReply` and `parseReply`;
`3rd.party.raspi/include/Utils.hpp:318–339,351–378`. -/
def parseItem (type : UInt8) (view : Bytes) : Except Stop (Bytes × Option Int) :=
  if isSimple type then
    let (text, p) := parseSimpleString view
    .ok (text, p.map Int.ofNat)
  else if type = 36 then parseBulkString view
  else .error (.logicError "invalid redis type")

/-- `*p`, and the view from `p + 1`. -/
def deref (reply : Bytes) : Int → Except Stop (UInt8 × Bytes)
  | .ofNat p =>
    match reply.drop p with
    | type :: view => .ok (type, view)
    | [] => .error .outOfBounds
  | .negSucc _ => .error .outOfBounds

/-- The loop over the items of an array, of which so many are left;
`3rd.party.raspi/include/Utils.hpp:315–340`. -/
def parseItems (reply : Bytes) : Nat → Option Int → List Bytes →
    Except Stop (List Bytes × Option Int)
  | 0, p, items => pure (items, p)
  | _ + 1, none, items => pure (items, none)
  | left + 1, some p, items =>
    if p ≥ reply.length then pure (items, none)
    else do
      let (type, view) ← deref reply p
      let (item, q) ← parseItem type view
      parseItems reply left (q.map (p + 1 + ·)) (items ++ [item])

/-- `parseArrayReply`, with the view from `buff`; `3rd.party.raspi/include/Utils.hpp:306`. -/
def parseArrayReply (reply : Bytes) (buff : Int) (view : Bytes) :
    Except Stop (List Bytes × Option Int) := do
  let (len, p) ← parseLength view
  if len < 0 then throw (.logicError ("redis invalid array size " ++ toString len.toInt))
  match p with
  | none => pure ([], none)
  | some p => parseItems reply len.toInt.toNat (some (buff + p)) []

/-- The reply at `p`: its callback and the pointer behind it, or the null pointer;
`3rd.party.raspi/include/Utils.hpp:350–379`. -/
def parseOne (reply : Bytes) (p : Int) : Except Stop (Option (Call × Int)) := do
  let (type, view) ← deref reply p
  if type = 42 then
    let (items, q) ← parseArrayReply reply (p + 1) view
    pure (q.map fun q ↦ (.array items, q))
  else
    let (text, q) ← parseItem type view
    pure (q.map fun q ↦ (.string type text, p + 1 + q))

/-- The loop of `parseReply`, for at most `fuel` replies: the callbacks so far, and the length
returned or what else ends the call; `3rd.party.raspi/include/Utils.hpp:348–382`. -/
def parseLoop (reply : Bytes) : Nat → Int → Int → List Call → Option (List Call × Except Stop Int)
  | 0, _, _, _ => none
  | fuel + 1, p, len, calls =>
    if p < reply.length then
      match parseOne reply p with
      | .error x => some (calls, .error x)
      | .ok none => some (calls, .ok len)
      | .ok (some (call, q)) => parseLoop reply fuel q q (calls ++ [call])
    else some (calls, .ok len)

/-- `parseReply`; `3rd.party.raspi/include/Utils.hpp:344`. -/
def parseReply (fuel : Nat) (reply : Bytes) : Option (List Call × Except Stop Int) :=
  parseLoop reply fuel 0 0 []

/-- The call ends so. -/
def Parses (reply : Bytes) (calls : List Call) (outcome : Except Stop Int) : Prop :=
  ∃ fuel, parseReply fuel reply = some (calls, outcome)

/-- The loop behind what is done, if that is all. -/
theorem parseLoop_nil (done : Bytes) (len : Int) (calls : List Call) :
    parseLoop done 1 done.length len calls = some (calls, .ok len) := by
  rw [parseLoop, if_neg (Int.lt_irrefl _)]

/-- The loop behind what is done, if there is more. -/
theorem parseLoop_succ (done : Bytes) {front : Bytes} (hne : front ≠ []) (fuel : Nat)
    (len : Int) (calls : List Call) :
    parseLoop (done ++ front) (fuel + 1) done.length len calls =
      match parseOne (done ++ front) done.length with
      | .error x => some (calls, .error x)
      | .ok none => some (calls, .ok len)
      | .ok (some (call, q)) => parseLoop (done ++ front) fuel q q (calls ++ [call]) := by
  have hpos := List.length_pos_of_ne_nil hne
  rw [parseLoop, if_pos (by rw [List.length_append]; omega)]

/-- More fuel changes nothing. -/
private theorem parseLoop_mono {reply : Bytes} {r : List Call × Except Stop Int} {fuel : Nat}
    (more : Nat) {p len : Int} {calls : List Call} (h : parseLoop reply fuel p len calls = some r) :
    parseLoop reply (fuel + more) p len calls = some r := by
  induction fuel generalizing p len calls with
  | zero => cases h
  | succ fuel ih =>
    rw [Nat.add_right_comm, parseLoop]
    rw [parseLoop] at h
    split at h
    · next hp =>
      rw [if_pos hp]
      cases hone : parseOne reply p with
      | error x =>
        rw [hone] at h
        exact h
      | ok found =>
        rw [hone] at h
        cases found with
        | none => exact h
        | some cq => exact ih h
    · next hp =>
      rw [if_neg hp]
      exact h

/-- A call ends in one way only. -/
theorem Parses.unique {reply : Bytes} {calls calls' : List Call} {outcome outcome' : Except Stop Int}
    (h : Parses reply calls outcome) (h' : Parses reply calls' outcome') :
    calls = calls' ∧ outcome = outcome' := by
  obtain ⟨fuel, hf⟩ := h
  obtain ⟨fuel', hf'⟩ := h'
  have hmore := parseLoop_mono fuel' hf
  have hmore' := parseLoop_mono fuel hf'
  rw [Nat.add_comm, hmore] at hmore'
  cases hmore'
  exact ⟨rfl, rfl⟩

/-! ### The end of a line -/

/-- A text without a line end. -/
def NoCrlf (text : Bytes) : Prop := ¬ crlf <:+: text

/-- `findclr` finds nothing exactly if there is no line end. -/
theorem findclr_eq_none_iff (view : Bytes) : findclr view = none ↔ NoCrlf view := by
  unfold NoCrlf crlf
  induction view using findclr.induct with
  | case1 a b view h => simp [findclr, h, List.infix_cons_iff]
  | case2 a b view h ih =>
    rw [findclr, if_neg h, Option.map_eq_none_iff, ih, List.infix_cons_iff (a := a)]
    have hne : ¬ [13, 10] <+: a :: b :: view := by
      simp only [List.cons_prefix_cons, List.nil_prefix, and_true]
      intro hab
      exact h ⟨hab.1.symm, hab.2.symm⟩
    simp [hne]
  | case3 view h =>
    rw [findclr]
    · simp only [true_iff]
      intro hin
      obtain ⟨pre, post, rfl⟩ := hin
      cases pre with
      | nil => exact h 13 10 post rfl
      | cons c pre =>
        cases pre with
        | nil => exact h c 13 (10 :: post) rfl
        | cons d pre => exact h c d (pre ++ [13, 10] ++ post) rfl
    · exact h

/-- `findclr` finds the first line end. -/
theorem findclr_append {text : Bytes} (h : NoCrlf text) (more : Bytes) :
    findclr (text ++ crlf ++ more) = some text.length := by
  induction text with
  | nil => rfl
  | cons a text ih =>
    have htext : NoCrlf text := fun hi ↦ h (List.infix_cons hi)
    cases text with
    | nil =>
      have ha : ¬ (a = 13 ∧ (13 : UInt8) = 10) := by simp
      rw [List.singleton_append, List.cons_append] at *
      change (if a = 13 ∧ (13 : UInt8) = 10 then some 0
        else (findclr (crlf ++ more)).map (· + 1)) = _
      rw [if_neg ha]
      rfl
    | cons b text =>
      have hab : ¬ (a = 13 ∧ b = 10) := by
        rintro ⟨rfl, rfl⟩
        exact h ⟨[], text, rfl⟩
      change (if a = 13 ∧ b = 10 then some 0
        else (findclr (b :: text ++ crlf ++ more)).map (· + 1)) = _
      rw [if_neg hab, ih htext]
      rfl

/-- What `findclr` finds is a line end, and the first. -/
theorem eq_append_of_findclr {view : Bytes} {p : Nat} (h : findclr view = some p) :
    ∃ text more, view = text ++ crlf ++ more ∧ NoCrlf text ∧ text.length = p := by
  induction view using findclr.induct generalizing p with
  | case1 a b view hab =>
    rw [findclr, if_pos hab] at h
    cases h
    refine ⟨[], view, ?_, by simp [NoCrlf, crlf], rfl⟩
    rw [hab.1, hab.2]
    rfl
  | case2 a b view hab ih =>
    rw [findclr, if_neg hab, Option.map_eq_some_iff] at h
    obtain ⟨q, hq, rfl⟩ := h
    obtain ⟨text, more, heq, htext, hlen⟩ := ih hq
    refine ⟨a :: text, more, ?_, ?_, ?_⟩
    · rw [heq]
      rfl
    · intro hin
      cases List.infix_cons_iff.mp hin with
      | inl hpre =>
        cases text with
        | nil => simp [crlf] at hpre
        | cons c text =>
          have hb : b = c := (List.cons.inj heq).1
          simp only [crlf, List.cons_prefix_cons, List.nil_prefix, and_true] at hpre
          exact hab ⟨hpre.1.symm, hb.trans hpre.2.symm⟩
      | inr hrest => exact htext hrest
    · rw [List.length_cons, hlen]
  | case3 view hview =>
    rw [findclr] at h
    · cases h
    · exact hview

/-- A line that is cut has no end. -/
theorem noCrlf_of_isPrefix {text pre : Bytes} (h : NoCrlf text) (hpre : pre <+: text ++ crlf)
    (hne : pre ≠ text ++ crlf) : NoCrlf pre := by
  intro hin
  have hcut : pre <+: text ++ [13] := by
    have hsplit : text ++ crlf = text ++ [13] ++ [10] := by simp [crlf]
    rw [hsplit] at hpre hne
    exact (List.prefix_concat_iff.mp hpre).resolve_left hne
  cases List.infix_concat_iff.mp (hin.trans hcut.isInfix) with
  | inl hsuf =>
    have hlast := hsuf.getLast (by simp [crlf])
    simp [crlf] at hlast
  | inr hin => exact h hin

end IcsGateway.RedisParser
