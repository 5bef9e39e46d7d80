import IcsGateway.Common.RedisGrammar

/-!
# Every byte string

On a buffer of any content, the parser reads one text after the other that it accepts, until it
throws, finds the rest incomplete, or meets a bulk string whose length it cannot add two to as an
`int` (`3rd.party.raspi/include/Utils.hpp:298`). There it copies bytes from behind the buffer, or
goes back to before it.
-/

namespace IcsGateway.RedisParser

/-- An exception, or a length that is not larger than the buffer. -/
def InBounds (size : Nat) : Except Stop Int → Prop
  | .error x => ∃ what, x = .logicError what
  | .ok len => 0 ≤ len ∧ len ≤ size

/-- The call comes to an end, and that without an access outside of the buffer. -/
def Safe (reply : Bytes) : Prop :=
  ∃ calls outcome, Parses reply calls outcome ∧ InBounds reply.length outcome

/-- A bulk string whose length leaves no room for two more in an `int`. -/
def HugeItem (view : Bytes) : Prop :=
  ∃ head more len, view = 36 :: (head ++ crlf ++ more) ∧ NoCrlf head ∧ lengthOf head = .ok len ∧
    2 ^ 31 - 2 ≤ len.toInt

/-- Such a bulk string behind accepted replies, or in an array behind accepted items. -/
inductive Huge : Bytes → Prop
  | item {view : Bytes} (h : HugeItem view) : Huge view
  | array {head text more : Bytes} {len : Int32} {n ahead : Nat} {contents : List Bytes}
      (hhead : NoCrlf head) (hlen : lengthOf head = .ok len)
      (hitems : IsItems n text contents ahead) (hn : (n : Int) < len.toInt) (h : HugeItem more) :
      Huge (42 :: (head ++ crlf ++ (text ++ more)))
  | behind {text more : Bytes} {call : Call} {ahead : Nat} (hreply : IsReply text call ahead)
      (h : Huge more) : Huge (text ++ more)

/-- It has a text. -/
theorem HugeItem.ne_nil {view : Bytes} (h : HugeItem view) : view ≠ [] := by
  obtain ⟨head, more, len, rfl, -⟩ := h
  exact List.cons_ne_nil _ _

/-- So does a buffer that holds one. -/
theorem Huge.ne_nil {view : Bytes} (h : Huge view) : view ≠ [] := by
  cases h with
  | item h => exact h.ne_nil
  | array => exact List.cons_ne_nil _ _
  | behind hreply =>
    obtain ⟨type, body, rfl⟩ := hreply.eq_cons
    exact List.cons_ne_nil _ _

/-! ### What is read is accepted -/

/-- A length throws nothing but exceptions. -/
theorem lengthOf_error {text : Bytes} {x : Stop} (h : lengthOf text = .error x) :
    ∃ what, x = .logicError what := by
  have hdigits : ∀ digits len, accumulate digits len = .error x → ∃ what, x = .logicError what := by
    intro digits
    induction digits with
    | nil =>
      intro len h
      cases h
    | cons b bs ih =>
      intro len h
      rw [accumulate] at h
      split at h
      · cases h
        exact ⟨_, rfl⟩
      · exact ih _ h
  unfold lengthOf at h
  split at h
  · next digits =>
    cases hd : accumulate digits 0 with
    | error y =>
      rw [hd] at h
      cases h
      exact hdigits digits 0 hd
    | ok len =>
      rw [hd] at h
      cases h
  · exact hdigits text 0 h

/-- What a parser of one text comes to: an exception, or nothing complete. -/
inductive Gives {α : Type} (incomplete : α → Prop) : Except Stop α → Prop
  | throws (what : String) : Gives incomplete (.error (.logicError what))
  | lacks {a : α} (h : incomplete a) : Gives incomplete (.ok a)

/-- What follows an incomplete text is incomplete. -/
theorem Gives.bind {α β : Type} {incomplete : α → Prop} {incomplete' : β → Prop}
    {m : Except Stop α} {f : α → Except Stop β} (h : Gives incomplete m)
    (hf : ∀ a, incomplete a → Gives incomplete' (f a)) : Gives incomplete' (m.bind f) := by
  cases h with
  | throws what => exact .throws what
  | lacks h => exact hf _ h

/-- An item throws, is incomplete, is read, or is too long. -/
theorem parseItem_cases (type : UInt8) (view : Bytes) :
    Gives (fun found ↦ found.2 = none) (parseItem type view) ∨
      (∃ body more content ahead, view = body ++ more ∧ IsItem (type :: body) content ahead ∧
        ahead ≤ more.length) ∨
      HugeItem (type :: view) := by
  by_cases hsimple : isSimple type = true
  · rw [parseItem, if_pos hsimple, parseSimpleString]
    cases hp : findclr view with
    | none => exact .inl (.lacks rfl)
    | some p =>
      obtain ⟨text, more, hview, htext, -⟩ := eq_append_of_findclr hp
      exact .inr (.inl ⟨text ++ crlf, more, text, 0, hview, .simple hsimple htext, Nat.zero_le _⟩)
  by_cases hbulk : type = 36
  · subst hbulk
    rw [parseItem, if_neg hsimple, if_pos rfl]
    cases hp : findclr view with
    | none =>
      rw [parseBulkString, parseLength_of_noCrlf ((findclr_eq_none_iff view).mp hp)]
      exact .inl (.lacks rfl)
    | some p =>
      obtain ⟨head, rest, rfl, hhead, -⟩ := eq_append_of_findclr hp
      cases hlen : lengthOf head with
      | error x =>
        obtain ⟨what, rfl⟩ := lengthOf_error hlen
        rw [parseBulkString, parseLength_append hhead, hlen]
        exact .inl (.throws what)
      | ok len =>
        by_cases hhuge : 2 ^ 31 - 2 ≤ len.toInt
        · exact .inr (.inr ⟨head, rest, len, rfl, hhead, hlen, hhuge⟩)
        · have htwo := @toInt_add_two len (by omega)
          rw [parseBulkString_append hhead hlen, htwo]
          split
          · exact .inl (.lacks rfl)
          · next hfits =>
            right
            left
            by_cases hneg : len < 0
            · refine ⟨head ++ crlf, rest, [], _, rfl, .negative hhead hlen hneg, ?_⟩
              rw [htwo]
              omega
            · have hnonneg : 0 ≤ len.toInt := by
                rw [Int32.lt_iff_toInt_lt, Int32.toInt_zero] at hneg
                omega
              have htake : (rest.take len.toInt.toNat).length = len.toInt.toNat := by
                rw [List.length_take]
                omega
              have hstop : ((rest.drop len.toInt.toNat).take 2).length = 2 := by
                rw [List.length_take, List.length_drop]
                omega
              refine ⟨head ++ crlf ++ (rest.take len.toInt.toNat ++
                (rest.drop len.toInt.toNat).take 2), (rest.drop len.toInt.toNat).drop 2,
                rest.take len.toInt.toNat, 0, ?_, ?_, Nat.zero_le _⟩
              · simp only [List.append_assoc, List.take_append_drop]
              · exact .bulk hhead hlen (by omega) (by omega) hstop
  · rw [parseItem, if_neg hsimple, if_neg hbulk]
    exact .inl (.throws _)

/-- So do items: one of them is too long behind others that are read. -/
theorem parseItems_cases (n : Nat) (done view : Bytes) (items : List Bytes) :
    Gives (fun found ↦ found.2 = none)
        (parseItems (done ++ view) n (some (done.length : Int)) items) ∨
      (∃ text more contents ahead, view = text ++ more ∧ IsItems n text contents ahead ∧
        ahead ≤ more.length) ∨
      ∃ k text more contents ahead, k < n ∧ view = text ++ more ∧ IsItems k text contents ahead ∧
        HugeItem more := by
  induction n generalizing done view items with
  | zero => exact .inr (.inl ⟨[], view, [], 0, rfl, .nil, Nat.zero_le _⟩)
  | succ n ih =>
    cases view with
    | nil =>
      left
      rw [List.append_nil, parseItems, if_pos (Int.le_refl _)]
      exact .lacks rfl
    | cons type view =>
      rw [parseItems_cons]
      rcases parseItem_cases type view with hgives | hread | hhuge
      · left
        apply hgives.bind
        rintro ⟨item, q⟩ rfl
        simp only [Option.map_none, parseItems_null]
        exact .lacks rfl
      · obtain ⟨body, rest, content, ahead, rfl, hitem, hahead⟩ := hread
        have hshape : done ++ type :: (body ++ rest) = (done ++ type :: body) ++ rest := by simp
        rw [parseItem_append hitem hahead]
        simp only [Except.bind]
        rw [map_place done body type, hshape]
        rcases ih (done ++ type :: body) rest (items ++ [content]) with hgives | hmore | hhuge
        · exact .inl hgives
        · obtain ⟨text, more, contents, ahead', rfl, hitems, hahead'⟩ := hmore
          refine .inr (.inl ⟨type :: body ++ text, more, content :: contents, _, by simp,
            .cons hitem hitems, ?_⟩)
          by_cases hn : n = 0
          · subst hn
            cases hitems
            exact hahead
          · rw [if_neg hn]
            exact hahead'
        · obtain ⟨k, text, more, contents, ahead', hk, rfl, hitems, hh⟩ := hhuge
          exact .inr (.inr ⟨k + 1, type :: body ++ text, more, content :: contents, _,
            Nat.succ_lt_succ hk, by simp, .cons hitem hitems, hh⟩)
      · exact .inr (.inr ⟨0, [], type :: view, [], 0, Nat.zero_lt_succ n, rfl, .nil, hhuge⟩)

/-- So does a reply. -/
theorem parseOne_cases (done : Bytes) {view : Bytes} (hne : view ≠ []) :
    Gives (fun found ↦ found = none) (parseOne (done ++ view) done.length) ∨
      (∃ text more call ahead, view = text ++ more ∧ IsReply text call ahead ∧
        ahead ≤ more.length) ∨
      Huge view := by
  cases view with
  | nil => exact absurd rfl hne
  | cons type view =>
    rw [parseOne, deref_append]
    show Gives _ ((if type = 42 then _ else _ : Except Stop (Option (Call × Int)))) ∨ _
    by_cases harray : type = 42
    · subst harray
      rw [if_pos rfl]
      cases hp : findclr view with
      | none =>
        rw [parseArrayReply, parseLength_of_noCrlf ((findclr_eq_none_iff view).mp hp)]
        exact .inl (.throws _)
      | some p =>
        obtain ⟨head, rest, rfl, hhead, -⟩ := eq_append_of_findclr hp
        rw [parseArrayReply, parseLength_append hhead]
        cases hlen : lengthOf head with
        | error x =>
          obtain ⟨what, rfl⟩ := lengthOf_error hlen
          exact .inl (.throws what)
        | ok len =>
          simp only [bind, Except.bind, Except.map]
          by_cases hneg : len < 0
          · rw [if_pos hneg]
            exact .inl (.throws _)
          · rw [if_neg hneg]
            have hnonneg : 0 ≤ len.toInt := by
              rw [Int32.lt_iff_toInt_lt, Int32.toInt_zero] at hneg
              omega
            have hshape : done ++ 42 :: (head ++ crlf ++ rest) =
                (done ++ 42 :: (head ++ crlf)) ++ rest := by simp
            simp only [pure, Except.pure]
            rw [place_items, hshape]
            rcases parseItems_cases len.toInt.toNat (done ++ 42 :: (head ++ crlf)) rest [] with
              hgives | hread | hhuge
            · left
              apply hgives.bind
              rintro ⟨items, q⟩ rfl
              exact .lacks rfl
            · obtain ⟨text, more, contents, ahead, rfl, hitems, hahead⟩ := hread
              refine .inr (.inl ⟨42 :: (head ++ crlf ++ text), more, _, ahead, by simp,
                .array hhead hlen hneg hitems, hahead⟩)
            · obtain ⟨k, text, more, contents, ahead, hk, rfl, hitems, hh⟩ := hhuge
              exact .inr (.inr (.array hhead hlen hitems (by omega) hh))
    · rw [if_neg harray]
      rcases parseItem_cases type view with hgives | hread | hhuge
      · left
        apply hgives.bind
        rintro ⟨item, q⟩ rfl
        exact .lacks rfl
      · obtain ⟨body, rest, content, ahead, rfl, hitem, hahead⟩ := hread
        exact .inr (.inl ⟨type :: body, rest, _, ahead, rfl, .item hitem, hahead⟩)
      · exact .inr (.inr (.item hhuge))

/-- The loop ends in bounds, unless it meets a bulk string that is too long. -/
theorem parseLoop_inBounds (done : Bytes) {view : Bytes} (h : ¬ Huge view) :
    ∃ fuel, ∀ calls, ∃ calls' outcome,
      parseLoop (done ++ view) fuel done.length done.length calls = some (calls', outcome) ∧
        InBounds (done ++ view).length outcome := by
  generalize hn : view.length = n
  induction n using Nat.strongRecOn generalizing done view with
  | ind n ih =>
    have hlen : 0 ≤ (done.length : Int) ∧ (done.length : Int) ≤ (done ++ view).length := by
      rw [List.length_append]
      omega
    by_cases hne : view = []
    · subst hne
      refine ⟨1, fun calls ↦ ⟨calls, .ok done.length, ?_, hlen⟩⟩
      rw [List.append_nil, parseLoop_nil]
    · rcases parseOne_cases done hne with hgives | hread | hhuge
      · refine ⟨1, fun calls ↦ ?_⟩
        rw [parseLoop_succ done hne]
        generalize parseOne (done ++ view) done.length = found at hgives
        cases hgives with
        | throws what => exact ⟨calls, _, rfl, what, rfl⟩
        | lacks hnone =>
          subst hnone
          exact ⟨calls, _, rfl, hlen⟩
      · obtain ⟨text, more, call, ahead, rfl, hreply, hahead⟩ := hread
        obtain ⟨type, body, htext⟩ := hreply.eq_cons
        have hshort : more.length < n := by
          rw [← hn, htext, List.length_append, List.length_cons]
          omega
        obtain ⟨fuel, hloop⟩ := ih _ hshort (done ++ text) (fun hh ↦ h (.behind hreply hh)) rfl
        refine ⟨fuel + 1, fun calls ↦ ?_⟩
        rw [parseLoop_succ done hne, ← List.append_assoc, parseOne_append hreply done hahead]
        exact hloop (calls ++ [call])
      · exact absurd hhuge h

/-- A buffer without such a bulk string is parsed safely. -/
theorem safe_of_not_huge {reply : Bytes} (h : ¬ Huge reply) : Safe reply := by
  obtain ⟨fuel, hloop⟩ := parseLoop_inBounds [] h
  obtain ⟨calls, outcome, hparses, hbounds⟩ := hloop []
  exact ⟨calls, outcome, ⟨fuel, hparses⟩, hbounds⟩

/-! ### A length that is too long -/

/-- A call that leaves the buffer is not safe. -/
theorem not_safe_of_parses {reply : Bytes} {calls : List Call}
    (h : Parses reply calls (.error .outOfBounds)) : ¬ Safe reply := by
  rintro ⟨calls', outcome, hparses, hbounds⟩
  rw [(hparses.unique h).2] at hbounds
  obtain ⟨what, hwhat⟩ := hbounds
  cases hwhat

/-- The item is copied from behind the buffer, or the pointer goes back by almost 2^32. -/
theorem parseItem_huge {view : Bytes} (h : HugeItem (36 :: view)) :
    parseItem 36 view = .error .outOfBounds ∨
      ∃ text q, parseItem 36 view = .ok (text, some q) ∧ q + 2 ^ 32 ≤ view.length + 2 := by
  obtain ⟨head, more, len, hview, hhead, hlen, hhuge⟩ := h
  have hview := (List.cons.inj hview).2
  subst hview
  have hmax := Int32.toInt_lt len
  have htwo : (len + 2).toInt = len.toInt + 2 - 2 ^ 32 := by
    have h2 : (2 : Int32).toInt = 2 := by decide
    rw [Int32.toInt_add, h2, Int.bmod_def]
    omega
  have hnonneg : ¬ len < 0 := by
    rw [Int32.lt_iff_toInt_lt, Int32.toInt_zero]
    omega
  rw [parseItem, if_neg (by decide), if_pos rfl, parseBulkString_append hhead hlen,
    if_neg (by rw [htwo]; omega), if_neg hnonneg, slice, htwo]
  split
  · next hin =>
    refine .inr ⟨_, _, rfl, ?_⟩
    omega
  · exact .inl rfl

/-- Nothing is read before the buffer. -/
theorem deref_neg (reply : Bytes) {p : Int} (h : p < 0) : deref reply p = .error .outOfBounds := by
  cases p with
  | ofNat n => exact absurd h (Int.not_lt.mpr (Int.natCast_nonneg n))
  | negSucc n => rfl

/-- The parser of a text reads outside of the buffer, or goes back to before it. -/
def Leaves {α : Type} (pointer : α → Option Int) (found : Except Stop α) : Prop :=
  found = .error .outOfBounds ∨ ∃ a q, found = .ok a ∧ pointer a = some q ∧ q < 0

/-- The loop over the items leaves the buffer at such an item. -/
theorem parseItems_huge (done : Bytes) {view : Bytes} (h : HugeItem view)
    (hsize : (done ++ view).length + 2 < 2 ^ 32) (left : Nat) (items : List Bytes) :
    Leaves Prod.snd (parseItems (done ++ view) (left + 1) (some (done.length : Int)) items) := by
  obtain ⟨head, more, len, rfl, hrest⟩ := h
  rw [parseItems_cons]
  cases parseItem_huge ⟨head, more, len, rfl, hrest⟩ with
  | inl herror =>
    rw [herror]
    exact .inl rfl
  | inr hok =>
    obtain ⟨text, q, hq, hback⟩ := hok
    have hneg : (done.length : Int) + 1 + q < 0 := by
      rw [List.length_append, List.length_cons] at hsize
      omega
    rw [hq]
    simp only [Except.bind, Option.map_some]
    cases left with
    | zero => exact .inr ⟨_, _, rfl, rfl, hneg⟩
    | succ left =>
      left
      rw [parseItems, if_neg (by omega), deref_neg _ hneg]
      rfl

/-- So does the parser of a reply at such a string, or at an array that holds one. -/
theorem parseOne_huge (done : Bytes) {view : Bytes} (hsize : (done ++ view).length + 2 < 2 ^ 32)
    (h : HugeItem view ∨ ∃ head text more len n ahead contents,
      view = 42 :: (head ++ crlf ++ (text ++ more)) ∧ NoCrlf head ∧ lengthOf head = .ok len ∧
        IsItems n text contents ahead ∧ (n : Int) < len.toInt ∧ HugeItem more) :
    Leaves (fun found ↦ found.map Prod.snd) (parseOne (done ++ view) done.length) := by
  rcases h with hitem | harray
  · obtain ⟨head, more, len, rfl, hrest⟩ := hitem
    rw [parseOne, deref_append]
    simp only [bind, Except.bind]
    rw [if_neg (by decide)]
    cases parseItem_huge ⟨head, more, len, rfl, hrest⟩ with
    | inl herror =>
      rw [herror]
      exact .inl rfl
    | inr hok =>
      obtain ⟨text, q, hq, hback⟩ := hok
      rw [hq]
      refine .inr ⟨_, _, rfl, rfl, ?_⟩
      show (done.length : Int) + 1 + q < 0
      rw [List.length_append, List.length_cons] at hsize
      omega
  · obtain ⟨head, text, more, len, n, ahead, contents, rfl, hhead, hlen, hitems, hn, hhuge⟩ :=
      harray
    have hnonneg : ¬ len < 0 := by
      rw [Int32.lt_iff_toInt_lt, Int32.toInt_zero]
      omega
    have hleft : len.toInt.toNat = (len.toInt.toNat - n - 1 + 1) + n := by omega
    have hbehind : ahead ≤ more.length :=
      Nat.le_trans hitems.ahead_le (List.length_pos_of_ne_nil hhuge.ne_nil)
    have hshape : done ++ 42 :: (head ++ crlf ++ (text ++ more)) =
        (done ++ 42 :: (head ++ crlf)) ++ text ++ more := by simp
    rw [parseOne, deref_append]
    simp only [bind, Except.bind, if_true, parseArrayReply, parseLength_append hhead, hlen,
      Except.map, if_neg hnonneg, pure, Except.pure]
    rw [hshape] at hsize
    rw [place_items, hshape, hleft, parseItems_append hitems _ hbehind]
    rcases parseItems_huge _ hhuge hsize (len.toInt.toNat - n - 1) ([] ++ contents) with
      herror | hok
    · rw [herror]
      exact .inl rfl
    · obtain ⟨⟨items, q⟩, q', hfound, hq, hneg⟩ := hok
      rw [hfound]
      simp only at hq
      subst hq
      exact .inr ⟨_, _, rfl, rfl, hneg⟩

/-- The loop reads outside of the buffer when it has gone back to before it. -/
private theorem parseLoop_neg (reply : Bytes) {p : Int} (h : p < 0) (len : Int) (calls : List Call) :
    parseLoop reply 1 p len calls = some (calls, .error .outOfBounds) := by
  rw [parseLoop, if_pos (by omega), parseOne, deref_neg reply h]
  rfl

/-- So it does at a reply that leads there. -/
private theorem parseLoop_leaves (done : Bytes) {view : Bytes} (hne : view ≠ [])
    (h : Leaves (fun found ↦ found.map Prod.snd) (parseOne (done ++ view) done.length)) :
    ∃ fuel, ∀ len calls, ∃ calls',
      parseLoop (done ++ view) fuel done.length len calls = some (calls', .error .outOfBounds) := by
  refine ⟨2, fun len calls ↦ ?_⟩
  rw [parseLoop_succ done hne]
  rcases h with herror | ⟨found, q, hfound, hq, hneg⟩
  · rw [herror]
    exact ⟨calls, rfl⟩
  · cases found with
    | none => cases hq
    | some found =>
      cases hq
      rw [hfound]
      exact ⟨_, parseLoop_neg _ hneg _ _⟩

/-- And behind replies that it has read. -/
theorem parseLoop_huge {view : Bytes} (h : Huge view) (done : Bytes)
    (hsize : (done ++ view).length + 2 < 2 ^ 32) :
    ∃ fuel, ∀ len calls, ∃ calls',
      parseLoop (done ++ view) fuel done.length len calls = some (calls', .error .outOfBounds) := by
  induction h generalizing done with
  | item h => exact parseLoop_leaves done h.ne_nil (parseOne_huge done hsize (.inl h))
  | array hhead hlen hitems hn h =>
    exact parseLoop_leaves done (List.cons_ne_nil _ _) (parseOne_huge done hsize
      (.inr ⟨_, _, _, _, _, _, _, rfl, hhead, hlen, hitems, hn, h⟩))
  | @behind text more call ahead hreply h ih =>
    have hbehind : ahead ≤ more.length :=
      Nat.le_trans hreply.ahead_le (List.length_pos_of_ne_nil h.ne_nil)
    have hne : text ++ more ≠ [] := fun heq ↦ h.ne_nil (List.append_eq_nil_iff.mp heq).2
    rw [← List.append_assoc] at hsize
    obtain ⟨fuel, hloop⟩ := ih (done ++ text) hsize
    refine ⟨fuel + 1, fun len calls ↦ ?_⟩
    rw [parseLoop_succ done hne, ← List.append_assoc, parseOne_append hreply done hbehind]
    exact hloop _ _

/-- For every byte string, the call of `parseReply` ends, reads nothing outside of the buffer and
either throws or returns a length that is not larger than the buffer, if the parser meets no bulk
string with a length of 2^31 - 2 or more as an `int`; and only if, for a buffer of less than 2^32 - 2
bytes. -/
theorem safe_iff_not_huge (reply : Bytes) :
    (¬ Huge reply → Safe reply) ∧ (reply.length + 2 < 2 ^ 32 → (Safe reply ↔ ¬ Huge reply)) := by
  refine ⟨safe_of_not_huge, fun hsize ↦ ⟨?_, safe_of_not_huge⟩⟩
  intro hsafe hhuge
  obtain ⟨fuel, hloop⟩ := parseLoop_huge hhuge [] hsize
  obtain ⟨calls, hcalls⟩ := hloop 0 []
  exact not_safe_of_parses ⟨fuel, hcalls⟩ hsafe

/-- The front of a bulk string of 2^31 - 1 bytes. -/
def longBulk : Bytes := [36, 50, 49, 52, 55, 52, 56, 51, 54, 52, 55, 13, 10, 97]

/-- The copy reads behind the buffer. -/
theorem not_safe_longBulk : Parses longBulk [] (.error .outOfBounds) ∧ ¬ Safe longBulk := by
  have hparses : Parses longBulk [] (.error .outOfBounds) := ⟨1, by decide⟩
  exact ⟨hparses, not_safe_of_parses hparses⟩

end IcsGateway.RedisParser
