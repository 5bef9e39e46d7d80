import IcsGateway.Common.RedisParser

/-!
# What the Redis parser accepts

The texts that `parseReply` takes for a reply, with what it calls back and with the bytes it wants
to see behind the text: one behind a null bulk string, and none behind anything else. A reply is
read whatever follows, and its front is incomplete, but for the front of an array's header.
-/

namespace IcsGateway.RedisParser

/-- A reply other than an array, its content, and the bytes wanted behind it. -/
inductive IsItem : Bytes → Bytes → Nat → Prop
  | simple {type : UInt8} {text : Bytes} (htype : isSimple type = true) (htext : NoCrlf text) :
      IsItem (type :: (text ++ crlf)) text 0
  | bulk {head text stop : Bytes} {len : Int32} (hhead : NoCrlf head)
      (hlen : lengthOf head = .ok len) (htext : len.toInt = text.length)
      (hfits : text.length + 2 < 2 ^ 31) (hstop : stop.length = 2) :
      IsItem (36 :: (head ++ crlf ++ (text ++ stop))) text 0
  | negative {head : Bytes} {len : Int32} (hhead : NoCrlf head) (hlen : lengthOf head = .ok len)
      (hneg : len < 0) : IsItem (36 :: (head ++ crlf)) [] (len + 2).toInt.toNat

/-- Items one after the other. -/
inductive IsItems : Nat → Bytes → List Bytes → Nat → Prop
  | nil : IsItems 0 [] [] 0
  | cons {n ahead ahead' : Nat} {text rest content : Bytes} {contents : List Bytes}
      (hitem : IsItem text content ahead) (hrest : IsItems n rest contents ahead') :
      IsItems (n + 1) (text ++ rest) (content :: contents) (if n = 0 then ahead else ahead')

/-- A reply, its callback, and the bytes wanted behind it. -/
inductive IsReply : Bytes → Call → Nat → Prop
  | item {type : UInt8} {body content : Bytes} {ahead : Nat}
      (hitem : IsItem (type :: body) content ahead) :
      IsReply (type :: body) (.string type content) ahead
  | array {head text : Bytes} {len : Int32} {contents : List Bytes} {ahead : Nat}
      (hhead : NoCrlf head) (hlen : lengthOf head = .ok len) (hnonneg : ¬ len < 0)
      (hitems : IsItems len.toInt.toNat text contents ahead) :
      IsReply (42 :: (head ++ crlf ++ text)) (.array contents) ahead

/-! ### Whole texts -/

@[simp] theorem length_crlf : crlf.length = 2 := rfl

/-- Behind a line end, the length has been read. -/
theorem parseLength_append {head : Bytes} (hhead : NoCrlf head) (more : Bytes) :
    parseLength (head ++ crlf ++ more) =
      (lengthOf head).map fun len ↦ (len, some (head.length + 2)) := by
  rw [parseLength, findclr_append hhead]
  simp only [List.append_assoc, List.take_left]

/-- A view without a line end holds no length. -/
theorem parseLength_of_noCrlf {view : Bytes} (h : NoCrlf view) :
    parseLength view = .ok (-1, none) := by
  simp only [parseLength, (findclr_eq_none_iff view).mpr h]

/-- `len + 2` is the sum, if that is an `int`. -/
theorem toInt_add_two {len : Int32} (h : len.toInt + 2 < 2 ^ 31) :
    (len + 2).toInt = len.toInt + 2 := by
  have hlow := Int32.le_toInt len
  have htwo : (2 : Int32).toInt = 2 := by decide
  rw [Int32.toInt_add, htwo]
  apply Int.bmod_eq_of_le <;> omega

/-- A bulk string behind its length. -/
theorem parseBulkString_append {head : Bytes} {len : Int32} (hhead : NoCrlf head)
    (hlen : lengthOf head = .ok len) (view : Bytes) :
    parseBulkString (head ++ crlf ++ view) =
      if (len + 2).toInt > view.length then .ok ([], none)
      else if len < 0 then .ok ([], some (head.length + 2 : Int))
      else (slice (head ++ crlf ++ view) (head.length + 2) len.toInt.toNat).map fun text ↦
        (text, some (head.length + 2 + (len + 2).toInt)) := by
  have hlength : ((head ++ crlf ++ view).length : Int) = head.length + 2 + view.length := by
    simp only [List.length_append, length_crlf, Int.natCast_add, Int.cast_ofNat_Int]
  rw [parseBulkString, parseLength_append hhead, hlen]
  simp only [Except.map, bind, Except.bind, pure, Except.pure, hlength, Int.natCast_add,
    Int.cast_ofNat_Int, gt_iff_lt, Int.add_lt_add_iff_left]

/-- An item is read if what it wants to see behind it is there. -/
theorem parseItem_append {type : UInt8} {body content : Bytes} {ahead : Nat}
    (h : IsItem (type :: body) content ahead) {more : Bytes} (hmore : ahead ≤ more.length) :
    parseItem type (body ++ more) = .ok (content, some (body.length : Int)) := by
  cases h with
  | simple htype htext =>
    simp only [parseItem, if_pos htype, parseSimpleString, findclr_append htext]
    simp [crlf]
  | @bulk head _ stop len hhead hlen htext hfits hstop =>
    have htwo := @toInt_add_two len (by omega)
    have hnonneg : ¬ len < 0 := by
      rw [Int32.lt_iff_toInt_lt, Int32.toInt_zero]
      omega
    have hview : (content ++ stop ++ more).length = content.length + 2 + more.length := by
      simp only [List.length_append, hstop]
    have hslice : slice (head ++ crlf ++ (content ++ stop ++ more)) (head.length + 2)
        len.toInt.toNat = .ok content := by
      have hdrop : (head ++ crlf ++ (content ++ stop ++ more)).drop (head.length + 2) =
          content ++ (stop ++ more) := by
        rw [List.append_assoc content]
        exact List.drop_left' (by simp)
      have htake : len.toInt.toNat = content.length := by omega
      rw [slice, if_pos, hdrop, htake, List.take_left]
      rw [List.length_append, List.length_append, length_crlf, hview]
      omega
    rw [parseItem, if_neg (by decide), if_pos rfl, List.append_assoc,
      parseBulkString_append hhead hlen, if_neg (by rw [htwo, hview]; omega), if_neg hnonneg, hslice,
      htwo, htext]
    simp [Except.map, hstop]
    omega
  | @negative head len hhead hlen hneg =>
    have hlt : len.toInt < 0 := by
      rw [← Int32.toInt_zero]
      exact Int32.lt_iff_toInt_lt.mp hneg
    have htwo := @toInt_add_two len (by omega)
    rw [parseItem, if_neg (by decide), if_pos rfl, parseBulkString_append hhead hlen,
      if_neg (by omega), if_pos hneg]
    simp

/-- An item begins with its type, which is not that of an array. -/
theorem IsItem.eq_cons {text content : Bytes} {ahead : Nat} (h : IsItem text content ahead) :
    ∃ type body, text = type :: body ∧ type ≠ 42 := by
  cases h with
  | simple htype htext =>
    refine ⟨_, _, rfl, ?_⟩
    intro heq
    rw [heq] at htype
    cases htype
  | bulk => exact ⟨_, _, rfl, by decide⟩
  | negative => exact ⟨_, _, rfl, by decide⟩

/-- A reply begins with its type. -/
theorem IsReply.eq_cons {text : Bytes} {call : Call} {ahead : Nat} (h : IsReply text call ahead) :
    ∃ type body, text = type :: body := by
  cases h with
  | item => exact ⟨_, _, rfl⟩
  | array => exact ⟨_, _, rfl⟩

/-- An item wants at most one byte behind it. -/
theorem IsItem.ahead_le {text content : Bytes} {ahead : Nat} (h : IsItem text content ahead) :
    ahead ≤ 1 := by
  cases h with
  | simple => exact Nat.zero_le _
  | bulk => exact Nat.zero_le _
  | negative hhead hlen hneg =>
    have hlt := Int32.lt_iff_toInt_lt.mp hneg
    rw [Int32.toInt_zero] at hlt
    rw [toInt_add_two (by omega)]
    omega

/-- So do items. -/
theorem IsItems.ahead_le {n ahead : Nat} {text : Bytes} {contents : List Bytes}
    (h : IsItems n text contents ahead) : ahead ≤ 1 := by
  induction h with
  | nil => exact Nat.zero_le _
  | cons hitem hrest ih =>
    split
    · exact hitem.ahead_le
    · exact ih

/-- So does a reply. -/
theorem IsReply.ahead_le {text : Bytes} {call : Call} {ahead : Nat} (h : IsReply text call ahead) :
    ahead ≤ 1 := by
  cases h with
  | item hitem => exact hitem.ahead_le
  | array hhead hlen hnonneg hitems => exact hitems.ahead_le

/-- Items have a text. -/
theorem IsItems.ne_nil {n ahead : Nat} {text : Bytes} {contents : List Bytes}
    (h : IsItems n text contents ahead) (hn : n ≠ 0) : text ≠ [] := by
  cases h with
  | nil => exact absurd rfl hn
  | cons hitem hrest =>
    obtain ⟨type, body, htext, -⟩ := hitem.eq_cons
    rw [htext]
    simp

/-- Behind an item the offset of its end is the length of what is done, -/
theorem map_place (done body : Bytes) (type : UInt8) :
    (some (body.length : Int)).map ((done.length : Int) + 1 + ·) =
      some ((done ++ (type :: body)).length : Int) := by
  simp only [Option.map_some, List.length_append, List.length_cons, Option.some.injEq]
  omega

/-- and so it is behind the header of an array. -/
theorem place_items (done head : Bytes) :
    (done.length : Int) + 1 + ((head.length + 2 : Nat) : Int) =
      ((done ++ 42 :: (head ++ crlf)).length : Int) := by
  simp only [List.length_append, List.length_cons, length_crlf]
  omega

/-- The byte behind what is done. -/
theorem deref_append (done : Bytes) (type : UInt8) (view : Bytes) :
    deref (done ++ type :: view) done.length = .ok (type, view) := by
  have hdrop : (done ++ type :: view).drop done.length = type :: view := List.drop_left
  simp only [deref, hdrop]

/-- A round of the loop over the items. -/
theorem parseItems_cons (done : Bytes) (type : UInt8) (view : Bytes) (n : Nat)
    (items : List Bytes) :
    parseItems (done ++ type :: view) (n + 1) (some (done.length : Int)) items =
      (parseItem type view).bind fun (item, q) ↦
        parseItems (done ++ type :: view) n (q.map ((done.length : Int) + 1 + ·))
          (items ++ [item]) := by
  rw [parseItems, if_neg, deref_append]
  · rfl
  · simp only [ge_iff_le, Int.ofNat_le, List.length_append, List.length_cons]
    omega

/-- Items are read if what the last one wants to see behind it is there, and then the others. -/
theorem parseItems_append {n ahead : Nat} {text : Bytes} {contents : List Bytes}
    (h : IsItems n text contents ahead) (done : Bytes) {more : Bytes} (hmore : ahead ≤ more.length)
    (left : Nat) (items : List Bytes) :
    parseItems (done ++ text ++ more) (left + n) (some (done.length : Int)) items =
      parseItems (done ++ text ++ more) left (some ((done ++ text).length : Int))
        (items ++ contents) := by
  induction h generalizing done items with
  | nil => simp
  | @cons n ahead ahead' text rest content contents hitem hrest ih =>
    obtain ⟨type, body, rfl, -⟩ := hitem.eq_cons
    have hbehind : ahead ≤ (rest ++ more).length ∧ ahead' ≤ more.length := by
      by_cases hn : n = 0
      · subst hn
        cases hrest
        exact ⟨hmore, Nat.zero_le _⟩
      · rw [if_neg hn] at hmore
        have hne := List.length_pos_of_ne_nil (hrest.ne_nil hn)
        have hone := hitem.ahead_le
        rw [List.length_append]
        omega
    have hread := parseItem_append hitem hbehind.1
    have hshape : done ++ (type :: body ++ rest) ++ more =
        done ++ type :: (body ++ (rest ++ more)) := by simp
    have hnext : done ++ type :: (body ++ (rest ++ more)) =
        done ++ (type :: body) ++ rest ++ more := by simp
    rw [hshape, ← Nat.add_assoc, parseItems_cons, hread]
    simp only [Except.bind]
    rw [map_place done body type, hnext, ih (done ++ (type :: body)) hbehind.2]
    simp

/-- A reply is read if what it wants to see behind it is there. -/
theorem parseOne_append {text : Bytes} {call : Call} {ahead : Nat} (h : IsReply text call ahead)
    (done : Bytes) {more : Bytes} (hmore : ahead ≤ more.length) :
    parseOne (done ++ text ++ more) done.length =
      .ok (some (call, ((done ++ text).length : Int))) := by
  cases h with
  | @item type body content ahead hitem =>
    have htype : type ≠ 42 := by
      obtain ⟨type', body', heq, hne⟩ := hitem.eq_cons
      rw [(List.cons.inj heq).1]
      exact hne
    have hshape : done ++ type :: body ++ more = done ++ type :: (body ++ more) := by simp
    have hp : (done.length : Int) + 1 + body.length = ((done ++ type :: body).length : Int) := by
      simp only [List.length_append, List.length_cons]
      omega
    rw [hshape, parseOne, deref_append, ← hp]
    simp only [bind, Except.bind, if_neg htype, parseItem_append hitem hmore]
    rfl
  | @array head text len contents ahead hhead hlen hnonneg hitems =>
    have hshape : done ++ 42 :: (head ++ crlf ++ text) ++ more =
        done ++ 42 :: (head ++ crlf ++ (text ++ more)) := by simp
    have hitemsShape : done ++ 42 :: (head ++ crlf ++ (text ++ more)) =
        (done ++ 42 :: (head ++ crlf)) ++ text ++ more := by simp
    rw [hshape, parseOne, deref_append]
    simp only [bind, Except.bind, if_true, parseArrayReply, parseLength_append hhead, hlen,
      Except.map, if_neg hnonneg, pure, Except.pure]
    have hall := parseItems_append hitems (done ++ 42 :: (head ++ crlf)) hmore 0 []
    rw [Nat.zero_add] at hall
    rw [place_items, hitemsShape, hall, parseItems]
    simp [pure, Except.pure]

/-! ### Cut texts -/

/-- The front of two texts ends in the first or in the second. -/
theorem prefix_append_cases {a b pre : Bytes} (h : pre <+: a ++ b) :
    (pre <+: a ∧ pre ≠ a) ∨ ∃ post, pre = a ++ post ∧ post <+: b := by
  obtain ⟨rest, hrest⟩ := h
  cases List.append_eq_append_iff.mp hrest with
  | inl hin =>
    obtain ⟨mid, ha, -⟩ := hin
    cases mid with
    | nil => exact .inr ⟨[], by rw [ha, List.append_nil, List.append_nil], List.nil_prefix⟩
    | cons b mid =>
      refine .inl ⟨⟨b :: mid, ha.symm⟩, ?_⟩
      intro heq
      rw [heq] at ha
      simp at ha
  | inr hin =>
    obtain ⟨post, hpre, hb⟩ := hin
    exact .inr ⟨post, hpre, ⟨rest, hb.symm⟩⟩

/-- An item that is cut, or whose next byte is missing, is incomplete. -/
theorem parseItem_cut {type : UInt8} {body content : Bytes} {ahead : Nat}
    (h : IsItem (type :: body) content ahead) {view : Bytes} (hview : view <+: body)
    (hcut : view = body → 0 < ahead) : parseItem type view = .ok ([], none) := by
  cases h with
  | simple htype htext =>
    have hline := noCrlf_of_isPrefix htext hview fun heq ↦ absurd (hcut heq) (Nat.lt_irrefl 0)
    simp only [parseItem, if_pos htype, parseSimpleString, (findclr_eq_none_iff view).mpr hline,
      Option.map_none]
  | @bulk head _ stop len hhead hlen htext hfits hstop =>
    rw [parseItem, if_neg (by decide), if_pos rfl]
    cases prefix_append_cases hview with
    | inl hhere =>
      have hline := noCrlf_of_isPrefix hhead hhere.1 hhere.2
      rw [parseBulkString, parseLength_of_noCrlf hline]
      rfl
    | inr hthere =>
      obtain ⟨post, hpost, hpre⟩ := hthere
      have hlt : post.length < content.length + 2 := by
        have hle := hpre.length_le
        rw [List.length_append, hstop] at hle
        apply Nat.lt_of_le_of_ne hle
        intro heq
        have hwhole := hpre.eq_of_length (by rw [heq, List.length_append, hstop])
        exact absurd (hcut (by rw [hpost, hwhole])) (Nat.lt_irrefl 0)
      have htwo := @toInt_add_two len (by omega)
      rw [hpost, parseBulkString_append hhead hlen, if_pos (by rw [htwo, htext]; omega)]
  | @negative head len hhead hlen hneg =>
    rw [parseItem, if_neg (by decide), if_pos rfl]
    by_cases hwhole : view = head ++ crlf
    · have hpos := hcut hwhole
      have happend : view = head ++ crlf ++ [] := by rw [hwhole, List.append_nil]
      rw [happend, parseBulkString_append hhead hlen, if_pos]
      rw [List.length_nil]
      omega
    · have hline := noCrlf_of_isPrefix hhead hview hwhole
      rw [parseBulkString, parseLength_of_noCrlf hline]
      rfl

/-- The loop over the items ends with the null pointer. -/
theorem parseItems_null (reply : Bytes) (n : Nat) (items : List Bytes) :
    parseItems reply n none items = .ok (items, none) := by
  cases n <;> rfl

/-- So are items. -/
theorem parseItems_cut {n ahead : Nat} {text : Bytes} {contents : List Bytes}
    (h : IsItems n text contents ahead) (done : Bytes) {view : Bytes} (hview : view <+: text)
    (hcut : view = text → 0 < ahead) (items : List Bytes) :
    ∃ items', parseItems (done ++ view) n (some (done.length : Int)) items = .ok (items', none) := by
  induction h generalizing done view items with
  | nil => exact absurd (hcut (List.prefix_nil.mp hview)) (Nat.lt_irrefl 0)
  | @cons n ahead ahead' text rest content contents hitem hrest ih =>
    obtain ⟨type, body, rfl, -⟩ := hitem.eq_cons
    cases view with
    | nil =>
      -- the buffer ends in front of the item
      refine ⟨items, ?_⟩
      rw [List.append_nil, parseItems, if_pos (Int.le_refl _)]
      rfl
    | cons type' view =>
      obtain ⟨rfl, hbody⟩ := List.cons_prefix_cons.mp hview
      have hstop : parseItem type' view = .ok ([], none) →
          ∃ items', parseItems (done ++ type' :: view) (n + 1) (some (done.length : Int)) items =
            .ok (items', none) := by
        intro hnone
        refine ⟨items ++ [[]], ?_⟩
        rw [parseItems_cons, hnone]
        exact parseItems_null _ _ _
      cases prefix_append_cases hbody with
      | inl hhere =>
        exact hstop (parseItem_cut hitem hhere.1 fun heq ↦ absurd heq hhere.2)
      | inr hthere =>
        obtain ⟨post, rfl, hpost⟩ := hthere
        by_cases hbehind : ahead ≤ post.length
        · have hshape : done ++ type' :: (body ++ post) = (done ++ type' :: body) ++ post := by simp
          rw [parseItems_cons, parseItem_append hitem hbehind]
          simp only [Except.bind]
          rw [map_place done body type', hshape]
          apply ih (done ++ type' :: body) hpost
          intro heq
          have hahead := hcut (by rw [heq]; rfl)
          by_cases hn : n = 0
          · subst hn
            cases hrest
            rw [if_pos rfl] at hahead
            rw [heq] at hbehind
            exact absurd hahead (Nat.not_lt.mpr hbehind)
          · rwa [if_neg hn] at hahead
        · have hone := hitem.ahead_le
          have hnil : post = [] := List.length_eq_zero_iff.mp (by omega)
          subst hnil
          apply hstop
          rw [List.append_nil]
          apply parseItem_cut hitem (List.prefix_refl _)
          intro _
          omega

/-- The front of an array's header ends the call with an exception. -/
theorem parseOne_header {view : Bytes} (h : NoCrlf view) (done : Bytes) :
    parseOne (done ++ 42 :: view) done.length =
      .error (.logicError "redis invalid array size -1") := by
  rw [parseOne, deref_append]
  simp only [bind, Except.bind, if_true, parseArrayReply, parseLength_of_noCrlf h]
  rfl

/-- A reply that is cut behind its type and, if it is an array, behind its header, or whose next
byte is missing, is incomplete. -/
theorem parseOne_cut {text : Bytes} {call : Call} {ahead : Nat} (h : IsReply text call ahead)
    (done : Bytes) {view : Bytes} (hview : view <+: text) (hne : view ≠ [])
    (hcut : view = text → 0 < ahead) (hheader : ∀ front, view = 42 :: front → ¬ NoCrlf front) :
    parseOne (done ++ view) done.length = .ok none := by
  cases view with
  | nil => exact absurd rfl hne
  | cons type' view =>
    cases h with
    | @item type body content ahead hitem =>
      obtain ⟨rfl, hbody⟩ := List.cons_prefix_cons.mp hview
      have htype : type' ≠ 42 := by
        obtain ⟨type, body', heq, hne⟩ := hitem.eq_cons
        rw [(List.cons.inj heq).1]
        exact hne
      have hnone := parseItem_cut hitem hbody fun heq ↦ hcut (by rw [heq])
      rw [parseOne, deref_append]
      simp only [bind, Except.bind, if_neg htype, hnone]
      rfl
    | @array head text len contents ahead hhead hlen hnonneg hitems =>
      obtain ⟨rfl, hbody⟩ := List.cons_prefix_cons.mp hview
      cases prefix_append_cases hbody with
      | inl hhere => exact absurd (noCrlf_of_isPrefix hhead hhere.1 hhere.2) (hheader view rfl)
      | inr hthere =>
        obtain ⟨post, rfl, hpost⟩ := hthere
        have hshape : done ++ 42 :: (head ++ crlf ++ post) =
            (done ++ 42 :: (head ++ crlf)) ++ post := by simp
        obtain ⟨items', hitems'⟩ := parseItems_cut hitems (done ++ 42 :: (head ++ crlf)) hpost
          (fun heq ↦ hcut (by rw [heq])) []
        rw [parseOne, deref_append]
        simp only [bind, Except.bind, if_true, parseArrayReply, parseLength_append hhead, hlen,
          Except.map, if_neg hnonneg, pure, Except.pure]
        rw [place_items, hshape, hitems']
        rfl

end IcsGateway.RedisParser
