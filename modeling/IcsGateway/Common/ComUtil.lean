import Mathlib.Algebra.Group.Int.Defs
import Mathlib.Data.List.TakeWhile
import IcsGateway.Base.Convert

/-!
# Common utilities

The functions of `ComUtil` (`Common/ComUtil.cpp`) and the map type that the modelled
components share.
-/

namespace IcsGateway

/-- `std::map<COMStr, T>`, its entries in key order. -/
abbrev ComMap (α : Type) := List (COMStr × α)

/-- `m[k] = v`. -/
def ComMap.assign {α : Type} (m : ComMap α) (k : COMStr) (v : α) : ComMap α :=
  match m with
  | [] => [(k, v)]
  | (k', v') :: rest =>
    if k < k' then (k, v) :: (k', v') :: rest
    else if k = k' then (k, v) :: rest
    else (k', v') :: ComMap.assign rest k v

namespace ComMap

variable {α : Type}

/-- The value of the key assigned; the others are unchanged. -/
theorem lookup_assign (m : ComMap α) (k k' : COMStr) (v : α) :
    (m.assign k v).lookup k' = if k' = k then some v else m.lookup k' := by
  induction m with
  | nil =>
    by_cases h : k' = k
    · simp [assign, h]
    · have hb : (k' == k) = false := by simpa using h
      simp [assign, h, List.lookup_cons, hb]
  | cons p rest ih =>
    obtain ⟨a, b⟩ := p
    rw [assign]
    split
    · by_cases h : k' = k
      · simp [h]
      · have hb : (k' == k) = false := by simpa using h
        rw [List.lookup_cons, hb, if_neg h]
    · split
      · next ha =>
        subst ha
        by_cases h : k' = k
        · simp [h]
        · have hb : (k' == k) = false := by simpa using h
          rw [List.lookup_cons, hb, if_neg h, List.lookup_cons, hb]
      · next ha =>
        by_cases h : k' = a
        · subst h
          have hne : k' ≠ k := fun he ↦ ha he.symm
          simp [hne]
        · have hb : (k' == a) = false := by simpa using h
          rw [List.lookup_cons, hb, List.lookup_cons, hb]
          exact ih

/-- The last assignment to a key counts. -/
theorem assign_assign (m : ComMap α) (k : COMStr) (v v' : α) :
    (m.assign k v).assign k v' = m.assign k v' := by
  induction m with
  | nil => simp [assign]
  | cons p rest ih =>
    obtain ⟨a, b⟩ := p
    by_cases hlt : k < a
    · simp [assign, hlt]
    · by_cases ha : k = a
      · simp [assign, ha]
      · simp [assign, hlt, ha, ih]

/-- The keys are in order, as the map keeps them. -/
def Sorted (m : ComMap α) : Prop := (m.map (·.1)).Pairwise (· < ·)

/-- The keys after an assignment. -/
theorem mem_keys_assign {m : ComMap α} {k k' : COMStr} {v : α} :
    k' ∈ (m.assign k v).map (·.1) ↔ k' = k ∨ k' ∈ m.map (·.1) := by
  induction m with
  | nil => simp [assign]
  | cons p rest ih =>
    obtain ⟨a, b⟩ := p
    rw [assign]
    split
    · simp
    · split
      · next ha => simp [ha]
      · simp only [List.map_cons, List.mem_cons, ih]
        exact or_left_comm

/-- An assignment keeps the order. -/
theorem Sorted.assign {m : ComMap α} (h : Sorted m) (k : COMStr) (v : α) :
    Sorted (m.assign k v) := by
  induction m with
  | nil => exact List.pairwise_singleton _ _
  | cons p rest ih =>
    obtain ⟨a, b⟩ := p
    rw [Sorted, List.map_cons, List.pairwise_cons] at h
    rw [ComMap.assign]
    split
    · next hlt =>
      rw [Sorted, List.map_cons, List.map_cons, List.pairwise_cons, List.pairwise_cons]
      refine ⟨?_, h⟩
      intro k' hk'
      rcases List.mem_cons.mp hk' with rfl | hk'
      · exact hlt
      · exact String.lt_trans hlt (h.1 k' hk')
    · next hge =>
      split
      · next ha =>
        subst ha
        exact List.pairwise_cons.mpr h
      · next ha =>
        apply List.pairwise_cons.mpr
        refine ⟨?_, ih h.2⟩
        intro k' hk'
        rcases mem_keys_assign.mp hk' with rfl | hk'
        · exact String.not_le.mp fun hle ↦ ha (String.le_antisymm hle (String.not_lt.mp hge))
        · exact h.1 k' hk'

/-- No key is repeated. -/
theorem Sorted.nodup {m : ComMap α} (h : Sorted m) : (m.map (·.1)).Nodup :=
  List.Pairwise.imp String.ne_of_lt h

/-- An assignment to a key after all others. -/
private theorem assign_concat {m : ComMap α} {k : COMStr} (v : α)
    (h : ∀ k' ∈ m.map (·.1), k' < k) : m.assign k v = m ++ [(k, v)] := by
  induction m with
  | nil => rfl
  | cons p rest ih =>
    rw [List.map_cons, List.forall_mem_cons] at h
    rw [assign, if_neg (String.lt_asymm h.1), if_neg (String.ne_of_lt h.1).symm, ih h.2,
      List.cons_append]

/-- Assignments one after the other. -/
def assignAll (m : ComMap α) : List (COMStr × α) → ComMap α
  | [] => m
  | p :: entries => assignAll (m.assign p.1 p.2) entries

/-- The entries of a map in their order give the map. -/
theorem Sorted.assignAll {m : ComMap α} (h : Sorted m) : assignAll [] m = m := by
  have happend (acc m : ComMap α) (hsorted : Sorted (acc ++ m)) :
      ComMap.assignAll acc m = acc ++ m := by
    induction m generalizing acc with
    | nil => rw [ComMap.assignAll, List.append_nil]
    | cons p m ih =>
      have hlast : acc.assign p.1 p.2 = acc ++ [p] := by
        apply assign_concat
        intro k' hk'
        rw [Sorted, List.map_append, List.pairwise_append] at hsorted
        exact hsorted.2.2 k' hk' p.1 List.mem_cons_self
      rw [ComMap.assignAll, hlast, ih, List.append_assoc, List.singleton_append]
      rw [List.append_assoc, List.singleton_append]
      exact hsorted
  exact happend [] m h

/-- Assignments keep the order. -/
theorem sorted_assignAll {m : ComMap α} (h : Sorted m) (entries : List (COMStr × α)) :
    Sorted (assignAll m entries) := by
  induction entries generalizing m with
  | nil => exact h
  | cons p entries ih => exact ih (h.assign p.1 p.2)

/-- The last assignment to a key counts. -/
theorem lookup_assignAll (m : ComMap α) (entries : List (COMStr × α)) (k : COMStr) :
    (assignAll m entries).lookup k =
      ((entries.filter (·.1 = k)).getLast?.map (·.2)).or (m.lookup k) := by
  induction entries generalizing m with
  | nil => rfl
  | cons p entries ih =>
    rw [assignAll, ih, lookup_assign]
    by_cases hk : p.1 = k
    · rw [if_pos hk.symm, List.filter_cons_of_pos (by simpa using hk), List.getLast?_cons]
      cases (entries.filter (·.1 = k)).getLast? with
      | none => rfl
      | some q => rfl
    · rw [if_neg fun he ↦ hk he.symm, List.filter_cons_of_neg (by simpa using hk)]

/-- Each key has one value. -/
theorem Sorted.mem_iff {m : ComMap α} (h : Sorted m) (k : COMStr) (v : α) :
    (k, v) ∈ m ↔ m.lookup k = some v := by
  induction m with
  | nil => simp
  | cons p rest ih =>
    obtain ⟨hlt, hrest⟩ := List.pairwise_cons.mp h
    rw [List.mem_cons, List.lookup_cons]
    by_cases hk : k = p.1
    · have hout : (k, v) ∉ rest := by
        intro hmem
        exact String.lt_irrefl k (hk ▸ hlt k (List.mem_map_of_mem hmem))
      simp only [hk, beq_self_eq_true, Option.some.injEq]
      rw [← hk, or_iff_left hout, Prod.ext_iff, and_iff_right hk, eq_comm]
    · have hne : (k == p.1) = false := beq_eq_false_iff_ne.mpr hk
      rw [hne, ← ih hrest, or_iff_right]
      intro he
      exact hk (congrArg Prod.fst he)

/-- `erase` of a key. -/
def erase (m : ComMap α) (k : COMStr) : ComMap α := m.filter (·.1 ≠ k)

/-- Erasing keeps the order. -/
theorem Sorted.erase {m : ComMap α} (h : Sorted m) (k : COMStr) : Sorted (m.erase k) := by
  rw [Sorted, List.pairwise_map] at h ⊢
  exact h.filter _

/-- What an erased map holds, it held before. -/
theorem mem_of_mem_erase {m : ComMap α} {k : COMStr} {p : COMStr × α} (h : p ∈ m.erase k) :
    p ∈ m :=
  (List.mem_filter.mp h).1

/-- What an assignment leaves in the map. -/
theorem mem_assign {m : ComMap α} {k : COMStr} {v : α} {p : COMStr × α}
    (h : p ∈ m.assign k v) : p = (k, v) ∨ p ∈ m := by
  induction m with
  | nil => exact .inl (List.mem_singleton.mp h)
  | cons q rest ih =>
    rw [assign] at h
    split at h
    · exact List.mem_cons.mp h
    · split at h
      · rcases List.mem_cons.mp h with hp | hp
        · exact .inl hp
        · exact .inr (List.mem_cons_of_mem _ hp)
      · rcases List.mem_cons.mp h with hp | hp
        · exact .inr (hp ▸ List.mem_cons_self)
        · exact (ih hp).imp_right (List.mem_cons_of_mem _)

/-- What assignments leave in the map. -/
theorem mem_assignAll {m : ComMap α} {entries : List (COMStr × α)} {p : COMStr × α}
    (h : p ∈ assignAll m entries) : p ∈ entries ∨ p ∈ m := by
  induction entries generalizing m with
  | nil => exact .inr h
  | cons q entries ih =>
    rcases ih h with hp | hp
    · exact .inl (List.mem_cons_of_mem _ hp)
    · rcases mem_assign hp with rfl | hp
      · exact .inl List.mem_cons_self
      · exact .inr hp

end ComMap

namespace ComUtil

/-! ### Tokens -/

/-- `getline` until the stream ends; `token` holds the characters read since the last
delimiter, in reverse. -/
def getlines (de : Char) (token : List Char) : List Char → List COMStr
  | [] => if token.isEmpty then [] else [String.ofList token.reverse]
  | c :: cs =>
    if c = de then String.ofList token.reverse :: getlines de [] cs
    else getlines de (c :: token) cs

/-- `ComUtil::split(const COMStr&, char)`; `Common/ComUtil.cpp:132`. -/
def split (str : COMStr) (de : Char) : List COMStr := getlines de [] str.toList

/-- A token that has begun is returned. -/
private theorem getlines_ne_nil (de : Char) (cs : List Char) :
    ∀ c token, getlines de (c :: token) cs ≠ [] := by
  induction cs with
  | nil =>
    intro c token
    simp [getlines]
  | cons c' cs ih =>
    intro c token
    unfold getlines
    split
    · exact List.cons_ne_nil _ _
    · exact ih c' (c :: token)

/-- Only the empty string has no token. -/
theorem split_eq_nil_iff (str : COMStr) (de : Char) : split str de = [] ↔ str = "" := by
  unfold split
  rw [← String.toList_eq_nil_iff]
  cases hs : str.toList with
  | nil => simp [getlines]
  | cons c cs =>
    unfold getlines
    split
    · simp
    · simp [getlines_ne_nil]

/-- The first token is what has been read and what comes before the next delimiter. -/
private theorem toList_head_getlines {de : Char} {cmd : COMStr} {rest : List COMStr}
    (cs : List Char) : ∀ token, getlines de token cs = cmd :: rest →
      cmd.toList = token.reverse ++ cs.takeWhile (· ≠ de) := by
  induction cs with
  | nil =>
    intro token h
    rw [getlines] at h
    split at h
    · cases h
    · cases h
      simp
  | cons c cs ih =>
    intro token h
    rw [getlines] at h
    split at h
    · next hc =>
      cases h
      simp [hc]
    · next hc =>
      rw [ih (c :: token) h, List.takeWhile_cons_of_pos (by simpa using hc), List.reverse_cons,
        List.append_assoc, List.singleton_append]

/-- The first token comes before the first delimiter. -/
theorem toList_head_split {str cmd : COMStr} {de : Char} {rest : List COMStr}
    (h : split str de = cmd :: rest) : cmd.toList = str.toList.takeWhile (· ≠ de) := by
  rw [toList_head_getlines str.toList [] h]
  rfl

/-- The first token begins the string. -/
theorem head_split_isPrefix {str cmd : COMStr} {de : Char} {rest : List COMStr}
    (h : split str de = cmd :: rest) : cmd.toList <+: str.toList := by
  rw [toList_head_split h]
  exact List.takeWhile_prefix _

/-- It is the string exactly when there is no delimiter. -/
theorem eq_head_split_iff {str cmd : COMStr} {de : Char} {rest : List COMStr}
    (h : split str de = cmd :: rest) : str = cmd ↔ de ∉ str.toList := by
  rw [← String.toList_inj, toList_head_split h, eq_comm, List.takeWhile_eq_self_iff]
  constructor
  · intro hall hmem
    exact absurd (hall de hmem) (by simp)
  · intro hmem c hc
    rw [decide_eq_true_eq]
    rintro rfl
    exact hmem hc

/-- What is read up to the next delimiter is a token. -/
theorem getlines_append_cons {de : Char} {cs : List Char} (h : de ∉ cs)
    (rest : List Char) : ∀ token, getlines de token (cs ++ de :: rest) =
      String.ofList (token.reverse ++ cs) :: getlines de [] rest := by
  induction cs with
  | nil =>
    intro token
    rw [List.nil_append, getlines, if_pos rfl, List.append_nil]
  | cons c cs ih =>
    intro token
    obtain ⟨hc, hcs⟩ := not_or.mp (mt List.mem_cons.mpr h)
    rw [List.cons_append, getlines, if_neg fun he ↦ hc he.symm, ih hcs, List.reverse_cons,
      List.append_assoc, List.singleton_append]

/-- So is what is left without one. -/
theorem getlines_of_notMem {de : Char} {cs : List Char} (h : de ∉ cs) :
    ∀ token, token.reverse ++ cs ≠ [] →
      getlines de token cs = [String.ofList (token.reverse ++ cs)] := by
  induction cs with
  | nil =>
    intro token hne
    rw [List.append_nil] at hne ⊢
    rw [getlines, if_neg]
    simpa using hne
  | cons c cs ih =>
    intro token hne
    obtain ⟨hc, hcs⟩ := not_or.mp (mt List.mem_cons.mpr h)
    rw [getlines, if_neg fun he ↦ hc he.symm, ih hcs]
    · rw [List.reverse_cons, List.append_assoc, List.singleton_append]
    · rw [List.reverse_cons]
      simp

private theorem notMem_of_mem_getlines {de : Char} {t : COMStr} (cs : List Char) :
    ∀ token, de ∉ token → t ∈ getlines de token cs → de ∉ t.toList := by
  induction cs with
  | nil =>
    intro token htoken ht
    rw [getlines] at ht
    split at ht
    · exact absurd ht List.not_mem_nil
    · rw [List.mem_singleton.mp ht, String.toList_ofList, List.mem_reverse]
      exact htoken
  | cons c cs ih =>
    intro token htoken ht
    rw [getlines] at ht
    split at ht
    · rcases List.mem_cons.mp ht with rfl | ht
      · rw [String.toList_ofList, List.mem_reverse]
        exact htoken
      · exact ih [] List.not_mem_nil ht
    · next hc =>
      apply ih (c :: token) _ ht
      intro hmem
      rcases List.mem_cons.mp hmem with he | hmem
      · exact hc he.symm
      · exact htoken hmem

/-- No token holds the delimiter. -/
theorem notMem_of_mem_split {str t : COMStr} {de : Char} (h : t ∈ split str de) :
    de ∉ t.toList :=
  notMem_of_mem_getlines str.toList [] List.not_mem_nil h

private theorem subset_of_mem_getlines {de : Char} {t : COMStr} (cs : List Char) :
    ∀ token, t ∈ getlines de token cs → t.toList ⊆ token ++ cs := by
  induction cs with
  | nil =>
    intro token ht
    rw [getlines] at ht
    split at ht
    · exact absurd ht List.not_mem_nil
    · rw [List.mem_singleton.mp ht, String.toList_ofList, List.append_nil]
      exact List.reverse_subset.mpr (List.Subset.refl _)
  | cons c cs ih =>
    intro token ht
    rw [getlines] at ht
    split at ht
    · rcases List.mem_cons.mp ht with rfl | ht
      · rw [String.toList_ofList, List.reverse_subset]
        exact List.subset_append_left ..
      · have hcs := ih [] ht
        rw [List.nil_append] at hcs
        exact List.subset_append_of_subset_right _ (List.subset_cons_of_subset c hcs)
    · have hcs := ih (c :: token) ht
      intro x hx
      have hmem := hcs hx
      simp only [List.mem_append, List.mem_cons] at hmem ⊢
      rcases hmem with (hmem | hmem) | hmem
      · exact .inr (.inl hmem)
      · exact .inl hmem
      · exact .inr (.inr hmem)

/-- A token holds nothing that is not in the string. -/
theorem subset_of_mem_split {str t : COMStr} {de : Char} (h : t ∈ split str de) :
    t.toList ⊆ str.toList :=
  subset_of_mem_getlines str.toList [] h

/-- Two tokens with the delimiter between them. -/
theorem split_pair {str a b : COMStr} {de : Char} (hstr : str.toList = a.toList ++ de :: b.toList)
    (ha : de ∉ a.toList) (hb : de ∉ b.toList) (hne : b ≠ "") : split str de = [a, b] := by
  have hb' : b.toList ≠ [] := fun hnil ↦ hne (String.toList_eq_nil_iff.mp hnil)
  rw [split, hstr, getlines_append_cons ha, getlines_of_notMem hb [] hb']
  simp only [List.reverse_nil, List.nil_append, String.ofList_toList]

/-! ### Numbers -/

/-- `isspace`. -/
def isspace (c : Char) : Bool := c = ' ' || 9 ≤ c.toNat && c.toNat ≤ 13

/-- The value of a digit, of a letter above. -/
def digit? (base : Nat) (c : Char) : Option Nat :=
  let n :=
    if c.isDigit then c.toNat - 48
    else if c.isLower then c.toNat - 87
    else if c.isUpper then c.toNat - 55
    else 36
  if n < base then some n else none

/-- `0x` in front of a hexadecimal number. -/
def skipHex : List Char → List Char
  | '0' :: x :: c :: rest =>
    if (x = 'x' ∨ x = 'X') ∧ (digit? 16 c).isSome then c :: rest else '0' :: x :: c :: rest
  | cs => cs

/-- `strtoul`, with a 64-bit `unsigned long`; `none` leaves the end at the start. -/
def strtoul (base : Nat) (cs : List Char) : Option Nat :=
  let cs := cs.dropWhile isspace
  let (neg, cs) := match cs with
    | '-' :: rest => (true, rest)
    | '+' :: rest => (false, rest)
    | _ => (false, cs)
  let cs := if base = 16 then skipHex cs else cs
  let digits := (cs.takeWhile fun c ↦ (digit? base c).isSome).filterMap (digit? base)
  if digits = [] then none
  else
    let n := digits.foldl (fun n d ↦ n * base + d) 0
    some (if 2 ^ 64 ≤ n then 2 ^ 64 - 1 else if neg then (2 ^ 64 - n) % 2 ^ 64 else n)

/-- `COM_NUMBER_INVALID`; `Common/ComUtil.h:25`. -/
def numberInvalid : Int := 2147483647

/-- `COM_NUMBER_EMPTY`; `Common/ComUtil.h:26`. -/
def numberEmpty : Int := -2147483648

/-- `COM_STRING_INVALID`; `Common/ComUtil.h:18`. -/
def stringInvalid : COMStr := "COM_INVALID_STRING"

/-- `ComUtil::getNumber`; `Common/ComUtil.cpp:290`. -/
def getNumber (val : COMStr) : Int :=
  if val = "" then numberEmpty
  else
    let base := match val.toList with
      | '0' :: x :: _ :: _ => if x = 'x' ∨ x = 'X' then 16 else 10
      | _ => 10
    match strtoul base val.toList with
    | none => numberInvalid
    | some ret => Int.bmod ret (2 ^ 32)

/-- `ComUtil::getNumberInRange`; `Common/ComUtil.cpp:355`. -/
def getNumberInRange (val : COMStr) (min max : Int) : Int :=
  let ret := getNumber val
  if ret = numberEmpty ∨ ret = numberInvalid then ret
  else if ret < min ∨ max < ret then numberInvalid
  else ret

/-- `ComUtil::getIP`; `Common/ComUtil.cpp:377`. -/
def getIP (val : COMStr) : COMStr :=
  let toks := split val '.'
  if toks.length ≠ 4 then stringInvalid
  else if toks.any fun tok ↦
      let num := getNumberInRange tok 0 255
      num = numberInvalid ∨ num = numberEmpty then stringInvalid
  else val

/-! ### Times -/

/-- A moment as `gettimeofday` and `gmtime` give it. -/
structure Utc where
  year : Nat
  mon : Nat
  mday : Nat
  hour : Nat
  min : Nat
  sec : Nat
  usec : Nat

/-- `%m`, `%d`, `%H`, `%M`, `%S`. -/
def twoDigits (n : Nat) : COMStr := if n < 10 then "0" ++ toString n else toString n

/-- `ComUtil::UtcNowString`: `%Y-%m-%d %X` and the microseconds with `%ld`;
`Common/ComUtil.cpp:54`. -/
def utcNowString (t : Utc) : COMStr :=
  toString t.year ++ "-" ++ twoDigits t.mon ++ "-" ++ twoDigits t.mday ++ " " ++
    twoDigits t.hour ++ ":" ++ twoDigits t.min ++ ":" ++ twoDigits t.sec ++ "." ++
    toString t.usec

end ComUtil
end IcsGateway
