import IcsGateway.Common.NetHost

/-!
# What a hosts file maps

A hosts file maps names to addresses: the first field of a line is an address and the others are
names for it, with white space between fields and a comment from `#` on. `ComNetHost` writes the
file anew when a host is added; stated here is which mappings of the old file survive.
-/

namespace IcsGateway

open Lib

namespace ComNetHost

/-- The fields of a line, up to a comment. -/
def fields (ln : COMStr) : List (List Char) :=
  words ComUtil.isspace (ln.toList.takeWhile (· ≠ '#'))

/-- A line maps a host to an address. -/
def LineMaps (ln host addr : COMStr) : Prop :=
  (fields ln).head? = some addr.toList ∧ host.toList ∈ (fields ln).tail

instance (ln host addr : COMStr) : Decidable (LineMaps ln host addr) :=
  inferInstanceAs (Decidable (_ ∧ _))

/-- A file does if one of its lines does. -/
def Maps (text host addr : COMStr) : Prop := ∃ ln ∈ lines text, LineMaps ln host addr

instance (text host addr : COMStr) : Decidable (Maps text host addr) :=
  inferInstanceAs (Decidable (∃ ln ∈ _, _))

/-- An IPv4 address other than the loopback defaults. -/
structure IsHostAddress (addr : COMStr) : Prop where
  dotted : ∃ a b c d : Nat, a ≤ 255 ∧ b ≤ 255 ∧ c ≤ 255 ∧ d ≤ 255 ∧
    addr = toString a ++ "." ++ toString b ++ "." ++ toString c ++ "." ++ toString d
  ne_localhost : addr ≠ "127.0.0.1"
  ne_hostname : addr ≠ "127.0.1.1"

/-- A field of a line: not empty, without white space and `#`. -/
def IsField (s : COMStr) : Prop := IsWord ComUtil.isspace s.toList ∧ '#' ∉ s.toList

instance (s : COMStr) : Decidable (IsField s) := inferInstanceAs (Decidable (_ ∧ _))

/-- The host and address that reading the file keeps for this host: those of the last accepted line
with this second token. -/
def Kept (text : COMStr) (e : COMStr × COMStr) : Prop :=
  (((lines text).filterMap entry).filter (·.1 = e.1)).getLast? = some e

instance (text : COMStr) (e : COMStr × COMStr) : Decidable (Kept text e) :=
  inferInstanceAs (Decidable (_ = _))

/-! ### Lines -/

private theorem isField_of_mem_fields {ln s : COMStr} (h : s.toList ∈ fields ln) : IsField s := by
  refine ⟨isWord_of_mem_words h, fun hmem ↦ ?_⟩
  have hcomment := List.mem_takeWhile_imp (subset_of_mem_words h hmem)
  exact absurd hcomment (by decide)

/-- Only fields are mapped. -/
theorem LineMaps.isField {ln host addr : COMStr} (h : LineMaps ln host addr) :
    IsField host ∧ IsField addr :=
  ⟨isField_of_mem_fields (List.mem_of_mem_tail h.2),
    isField_of_mem_fields (List.mem_of_mem_head? h.1)⟩

/-- The line printed for a host and its address has these two fields. -/
private theorem fields_line {e : COMStr × COMStr} (hhost : IsField e.1) (hip : IsField e.2) :
    fields (line e) = [e.2.toList, e.1.toList] := by
  have hline : (line e).toList = e.2.toList ++ ' ' :: e.1.toList := by
    rw [line, String.toList_append, String.toList_append, List.append_assoc]
    rfl
  have hwhole : (line e).toList.takeWhile (· ≠ '#') = (line e).toList := by
    rw [List.takeWhile_eq_self_iff, hline]
    intro c hc
    rw [decide_eq_true_eq]
    rintro rfl
    rcases List.mem_append.mp hc with hc | hc
    · exact hip.2 hc
    · rcases List.mem_cons.mp hc with hc | hc
      · exact absurd hc (by decide)
      · exact hhost.2 hc
  rw [fields, hwhole, hline, words_append_cons hip.1 (by decide), words_eq_singleton hhost.1]

/-- It maps this host to this address, and nothing else. -/
private theorem lineMaps_line {e : COMStr × COMStr} (hhost : IsField e.1) (hip : IsField e.2)
    (host addr : COMStr) : LineMaps (line e) host addr ↔ addr = e.2 ∧ host = e.1 := by
  rw [LineMaps, fields_line hhost hip, List.head?_cons, List.tail_cons, List.mem_singleton,
    Option.some.injEq, String.toList_inj, String.toList_inj, eq_comm]

/-- The addresses of the header. -/
private theorem head?_headerLines {hostname ln : COMStr} (hln : ln ∈ headerLines hostname) :
    (fields ln).head? ∈ [none, some "127.0.0.1".toList, some "127.0.1.1".toList,
      some "::1".toList, some "ff02::1".toList, some "ff02::2".toList] := by
  have hhostname : (fields ("127.0.1.1  " ++ hostname)).head? = some "127.0.1.1".toList := by
    have hword : IsWord ComUtil.isspace "127.0.1.1".toList := by decide
    have hline : ("127.0.1.1  " ++ hostname).toList.takeWhile (· ≠ '#') =
        "127.0.1.1".toList ++ ' ' :: ' ' :: hostname.toList.takeWhile (· ≠ '#') := by
      simp only [String.toList_append, String.reduceToList]
      rfl
    rw [fields, hline, words_append_cons hword (by decide), List.head?_cons]
  simp only [headerLines, List.mem_cons, List.not_mem_nil, or_false] at hln
  rcases hln with rfl | rfl | rfl | rfl | rfl | rfl | rfl | rfl
  · decide +kernel
  · decide +kernel
  · rw [hhostname]
    decide
  · decide +kernel
  · decide +kernel
  · decide +kernel
  · decide +kernel
  · decide +kernel

/-- The header maps to the defaults only. -/
private theorem headerLines_lineMaps {hostname host addr ln : COMStr}
    (hln : ln ∈ headerLines hostname) (h : LineMaps ln host addr) :
    addr ∈ ["127.0.0.1", "127.0.1.1", "::1", "ff02::1", "ff02::2"] := by
  have hmem := head?_headerLines hln
  rw [h.1] at hmem
  simpa only [List.mem_cons, List.not_mem_nil, or_false, reduceCtorEq, false_or,
    Option.some.injEq, String.toList_inj] using hmem

/-- None of them is an address that a host is given in the file. -/
private theorem not_isHostAddress {addr : COMStr}
    (h : addr ∈ ["127.0.0.1", "127.0.1.1", "::1", "ff02::1", "ff02::2"]) :
    ¬ IsHostAddress addr := by
  intro haddr
  have hdot : '.' ∈ addr.toList := by
    obtain ⟨a, b, c, d, -, -, -, -, rfl⟩ := haddr.dotted
    simp
  simp only [List.mem_cons, List.not_mem_nil, or_false] at h
  rcases h with rfl | rfl | rfl | rfl | rfl
  · exact haddr.ne_localhost rfl
  · exact haddr.ne_hostname rfl
  · exact absurd hdot (by decide)
  · exact absurd hdot (by decide)
  · exact absurd hdot (by decide)

/-! ### The new file -/

/-- What is kept of a file has no end of line in it. -/
private theorem Kept.notMem_line {text : COMStr} {e : COMStr × COMStr} (he : Kept text e) :
    '\n' ∉ (line e).toList := by
  have hentries := (List.mem_filter.mp (List.mem_of_getLast? he)).1
  obtain ⟨ln, hln, hentry⟩ := List.mem_filterMap.mp hentries
  obtain ⟨⟨-, hip⟩, hhost⟩ := notMem_of_entry hln hentry
  simp only [line, String.toList_append, List.mem_append, not_or]
  exact ⟨⟨hip, by decide⟩, hhost⟩

/-- Nor has a field. -/
private theorem IsField.notMem {s : COMStr} (hs : IsField s) : '\n' ∉ s.toList := by
  intro hmem
  exact absurd (hs.1.2 _ hmem) (by decide)

/-- Whom the map is kept for, after a host has been added. -/
private theorem mem_add_iff {text h ip : COMStr} (hip : isAcceptIp ip = true)
    (e : COMStr × COMStr) :
    e ∈ ((initializeHosts (some text)).add h ip).hosts ↔
      e = (h, ip) ∨ Kept text e ∧ e.1 ≠ h := by
  have hempty : ComMap.Sorted ([] : ComMap COMStr) := List.Pairwise.nil
  have hsorted := ComMap.sorted_assignAll hempty ((lines text).filterMap entry)
  have hkept : ((((lines text).filterMap entry).filter (·.1 = e.1)).getLast?.map (·.2)) =
      some e.2 ↔ Kept text e := by
    rw [Kept, Option.map_eq_some_iff]
    constructor
    · rintro ⟨e', hlast, heq⟩
      have hkey := (List.mem_filter.mp (List.mem_of_getLast? hlast)).2
      rw [decide_eq_true_eq] at hkey
      rw [hlast, Prod.ext hkey heq]
    · exact fun hlast ↦ ⟨e, hlast, rfl⟩
  simp only [add, hip, if_true, initializeHosts]
  rw [(hsorted.assign h ip).mem_iff e.1 e.2, ComMap.lookup_assign]
  by_cases heq : e.1 = h
  · rw [if_pos heq, Option.some.injEq, Prod.ext_iff, eq_comm (a := ip)]
    simp only [heq, true_and, ne_eq, not_true_eq_false, and_false, or_false]
  · rw [if_neg heq, ComMap.lookup_assignAll, List.lookup_nil, Option.or_none, hkept, Prod.ext_iff]
    simp only [heq, false_and, false_or, ne_eq, not_false_eq_true, and_true]

/-- A file written from a map whose lines are whole maps what its header and these lines map. -/
private theorem maps_save_iff {hostname : COMStr} {m : ComMap COMStr}
    (hname : '\n' ∉ hostname.toList) (hlines : ∀ e ∈ m, '\n' ∉ (line e).toList)
    (host addr : COMStr) :
    Maps (header hostname ++ printHosts m) host addr ↔
      (∃ ln ∈ headerLines hostname, LineMaps ln host addr) ∨
        ∃ e ∈ m, LineMaps (line e) host addr := by
  have hend : ¬ LineMaps "" host addr := by
    intro h
    exact absurd h.2 List.not_mem_nil
  simp only [Maps, lines_save hname hlines, List.mem_append, List.mem_map, List.mem_singleton,
    or_and_right, exists_or, exists_eq_left, hend, or_false, exists_exists_and_eq_and]

/-- The file that is written after adding a host to what was read. -/
def addTo (text hostname h ip : COMStr) : COMStr :=
  (((initializeHosts (some text)).add h ip).save hostname text).2

/-- What the new file maps, when the line of the new host is one line with these two fields. -/
private theorem maps_addTo_iff {text hostname h ip : COMStr} (hname : '\n' ∉ hostname.toList)
    (hip : isAcceptIp ip = true) (hhost : IsField h) (haddr : IsField ip) (n a : COMStr) :
    Maps (addTo text hostname h ip) n a ↔
      (∃ ln ∈ headerLines hostname, LineMaps ln n a) ∨ (a = ip ∧ n = h) ∨
        ∃ e, Kept text e ∧ e.1 ≠ h ∧ LineMaps (line e) n a := by
  have hlines : ∀ e ∈ ((initializeHosts (some text)).add h ip).hosts, '\n' ∉ (line e).toList := by
    intro e he
    rcases (mem_add_iff hip e).mp he with rfl | ⟨hkept, -⟩
    · simp only [line, String.toList_append, List.mem_append, not_or]
      exact ⟨⟨haddr.notMem, by decide⟩, hhost.notMem⟩
    · exact hkept.notMem_line
  have hstate : ((initializeHosts (some text)).add h ip).state ≠ 0 := by
    rw [add, if_pos hip]
    show (1 : Int) ≠ 0
    decide
  rw [addTo, save, if_neg hstate, maps_save_iff hname hlines]
  simp only [mem_add_iff hip, or_and_right, exists_or, exists_eq_left,
    lineMaps_line (e := (h, ip)) hhost haddr, and_assoc]

/-- Adding a host keeps every other mapping to a host address, and maps the host, exactly when both
are fields and every such mapping is in the first two tokens of a line that is kept. -/
theorem addTo_keepsMappings_iff {hostname : COMStr} (hname : '\n' ∉ hostname.toList)
    (text h ip : COMStr) (hip : isAcceptIp ip = true) :
    ((∀ n a, n ≠ h → IsHostAddress a → Maps text n a → Maps (addTo text hostname h ip) n a) ∧
        Maps (addTo text hostname h ip) h ip) ↔
      (IsField h ∧ IsField ip) ∧ ∀ n a, n ≠ h → IsHostAddress a → Maps text n a →
        ∃ e, Kept text e ∧ e.1 ≠ h ∧ LineMaps (line e) n a := by
  constructor
  · rintro ⟨hkeeps, ln, -, hmaps⟩
    have hfields := hmaps.isField
    refine ⟨hfields, fun n a hn ha hold ↦ ?_⟩
    have hnew := hkeeps n a hn ha hold
    rw [maps_addTo_iff hname hip hfields.1 hfields.2] at hnew
    rcases hnew with ⟨ln, hln, hheader⟩ | ⟨-, heq⟩ | hkept
    · exact absurd ha (not_isHostAddress (headerLines_lineMaps hln hheader))
    · exact absurd heq hn
    · exact hkept
  · rintro ⟨⟨hhost, haddr⟩, hall⟩
    have hnew := @maps_addTo_iff text _ _ _ hname hip hhost haddr
    constructor
    · intro n a hn ha hold
      exact (hnew n a).mpr (.inr (.inr (hall n a hn ha hold)))
    · exact (hnew h ip).mpr (.inr (.inl ⟨rfl, rfl⟩))

/-- A line with one blank and one name survives. -/
theorem addTo_keepsMappings_oneName :
    (∀ n a, n ≠ "c" → IsHostAddress a → Maps "10.0.0.1 a\n" n a →
        Maps (addTo "10.0.0.1 a\n" "gateway" "c" "10.0.0.2") n a) ∧
      Maps (addTo "10.0.0.1 a\n" "gateway" "c" "10.0.0.2") "c" "10.0.0.2" := by
  apply (addTo_keepsMappings_iff (by decide) "10.0.0.1 a\n" "c" "10.0.0.2" (by decide)).mpr
  refine ⟨by decide, fun n a _ _ hold ↦ ⟨("a", "10.0.0.1"), by decide, by decide, ?_⟩⟩
  obtain ⟨ln, hln, hmaps⟩ := hold
  have hlines : lines "10.0.0.1 a\n" = ["10.0.0.1 a", ""] := by decide
  rw [hlines, List.mem_cons, List.mem_singleton] at hln
  rcases hln with rfl | rfl
  · exact hmaps
  · exact absurd hmaps.2 List.not_mem_nil

/-- A second name is lost. -/
theorem not_addTo_keepsMappings_alias :
    isAcceptIp "10.0.0.2" = true ∧ IsHostAddress "10.0.0.1" ∧
      Maps "10.0.0.1 a b\n" "b" "10.0.0.1" ∧
      ¬ Maps (addTo "10.0.0.1 a b\n" "gateway" "c" "10.0.0.2") "b" "10.0.0.1" := by
  refine ⟨by decide, ⟨⟨10, 0, 0, 1, by decide⟩, by decide, by decide⟩, by decide, ?_⟩
  rw [maps_addTo_iff (by decide) (by decide) (by decide) (by decide)]
  rintro (⟨ln, hln, hheader⟩ | ⟨-, heq⟩ | ⟨e, hkept, -, hmaps⟩)
  · exact absurd (headerLines_lineMaps hln hheader) (by decide)
  · exact absurd heq (by decide)
  · have he := (List.mem_filter.mp (List.mem_of_getLast? hkept)).1
    have hentries : (lines "10.0.0.1 a b\n").filterMap entry = [("a", "10.0.0.1")] := by decide
    rw [hentries, List.mem_singleton] at he
    subst he
    exact absurd hmaps (by decide)

end ComNetHost

end IcsGateway
