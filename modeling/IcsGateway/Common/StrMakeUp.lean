import IcsGateway.Common.ComConfig
import IcsGateway.Common.NetCommit
import IcsGateway.Lib.Recurrence

/-!
# Templates and their parameters

`ComUtil::StrMakeUp` searches from the beginning of the text after each replacement, and once for
each key of the map (`Common/ComUtil.cpp:210`). The maps are those of `NetConfig::Commit` and
`NTPConfig::Apply`: their keys are names in the code, and their values come from the configuration.
-/

namespace IcsGateway

open Lib

/-- The parameters of the file for time servers; `Common/ComConfig.cpp:463–471`. -/
def NTPConfig.params (f : NTPConfig) : ComMap COMStr :=
  ComMap.assignAll []
    [("Servers", f.servers.foldl (fun strSvr s ↦ strSvr ++ ("pool " ++ s ++ " iburst\n")) ""),
      ("Restrict", f.restrict.foldl
        (fun strRes s ↦ strRes ++ ("restrict " ++ s.1 ++ " mask " ++ s.2)) "")]

namespace ComUtil

/-- No bracket stands in a string. -/
def IsBare (s : COMStr) : Prop := Bare '[' ']' s.toList

instance (s : COMStr) : Decidable (IsBare s) := inferInstanceAs (Decidable (Bare _ _ _))

/-- Between two opening brackets of a template stands no text without the closing one. -/
def IsClean (tmp : COMStr) : Prop := Clean '[' ']' tmp.toList

instance (tmp : COMStr) : Decidable (IsClean tmp) := inferInstanceAs (Decidable (Clean _ _ _))

/-- The keys of a map are in order, and have no brackets. -/
structure Keyed (params : ComMap COMStr) : Prop where
  sorted : params.Sorted
  bare : ∀ p ∈ params, IsBare p.1

/-- One pass over a template, from left to right. -/
def singlePass (params : ComMap COMStr) (tmp : COMStr) : COMStr :=
  String.ofList (onePass (patterns params) 0 tmp.toList)

/-- A value brings the placeholder of its key back. -/
def BringsBack (p : COMStr × COMStr) : Prop := Recurs '[' ']' p.1.toList p.2.toList

/-- The loops of `StrMakeUp` end. -/
def StrMakeUpEnds (tmp : COMStr) (params : ComMap COMStr) : Prop :=
  ∃ fuel, (strMakeUp fuel tmp params).isSome = true

/-- The placeholders are names in brackets. -/
private theorem patterns_eq_tags (params : ComMap COMStr) :
    patterns params = tags '[' ']' (params.map fun p ↦ (p.1.toList, p.2.toList)) := by
  rw [patterns, tags, List.map_map]
  apply List.map_congr_left
  intro p _
  simp [tag, String.toList_append]

/-- No placeholder is empty. -/
private theorem ne_nil_of_mem_patterns {params : ComMap COMStr} :
    ∀ p ∈ patterns params, p.1 ≠ [] := by
  intro p hp
  rw [patterns_eq_tags] at hp
  obtain ⟨q, -, rfl⟩ := List.mem_map.mp hp
  exact tag_ne_nil _

/-- `StrMakeUp` with enough fuel is the substitution; an empty template and an empty map are
no exceptions. -/
private theorem exists_strMakeUp_iff {tmp : COMStr} {params : ComMap COMStr} {out : List Char} :
    (∃ fuel, strMakeUp fuel tmp params = some (String.ofList out)) ↔
      Substitutes (patterns params) tmp.toList out := by
  unfold strMakeUp
  by_cases htmp : tmp = ""
  · have hsame : Substitutes (patterns params) [] out ↔ out = [] := by
      apply substitutes_of_notInfix
      intro p hp
      have hne := ne_nil_of_mem_patterns p hp
      rw [List.infix_nil]
      exact ⟨hne, hne⟩
    subst htmp
    simp only [if_true, Option.some.injEq, exists_const, String.toList_empty, hsame]
    rw [eq_comm, ← String.toList_eq_nil_iff, String.toList_ofList]
  · by_cases hparams : params.isEmpty = true
    · obtain rfl := List.isEmpty_iff.mp hparams
      have hsame : Substitutes (patterns []) tmp.toList out ↔ out = tmp.toList :=
        substitutes_nil_iff
      simp only [htmp, if_false, List.isEmpty_nil, if_true, Option.some.injEq, exists_const, hsame]
      rw [← String.toList_inj, String.toList_ofList, eq_comm]
    · simp only [htmp, hparams, if_false]
      constructor
      · rintro ⟨fuel, h⟩
        obtain ⟨out', hout, he⟩ := Option.map_eq_some_iff.mp h
        rw [String.ofList_inj] at he
        exact ⟨fuel, he ▸ hout⟩
      · rintro ⟨fuel, h⟩
        exact ⟨fuel, Option.map_eq_some_iff.mpr ⟨out, h, rfl⟩⟩

/-- The loops end exactly when the substitution does. -/
private theorem strMakeUpEnds_iff {tmp : COMStr} {params : ComMap COMStr} :
    StrMakeUpEnds tmp params ↔ ∃ out, Substitutes (patterns params) tmp.toList out := by
  constructor
  · rintro ⟨fuel, h⟩
    obtain ⟨text, htext⟩ := Option.isSome_iff_exists.mp h
    rw [← String.ofList_toList (s := text)] at htext
    exact ⟨text.toList, exists_strMakeUp_iff.mp ⟨fuel, htext⟩⟩
  · rintro ⟨out, hout⟩
    obtain ⟨fuel, h⟩ := exists_strMakeUp_iff.mpr hout
    exact ⟨fuel, Option.isSome_iff_exists.mpr ⟨_, h⟩⟩

/-- The keys of a map, as lists. -/
private theorem nodup_toList {params : ComMap COMStr} (hsorted : params.Sorted) :
    ((params.map fun p ↦ (p.1.toList, p.2.toList)).map (·.1)).Nodup := by
  have hkeys := hsorted.nodup.map fun _ _ h ↦ String.toList_inj.mp h
  rw [List.map_map] at hkeys ⊢
  exact hkeys

/-- In a clean template, with keys and values without brackets, `StrMakeUp` makes one pass, in
whatever order it takes the keys. -/
theorem strMakeUp_eq_singlePass {tmp : COMStr} {params : ComMap COMStr} (hsorted : params.Sorted)
    (htmp : IsClean tmp) (hparams : ∀ p ∈ params, IsBare p.1 ∧ IsBare p.2)
    {params' : ComMap COMStr} (hperm : params'.Perm params) : ∃ fuel, ∀ fuel' ≥ fuel,
      strMakeUp fuel' tmp params' = some (singlePass params tmp) := by
  have hplain : Plain '[' ']' (params.map fun p ↦ (p.1.toList, p.2.toList)) := by
    intro p hp
    obtain ⟨q, hq, rfl⟩ := List.mem_map.mp hp
    obtain ⟨hkey, hval⟩ := hparams q hq
    exact ⟨hkey, hval.1⟩
  have hplain' : Plain '[' ']' (params'.map fun p ↦ (p.1.toList, p.2.toList)) := by
    intro p hp
    exact hplain p ((hperm.map _).mem_iff.mp hp)
  have hrun := Clean.substitutes htmp (by decide) hplain'
  rw [onePass_perm (hperm.map _) hplain (nodup_toList hsorted), ← patterns_eq_tags,
    ← patterns_eq_tags] at hrun
  obtain ⟨fuel, h⟩ := exists_strMakeUp_iff.mpr hrun
  exact ⟨fuel, fun _ hle ↦ strMakeUp_mono hle h⟩

/-- The loops end for every template exactly when no value brings back the placeholder of its
key. -/
theorem forall_ends_iff {params : ComMap COMStr} (hkeyed : Keyed params) :
    (∀ tmp, StrMakeUpEnds tmp params) ↔ ∀ p ∈ params, ¬ BringsBack p := by
  have hbare : ∀ p ∈ params.map fun p ↦ (p.1.toList, p.2.toList), Bare '[' ']' p.1 := by
    intro p hp
    obtain ⟨q, hq, rfl⟩ := List.mem_map.mp hp
    exact hkeyed.bare q hq
  have hiff := forall_substitutes_iff (by decide) hbare (nodup_toList hkeyed.sorted)
  rw [← patterns_eq_tags, List.forall_mem_map] at hiff
  unfold BringsBack
  rw [← hiff]
  constructor
  · intro h text
    have hout := strMakeUpEnds_iff.mp (h (String.ofList text))
    rw [String.toList_ofList] at hout
    exact hout
  · intro h tmp
    exact strMakeUpEnds_iff.mpr (h tmp.toList)

/-- Keys without brackets, assigned one after the other. -/
private theorem keyed_assignAll {entries : List (COMStr × COMStr)}
    (h : ∀ p ∈ entries, IsBare p.1) : Keyed (ComMap.assignAll [] entries) := by
  have hnil : ComMap.Sorted ([] : ComMap COMStr) := List.Pairwise.nil
  refine ⟨ComMap.sorted_assignAll hnil entries, ?_⟩
  intro p hp
  rcases ComMap.mem_assignAll hp with hp | hp
  · exact h p hp
  · cases hp

/-- The maps that templates are filled from have such keys, whatever the configuration. -/
theorem keyed_params (itf : NetItf) (f : NTPConfig) :
    Keyed (NetConfig.brgParams itf) ∧ Keyed (NetConfig.itfParams itf) ∧ Keyed f.params := by
  refine ⟨keyed_assignAll ?_, keyed_assignAll ?_, keyed_assignAll ?_⟩
  all_goals
    simp only [List.forall_mem_cons, List.not_mem_nil, false_imp_iff, implies_true, and_true]
    decide +kernel

/-- The templates of `Commit` are clean. -/
theorem isClean_templates :
    IsClean NetConfig.itfTmp ∧ IsClean NetConfig.itfTmp2 ∧ IsClean NetConfig.brgTmp := by
  unfold IsClean NetConfig.itfTmp NetConfig.itfTmp2 NetConfig.brgTmp
  simp only [String.toList_append]
  -- each literal is the text of its characters
  repeat rw [String.toList_ofList]
  decide +kernel

/-- Two placeholders, one of them twice, and a key that is not in the map. -/
theorem strMakeUp_eq_singlePass_pair : ∃ fuel, ∀ fuel' ≥ fuel,
    strMakeUp fuel' "[IP] [Name] [IP] [Mode]" [("Name", "eth0"), ("IP", "10.0.0.1")] =
      some (singlePass [("IP", "10.0.0.1"), ("Name", "eth0")] "[IP] [Name] [IP] [Mode]") :=
  strMakeUp_eq_singlePass (by unfold ComMap.Sorted; decide +kernel) (by decide +kernel)
    (by decide +kernel) (List.Perm.swap _ _ _)

/-- A value without brackets brings nothing back. -/
private theorem not_bringsBack {p : COMStr × COMStr} (hval : ']' ∉ p.2.toList) :
    ¬ BringsBack p := by
  rintro (h | ⟨u₁, u₂, mid, x₁, x₂, h, -, -⟩)
  · apply hval
    exact h.subset (List.mem_cons_of_mem _ (List.mem_append_right _ (List.mem_singleton_self _)))
  · rw [h] at hval
    exact hval (List.mem_append_right _ List.mem_cons_self)

/-- For a map of two values without brackets they end. -/
theorem forall_ends_iff_name : Keyed [("IP", "10.0.0.1"), ("Name", "eth0")] ∧
    ∀ tmp, StrMakeUpEnds tmp [("IP", "10.0.0.1"), ("Name", "eth0")] := by
  have hkeyed : Keyed [("IP", "10.0.0.1"), ("Name", "eth0")] :=
    ⟨by unfold ComMap.Sorted; decide +kernel, by decide +kernel⟩
  refine ⟨hkeyed, (forall_ends_iff hkeyed).mpr ?_⟩
  intro p hp
  apply not_bringsBack
  simp only [List.mem_cons, List.not_mem_nil, or_false] at hp
  rcases hp with rfl | rfl
  all_goals decide

/-- An interface that is named like the placeholder of its name. -/
def namedName : NetItf where
  name := "[Name]"
  type := "ethernet"
  ip := "10.0.0.1"
  subnet := "255.255.255.0"
  gateway := "0.0.0.0"
  mode := "static"
  isDefault := false

/-- `Commit` does not come back from its template. -/
theorem not_ends_namedName :
    ¬ StrMakeUpEnds NetConfig.itfTmp (NetConfig.itfParams namedName) := by
  rintro ⟨fuel, h⟩
  obtain ⟨text, htext⟩ := Option.isSome_iff_exists.mp h
  have hprinted : NetConfig.Printed namedName (text ++ NetConfig.printGateway namedName) :=
    ⟨fuel, Option.map_eq_some_iff.mpr ⟨text, htext, rfl⟩⟩
  obtain ⟨⟨hname, -, -⟩, -⟩ := (NetConfig.printed_static_iff rfl).mp hprinted
  exact hname (List.infix_refl _)

end ComUtil
end IcsGateway
