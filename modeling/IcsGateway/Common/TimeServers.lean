import IcsGateway.Common.StrMakeUp
import IcsGateway.Lib.Occurrences

/-!
# The lines for the time servers

`NTPConfig::Apply` writes one line for each server and one for each rule, and ends the lines of
the servers only (`Common/ComConfig.cpp:460–477`). Lines are read as `getline` reads them.
-/

namespace IcsGateway

open Lib

namespace NTPConfig

/-- The text that `Apply` puts in for a name of the template. -/
def text (f : NTPConfig) (name : COMStr) : COMStr := (f.params.lookup name).getD ""

/-- The line for a server. -/
def poolLine (s : COMStr) : COMStr := "pool " ++ s ++ " iburst"

/-- The line for a rule. -/
def restrictLine (r : COMStr × COMStr) : COMStr := "restrict " ++ r.1 ++ " mask " ++ r.2

/-- The server of a line. -/
def readPool (line : COMStr) : Option COMStr := do
  let rest ← line.toList.dropPrefix? "pool ".toList
  let server ← rest.dropSuffix? " iburst".toList
  return String.ofList server

/-- The rule of a line. -/
def readRule (line : COMStr) : Option (COMStr × COMStr) := do
  let rest ← line.toList.dropPrefix? "restrict ".toList
  let parts ← cut " mask ".toList rest
  return (String.ofList parts.1, String.ofList parts.2)

/-- The texts are the lines of the servers and of the rules, and these are read back. -/
structure Readable (f : NTPConfig) : Prop where
  servers : ComUtil.split (f.text "Servers") '\n' = f.servers.map poolLine
  restrict : ComUtil.split (f.text "Restrict") '\n' = f.restrict.map restrictLine
  readServers : (ComUtil.split (f.text "Servers") '\n').map readPool = f.servers.map some
  readRules : (ComUtil.split (f.text "Restrict") '\n').map readRule = f.restrict.map some

/-- No value holds an end of line. -/
structure SingleLine (f : NTPConfig) : Prop where
  servers : ∀ s ∈ f.servers, '\n' ∉ s.toList
  restrict : ∀ r ∈ f.restrict, '\n' ∉ r.1.toList ∧ '\n' ∉ r.2.toList

/-- There is one rule at most, and the word before its mask stands there for the first time. -/
def OneRule (f : NTPConfig) : Prop :=
  f.restrict.length ≤ 1 ∧
    ∀ r ∈ f.restrict, ¬ " mask ".toList <:+: r.1.toList ++ " mask".toList

instance (f : NTPConfig) : Decidable f.OneRule := inferInstanceAs (Decidable (_ ∧ _))

/-! ### The texts -/

/-- Texts appended one after the other. -/
private theorem toList_foldl_append {α : Type} (g : α → COMStr) (xs : List α) (init : COMStr) :
    (xs.foldl (fun acc x ↦ acc ++ g x) init).toList =
      init.toList ++ xs.flatMap fun x ↦ (g x).toList := by
  induction xs generalizing init with
  | nil => rw [List.foldl_nil, List.flatMap_nil, List.append_nil]
  | cons x xs ih =>
    rw [List.foldl_cons, ih, String.toList_append, List.flatMap_cons, List.append_assoc]

private theorem toList_text_servers (f : NTPConfig) :
    (f.text "Servers").toList = f.servers.flatMap fun s ↦ (poolLine s).toList ++ ['\n'] := by
  have htext : f.text "Servers" =
      f.servers.foldl (fun acc s ↦ acc ++ ("pool " ++ s ++ " iburst\n")) "" := by
    simp [text, params, ComMap.assignAll, ComMap.lookup_assign]
  have hline : ∀ s : COMStr, "pool " ++ s ++ " iburst\n" = poolLine s ++ "\n" := by
    intro s
    exact (@String.append_assoc ("pool " ++ s) " iburst" "\n").symm
  rw [htext, toList_foldl_append, String.toList_empty, List.nil_append]
  simp only [hline, String.toList_append]
  rfl

private theorem toList_text_restrict (f : NTPConfig) :
    (f.text "Restrict").toList = f.restrict.flatMap fun r ↦ (restrictLine r).toList := by
  have htext : f.text "Restrict" = f.restrict.foldl (fun acc r ↦ acc ++ restrictLine r) "" := by
    simp [text, params, ComMap.assignAll, ComMap.lookup_assign, restrictLine]
  rw [htext, toList_foldl_append, String.toList_empty, List.nil_append]

private theorem notMem_poolLine {s : COMStr} (h : '\n' ∉ s.toList) :
    '\n' ∉ (poolLine s).toList := by
  rw [poolLine, String.toList_append, String.toList_append, List.mem_append, List.mem_append,
    not_or, not_or]
  exact ⟨⟨by decide, h⟩, by decide⟩

private theorem notMem_restrictLine {r : COMStr × COMStr}
    (h : '\n' ∉ r.1.toList ∧ '\n' ∉ r.2.toList) : '\n' ∉ (restrictLine r).toList := by
  simp only [restrictLine, String.toList_append, List.mem_append, not_or]
  exact ⟨⟨⟨by decide, h.1⟩, by decide⟩, h.2⟩

/-- Lines that are ended are read one after the other. -/
private theorem getlines_lines (lines : List COMStr) (h : ∀ l ∈ lines, '\n' ∉ l.toList) :
    ComUtil.getlines '\n' [] (lines.flatMap fun l ↦ l.toList ++ ['\n']) = lines := by
  induction lines with
  | nil => rfl
  | cons l lines ih =>
    obtain ⟨hl, hlines⟩ := List.forall_mem_cons.mp h
    rw [List.flatMap_cons, List.append_assoc, List.singleton_append,
      ComUtil.getlines_append_cons hl, ih hlines, List.reverse_nil, List.nil_append,
      String.ofList_toList]

/-- The lines of the servers. -/
private theorem split_servers {f : NTPConfig} (h : f.SingleLine) :
    ComUtil.split (f.text "Servers") '\n' = f.servers.map poolLine := by
  have hlines : ∀ l ∈ f.servers.map poolLine, '\n' ∉ l.toList := by
    intro l hl
    obtain ⟨s, hs, rfl⟩ := List.mem_map.mp hl
    exact notMem_poolLine (h.servers s hs)
  have hread := getlines_lines _ hlines
  rw [List.flatMap_map] at hread
  rw [ComUtil.split, toList_text_servers]
  exact hread

/-- The rules make one line together. -/
private theorem split_restrict {f : NTPConfig} (h : f.SingleLine) (hne : f.restrict ≠ []) :
    ComUtil.split (f.text "Restrict") '\n' = [f.text "Restrict"] := by
  have hbare : '\n' ∉ (f.text "Restrict").toList := by
    rw [toList_text_restrict]
    intro hmem
    obtain ⟨r, hr, hline⟩ := List.mem_flatMap.mp hmem
    exact notMem_restrictLine (h.restrict r hr) hline
  have hne' : ([] : List Char).reverse ++ (f.text "Restrict").toList ≠ [] := by
    obtain ⟨r, rest, hrest⟩ := List.exists_cons_of_ne_nil hne
    rw [toList_text_restrict, hrest, List.flatMap_cons, restrictLine]
    simp
  rw [ComUtil.split, ComUtil.getlines_of_notMem hbare [] hne', List.reverse_nil, List.nil_append,
    String.ofList_toList]

/-! ### Reading back -/

private theorem readPool_poolLine (s : COMStr) : readPool (poolLine s) = some s := by
  have hprefix : (poolLine s).toList.dropPrefix? "pool ".toList =
      some (s.toList ++ " iburst".toList) := by
    rw [poolLine, String.toList_append, String.toList_append, List.append_assoc]
    exact List.dropPrefix?_append_of_beq _ (beq_self_eq_true _)
  have hsuffix : (s.toList ++ " iburst".toList).dropSuffix? " iburst".toList = some s.toList :=
    List.dropSuffix?_eq_some_iff.mpr ⟨_, rfl, beq_self_eq_true _⟩
  simp only [readPool, hprefix, hsuffix, Option.bind_eq_bind, Option.bind_some,
    String.ofList_toList]
  rfl

/-- A rule is read back exactly when its mask is found. -/
private theorem readRule_restrictLine_iff (r : COMStr × COMStr) :
    readRule (restrictLine r) = some r ↔
      ¬ " mask ".toList <:+: r.1.toList ++ " mask".toList := by
  have hprefix : (restrictLine r).toList.dropPrefix? "restrict ".toList =
      some (r.1.toList ++ (" mask ".toList ++ r.2.toList)) := by
    simp only [restrictLine, String.toList_append, List.append_assoc]
    exact List.dropPrefix?_append_of_beq _ (beq_self_eq_true _)
  have hkey : " mask ".toList ≠ [] := by decide
  have hlast : " mask ".toList.dropLast = " mask".toList := by decide
  have hread : readRule (restrictLine r) =
      (cut " mask ".toList (r.1.toList ++ (" mask ".toList ++ r.2.toList))).map
        fun p ↦ (String.ofList p.1, String.ofList p.2) := by
    rw [readRule, hprefix]
    simp only [Option.bind_eq_bind, Option.bind_some]
    cases cut " mask ".toList (r.1.toList ++ (" mask ".toList ++ r.2.toList)) with
    | none => rfl
    | some parts => rfl
  rw [hread, ← hlast]
  constructor
  · intro h
    obtain ⟨⟨ip, mask⟩, hcut, he⟩ := Option.map_eq_some_iff.mp h
    obtain ⟨-, hfirst⟩ := of_cut_eq_some hkey hcut
    have hip : r.1.toList = ip := by
      rw [← he]
      exact String.toList_ofList
    rw [hip]
    exact hfirst
  · intro h
    rw [cut_append_key hkey h, Option.map_some, String.ofList_toList, String.ofList_toList]

/-- The texts are read back as the servers and the rules exactly when one rule stands alone. -/
theorem readable_iff_oneRule {f : NTPConfig} (h : f.SingleLine) : f.Readable ↔ f.OneRule := by
  have hsplit : f.restrict.length ≤ 1 → ComUtil.split (f.text "Restrict") '\n' =
      f.restrict.map restrictLine := by
    intro hle
    cases hrules : f.restrict with
    | nil =>
      rw [ComUtil.split, toList_text_restrict, hrules]
      rfl
    | cons r rest =>
      rw [hrules, List.length_cons] at hle
      have hnil : rest = [] := List.length_eq_zero_iff.mp (by omega)
      have hne : f.restrict ≠ [] := by
        rw [hrules]
        exact List.cons_ne_nil _ _
      have htext : f.text "Restrict" = restrictLine r := by
        apply String.toList_inj.mp
        rw [toList_text_restrict, hrules, hnil, List.flatMap_singleton]
      rw [split_restrict h hne, htext, hnil]
      rfl
  constructor
  · intro hread
    have hle : f.restrict.length ≤ 1 := by
      by_contra hmany
      have hne : f.restrict ≠ [] := by
        intro hnil
        rw [hnil] at hmany
        exact hmany (Nat.zero_le 1)
      have hlength := congrArg List.length hread.restrict
      rw [split_restrict h hne, List.length_singleton, List.length_map] at hlength
      omega
    refine ⟨hle, ?_⟩
    intro r hr
    have hrules := hread.readRules
    rw [hsplit hle, List.map_map] at hrules
    exact (readRule_restrictLine_iff r).mp (List.map_inj_left.mp hrules r hr)
  · rintro ⟨hle, hmask⟩
    refine ⟨split_servers h, hsplit hle, ?_, ?_⟩
    · rw [split_servers h, List.map_map]
      exact List.map_congr_left fun s _ ↦ readPool_poolLine s
    · rw [hsplit hle, List.map_map]
      exact List.map_congr_left fun r hr ↦ (readRule_restrictLine_iff r).mpr (hmask r hr)

/-- Two servers and a rule for one network are read back. -/
theorem readable_iff_oneRule_network :
    (⟨["ntp1", "ntp2"], [("10.0.0.0", "255.0.0.0")]⟩ : NTPConfig).Readable := by
  have hsingle : (⟨["ntp1", "ntp2"], [("10.0.0.0", "255.0.0.0")]⟩ : NTPConfig).SingleLine := by
    constructor
    · decide
    · decide
  exact (readable_iff_oneRule hsingle).mpr (by decide +kernel)

/-- Two rules stand in one line. -/
theorem not_readable_twoRules : ¬ ∀ f : NTPConfig, f.SingleLine → f.Readable := by
  intro hall
  have hsingle : (⟨[], [("10.0.0.0", "255.0.0.0"), ("127.0.0.1", "255.255.255.255")]⟩ :
      NTPConfig).SingleLine := by
    constructor
    · decide
    · decide
  have hlength := congrArg List.length (hall _ hsingle).restrict
  rw [split_restrict hsingle (List.cons_ne_nil _ _)] at hlength
  cases hlength

end NTPConfig

end IcsGateway
