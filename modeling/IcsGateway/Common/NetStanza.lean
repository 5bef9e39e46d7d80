import IcsGateway.Common.NetCommit

/-!
# The stanzas of the interfaces file

`ifup` reads the interfaces file by lines and words: `auto` and `iface` rows announce an interface,
and the rows up to the next announcement are its options. Stated here is when `Commit` leaves one
stanza for every interface, and every name server in the other file.
-/

namespace IcsGateway

open Lib

namespace NetConfig

/-! ### What the files say -/

/-- The rows of a file. -/
def rowsOf (text : COMStr) : List (List (List Char)) := rows '\n' ComUtil.isspace text.toList

/-- A row by its words. -/
def row (ws : List COMStr) : List (List Char) := ws.map String.toList

/-- A row starts or describes the stanza of an interface. -/
def announces (name : COMStr) (r : List (List Char)) : Bool :=
  r = row ["auto", name] ∨ row ["iface", name] <+: r

/-- A row starts or describes some stanza. -/
def isHeader (r : List (List Char)) : Bool :=
  r.head? = some "auto".toList ∨ r.head? = some "iface".toList

/-- The rows of the options of an interface: those between its `iface` row and the next stanza. -/
def options (rs : List (List (List Char))) (name : COMStr) : List (List (List Char)) :=
  (rs.dropWhile fun r ↦ ¬ row ["iface", name] <+: r).tail.takeWhile (!isHeader ·)

/-- The file holds one stanza of an interface, with its method and, for a static one, with its
addresses. -/
structure Stanza (rs : List (List (List Char))) (itf : NetItf) : Prop where
  once : rs.filter (announces itf.name) =
    [row ["auto", itf.name], row ["iface", itf.name, "inet", itf.mode]]
  address : itf.mode = "static" → row ["address", itf.ip] ∈ options rs itf.name ∧
    row ["netmask", itf.subnet] ∈ options rs itf.name ∧
    (itf.gateway ≠ "0.0.0.0" → row ["gateway", itf.gateway] ∈ options rs itf.name)

/-- After these acts the files hold every name server and one stanza for every interface. -/
structure Committed (c : NetConfig) (acts : List Act) : Prop where
  dns : ∃ text, written resolvFile acts = some text ∧
    ∀ d ∈ c.dns, row ["nameserver", d] ∈ rowsOf text
  itfs : ∃ text, written interfacesFile acts = some text ∧
    ∀ itf ∈ c.itfs, Stanza (rowsOf text) itf

/-- A text that is one word. -/
def IsText (s : COMStr) : Prop := IsWord ComUtil.isspace s.toList

instance (s : COMStr) : Decidable (IsText s) := inferInstanceAs (Decidable (IsWord _ _))

/-- The addresses of a static interface are words, and survive the placeholders replaced after
them. -/
structure PrintsAddress (itf : NetItf) : Prop where
  ip : IsText itf.ip
  subnet : IsText itf.subnet
  gateway : itf.gateway ≠ "0.0.0.0" → IsText itf.gateway
  ipOnce : ¬ Holds itf.ip "[IP]"
  ipStays : Substitutes (ComUtil.patterns
    [("Mode", itf.mode), ("Name", itf.name), ("Subnet", itf.subnet)]) itf.ip.toList itf.ip.toList
  subnetOnce : ¬ Holds itf.subnet "[Subnet]"

/-- The mode of another interface is one word once the placeholders behind it are replaced. Where
they leave lines below that word, these announce no configured interface. -/
structure PrintsMode (c : NetConfig) (itf : NetItf) : Prop where
  modeOnce : ¬ Holds itf.mode "[Mode]"
  stays : ∃ out, Substitutes (ComUtil.patterns [("Name", itf.name), ("Subnet", itf.subnet)])
      itf.mode.toList out ∧
    ∃ below, (out.splitOn '\n').map (words ComUtil.isspace) = row [itf.mode] :: below ∧
      ∀ r ∈ below, ∀ i ∈ c.itfs, announces i.name r = false

/-- What is printed for an interface is its stanza. -/
structure Prints (c : NetConfig) (itf : NetItf) : Prop where
  name : IsText itf.name
  notLo : itf.name ≠ "lo"
  nameOnce : ¬ Holds itf.name "[Name]"
  nameStays : ¬ Holds itf.name "[Subnet]"
  static : itf.mode = "static" → PrintsAddress itf
  dynamic : itf.mode ≠ "static" → PrintsMode c itf

/-- No interface is a bridge, and all that is printed reads as it is meant. -/
structure CommitsWell (c : NetConfig) : Prop where
  noBridge : ∀ itf ∈ c.itfs, itf.type ≠ "bridge"
  dns : ∀ d ∈ c.dns, IsText d
  itfs : ∀ itf ∈ c.itfs, Prints c itf


/-! ### Announcements -/

/-- The two rows that announce an interface, with the words behind `inet`. -/
def heading (name : COMStr) (method : List (List Char)) : List (List (List Char)) :=
  [row ["auto", name], row ["iface", name, "inet"] ++ method]

private theorem announces_auto {name n : COMStr} :
    announces name (row ["auto", n]) = true ↔ n = name := by
  have hne : "iface".toList ≠ "auto".toList := by decide
  unfold announces row
  rw [decide_eq_true_iff]
  simp only [List.map_cons, List.map_nil, List.cons_prefix_cons, hne, false_and, or_false,
    List.cons.injEq, true_and, and_true, String.toList_inj]

private theorem announces_iface {name n : COMStr} {method : List (List Char)} :
    announces name (row ["iface", n, "inet"] ++ method) = true ↔ n = name := by
  have hne : "iface".toList ≠ "auto".toList := by decide
  unfold announces row
  rw [decide_eq_true_iff]
  simp only [List.map_cons, List.map_nil, List.cons_append, List.cons_prefix_cons, List.cons.injEq,
    hne, false_and, false_or, true_and, List.nil_prefix, and_true, String.toList_inj]
  exact eq_comm

/-- A row that is no header announces nothing. -/
private theorem announces_eq_false {name : COMStr} {r : List (List Char)}
    (h : isHeader r = false) : announces name r = false := by
  unfold isHeader at h
  unfold announces row
  rw [decide_eq_false_iff_not, not_or] at h ⊢
  refine ⟨?_, ?_⟩
  · rintro rfl
    exact h.1 rfl
  · rintro ⟨rest, rfl⟩
    exact h.2 rfl

/-- The heading of another interface announces nothing of this one. -/
private theorem filter_heading_of_ne {name n : COMStr} (h : n ≠ name)
    (method : List (List Char)) : (heading n method).filter (announces name) = [] := by
  unfold heading
  rw [List.filter_cons_of_neg, List.filter_cons_of_neg, List.filter_nil]
  · rw [announces_iface]
    exact h
  · rw [announces_auto]
    exact h

/-- Its own heading does. -/
private theorem filter_heading_self (name : COMStr) (method : List (List Char)) :
    (heading name method).filter (announces name) = heading name method := by
  unfold heading
  rw [List.filter_cons_of_pos (announces_auto.mpr rfl),
    List.filter_cons_of_pos (announces_iface.mpr rfl), List.filter_nil]

/-! ### A file of stanzas -/

section Blocks

variable {itfs : List NetItf} {H : List (List (List Char))}
  {X : NetItf → List (List Char)} {D : NetItf → List (List (List Char))}

/-- The rows of a file: some first, and for every interface its heading and what follows. -/
private def fileRows (H : List (List (List Char))) (X : NetItf → List (List Char))
    (D : NetItf → List (List (List Char))) (itfs : List NetItf) : List (List (List Char)) :=
  H ++ itfs.flatMap fun j ↦ heading j.name (X j) ++ D j

/-- The rows of interfaces with other names. -/
private theorem filter_flatMap_of_ne {name : COMStr} {js : List NetItf}
    (h : ∀ j ∈ js, j.name ≠ name) :
    (js.flatMap fun j ↦ heading j.name (X j) ++ D j).filter (announces name) =
      js.flatMap fun j ↦ (D j).filter (announces name) := by
  rw [List.filter_flatMap]
  apply List.flatMap_congr
  intro j hj
  rw [List.filter_append, filter_heading_of_ne (h j hj), List.nil_append]

/-- An interface among others with other names. -/
private theorem exists_sides (hnodup : (itfs.map (·.name)).Nodup) {itf : NetItf}
    (hitf : itf ∈ itfs) : ∃ pre post, itfs = pre ++ itf :: post ∧
      (∀ j ∈ pre, j.name ≠ itf.name) ∧ ∀ j ∈ post, j.name ≠ itf.name := by
  obtain ⟨pre, post, rfl⟩ := List.append_of_mem hitf
  rw [List.map_append, List.map_cons, List.nodup_append, List.nodup_cons] at hnodup
  obtain ⟨-, ⟨hpost, -⟩, hpre⟩ := hnodup
  refine ⟨pre, post, rfl, ?_, ?_⟩
  · intro j hj
    exact hpre _ (List.mem_map_of_mem hj) _ List.mem_cons_self
  · intro j hj he
    exact hpost (he ▸ List.mem_map_of_mem hj)

/-- An interface is announced once, with its method, exactly when its heading holds that method
and nothing else in the file announces it. -/
private theorem once_iff (hnodup : (itfs.map (·.name)).Nodup) {itf : NetItf} (hitf : itf ∈ itfs) :
    (fileRows H X D itfs).filter (announces itf.name) =
        [row ["auto", itf.name], row ["iface", itf.name, "inet", itf.mode]] ↔
      H.filter (announces itf.name) = [] ∧ X itf = row [itf.mode] ∧
        ∀ j ∈ itfs, (D j).filter (announces itf.name) = [] := by
  obtain ⟨pre, post, rfl, hpre, hpost⟩ := exists_sides hnodup hitf
  have hheading : [row ["auto", itf.name], row ["iface", itf.name, "inet", itf.mode]] =
      heading itf.name (row [itf.mode]) := rfl
  have hfilter : (fileRows H X D (pre ++ itf :: post)).filter (announces itf.name) =
      H.filter (announces itf.name) ++
        ((pre.flatMap fun j ↦ (D j).filter (announces itf.name)) ++
          (heading itf.name (X itf) ++ ((D itf).filter (announces itf.name) ++
            post.flatMap fun j ↦ (D j).filter (announces itf.name)))) := by
    unfold fileRows
    rw [List.flatMap_append, List.flatMap_cons, List.filter_append, List.filter_append,
      List.filter_append, List.filter_append, filter_flatMap_of_ne hpre,
      filter_flatMap_of_ne hpost, filter_heading_self, List.append_assoc]
  rw [hheading, hfilter]
  constructor
  · intro h
    have hlength := congrArg List.length h
    simp only [List.length_append, heading, List.length_cons, List.length_nil] at hlength
    have hH : H.filter (announces itf.name) = [] := List.eq_nil_of_length_eq_zero (by omega)
    have hbefore : (pre.flatMap fun j ↦ (D j).filter (announces itf.name)) = [] :=
      List.eq_nil_of_length_eq_zero (by omega)
    have hown : (D itf).filter (announces itf.name) = [] :=
      List.eq_nil_of_length_eq_zero (by omega)
    have hbehind : (post.flatMap fun j ↦ (D j).filter (announces itf.name)) = [] :=
      List.eq_nil_of_length_eq_zero (by omega)
    rw [hH, hbefore, hown, hbehind] at h
    simp only [List.nil_append, List.append_nil, heading, List.cons.injEq, true_and, and_true,
      List.append_cancel_left_eq] at h
    refine ⟨hH, h, ?_⟩
    rw [List.forall_mem_append, List.forall_mem_cons]
    exact ⟨List.flatMap_eq_nil_iff.mp hbefore, hown, List.flatMap_eq_nil_iff.mp hbehind⟩
  · rintro ⟨hH, hX, hD⟩
    rw [List.forall_mem_append, List.forall_mem_cons] at hD
    rw [hH, hX, hD.2.1, List.flatMap_eq_nil_iff.mpr hD.1, List.flatMap_eq_nil_iff.mpr hD.2.2]
    rfl

/-- The options of an interface that is announced once are the rows below its heading. -/
private theorem options_fileRows (hnodup : (itfs.map (·.name)).Nodup) {itf : NetItf}
    (hitf : itf ∈ itfs) (hH : H.filter (announces itf.name) = [])
    (hD : ∀ j ∈ itfs, (D j).filter (announces itf.name) = [])
    (hown : ∀ r ∈ D itf, isHeader r = false) :
    options (fileRows H X D itfs) itf.name = D itf := by
  obtain ⟨pre, post, rfl, hpre, hpost⟩ := exists_sides hnodup hitf
  -- Neither the first rows nor the blocks before it hold an `iface` row of this interface.
  have hskip (rs : List (List (List Char))) (h : rs.filter (announces itf.name) = []) :
      ∀ r ∈ rs, ¬ row ["iface", itf.name] <+: r := by
    intro r hr hiface
    exact List.filter_eq_nil_iff.mp h r hr (decide_eq_true (.inr hiface))
  have hpreD : ∀ j ∈ pre, (D j).filter (announces itf.name) = [] := fun j hj ↦
    hD j (List.mem_append_left _ hj)
  have hblocks : (pre.flatMap fun j ↦ heading j.name (X j) ++ D j).filter (announces itf.name) =
      [] := by
    rw [filter_flatMap_of_ne hpre]
    exact List.flatMap_eq_nil_iff.mpr hpreD
  have hauto : ¬ row ["iface", itf.name] <+: row ["auto", itf.name] := by
    have hne : "iface".toList ≠ "auto".toList := by decide
    unfold row
    simp only [List.map_cons, List.cons_prefix_cons, hne, false_and, not_false_eq_true]
  have hbefore : ∀ r ∈ H ++ ((pre.flatMap fun j ↦ heading j.name (X j) ++ D j) ++
      [row ["auto", itf.name]]), ¬ row ["iface", itf.name] <+: r := by
    rw [List.forall_mem_append, List.forall_mem_append, List.forall_mem_singleton]
    exact ⟨hskip H hH, hskip _ hblocks, hauto⟩
  have hiface : row ["iface", itf.name] <+: row ["iface", itf.name, "inet"] ++ X itf :=
    ⟨"inet".toList :: X itf, rfl⟩
  -- The blocks behind it start with a header.
  have hbehind : (post.flatMap fun j ↦ heading j.name (X j) ++ D j).takeWhile (!isHeader ·) =
      [] := by
    cases post with
    | nil => rfl
    | cons j js => rfl
  have hrows : fileRows H X D (pre ++ itf :: post) =
      (H ++ ((pre.flatMap fun j ↦ heading j.name (X j) ++ D j) ++ [row ["auto", itf.name]])) ++
        (row ["iface", itf.name, "inet"] ++ X itf) ::
          (D itf ++ post.flatMap fun j ↦ heading j.name (X j) ++ D j) := by
    unfold fileRows
    rw [List.flatMap_append, List.flatMap_cons]
    simp only [heading, List.append_assoc, List.cons_append, List.nil_append]
  unfold options
  rw [hrows, List.dropWhile_append_of_pos, List.dropWhile_cons_of_neg, List.tail_cons,
    List.takeWhile_append_of_pos, hbehind, List.append_nil]
  · intro r hr
    rw [hown r hr]
    rfl
  · simp only [hiface, not_true_eq_false, decide_false, Bool.false_eq_true, not_false_eq_true]
  · intro r hr
    exact decide_eq_true (hbefore r hr)

end Blocks

/-! ### The rows of what is printed -/

private theorem isspace_blank : ComUtil.isspace ' ' = true := by decide

private theorem notMem_of_isWord {w : List Char} (h : ∀ x ∈ w, ComUtil.isspace x = false) :
    '\n' ∉ w := by
  intro hmem
  have hspace : ComUtil.isspace '\n' = true := by decide
  rw [h _ hmem] at hspace
  cases hspace

/-- A line of some words and what stands behind them. -/
private theorem rows_place {lit a : List Char} {w : COMStr} {ws : List COMStr}
    (hlit : words ComUtil.isspace lit = row (w :: ws)) (hnl : '\n' ∉ lit) (ha : '\n' ∉ a)
    (rest : List Char) :
    rows '\n' ComUtil.isspace (lit ++ ' ' :: (a ++ '\n' :: rest)) =
      (row (w :: ws) ++ words ComUtil.isspace a) :: rows '\n' ComUtil.isspace rest := by
  have hline : lit ++ ' ' :: (a ++ '\n' :: rest) = (lit ++ ' ' :: a) ++ '\n' :: rest := by
    rw [List.append_assoc, List.cons_append]
  have hwords : words ComUtil.isspace (lit ++ ' ' :: a) =
      w.toList :: (row ws ++ words ComUtil.isspace a) := by
    rw [words_append_sep _ _ isspace_blank, hlit]
    rfl
  have hbreak : '\n' ∉ lit ++ ' ' :: a := by
    rw [List.mem_append, List.mem_cons, not_or, not_or]
    exact ⟨hnl, by decide, ha⟩
  rw [hline, rows_append_cons, rows_eq_singleton hbreak hwords]
  rfl

/-- The rows for the gateway of a static interface. -/
private def gatewayRows (itf : NetItf) : List (List (List Char)) :=
  if itf.mode = "static" ∧ itf.gateway ≠ "0.0.0.0" then
    row ["gateway", itf.gateway] ::
      (if itf.isDefault then
        [row ["post-up", "route", "add", "default", "gw", itf.gateway],
          row ["pre-down", "route", "del", "default", "gw", itf.gateway]]
      else [])
  else []

private theorem rows_printGateway {itf : NetItf}
    (h : itf.mode = "static" → itf.gateway ≠ "0.0.0.0" → IsText itf.gateway) :
    rows '\n' ComUtil.isspace (printGateway itf).toList = gatewayRows itf := by
  unfold printGateway gatewayRows
  by_cases hprint : itf.mode = "static" ∧ itf.gateway ≠ "0.0.0.0"
  · rw [if_pos hprint, if_pos hprint]
    have hgateway := h hprint.1 hprint.2
    have hword : words ComUtil.isspace itf.gateway.toList = [itf.gateway.toList] :=
      words_eq_singleton hgateway
    have hline {lit : List Char} {w : COMStr} {ws : List COMStr}
        (hlit : words ComUtil.isspace lit = row (w :: ws)) (hnl : '\n' ∉ lit) (rest : List Char) :
        rows '\n' ComUtil.isspace (lit ++ ' ' :: (itf.gateway.toList ++ '\n' :: rest)) =
          (row (w :: ws) ++ [itf.gateway.toList]) :: rows '\n' ComUtil.isspace rest := by
      rw [rows_place hlit hnl (notMem_of_isWord hgateway.2), hword]
    have hgw : words ComUtil.isspace "    gateway".toList = row ["gateway"] := by decide
    have hup : words ComUtil.isspace "    post-up route add default gw".toList =
        row ["post-up", "route", "add", "default", "gw"] := by decide
    have hdown : words ComUtil.isspace "    pre-down route del default gw".toList =
        row ["pre-down", "route", "del", "default", "gw"] := by decide
    have htext : ("    gateway " ++ itf.gateway ++ "\n" ++ (if itf.isDefault then
        "    post-up route add default gw " ++ itf.gateway ++ "\n" ++
          "    pre-down route del default gw " ++ itf.gateway ++ "\n" else "")).toList =
        "    gateway".toList ++ ' ' :: (itf.gateway.toList ++ '\n' :: (if itf.isDefault then
          "    post-up route add default gw".toList ++ ' ' :: (itf.gateway.toList ++ '\n' ::
            ("    pre-down route del default gw".toList ++ ' ' ::
              (itf.gateway.toList ++ '\n' :: []))) else [])) := by
      cases itf.isDefault with
      | true => simp
      | false => simp
    rw [htext, hline hgw (by decide)]
    cases itf.isDefault with
    | true =>
      simp only [if_true]
      rw [hline hup (by decide), hline hdown (by decide)]
      rfl
    | false => rfl
  · rw [if_neg hprint, if_neg hprint]
    rfl

/-- The rows below the heading of a static interface whose address is printed as `ip`. -/
private def staticRows (itf : NetItf) (ip : List Char) : List (List (List Char)) :=
  (row ["address"] ++ words ComUtil.isspace ip) :: row ["netmask", itf.subnet] ::
    row ["dns-nameservers", "8.8.8.8", "8.8.4.4"] :: gatewayRows itf

private theorem rows_staticText {itf : NetItf} (hname : IsText itf.name)
    (hsubnet : IsText itf.subnet) {ip : List Char} (hip : '\n' ∉ ip) (rest : List Char) :
    rows '\n' ComUtil.isspace (staticText itf.name.toList ip itf.subnet.toList
        "8.8.8.8 8.8.4.4".toList ++ rest) =
      heading itf.name (row ["static"]) ++ (row ["address"] ++ words ComUtil.isspace ip) ::
        row ["netmask", itf.subnet] :: row ["dns-nameservers", "8.8.8.8", "8.8.4.4"] ::
          rows '\n' ComUtil.isspace rest := by
  have hauto : words ComUtil.isspace "auto".toList = row ["auto"] := by decide
  have hiface : words ComUtil.isspace "    iface".toList = row ["iface"] := by decide
  have hinet : words ComUtil.isspace "inet static".toList = row ["inet", "static"] := by decide
  have haddress : words ComUtil.isspace "    address".toList = row ["address"] := by decide
  have hnetmask : words ComUtil.isspace "    netmask".toList = row ["netmask"] := by decide
  have hservers : words ComUtil.isspace "    dns-nameservers".toList = row ["dns-nameservers"] := by
    decide
  have hdns : words ComUtil.isspace "8.8.8.8 8.8.4.4".toList = row ["8.8.8.8", "8.8.4.4"] := by
    decide
  have hn := notMem_of_isWord hname.2
  have hmethod : '\n' ∉ itf.name.toList ++ ' ' :: "inet static".toList := by
    rw [List.mem_append, List.mem_cons, not_or, not_or]
    exact ⟨hn, by decide, by decide⟩
  have hmethodWords : words ComUtil.isspace (itf.name.toList ++ ' ' :: "inet static".toList) =
      row [itf.name, "inet", "static"] := by
    rw [words_append_sep _ _ isspace_blank, words_eq_singleton hname, hinet]
    rfl
  have htext : staticText itf.name.toList ip itf.subnet.toList "8.8.8.8 8.8.4.4".toList ++ rest =
      "auto".toList ++ ' ' :: (itf.name.toList ++ '\n' :: ("    iface".toList ++ ' ' ::
        ((itf.name.toList ++ ' ' :: "inet static".toList) ++ '\n' :: ("    address".toList ++
          ' ' :: (ip ++ '\n' :: ("    netmask".toList ++ ' ' :: (itf.subnet.toList ++ '\n' ::
            ("    dns-nameservers".toList ++ ' ' ::
              ("8.8.8.8 8.8.4.4".toList ++ '\n' :: rest))))))))) := by
    unfold staticText
    simp only [List.append_assoc, List.cons_append, List.nil_append]
  rw [htext, rows_place hauto (by decide) hn, rows_place hiface (by decide) hmethod,
    rows_place haddress (by decide) hip,
    rows_place hnetmask (by decide) (notMem_of_isWord hsubnet.2),
    rows_place hservers (by decide) (by decide), words_eq_singleton hname, hmethodWords,
    words_eq_singleton hsubnet, hdns]
  rfl

/-- The rows of another interface: the first line of its mode stands in the heading. -/
private theorem rows_dynamicText {itf : NetItf} (hname : IsText itf.name) (mode : List Char) :
    ∃ method below, (mode.splitOn '\n').map (words ComUtil.isspace) = method :: below ∧
      rows '\n' ComUtil.isspace (dynamicText itf.name.toList mode) =
        heading itf.name method ++ below.filter (!·.isEmpty) := by
  have hauto : words ComUtil.isspace "auto".toList = row ["auto"] := by decide
  have hiface : words ComUtil.isspace "    iface".toList = row ["iface"] := by decide
  have hinet : words ComUtil.isspace "inet".toList = row ["inet"] := by decide
  have hn := notMem_of_isWord hname.2
  -- The line of the heading, whatever the mode adds to it.
  have hline (a : List Char) (ha : '\n' ∉ a) : rows '\n' ComUtil.isspace
      ("    iface".toList ++ ' ' :: (itf.name.toList ++ ' ' :: ("inet".toList ++ ' ' :: a))) =
        [row ["iface", itf.name, "inet"] ++ words ComUtil.isspace a] := by
    have hbreak : '\n' ∉
        "    iface".toList ++ ' ' :: (itf.name.toList ++ ' ' :: ("inet".toList ++ ' ' :: a)) := by
      simp only [List.mem_append, List.mem_cons, not_or]
      exact ⟨by decide, by decide, hn, by decide, by decide, by decide, ha⟩
    apply rows_eq_singleton hbreak
    rw [words_append_sep _ _ isspace_blank, words_append_sep _ _ isspace_blank,
      words_append_sep _ _ isspace_blank, hiface, hinet, words_eq_singleton hname]
    rfl
  unfold dynamicText
  rw [rows_place hauto (by decide) hn, words_eq_singleton hname]
  by_cases hbreak : '\n' ∈ mode
  · obtain ⟨first, tail, rfl, hfirst⟩ := List.eq_append_cons_of_mem hbreak
    have htext : "    iface".toList ++ ' ' :: (itf.name.toList ++ ' ' :: ("inet".toList ++ ' ' ::
        (first ++ '\n' :: tail))) = ("    iface".toList ++ ' ' :: (itf.name.toList ++ ' ' ::
          ("inet".toList ++ ' ' :: first))) ++ '\n' :: tail := by
      simp only [List.append_assoc, List.cons_append]
    refine ⟨words ComUtil.isspace first, (tail.splitOn '\n').map (words ComUtil.isspace), ?_, ?_⟩
    · rw [List.splitOn_append_cons_self_of_not_mem hfirst, List.map_cons]
    · rw [htext, rows_append_cons, hline first hfirst]
      rfl
  · refine ⟨words ComUtil.isspace mode, [], ?_, ?_⟩
    · rw [List.splitOn_eq_singleton hbreak, List.map_singleton]
    · rw [hline mode hbreak]
      rfl

/-- What is printed for an interface whose name stays: the words behind `inet`, and the rows below
its heading. -/
private def Block (itf : NetItf) (method : List (List Char)) (below : List (List (List Char))) :
    Prop :=
  (itf.mode = "static" → method = row ["static"] ∧ ∃ ip, Substitutes (ComUtil.patterns
    [("Mode", itf.mode), ("Name", itf.name), ("Subnet", itf.subnet)]) itf.ip.toList ip ∧
      (∀ x ∈ ip, ComUtil.isspace x = false) ∧ below = staticRows itf ip) ∧
  (itf.mode ≠ "static" → ∃ out rest, Substitutes (ComUtil.patterns
    [("Name", itf.name), ("Subnet", itf.subnet)]) itf.mode.toList out ∧
      (out.splitOn '\n').map (words ComUtil.isspace) = method :: rest ∧
        below = rest.filter (!·.isEmpty))

/-- The values that are printed are words, and the name holds no placeholder behind its own. -/
private structure Plain (itf : NetItf) : Prop where
  name : IsText itf.name
  nameStays : ¬ Holds itf.name "[Subnet]"
  static : itf.mode = "static" → IsText itf.ip ∧ IsText itf.subnet ∧
    (itf.gateway ≠ "0.0.0.0" → IsText itf.gateway)

/-- A name without the placeholder of the netmask stays. -/
private theorem substitutes_subnet_iff {itf : NetItf} (h : ¬ Holds itf.name "[Subnet]")
    {out : List Char} : Substitutes (ComUtil.patterns [("Subnet", itf.subnet)])
      itf.name.toList out ↔ out = itf.name.toList := by
  have hkey : "[Subnet]".toList ≠ [] := by decide
  apply substitutes_of_notInfix
  intro p hp
  have hp' : p = ("[Subnet]".toList, itf.subnet.toList) := List.mem_singleton.mp hp
  rw [hp']
  exact ⟨hkey, h⟩

/-- The rows of what is printed for such an interface. -/
private theorem Plain.exists_block {itf : NetItf} (h : Plain itf) {tmp : COMStr}
    (htmp : Printed itf tmp) :
    ∃ method below, rowsOf tmp = heading itf.name method ++ below ∧ Block itf method below := by
  unfold rowsOf
  by_cases hmode : itf.mode = "static"
  · obtain ⟨-, name, ip, hname, hip, rfl⟩ := (printed_static_iff hmode).mp htmp
    obtain ⟨hipWord, hsubnet, hgateway⟩ := h.static hmode
    have hspace : ∀ x ∈ ip, ComUtil.isspace x = false := by
      have hstatic : IsWord ComUtil.isspace "static".toList := by decide
      refine hip.forall_mem ?_ hipWord.2
      simp only [ComUtil.patterns, List.map_cons, List.map_nil, List.forall_mem_cons]
      rw [hmode]
      exact ⟨hstatic.2, h.name.2, hsubnet.2, List.forall_mem_nil _⟩
    rw [(substitutes_subnet_iff h.nameStays).mp hname, String.toList_append, String.toList_ofList,
      rows_staticText h.name hsubnet (notMem_of_isWord hspace),
      rows_printGateway fun _ ↦ hgateway]
    refine ⟨row ["static"], staticRows itf ip, rfl, fun _ ↦ ⟨rfl, ip, hip, hspace, rfl⟩, ?_⟩
    intro hne
    exact absurd hmode hne
  · obtain ⟨-, name, mode, hname, hrun, rfl⟩ := (printed_dynamic_iff hmode).mp htmp
    obtain ⟨method, rest, hlines, hrows⟩ := rows_dynamicText h.name mode
    rw [(substitutes_subnet_iff h.nameStays).mp hname, String.toList_ofList, hrows]
    refine ⟨method, rest.filter (!·.isEmpty), rfl, ?_, fun _ ↦ ⟨mode, rest, hrun, hlines, rfl⟩⟩
    intro he
    exact absurd he hmode

/-! ### The whole file -/

/-- The rows before the first interface. -/
private def loRows : List (List (List Char)) :=
  [row ["#", "Network", "interface", "configuration#", "Following", "is", "auto", "generated",
      "content"], row ["source", "/etc/network/interfaces.d/*"]] ++
    heading "lo" (row ["loopback"])

private theorem rowsOf_loTmp : rowsOf loTmp = loRows := by
  unfold rowsOf loTmp
  simp only [String.toList_append]
  decide +kernel

/-- They announce the loopback interface. -/
private theorem filter_loRows {name : COMStr} :
    loRows.filter (announces name) = [] ↔ name ≠ "lo" := by
  unfold loRows
  have hcomment : isHeader (row ["#", "Network", "interface", "configuration#", "Following", "is",
      "auto", "generated", "content"]) = false := by decide
  have hsource : isHeader (row ["source", "/etc/network/interfaces.d/*"]) = false := by decide
  have hfirst : [row ["#", "Network", "interface", "configuration#", "Following", "is", "auto",
      "generated", "content"], row ["source", "/etc/network/interfaces.d/*"]].filter
        (announces name) = [] := by
    rw [List.filter_cons_of_neg, List.filter_cons_of_neg, List.filter_nil]
    · rw [announces_eq_false hsource]
      exact Bool.false_ne_true
    · rw [announces_eq_false hcomment]
      exact Bool.false_ne_true
  rw [List.filter_append, hfirst, List.nil_append]
  constructor
  · rintro h rfl
    rw [filter_heading_self] at h
    cases h
  · intro h
    exact filter_heading_of_ne (Ne.symm h) _

/-- The rows of what is printed for an interface, none while a loop has not ended. -/
private def blockOf (fuel : Nat) (itf : NetItf) : List (List (List Char)) :=
  ((printItf fuel itf).map rowsOf).getD []

/-- The rows of the file that the loop over the interfaces prints. -/
private theorem rows_printItfs {fuel : Nat} {itfs : List NetItf} {acc text : COMStr}
    {acts : List Act} (h : printItfs fuel acc itfs = some (text, acts)) :
    rowsOf text = rowsOf acc ++ itfs.flatMap (blockOf fuel) ∧
      (∀ itf ∈ itfs, ∃ tmp, printItf fuel itf = some tmp) ∧ ∀ f, written f acts = none := by
  induction itfs generalizing acc text acts with
  | nil =>
    cases h
    refine ⟨?_, List.forall_mem_nil _, fun _ ↦ rfl⟩
    rw [List.flatMap_nil, List.append_nil]
  | cons itf rest ih =>
    rw [printItfs] at h
    obtain ⟨tmp, htmp, h⟩ := Option.bind_eq_some_iff.mp h
    obtain ⟨⟨text', acts'⟩, hrest, h⟩ := Option.bind_eq_some_iff.mp h
    cases h
    obtain ⟨hrows, hprinted, hwritten⟩ := ih hrest
    have hbreak : ("\n\n" : COMStr).toList = '\n' :: '\n' :: [] := by decide
    have hblock : blockOf fuel itf = rowsOf tmp := by
      unfold blockOf
      rw [htmp]
      rfl
    have hadd : rowsOf (acc ++ ("\n\n" ++ tmp)) = rowsOf acc ++ rowsOf tmp := by
      unfold rowsOf
      rw [String.toList_append, String.toList_append, hbreak, List.cons_append, rows_append_cons]
      exact congrArg _ (rows_append_cons [] _)
    refine ⟨?_, List.forall_mem_cons.mpr ⟨⟨tmp, htmp⟩, hprinted⟩, hwritten⟩
    rw [hrows, hadd, List.flatMap_cons, hblock, List.append_assoc]

/-- The loop over the interfaces ends when each is printed. -/
private theorem printItfs_isSome {fuel : Nat} {itfs : List NetItf}
    (h : ∀ itf ∈ itfs, ∃ tmp, printItf fuel itf = some tmp) :
    ∀ acc, ∃ text acts, printItfs fuel acc itfs = some (text, acts) := by
  induction itfs with
  | nil =>
    intro acc
    exact ⟨acc, [], rfl⟩
  | cons itf rest ih =>
    obtain ⟨⟨tmp, htmp⟩, hrest⟩ := List.forall_mem_cons.mp h
    intro acc
    obtain ⟨text, acts, hrun⟩ := ih hrest (acc ++ ("\n\n" ++ tmp))
    rw [printItfs, htmp]
    simp only [Option.bind_eq_bind, Option.bind_some, hrun]
    exact ⟨_, _, rfl⟩

/-- Some fuel is enough for all interfaces. -/
private theorem exists_fuel {itfs : List NetItf} (h : ∀ itf ∈ itfs, ∃ tmp, Printed itf tmp) :
    ∃ fuel, ∀ itf ∈ itfs, ∃ tmp, printItf fuel itf = some tmp := by
  induction itfs with
  | nil => exact ⟨0, List.forall_mem_nil _⟩
  | cons itf rest ih =>
    obtain ⟨⟨tmp, fuel, htmp⟩, hrest⟩ := List.forall_mem_cons.mp h
    obtain ⟨fuel', hall⟩ := ih hrest
    refine ⟨max fuel fuel', List.forall_mem_cons.mpr ⟨?_, ?_⟩⟩
    · exact ⟨tmp, printItf_mono (Nat.le_max_left fuel fuel') htmp⟩
    · intro j hj
      obtain ⟨tmp', htmp'⟩ := hall j hj
      exact ⟨tmp', printItf_mono (Nat.le_max_right fuel fuel') htmp'⟩

/-- The rows of the name servers. -/
private theorem rowsOf_servers (dns : List COMStr) (acc : List Char) (text : COMStr)
    (htext : text.toList = acc ++ '\n' :: []) :
    rowsOf (dns.foldl (fun resolv d ↦ resolv ++ ("nameserver " ++ d ++ "\n")) text) =
      rows '\n' ComUtil.isspace acc ++ dns.flatMap fun d ↦
        rows '\n' ComUtil.isspace ("nameserver".toList ++ ' ' :: d.toList) := by
  induction dns generalizing acc text with
  | nil =>
    rw [List.foldl_nil, List.flatMap_nil, rowsOf, htext, rows_append_cons]
    rfl
  | cons d rest ih =>
    have hline : (text ++ ("nameserver " ++ d ++ "\n")).toList =
        (acc ++ '\n' :: ("nameserver".toList ++ ' ' :: d.toList)) ++ '\n' :: [] := by
      have hliteral : ("nameserver " : COMStr).toList = "nameserver".toList ++ ' ' :: [] := by
        decide
      have hbreak : ("\n" : COMStr).toList = '\n' :: [] := by decide
      rw [String.toList_append, String.toList_append, String.toList_append, htext, hliteral, hbreak]
      simp only [List.append_assoc, List.cons_append, List.nil_append]
    rw [List.foldl_cons, ih _ _ hline, rows_append_cons, List.flatMap_cons, List.append_assoc]

/-- Every name server has its row exactly when each is one word. -/
private theorem rows_commitDNS {c : NetConfig} {text : COMStr}
    (h : commitDNS c = .toFile resolvFile text) :
    (∀ d ∈ c.dns, row ["nameserver", d] ∈ rowsOf text) ↔ ∀ d ∈ c.dns, IsText d := by
  constructor
  · intro hrows d hd
    exact (of_mem_rows (hrows d hd) (List.mem_cons_of_mem _ List.mem_cons_self)).1
  · intro hwords d hd
    have hfirst : words ComUtil.isspace "nameserver".toList = row ["nameserver"] := by decide
    have hbase : ("#This file is generated automatically\n\n" ++ "nameserver 127.0.1.1\n").toList =
        ("#This file is generated automatically\n\n" ++ "nameserver 127.0.1.1").toList ++
          '\n' :: [] := by
      rw [String.toList_append, String.toList_append, List.append_assoc]
      congr 1
    have hbreak : '\n' ∉ "nameserver".toList ++ ' ' :: d.toList := by
      rw [List.mem_append, List.mem_cons, not_or, not_or]
      exact ⟨by decide, by decide, notMem_of_isWord (hwords d hd).2⟩
    have hline : words ComUtil.isspace ("nameserver".toList ++ ' ' :: d.toList) =
        "nameserver".toList :: [d.toList] := by
      rw [words_append_sep _ _ isspace_blank, hfirst, words_eq_singleton (hwords d hd)]
      rfl
    cases h
    rw [rowsOf_servers c.dns _ _ hbase]
    apply List.mem_append_right
    rw [List.mem_flatMap]
    refine ⟨d, hd, ?_⟩
    rw [rows_eq_singleton hbreak hline]
    exact List.mem_singleton_self _

/-- The later acts count. -/
private theorem written_append (f : COMStr) (acts acts' : List Act) :
    written f (acts ++ acts') = (written f acts').or (written f acts) := by
  unfold written
  rw [List.filterMap_append, List.getLast?_append]

/-- No route is dropped by writing a file. -/
private theorem written_dropRoutes (f : COMStr) (c : NetConfig) (net : ComSysNetwork) :
    written f (dropRoutes c net) = none := by
  unfold written dropRoutes
  rw [List.filterMap_map, List.getLast?_eq_none_iff, List.filterMap_eq_nil_iff]
  intro _ _
  rfl

/-- `Commit` when no interface is a bridge. -/
private theorem commit_of_noBridge {c : NetConfig} (h : ∀ itf ∈ c.itfs, itf.type ≠ "bridge")
    {fuel : Nat} {net net' : ComSysNetwork} {status : List COMStr → Int} {r : Bool}
    {acts : List Act} : commit fuel net net' status c = some (r, acts) ↔
      ∃ itfs moved, printItfs fuel loTmp c.itfs = some (itfs, moved) ∧ r = true ∧
        acts = moved ++ [commitDNS c, .toFile interfacesFile itfs,
          .exec ["systemctl restart networking"]] ++ dropRoutes c net' := by
  have hfind : c.itfs.find? (fun itf ↦ itf.type = "bridge") = none := by
    rw [List.find?_eq_none]
    intro itf hitf
    rw [decide_eq_true_iff]
    exact h itf hitf
  unfold commit
  rw [hfind]
  simp only [Option.bind_eq_bind, Option.bind_eq_some_iff, Option.some.injEq, Prod.mk.injEq]
  constructor
  · rintro ⟨⟨itfs, moved⟩, hrun, hr, hacts⟩
    exact ⟨itfs, moved, hrun, hr.symm, hacts.symm⟩
  · rintro ⟨itfs, moved, hrun, hr, hacts⟩
    exact ⟨(itfs, moved), hrun, hr.symm, hacts.symm⟩

/-- The files it leaves then. -/
private theorem written_of_noBridge {fuel : Nat} {c : NetConfig} {itfs : COMStr}
    {moved : List Act} (hrun : printItfs fuel loTmp c.itfs = some (itfs, moved))
    (net' : ComSysNetwork) {acts : List Act} (hacts : acts = moved ++ [commitDNS c,
      .toFile interfacesFile itfs, .exec ["systemctl restart networking"]] ++ dropRoutes c net') :
    written interfacesFile acts = some itfs ∧ ∃ resolv,
      commitDNS c = .toFile resolvFile resolv ∧ written resolvFile acts = some resolv := by
  have hne : ¬ resolvFile = interfacesFile := by decide
  obtain ⟨-, -, hmoved⟩ := rows_printItfs hrun
  refine ⟨?_, _, rfl, ?_⟩
  · rw [hacts, written_append, written_append, written_dropRoutes, hmoved]
    rfl
  · rw [hacts, written_append, written_append, written_dropRoutes, hmoved]
    unfold written commitDNS
    simp only [List.filterMap_cons, List.filterMap_nil, if_true, Ne.symm hne, if_false]
    rfl

/-- A bridge is printed alone, and no name server is. -/
private theorem written_of_bridge {c : NetConfig} {itf : NetItf} (hitf : itf ∈ c.itfs)
    (hbridge : itf.type = "bridge") {fuel : Nat} {net net' : ComSysNetwork}
    {status : List COMStr → Int} {r : Bool} {acts : List Act}
    (hrun : commit fuel net net' status c = some (r, acts)) : written resolvFile acts = none := by
  have hne : ¬ interfacesFile = resolvFile := by decide
  unfold commit at hrun
  cases hfind : c.itfs.find? (fun itf ↦ itf.type = "bridge") with
  | none =>
    rw [List.find?_eq_none] at hfind
    exact absurd (decide_eq_true hbridge) (hfind itf hitf)
  | some first =>
    rw [hfind] at hrun
    unfold commitBridge at hrun
    simp only [Option.bind_eq_bind, Option.bind_eq_some_iff, Option.some.injEq,
      Prod.mk.injEq] at hrun
    obtain ⟨tmp, -, -, rfl⟩ := hrun
    unfold written
    cases (net.interfaces.lookup first.name).isNone with
    | true =>
      simp only [if_true, List.filterMap_cons, hne, if_false, List.cons_append, List.nil_append,
        List.filterMap_nil, List.getLast?_nil]
    | false =>
      simp only [Bool.false_eq_true, List.filterMap_cons, hne, if_false, List.cons_append,
        List.nil_append, List.filterMap_nil, List.getLast?_nil]

/-! ### When `Commit` does what it is for -/

/-- The rows below the address of a static interface by their first words. -/
private theorem head_staticRows (itf : NetItf) :
    ∀ r ∈ row ["netmask", itf.subnet] :: row ["dns-nameservers", "8.8.8.8", "8.8.4.4"] ::
      gatewayRows itf, ∃ w : COMStr, r.head? = some w.toList ∧
        w ∈ ["netmask", "dns-nameservers", "gateway", "post-up", "pre-down"] := by
  have hgateway : ∀ r ∈ gatewayRows itf, ∃ w : COMStr, r.head? = some w.toList ∧
      w ∈ ["netmask", "dns-nameservers", "gateway", "post-up", "pre-down"] := by
    unfold gatewayRows
    split
    · rw [List.forall_mem_cons]
      refine ⟨⟨"gateway", rfl, by decide⟩, ?_⟩
      split
      · rw [List.forall_mem_cons, List.forall_mem_singleton]
        exact ⟨⟨"post-up", rfl, by decide⟩, ⟨"pre-down", rfl, by decide⟩⟩
      · exact List.forall_mem_nil _
    · exact List.forall_mem_nil _
  rw [List.forall_mem_cons, List.forall_mem_cons]
  exact ⟨⟨"netmask", rfl, by decide⟩, ⟨"dns-nameservers", rfl, by decide⟩, hgateway⟩

/-- A row is no header when its first word is another. -/
private theorem isHeader_eq_false {r : List (List Char)} {w : COMStr}
    (hr : r.head? = some w.toList) (hw : w ≠ "auto" ∧ w ≠ "iface") : isHeader r = false := by
  unfold isHeader
  rw [decide_eq_false_iff_not, hr, Option.some.injEq, Option.some.injEq, String.toList_inj,
    String.toList_inj, not_or]
  exact hw

/-- No option of a static interface is a header. -/
private theorem isHeader_staticRows (itf : NetItf) (ip : List Char) :
    ∀ r ∈ staticRows itf ip, isHeader r = false := by
  have hwords : ∀ w ∈ ["netmask", "dns-nameservers", "gateway", "post-up", "pre-down"],
      w ≠ "auto" ∧ w ≠ "iface" := by decide
  unfold staticRows
  rw [List.forall_mem_cons]
  refine ⟨?_, ?_⟩
  · have haddress : (row ["address"] ++ words ComUtil.isspace ip).head? =
        some ("address" : COMStr).toList := rfl
    exact isHeader_eq_false haddress (by decide)
  · intro r hr
    obtain ⟨w, hw, hmem⟩ := head_staticRows itf r hr
    exact isHeader_eq_false hw (hwords w hmem)

/-- The address is among them exactly when it is printed as it is. -/
private theorem address_mem_staticRows {itf : NetItf} {ip : List Char}
    (hip : ∀ x ∈ ip, ComUtil.isspace x = false) (hword : IsText itf.ip) :
    row ["address", itf.ip] ∈ staticRows itf ip ↔ ip = itf.ip.toList := by
  have hwords : ∀ w ∈ ["netmask", "dns-nameservers", "gateway", "post-up", "pre-down"],
      w ≠ "address" := by decide
  have hother : row ["address", itf.ip] ∉ row ["netmask", itf.subnet] ::
      row ["dns-nameservers", "8.8.8.8", "8.8.4.4"] :: gatewayRows itf := by
    intro hmem
    obtain ⟨w, hw, hin⟩ := head_staticRows itf _ hmem
    exact hwords w hin (String.toList_injective (Option.some.inj hw)).symm
  unfold staticRows
  rw [List.mem_cons, or_iff_left hother]
  constructor
  · intro h
    have hrow : row ["address"] ++ [itf.ip.toList] =
        row ["address"] ++ words ComUtil.isspace ip := h
    have hwordsIp : words ComUtil.isspace ip = [itf.ip.toList] :=
      (List.append_cancel_left hrow).symm
    by_cases hnil : ip = []
    · rw [hnil] at hwordsIp
      cases hwordsIp
    · rw [words_eq_singleton ⟨hnil, hip⟩] at hwordsIp
      exact (List.cons.inj hwordsIp).1
  · rintro rfl
    rw [words_eq_singleton hword]
    rfl

section Stanzas

variable {itfs : List NetItf} {X : NetItf → List (List Char)}
  {D : NetItf → List (List (List Char))}

/-- The file holds the stanza of an interface exactly when its name is not that of the loopback
interface, its heading has its method, nothing below a heading announces it, and the address of a
static one stays. -/
private theorem stanza_iff (hnodup : (itfs.map (·.name)).Nodup) {itf : NetItf} (hitf : itf ∈ itfs)
    (hblock : Block itf (X itf) (D itf)) (hplain : Plain itf) :
    Stanza (fileRows loRows X D itfs) itf ↔ itf.name ≠ "lo" ∧ X itf = row [itf.mode] ∧
      (∀ j ∈ itfs, (D j).filter (announces itf.name) = []) ∧
        (itf.mode = "static" → Substitutes (ComUtil.patterns [("Mode", itf.mode),
          ("Name", itf.name), ("Subnet", itf.subnet)]) itf.ip.toList itf.ip.toList) := by
  constructor
  · intro h
    obtain ⟨hH, hX, hD⟩ := (once_iff hnodup hitf).mp h.once
    refine ⟨filter_loRows.mp hH, hX, hD, ?_⟩
    intro hmode
    obtain ⟨-, ip, hip, hspace, hbelow⟩ := hblock.1 hmode
    have hoptions := options_fileRows (X := X) hnodup hitf hH hD
      (hbelow ▸ isHeader_staticRows itf ip)
    have haddress := (h.address hmode).1
    rw [hoptions, hbelow, address_mem_staticRows hspace (hplain.static hmode).1] at haddress
    rw [haddress] at hip
    exact hip
  · rintro ⟨hlo, hX, hD, hstays⟩
    have hH := filter_loRows.mpr hlo
    refine ⟨(once_iff hnodup hitf).mpr ⟨hH, hX, hD⟩, ?_⟩
    intro hmode
    obtain ⟨-, ip, hip, hspace, hbelow⟩ := hblock.1 hmode
    have hoptions := options_fileRows (X := X) hnodup hitf hH hD
      (hbelow ▸ isHeader_staticRows itf ip)
    rw [hoptions, hbelow]
    refine ⟨?_, ?_, ?_⟩
    · rw [address_mem_staticRows hspace (hplain.static hmode).1]
      exact hip.unique (hstays hmode)
    · exact List.mem_cons_of_mem _ List.mem_cons_self
    · intro hgateway
      apply List.mem_cons_of_mem
      apply List.mem_cons_of_mem
      apply List.mem_cons_of_mem
      unfold gatewayRows
      rw [if_pos ⟨hmode, hgateway⟩]
      exact List.mem_cons_self

end Stanzas

/-- The rows of the file when every interface is printed, plainly. -/
private theorem exists_fileRows {c : NetConfig} {fuel : Nat} {itfs : COMStr} {moved : List Act}
    (hrun : printItfs fuel loTmp c.itfs = some (itfs, moved)) (hplain : ∀ itf ∈ c.itfs, Plain itf) :
    ∃ X D, rowsOf itfs = fileRows loRows X D c.itfs ∧
      ∀ itf ∈ c.itfs, Block itf (X itf) (D itf) := by
  obtain ⟨hrows, hprinted, -⟩ := rows_printItfs hrun
  have hblocks (itf : NetItf) : ∃ method below, itf ∈ c.itfs →
      blockOf fuel itf = heading itf.name method ++ below ∧ Block itf method below := by
    by_cases hitf : itf ∈ c.itfs
    · obtain ⟨tmp, htmp⟩ := hprinted itf hitf
      obtain ⟨method, below, hrow, hblock⟩ := (hplain itf hitf).exists_block ⟨fuel, htmp⟩
      refine ⟨method, below, fun _ ↦ ⟨?_, hblock⟩⟩
      unfold blockOf
      rw [htmp]
      exact hrow
    · exact ⟨[], [], fun h ↦ absurd h hitf⟩
  choose X D hXD using hblocks
  refine ⟨X, D, ?_, fun itf hitf ↦ (hXD itf hitf).2⟩
  rw [hrows, rowsOf_loTmp]
  unfold fileRows
  exact congrArg _ (List.flatMap_congr fun itf hitf ↦ (hXD itf hitf).1)

/-- An announced name holds no placeholder of the netmask: none is left in any template. -/
private theorem nameStays_of_announced {c : NetConfig} {fuel : Nat} {itfs : COMStr}
    {moved : List Act} (hrun : printItfs fuel loTmp c.itfs = some (itfs, moved))
    (hgateway : ∀ j ∈ c.itfs, j.mode = "static" → j.gateway ≠ "0.0.0.0" → IsText j.gateway)
    {name : COMStr} (hauto : row ["auto", name] ∈ rowsOf itfs) : ¬ Holds name "[Subnet]" := by
  obtain ⟨hrows, hprinted, -⟩ := rows_printItfs hrun
  rw [hrows, rowsOf_loTmp, List.mem_append, List.mem_flatMap] at hauto
  rcases hauto with hauto | ⟨j, hj, hauto⟩
  · have hlo : name = "lo" := by
      by_contra hne
      have hfilter := List.filter_eq_nil_iff.mp (filter_loRows.mpr hne) _ hauto
      exact hfilter (announces_auto.mpr rfl)
    rw [hlo]
    unfold Holds
    decide
  · obtain ⟨tmp, htmp⟩ := hprinted j hj
    have hprintedj : Printed j tmp := ⟨fuel, htmp⟩
    obtain ⟨out, hout, hsubnet, hbreak⟩ := hprintedj.exists_text
    unfold blockOf at hauto
    rw [htmp] at hauto
    change row ["auto", name] ∈ rowsOf tmp at hauto
    -- The row stands in the template, and not among those of the gateway.
    have hin : ∃ text, text <:+: out ∧ row ["auto", name] ∈ rows '\n' ComUtil.isspace text := by
      rw [hout, rowsOf, String.toList_append, String.toList_ofList] at hauto
      by_cases hmode : j.mode = "static"
      · obtain ⟨init, rfl⟩ := hbreak hmode
        rw [List.append_assoc, List.cons_append, List.nil_append, rows_append_cons,
          rows_printGateway (hgateway j hj), List.mem_append] at hauto
        refine ⟨init, (List.prefix_append _ _).isInfix, hauto.resolve_right ?_⟩
        intro hmem
        have hheader := isHeader_staticRows j [] (row ["auto", name])
          (List.mem_cons_of_mem _ (List.mem_cons_of_mem _ (List.mem_cons_of_mem _ hmem)))
        cases hheader
      · have hnone : printGateway j = "" := by
          unfold printGateway
          rw [if_neg]
          exact fun h ↦ hmode h.1
        rw [hnone] at hauto
        refine ⟨out, List.infix_refl _, ?_⟩
        simpa only [String.toList_empty, List.append_nil] using hauto
    obtain ⟨text, htext, hmem⟩ := hin
    intro hholds
    have hname := (of_mem_rows hmem (List.mem_cons_of_mem _ List.mem_cons_self)).2
    exact hsubnet (hholds.trans (hname.trans htext))

/-- The values of interfaces with a stanza in the file are plain. -/
private theorem plain_of_stanza {c : NetConfig} {fuel : Nat} {itfs : COMStr} {moved : List Act}
    (hrun : printItfs fuel loTmp c.itfs = some (itfs, moved))
    (h : ∀ itf ∈ c.itfs, Stanza (rowsOf itfs) itf) : ∀ itf ∈ c.itfs, Plain itf := by
  have hword {r : List (List Char)} (hr : r ∈ rowsOf itfs) {s : COMStr} (hs : s.toList ∈ r) :
      IsText s := (of_mem_rows hr hs).1
  have hoption {name : COMStr} {r : List (List Char)} (hr : r ∈ options (rowsOf itfs) name) :
      r ∈ rowsOf itfs :=
    (List.dropWhile_sublist _).subset (List.mem_of_mem_tail (List.takeWhile_sublist _ |>.subset hr))
  have hvalue {w s : COMStr} : s.toList ∈ row [w, s] := List.mem_cons_of_mem _ List.mem_cons_self
  have hstatic : ∀ itf ∈ c.itfs, itf.mode = "static" → IsText itf.ip ∧ IsText itf.subnet ∧
      (itf.gateway ≠ "0.0.0.0" → IsText itf.gateway) := by
    intro itf hitf hmode
    obtain ⟨hip, hsubnet, hgateway⟩ := (h itf hitf).address hmode
    exact ⟨hword (hoption hip) hvalue, hword (hoption hsubnet) hvalue,
      fun hne ↦ hword (hoption (hgateway hne)) hvalue⟩
  intro itf hitf
  have hauto : row ["auto", itf.name] ∈ rowsOf itfs := by
    have hmem : row ["auto", itf.name] ∈ (rowsOf itfs).filter (announces itf.name) := by
      rw [(h itf hitf).once]
      exact List.mem_cons_self
    exact (List.mem_filter.mp hmem).1
  refine ⟨hword hauto hvalue, ?_, hstatic itf hitf⟩
  exact nameStays_of_announced hrun (fun j hj hmode ↦ (hstatic j hj hmode).2.2) hauto

/-- What is printed with fuel enough for an interface that is printed as it is meant. -/
private theorem Prints.plain {c : NetConfig} {itf : NetItf} (h : Prints c itf) : Plain itf where
  name := h.name
  nameStays := h.nameStays
  static hmode := ⟨(h.static hmode).ip, (h.static hmode).subnet, (h.static hmode).gateway⟩

/-- Such an interface is printed. -/
private theorem Prints.exists_printed {c : NetConfig} {itf : NetItf} (h : Prints c itf) :
    ∃ tmp, Printed itf tmp := by
  have hname : Substitutes (ComUtil.patterns [("Subnet", itf.subnet)]) itf.name.toList
      itf.name.toList := (substitutes_subnet_iff h.nameStays).mpr rfl
  by_cases hmode : itf.mode = "static"
  · have haddress := h.static hmode
    exact ⟨_, (printed_static_iff hmode).mpr ⟨⟨h.nameOnce, haddress.ipOnce, haddress.subnetOnce⟩,
      _, _, hname, haddress.ipStays, rfl⟩⟩
  · have hdynamic := h.dynamic hmode
    obtain ⟨out, hout, -⟩ := hdynamic.stays
    exact ⟨_, (printed_dynamic_iff hmode).mpr ⟨⟨h.nameOnce, hdynamic.modeOnce⟩,
      _, _, hname, hout, rfl⟩⟩

/-- The file holds a stanza for every interface exactly when each is printed as it is meant. -/
private theorem stanzas_iff {c : NetConfig} (hnodup : (c.itfs.map (·.name)).Nodup) {fuel : Nat}
    {itfs : COMStr} {moved : List Act} (hrun : printItfs fuel loTmp c.itfs = some (itfs, moved)) :
    (∀ itf ∈ c.itfs, Stanza (rowsOf itfs) itf) ↔ ∀ itf ∈ c.itfs, Prints c itf := by
  constructor
  · intro h
    have hplain := plain_of_stanza hrun h
    obtain ⟨X, D, hrows, hblock⟩ := exists_fileRows hrun hplain
    have hstanza (itf : NetItf) (hitf : itf ∈ c.itfs) :=
      (stanza_iff hnodup hitf (hblock itf hitf) (hplain itf hitf)).mp (hrows ▸ h itf hitf)
    intro itf hitf
    obtain ⟨hlo, hX, -, hstays⟩ := hstanza itf hitf
    obtain ⟨tmp, htmp⟩ := (rows_printItfs hrun).2.1 itf hitf
    have hprinted : Printed itf tmp := ⟨fuel, htmp⟩
    by_cases hmode : itf.mode = "static"
    · obtain ⟨⟨hname, hip, hsubnet⟩, -⟩ := (printed_static_iff hmode).mp hprinted
      obtain ⟨hipWord, hsubnetWord, hgateway⟩ := (hplain itf hitf).static hmode
      exact ⟨(hplain itf hitf).name, hlo, hname, (hplain itf hitf).nameStays,
        fun _ ↦ ⟨hipWord, hsubnetWord, hgateway, hip, hstays hmode, hsubnet⟩,
        fun hne ↦ absurd hmode hne⟩
    · obtain ⟨⟨hname, hm⟩, -⟩ := (printed_dynamic_iff hmode).mp hprinted
      obtain ⟨out, rest, hout, hlines, hbelow⟩ := (hblock itf hitf).2 hmode
      rw [hX] at hlines
      refine ⟨(hplain itf hitf).name, hlo, hname, (hplain itf hitf).nameStays,
        fun he ↦ absurd he hmode, fun _ ↦ ⟨hm, out, hout, rest, hlines, ?_⟩⟩
      -- A row below the mode is blank, or stands in the file.
      intro r hr i hi
      cases r with
      | nil => exact announces_eq_false rfl
      | cons w ws =>
        have hmem : w :: ws ∈ D itf := by
          rw [hbelow]
          exact List.mem_filter.mpr ⟨hr, rfl⟩
        have hfilter := List.filter_eq_nil_iff.mp ((hstanza i hi).2.2.1 itf hitf) _ hmem
        exact Bool.eq_false_iff.mpr hfilter
  · intro h
    have hplain : ∀ itf ∈ c.itfs, Plain itf := fun itf hitf ↦ (h itf hitf).plain
    obtain ⟨X, D, hrows, hblock⟩ := exists_fileRows hrun hplain
    -- What stands below a heading announces nothing.
    have hbelow : ∀ j ∈ c.itfs, ∀ i ∈ c.itfs, (D j).filter (announces i.name) = [] := by
      intro j hj i hi
      rw [List.filter_eq_nil_iff]
      by_cases hmode : j.mode = "static"
      · obtain ⟨-, ip, -, -, hD⟩ := (hblock j hj).1 hmode
        rw [hD]
        intro r hr
        rw [announces_eq_false (isHeader_staticRows j ip r hr)]
        exact Bool.false_ne_true
      · obtain ⟨out, rest, hout, hlines, hD⟩ := (hblock j hj).2 hmode
        obtain ⟨out', hout', below, hlines', hnone⟩ := ((h j hj).dynamic hmode).stays
        rw [hout.unique hout', hlines'] at hlines
        rw [hD]
        intro r hr
        rw [← (List.cons.inj hlines).2] at hr
        rw [hnone r (List.mem_filter.mp hr).1 i hi]
        exact Bool.false_ne_true
    intro itf hitf
    rw [hrows, stanza_iff hnodup hitf (hblock itf hitf) (hplain itf hitf)]
    refine ⟨(h itf hitf).notLo, ?_, fun j hj ↦ hbelow j hj itf hitf,
      fun hmode ↦ ((h itf hitf).static hmode).ipStays⟩
    by_cases hmode : itf.mode = "static"
    · rw [((hblock itf hitf).1 hmode).1, hmode]
    · obtain ⟨out, rest, hout, hlines, -⟩ := (hblock itf hitf).2 hmode
      obtain ⟨out', hout', below, hlines', -⟩ := ((h itf hitf).dynamic hmode).stays
      rw [hout.unique hout', hlines'] at hlines
      exact (List.cons.inj hlines).1.symm

/-- `Commit` ends, and leaves every name server and one stanza for every interface, exactly when no
interface is a bridge and all that is printed reads as it is meant. -/
theorem commit_committed_iff (net net' : ComSysNetwork) (status : List COMStr → Int)
    {c : NetConfig} (hnodup : (c.itfs.map (·.name)).Nodup) :
    (∃ fuel r acts, commit fuel net net' status c = some (r, acts) ∧ Committed c acts) ↔
      CommitsWell c := by
  constructor
  · rintro ⟨fuel, r, acts, hrun, hcommitted⟩
    obtain ⟨resolv, hresolv, hservers⟩ := hcommitted.dns
    obtain ⟨itfs, hitfs, hstanzas⟩ := hcommitted.itfs
    have hbridge : ∀ itf ∈ c.itfs, itf.type ≠ "bridge" := by
      intro itf hitf hbridge
      rw [written_of_bridge hitf hbridge hrun] at hresolv
      cases hresolv
    obtain ⟨itfs', moved, hprint, -, hacts⟩ := (commit_of_noBridge hbridge).mp hrun
    obtain ⟨hfile, resolv', hdns, hfile'⟩ := written_of_noBridge hprint net' hacts
    rw [hfile] at hitfs
    cases hitfs
    rw [hfile'] at hresolv
    cases hresolv
    exact ⟨hbridge, (rows_commitDNS hdns).mp hservers, (stanzas_iff hnodup hprint).mp hstanzas⟩
  · intro h
    obtain ⟨fuel, hfuel⟩ := exists_fuel fun itf hitf ↦ (h.itfs itf hitf).exists_printed
    obtain ⟨itfs, moved, hprint⟩ := printItfs_isSome hfuel loTmp
    obtain ⟨hfile, resolv, hdns, hfile'⟩ := written_of_noBridge hprint net' rfl
    refine ⟨fuel, true, _, (commit_of_noBridge h.noBridge).mpr ⟨itfs, moved, hprint, rfl, rfl⟩,
      ⟨resolv, hfile', (rows_commitDNS hdns).mpr h.dns⟩,
      ⟨itfs, hfile, (stanzas_iff hnodup hprint).mpr h.itfs⟩⟩

/-- A gateway with one static interface and a name server. -/
def oneStatic : NetConfig where
  itfs := [⟨"enp1s0", "ethernet", "10.0.0.2", "255.255.255.0", "10.0.0.1", "static", true⟩]
  dns := ["1.1.1.1"]

/-- It is committed. -/
theorem commit_committed_oneStatic :
    ∃ fuel r acts, commit fuel ⟨[], ""⟩ ⟨[], ""⟩ (fun _ ↦ 0) oneStatic = some (r, acts) ∧
      Committed oneStatic acts := by
  have hnodup : (oneStatic.itfs.map (·.name)).Nodup := by decide
  refine (commit_committed_iff ⟨[], ""⟩ ⟨[], ""⟩ (fun _ ↦ 0) hnodup).mpr ⟨?_, ?_, ?_⟩
  · decide
  · decide
  · intro itf hitf
    rw [List.mem_singleton.mp hitf]
    refine ⟨by decide, by decide, by decide, by decide, ?_, ?_⟩
    · intro _
      exact ⟨by decide, by decide, fun _ ↦ by decide, by decide, ⟨0, by decide⟩, by decide⟩
    · intro hne
      exact absurd rfl hne

/-- A bridge and an interface with an address by DHCP. -/
def bridgeAndDynamic : NetConfig where
  itfs := [⟨"br0", "bridge", "10.0.0.2", "255.255.255.0", "10.0.0.1", "static", true⟩,
    ⟨"wlan0", "wifi", "", "", "", "dhcp", false⟩]
  dns := ["1.1.1.1"]

/-- The bridge of it. -/
private def br0 : NetItf :=
  ⟨"br0", "bridge", "10.0.0.2", "255.255.255.0", "10.0.0.1", "static", true⟩

private theorem patterns_br0 : ComUtil.patterns (brgParams br0) =
    [("[DNS]".toList, "8.8.8.8 8.8.4.4".toList), ("[Gateway]".toList, "10.0.0.1".toList),
      ("[IP]".toList, "10.0.0.2".toList), ("[Mode]".toList, "static".toList),
      ("[Name]".toList, "br0".toList), ("[Ports]".toList, "enp2s0 enp3s0".toList),
      ("[Subnet]".toList, "255.255.255.0".toList)] := by
  have hparams : brgParams br0 = [("DNS", "8.8.8.8 8.8.4.4"), ("Gateway", "10.0.0.1"),
      ("IP", "10.0.0.2"), ("Mode", "static"), ("Name", "br0"), ("Ports", "enp2s0 enp3s0"),
      ("Subnet", "255.255.255.0")] := by decide
  rw [hparams]
  rfl

/-- What is printed for the bridge announces it, and not the other interface. -/
private theorem announced_br0 :
    (substitute 3 (ComUtil.patterns (brgParams br0)) brgTmp.toList).map (fun out ↦
      ((rows '\n' ComUtil.isspace (loTmp.toList ++ '\n' :: '\n' :: out)).contains
          (row ["auto", "br0"]),
        (rows '\n' ComUtil.isspace (loTmp.toList ++ '\n' :: '\n' :: out)).contains
          (row ["auto", "wlan0"]))) = some (true, false) := by
  rw [patterns_br0]
  unfold brgTmp loTmp
  simp only [String.toList_append]
  -- each literal is the text of its characters
  repeat rw [String.toList_ofList]
  decide +kernel

/-- What `Commit` does about it. -/
private theorem commit_bridgeAndDynamic :
    commit 3 ⟨[], ""⟩ ⟨[], ""⟩ (fun _ ↦ 0) bridgeAndDynamic =
      commitBridge 3 ⟨[], ""⟩ (fun _ ↦ 0) br0 := rfl

/-- `Commit` returns true, has written no name server and has announced the bridge alone. -/
theorem not_committed_bridgeAndDynamic :
    ((commit 3 ⟨[], ""⟩ ⟨[], ""⟩ (fun _ ↦ 0) bridgeAndDynamic).map fun x ↦
      (x.1, written resolvFile x.2, (written interfacesFile x.2).map fun text ↦
        ((rowsOf text).contains (row ["auto", "br0"]),
          (rowsOf text).contains (row ["auto", "wlan0"])))) =
      some (true, none, some (true, false)) ∧
    ¬ ∃ fuel r acts, commit fuel ⟨[], ""⟩ ⟨[], ""⟩ (fun _ ↦ 0) bridgeAndDynamic = some (r, acts) ∧
      Committed bridgeAndDynamic acts := by
  refine ⟨?_, ?_⟩
  · obtain ⟨out, hout, hrows⟩ := Option.map_eq_some_iff.mp announced_br0
    have htmp : ComUtil.strMakeUp 3 brgTmp (brgParams br0) = some (String.ofList out) := by
      unfold ComUtil.strMakeUp
      rw [if_neg (by decide), if_neg (by decide), hout]
      rfl
    have htext : (loTmp ++ ("\n\n" ++ String.ofList out)).toList =
        loTmp.toList ++ '\n' :: '\n' :: out := by
      rw [String.toList_append, String.toList_append, String.toList_ofList, String.toList_ofList]
      rfl
    have hne : ¬ interfacesFile = resolvFile := by decide
    rw [commit_bridgeAndDynamic]
    unfold commitBridge written rowsOf
    rw [htmp]
    simp only [Option.bind_eq_bind, Option.bind_some, Option.map_some, List.lookup_nil,
      Option.isNone_none, if_true, List.cons_append, List.nil_append, List.filterMap_cons, hne,
      if_false, List.filterMap_nil, List.getLast?_nil, List.getLast?_singleton, htext, hrows,
      decide_true]
  rintro ⟨fuel, r, acts, hrun, hcommitted⟩
  obtain ⟨text, htext, -⟩ := hcommitted.dns
  rw [written_of_bridge List.mem_cons_self rfl hrun] at htext
  cases htext

end NetConfig

end IcsGateway
