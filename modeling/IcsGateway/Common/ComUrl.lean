import IcsGateway.Common.Numerals
import IcsGateway.Lib.Words

/-!
# Hosts and ports of addresses

`ComUrl` cuts an address at the first `://`, then at the first `/` and the first `:`
(`Common/ComSysNetwork.cpp:566–616`). Without a scheme it cuts at a `://` of the path.
-/

namespace IcsGateway

open Lib ComUtil

/-- `strcasecmp(s, t) == 0`. -/
def strcasecmpEq (s : List Char) (t : COMStr) : Bool := (cStr s).map Char.toLower = t.toList

/-- `atoi`, with a 64-bit `long`. -/
def atoi (cs : List Char) : Int :=
  let cs := cs.dropWhile isspace
  let (neg, cs) := match cs with
    | '-' :: rest => (true, rest)
    | '+' :: rest => (false, rest)
    | _ => (false, cs)
  let n : Int := valueOf 10 (cs.takeWhile fun c ↦ (digit? 10 c).isSome)
  Int.bmod (if neg then max (-2 ^ 63) (-n) else min (2 ^ 63 - 1) n) (2 ^ 32)

/-- A parsed address; `Common/ComSysNetwork.h:156`. -/
structure ComUrl where
  host : List Char
  port : Nat
  deriving DecidableEq, Repr

namespace ComUrl

/-- The three characters between a scheme and what follows it. -/
def schemeMark : List Char := [':', '/', '/']

/-- The port of a scheme; `Common/ComSysNetwork.cpp:587–596`. -/
def schemePort (scheme : List Char) : Nat :=
  if strcasecmpEq scheme "http" then 80 else if strcasecmpEq scheme "https" then 443 else 0

/-- What is in front of the path, with the port found so far;
`Common/ComSysNetwork.cpp:608–622`. -/
def parseAuthority (port : Nat) (tmp : List Char) : ComUrl :=
  let tmp := tmp.takeWhile (· ≠ '/')
  match cut [':'] tmp with
  | none => ⟨tmp, port⟩
  | some (host, rest) => ⟨host, toUnsigned (atoi rest)⟩

/-- `ComUrl::_simple_parse`; `Common/ComSysNetwork.cpp:570`. -/
def simpleParse (url : List Char) : ComUrl :=
  match cut schemeMark url with
  | some (scheme, rest) => parseAuthority (schemePort scheme) rest
  | none => parseAuthority 0 url

end ComUrl

/-- The parts of an address: perhaps a scheme, of letters; a host; perhaps a port, in decimal;
and a path, which is empty or begins with a slash. -/
structure UrlParts where
  scheme : Option (List Char)
  host : List Char
  port : Option (List Char)
  path : List Char
  scheme_letters : ∀ s ∈ scheme, ∀ c ∈ s, c.isAlpha = true
  host_plain : '/' ∉ host ∧ ':' ∉ host
  port_digits : ∀ p ∈ port, IsDigits 10 p ∧ valueOf 10 p ≤ 65535
  path_slash : ∀ c ∈ path.head?, c = '/'

namespace UrlParts

open ComUrl

variable (u : UrlParts)

/-- The host and the port. -/
def authority : List Char := u.host ++ (u.port.elim [] fun p ↦ ':' :: p)

/-- The parts put together. -/
def text : List Char :=
  u.scheme.elim [] (· ++ schemeMark) ++ (u.authority ++ u.path)

/-- The well-known port of a scheme, in any letter case. -/
def wellKnownPort (scheme : List Char) : Nat :=
  if scheme.map Char.toLower = "http".toList then 80
  else if scheme.map Char.toLower = "https".toList then 443
  else 0

/-- The port that is meant: the one given, or else that of the scheme. -/
def portMeant : Nat := u.port.elim (u.scheme.elim 0 wellKnownPort) (valueOf 10)

/-- The host and the port are found. -/
def Right : Prop := simpleParse u.text = ⟨u.host, u.portMeant⟩

/-- Behind the first `://` of the path the host stands again, up to the next slash, alone or in
front of a port that is the same. -/
def Again : Prop :=
  ∃ a b, cut schemeMark u.path = some (a, b) ∧
    (b.takeWhile (· ≠ '/') = u.host ∧ schemePort (u.authority ++ a) = u.portMeant ∨
      ∃ p, b.takeWhile (· ≠ '/') = u.host ++ ':' :: p ∧ toUnsigned (atoi p) = u.portMeant)

end UrlParts

/-! ### Ports -/

/-- The number of a short decimal text. -/
theorem toUnsigned_atoi {p : List Char} (hp : IsDigits 10 p) (hvalue : valueOf 10 p ≤ 65535) :
    toUnsigned (atoi p) = valueOf 10 p := by
  obtain ⟨d, ds, rfl⟩ := List.exists_cons_of_ne_nil hp.1
  obtain ⟨hspace, hminus, hplus⟩ := of_isSome_digit (by decide) (hp.2 d List.mem_cons_self)
  have hdrop : (d :: ds).dropWhile isspace = d :: ds :=
    List.dropWhile_cons_of_neg (by rw [hspace]; exact Bool.false_ne_true)
  have htake : (d :: ds).takeWhile (fun c ↦ (digit? 10 c).isSome) = d :: ds := by
    rw [List.takeWhile_eq_self_iff]
    exact hp.2
  have hatoi : atoi (d :: ds) = valueOf 10 (d :: ds) := by
    rw [atoi, hdrop]
    split
    next neg cs hsign =>
      split at hsign
      · next he =>
        cases he
        exact absurd rfl hminus
      · next he =>
        cases he
        exact absurd rfl hplus
      · cases hsign
        simp only [htake, Bool.false_eq_true, if_false]
        rw [min_eq_right (by omega)]
        exact Int.bmod_eq_of_le (by omega) (by omega)
  rw [hatoi, toUnsigned]
  omega

namespace UrlParts

open ComUrl

variable (u : UrlParts)

/-- The port found for a scheme of letters. -/
private theorem schemePort_eq {s : List Char} (hs : ∀ c ∈ s, c.isAlpha = true) :
    schemePort s = wellKnownPort s := by
  have hcStr : cStr s = s := by
    rw [cStr, List.takeWhile_eq_self_iff]
    intro c hc
    rw [decide_eq_true_eq]
    rintro rfl
    exact absurd (hs _ hc) (by decide)
  simp only [schemePort, wellKnownPort, strcasecmpEq, hcStr, decide_eq_true_eq]

/-- No digit is a slash or a colon. -/
private theorem not_mem_of_isDigits {p : List Char} (hp : IsDigits 10 p) : '/' ∉ p ∧ ':' ∉ p := by
  constructor
  · intro h
    exact absurd (hp.2 '/' h) (by decide)
  · intro h
    exact absurd (hp.2 ':' h) (by decide)

/-- The host and the port end at the path. -/
private theorem takeWhile_authority :
    (u.authority ++ u.path).takeWhile (· ≠ '/') = u.authority := by
  have hslash : ∀ c ∈ u.authority, decide (c ≠ '/') = true := by
    intro c hc
    rw [decide_eq_true_eq]
    rintro rfl
    rcases List.mem_append.mp hc with hc | hc
    · exact u.host_plain.1 hc
    · cases hport : u.port with
      | none =>
        rw [hport] at hc
        cases hc
      | some p =>
        rw [hport] at hc
        rcases List.mem_cons.mp hc with hc | hc
        · cases hc
        · exact (not_mem_of_isDigits (u.port_digits p hport).1).1 hc
  rw [List.takeWhile_append_of_pos hslash]
  cases hpath : u.path with
  | nil => rw [List.takeWhile_nil, List.append_nil]
  | cons c path =>
    have hc := u.path_slash c (by rw [hpath]; rfl)
    rw [List.takeWhile_cons_of_neg (by rw [hc]; decide), List.append_nil]

/-- What is read of them. -/
private theorem parseAuthority_authority (port : Nat) :
    parseAuthority port (u.authority ++ u.path) = ⟨u.host, u.port.elim port (valueOf 10)⟩ := by
  rw [parseAuthority, takeWhile_authority, authority]
  cases hport : u.port with
  | none =>
    simp only [Option.elim_none, List.append_nil, cut_of_notMem u.host_plain.2]
  | some p =>
    obtain ⟨hdigits, hvalue⟩ := u.port_digits p hport
    have hcut := cut_singleton_append u.host_plain.2 p
    simp only [Option.elim_some, hcut, toUnsigned_atoi hdigits hvalue]

/-- They hold no `://`, nor does one begin in them. -/
private theorem cut_authority (b : List Char) : cut schemeMark (u.authority ++ b) =
    (cut schemeMark b).map fun (x, y) ↦ (u.authority ++ x, y) := by
  rw [authority, List.append_assoc, schemeMark, cut_append u.host_plain.2]
  cases hport : u.port with
  | none =>
    rw [Option.elim_none, List.nil_append, List.append_nil]
  | some p =>
    obtain ⟨hdigits, -⟩ := u.port_digits p hport
    obtain ⟨d, ds, rfl⟩ := List.exists_cons_of_ne_nil hdigits.1
    have hno : ¬ [':', '/', '/'] <+: ':' :: ((d :: ds) ++ b) := by
      intro hp
      have hslash := (List.cons_prefix_cons.mp (List.cons_prefix_cons.mp hp).2).1
      rw [← hslash] at hdigits
      exact (not_mem_of_isDigits hdigits).1 List.mem_cons_self
    rw [Option.elim_some, List.cons_append, cut, if_neg hno,
      cut_append (not_mem_of_isDigits hdigits).2]
    cases cut [':', '/', '/'] b with
    | none => rfl
    | some x => simp

/-- The host and a port are read of a text exactly when the host stands in front of the first
slash, alone or in front of that port. -/
private theorem parseAuthority_eq_iff (port meant : Nat) (b : List Char) :
    parseAuthority port b = ⟨u.host, meant⟩ ↔
      b.takeWhile (· ≠ '/') = u.host ∧ port = meant ∨
        ∃ p, b.takeWhile (· ≠ '/') = u.host ++ ':' :: p ∧ toUnsigned (atoi p) = meant := by
  rw [parseAuthority]
  generalize b.takeWhile (· ≠ '/') = tmp
  cases hcut : cut [':'] tmp with
  | none =>
    have hcolon := notMem_of_cut_singleton hcut
    simp only [ComUrl.mk.injEq]
    constructor
    · exact .inl
    · rintro (h | ⟨p, rfl, -⟩)
      · exact h
      · exact absurd (List.mem_append_right _ List.mem_cons_self) hcolon
  | some xy =>
    obtain ⟨x, y⟩ := xy
    obtain ⟨rfl, hx⟩ := cut_singleton_eq_some hcut
    simp only [ComUrl.mk.injEq]
    constructor
    · rintro ⟨rfl, hport⟩
      exact .inr ⟨y, rfl, hport⟩
    · rintro (⟨hhost, -⟩ | ⟨p, he, hport⟩)
      · exfalso
        apply u.host_plain.2
        rw [← hhost]
        exact List.mem_append_right _ List.mem_cons_self
      · -- the first colon is the one behind the host
        rw [he, cut_singleton_append u.host_plain.2, Option.some.injEq, Prod.mk.injEq] at hcut
        rw [← hcut.2]
        exact ⟨hcut.1.symm, hport⟩

/-- An address is parsed right exactly when it has a scheme, or no `://` in its path, or the same
host and port again behind that. -/
theorem right_iff :
    u.Right ↔ u.scheme.isSome = true ∨ cut schemeMark u.path = none ∨ u.Again := by
  rw [Right, simpleParse, text, portMeant]
  cases hscheme : u.scheme with
  | some s =>
    have hcolon : ':' ∉ s := fun h ↦ absurd (u.scheme_letters s hscheme ':' h) (by decide)
    have hself : cut schemeMark (schemeMark ++ (u.authority ++ u.path)) =
        some ([], u.authority ++ u.path) := cut_self_append ['/', '/'] _
    have hcut : cut schemeMark (s ++ schemeMark ++ (u.authority ++ u.path)) =
        some (s, u.authority ++ u.path) := by
      rw [List.append_assoc, schemeMark, cut_append hcolon]
      rw [schemeMark] at hself
      rw [hself]
      simp only [Option.map_some, List.append_nil]
    simp only [Option.elim_some, hcut, parseAuthority_authority, Option.isSome_some, true_or,
      schemePort_eq (u.scheme_letters s hscheme)]
  | none =>
    simp only [Option.elim_none, List.nil_append, Option.isSome_none, Bool.false_eq_true,
      false_or, cut_authority]
    cases hpath : cut schemeMark u.path with
    | none =>
      simp only [Option.map_none, parseAuthority_authority, true_or]
    | some ab =>
      obtain ⟨a, b⟩ := ab
      simp only [Option.map_some, reduceCtorEq, false_or]
      rw [parseAuthority_eq_iff, Again, portMeant, hscheme]
      simp only [hpath, Option.some.injEq, Prod.mk.injEq, Option.elim_none]
      constructor
      · intro h
        exact ⟨a, b, ⟨rfl, rfl⟩, h⟩
      · rintro ⟨a', b', ⟨rfl, rfl⟩, h⟩
        exact h

/-- An address without a scheme, with another address in its path. -/
def proxied : UrlParts where
  scheme := none
  host := "proxy".toList
  port := some "889".toList
  path := "/http://cloud/status".toList
  scheme_letters := fun s hs ↦ by cases hs
  host_plain := by decide
  port_digits := by
    rintro p hp
    cases hp
    decide
  path_slash := by
    rintro c hc
    cases hc
    rfl

/-- The host found is that of the other address. -/
theorem not_right_proxied : ¬ proxied.Right := by
  rw [Right]
  decide +kernel

end UrlParts
end IcsGateway
