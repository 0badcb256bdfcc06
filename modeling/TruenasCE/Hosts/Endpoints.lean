import TruenasCE.Hosts.Sanitize

/-! # Endpoints as users write them

`[scheme://][userinfo@]host[:port][/path][?query][#fragment]`, and what is left of one when it has been
sanitized.
-/
namespace TruenasCE.Hosts
open Library TruenasCE.Flow

/-- ASCII letters, digits and what else stands in names. -/
def nameChars : List Char := capitals ++ capitals.map Char.toLower ++ "0123456789-_.".toList

/-- A DNS name or an IPv4 address. -/
structure Name where
  text : List Char
  nonempty : text ≠ []
  chars : ∀ c ∈ text, c ∈ nameChars

/-- An IPv6 address, perhaps with the zone of a link-local one. -/
structure Literal where
  address : List Char
  zone : Option (List Char)
  valid : ipIntFromString address = true
  nonempty : ∀ z ∈ zone, z ≠ []
  chars : ∀ z ∈ zone, ∀ c ∈ z, c ∈ nameChars ++ ['~']
  last : ∀ z ∈ zone, z.getLast? ≠ some '.'

def Literal.text (l : Literal) : List Char :=
  l.address ++ match l.zone with
    | none => []
    | some zone => '%' :: zone

inductive Host
  | name (n : Name)
  | bracketed (l : Literal)
  | bare (l : Literal)

namespace Host

def text : Host → List Char
  | .name n => n.text
  | .bracketed l | .bare l => l.text

def write : Host → List Char
  | .bracketed l => '[' :: (l.text ++ [']'])
  | host => host.text

/-- The host in lower case, without brackets and trailing dots. -/
def key (host : Host) : List Char := (host.text.map Char.toLower).rdropWhile (· = '.')

end Host

def literalChars : List Char := nameChars ++ [':','%','~']

def hostChars : List Char := literalChars ++ ['[',']']

theorem Literal.mem_literalChars (l : Literal) {c : Char} (hc : c ∈ l.text) : c ∈ literalChars := by
  rcases List.mem_append.mp hc with haddress | hzone
  · rcases char_of_ipIntFromString l.valid haddress with hhex | rfl | rfl
    · have hall : ∀ d ∈ "0123456789ABCDEFabcdef".toList, d ∈ literalChars := List.all_iff_forall_prop.mp (by decide)
      exact hall c (of_decide_eq_true hhex)
    · decide
    · decide
  · cases hz : l.zone with
    | none =>
      rw [hz] at hzone
      cases hzone
    | some zone =>
      rw [hz] at hzone
      rcases List.mem_cons.mp hzone with rfl | hmem
      · decide
      · have hsub : ∀ d ∈ nameChars ++ ['~'], d ∈ literalChars := List.all_iff_forall_prop.mp (by decide)
        exact hsub c (l.chars zone hz c hmem)

theorem Host.mem_hostChars (host : Host) {c : Char} (hc : c ∈ host.write) : c ∈ hostChars := by
  cases host with
  | name n =>
    have hsub : ∀ d ∈ nameChars, d ∈ hostChars := List.all_iff_forall_prop.mp (by decide)
    exact hsub c (n.chars c hc)
  | bracketed l =>
    rcases List.mem_cons.mp hc with rfl | hc
    · decide
    · rcases List.mem_append.mp hc with hc | hc
      · exact List.mem_append_left _ (l.mem_literalChars hc)
      · obtain rfl := List.mem_singleton.mp hc
        decide
  | bare l => exact List.mem_append_left _ (l.mem_literalChars hc)

theorem hostChars_spec : ∀ c ∈ hostChars, c.toNat < 128 ∧ isDelimiter c = false ∧ c ≠ '@' ∧ isSpace c = false :=
  List.all_iff_forall_prop.mp (by decide)

theorem Literal.two_le_count (l : Literal) : 2 ≤ l.text.count ':' := by
  have hcolons := two_le_count_of_ipIntFromString l.valid
  rw [Literal.text,List.count_append]
  omega

theorem Literal.text_ne_nil (l : Literal) : l.text ≠ [] := by
  intro h
  have hcolons := l.two_le_count
  simp [h] at hcolons

theorem Host.write_ne_nil (host : Host) : host.write ≠ [] := by
  cases host with
  | name n => exact n.nonempty
  | bracketed l => exact List.cons_ne_nil _ _
  | bare l => exact l.text_ne_nil

/-- The parts of an endpoint. The tail is the path, the query and the fragment, as far as they are there. -/
structure Endpoint (u : Unicode) where
  leading : List Char := []
  scheme : Option (List Char) := none
  userinfo : Option (List Char) := none
  host : Host
  port : Option (List Char) := none
  tail : List Char := []
  trailing : List Char := []
  leading_blank : ∀ c ∈ leading, isSpace c = true
  scheme_cut : ∀ s ∈ scheme, ∀ c ∈ s, isDelimiter c = false
  userinfo_cut : ∀ s ∈ userinfo, ∀ c ∈ s, isDelimiter c = false
  port_nonempty : ∀ p ∈ port, p ≠ []
  port_digits : ∀ p ∈ port, ∀ c ∈ p, u.digit c = true
  tail_start : ∀ c ∈ tail.head?, isDelimiter c = true
  trailing_blank : ∀ c ∈ trailing, isSpace c = true
  bare_alone : ∀ l, host = .bare l → userinfo = none ∧ port = none

namespace Endpoint
variable {u : Unicode} (e : Endpoint u)

def authority : List Char :=
  e.host.write ++ match e.port with
    | none => []
    | some port => ':' :: port

def core : List Char :=
  match e.userinfo with
  | none => e.authority
  | some userinfo => userinfo ++ '@' :: e.authority

def write : List Char :=
  e.leading ++ ((match e.scheme with
    | none => []
    | some scheme => scheme ++ [':','/','/']) ++ (e.core ++ (e.tail ++ e.trailing)))

theorem digit_false {c : Char} (hc : c.toNat < 128) (h : c.isDigit = false) : u.digit c = false := by
  rw [u.asciiDigit c hc,h]

theorem ne_of_digit {c d : Char} (hc : u.digit c = true) (hd : d.toNat < 128) (h : d.isDigit = false) : c ≠ d := by
  rintro rfl
  rw [digit_false hd h] at hc
  cases hc

theorem port_spec {c : Char} (hc : c ∈ match e.port with
    | none => []
    | some port => ':' :: port) : c = ':' ∨ u.digit c = true := by
  cases hp : e.port with
  | none =>
    rw [hp] at hc
    cases hc
  | some port =>
    rw [hp] at hc
    exact (List.mem_cons.mp hc).imp_right (e.port_digits port hp c)

/-- In the host and the port there is nothing that a cut looks for but colons and brackets. -/
theorem authority_spec {c : Char} (hc : c ∈ e.authority) :
    u.Plain c ∧ isDelimiter c = false ∧ c ≠ '@' ∧ isSpace c = false := by
  rcases List.mem_append.mp hc with hhost | hport
  · obtain ⟨hascii,hspec⟩ := hostChars_spec c (e.host.mem_hostChars hhost)
    exact ⟨Or.inl hascii,hspec⟩
  · rcases e.port_spec hport with rfl | hdigit
    · exact ⟨Or.inl (by decide),by decide⟩
    · refine ⟨Or.inr hdigit,?_,ne_of_digit hdigit (by decide) (by decide),(u.digits c hdigit).2.2⟩
      have hsigns : ∀ d ∈ ['/','?','#'], d.toNat < 128 ∧ d.isDigit = false := List.all_iff_forall_prop.mp (by decide)
      rw [Bool.eq_false_iff]
      intro hdelim
      have hmem := of_decide_eq_true hdelim
      exact ne_of_digit hdigit (hsigns c hmem).1 (hsigns c hmem).2 rfl

theorem authority_ne_nil : e.authority ≠ [] := by
  intro h
  exact e.host.write_ne_nil (List.append_eq_nil_iff.mp h).1

theorem core_ne_nil : e.core ≠ [] := by
  unfold core
  split
  · exact e.authority_ne_nil
  · simp

theorem core_cut {c : Char} (hc : c ∈ e.core) : isDelimiter c = false := by
  unfold core at hc
  split at hc
  · exact (e.authority_spec hc).2.1
  · rename_i userinfo hu
    rcases List.mem_append.mp hc with huser | hrest
    · exact e.userinfo_cut userinfo hu c huser
    · rcases List.mem_cons.mp hrest with rfl | hrest
      · decide
      · exact (e.authority_spec hrest).2.1

theorem getLast?_core : e.core.getLast? = e.authority.getLast? := by
  unfold core
  split
  · rfl
  · rw [List.getLast?_append_of_ne_nil _ (List.cons_ne_nil _ _),List.getLast?_cons_of_ne_nil e.authority_ne_nil]

theorem core_last : ∃ c ∈ e.core.getLast?, isSpace c = false := by
  rw [getLast?_core]
  have hlast := List.getLast?_eq_some_getLast e.authority_ne_nil
  exact ⟨_,hlast,(e.authority_spec (List.getLast_mem _)).2.2.2⟩

theorem bare_of_last (h : e.authority.getLast? = some ':') : ∃ l, e.host = .bare l ∧ e.port = none := by
  unfold authority at h
  cases hp : e.port with
  | some port =>
    have hne := e.port_nonempty port hp
    rw [hp,List.getLast?_append_of_ne_nil _ (List.cons_ne_nil _ _),List.getLast?_cons_of_ne_nil hne] at h
    exact absurd rfl (ne_of_digit (e.port_digits port hp _ (List.mem_of_getLast? h)) (by decide) (by decide))
  | none =>
    rw [hp,List.append_nil] at h
    cases hh : e.host with
    | name n =>
      rw [hh] at h
      exact absurd (n.chars _ (List.mem_of_getLast? h)) (by decide)
    | bracketed l =>
      rw [hh,Host.write,← List.cons_append,List.getLast?_concat] at h
      exact absurd h (by decide)
    | bare l => exact ⟨l,rfl,rfl⟩

theorem colon_notMem_of_isScheme {p : List Char} (hp : isScheme p = true) : ':' ∉ p := by
  cases p with
  | nil => simp
  | cons c rest =>
    obtain ⟨hc,hall⟩ := Bool.and_eq_true_iff.mp hp
    intro hmem
    rcases List.mem_cons.mp hmem with rfl | hmem
    · revert hc
      decide
    · exact absurd (List.all_eq_true.mp hall _ hmem) (by decide)

/-- No part of an endpoint without a scheme looks like one: a bare address has a second colon. -/
theorem core_ne_scheme {p : List Char} (hp : isScheme p = true) : e.core.dropWhile isSpace ≠ p ++ [':'] := by
  intro h
  have hsplit := List.takeWhile_append_dropWhile (p := isSpace) (l := e.core)
  rw [h] at hsplit
  have hlast : e.core.getLast? = some ':' := by rw [← hsplit,← List.append_assoc,List.getLast?_concat]
  obtain ⟨l,hl,hport⟩ := e.bare_of_last (e.getLast?_core ▸ hlast)
  have hcore : e.core = l.text := by
    rw [core,(e.bare_alone l hl).1,authority,hl,hport]
    exact List.append_nil _
  have hcolons := l.two_le_count
  have hblank : ':' ∉ e.core.takeWhile isSpace := fun hmem => absurd (List.mem_takeWhile_imp hmem) (by decide)
  rw [← hcore,← hsplit,List.count_append,List.count_append,List.count_eq_zero.mpr hblank,
    List.count_eq_zero.mpr (colon_notMem_of_isScheme hp)] at hcolons
  simp at hcolons

theorem tail_head {c : Char} (hc : c ∈ ((e.tail ++ e.trailing).rdropWhile isSpace).head?) : isDelimiter c = true := by
  cases ht : e.tail with
  | nil =>
    rw [ht,List.nil_append,List.rdropWhile_eq_nil_iff.mpr e.trailing_blank] at hc
    cases hc
  | cons d rest =>
    have hdelim := e.tail_start d (by rw [ht]; rfl)
    have hspace : isSpace d = false := by
      have hsigns : ∀ x ∈ ['/','?','#'], isSpace x = false := List.all_iff_forall_prop.mp (by decide)
      exact hsigns d (of_decide_eq_true hdelim)
    have hdrop := rdropWhile_append_cons hspace [] (rest ++ e.trailing)
    rw [ht,List.cons_append] at hc
    rw [List.nil_append] at hdrop
    rw [hdrop] at hc
    exact Option.some.inj hc ▸ hdelim

theorem cutTail_append {a y : List Char} (ha : ∀ c ∈ a, isDelimiter c = false)
    (hy : ∀ c ∈ y.head?, isDelimiter c = true) :
    cutTail (a ++ y) = a := by
  unfold cutTail
  cases y with
  | nil => rw [List.append_nil]; exact cutTail_of_forall ha
  | cons d rest => exact takeWhile_append_cons (by simp [hy d rfl]) (fun c hc => by simp [ha c hc]) rest

theorem strip_of_last {a : List Char} (ha : ∃ c ∈ a.getLast?, isSpace c = false) : strip a = a.dropWhile isSpace := by
  have hstrip : strip ([] ++ (a ++ [])) = a.dropWhile isSpace ++ [].rdropWhile isSpace := strip_append (by simp) ha
  simpa using hstrip

theorem notMem_slash {a : List Char} (ha : ∀ c ∈ a, isDelimiter c = false) : '/' ∉ a := fun hmem =>
  absurd (ha _ hmem) (by decide)

theorem core_dropWhile_cut {c : Char} (hc : c ∈ e.core.dropWhile isSpace) : isDelimiter c = false :=
  e.core_cut ((List.dropWhile_suffix _).subset hc)

theorem strip_scheme {scheme : List Char} (hs : e.scheme = some scheme) : strip e.write =
    scheme.dropWhile isSpace ++ ':' :: '/' :: '/' :: (e.core ++ (e.tail ++ e.trailing).rdropWhile isSpace) := by
  have hlast : ∃ c ∈ (scheme ++ ':' :: '/' :: '/' :: e.core).getLast?, isSpace c = false := by
    have hne := e.core_ne_nil
    rw [List.getLast?_append_of_ne_nil _ (List.cons_ne_nil _ _),List.getLast?_cons_of_ne_nil (by simp),
      List.getLast?_cons_of_ne_nil (by simp),List.getLast?_cons_of_ne_nil hne]
    exact e.core_last
  have hstrip : strip (e.leading ++ ((scheme ++ ':' :: '/' :: '/' :: e.core) ++ (e.tail ++ e.trailing))) = _ :=
    strip_append e.leading_blank hlast
  rw [dropWhile_append_cons (by decide)] at hstrip
  rw [write,hs]
  simpa using hstrip

theorem sanitizeHost_write (h : ∀ scheme ∈ e.scheme, isScheme (scheme.dropWhile isSpace) = true) :
    sanitizeHost u e.write = bracketIpv6 (u.lower (e.core.dropWhile isSpace)) := by
  have htail : ∀ c ∈ ((e.tail ++ e.trailing).rdropWhile isSpace).head?, isDelimiter c = true :=
    fun c hc => e.tail_head hc
  cases hs : e.scheme with
  | none =>
    have hstrip : strip e.write = e.core.dropWhile isSpace ++ (e.tail ++ e.trailing).rdropWhile isSpace := by
      rw [write,hs,List.nil_append]
      exact strip_append e.leading_blank e.core_last
    rw [sanitizeHost,hstrip,dropScheme_append (notMem_slash (fun c hc => e.core_dropWhile_cut hc)) htail
      (fun p hp => e.core_ne_scheme hp),cutTail_append (fun c hc => e.core_dropWhile_cut hc) htail,
      ← strip_of_last e.core_last,(trimmed_strip _).strip_eq]
  | some scheme =>
    rw [sanitizeHost,e.strip_scheme hs,dropScheme_append_of_isScheme (h scheme hs),
      cutTail_append (fun c hc => e.core_cut hc) htail,strip_of_last e.core_last]

theorem sanitizeHost_write_of_not {scheme : List Char} (hs : e.scheme = some scheme)
    (h : isScheme (scheme.dropWhile isSpace) = false) :
    sanitizeHost u e.write = bracketIpv6 (u.lower (scheme.dropWhile isSpace ++ [':'])) := by
  have hcut : ∀ c ∈ scheme.dropWhile isSpace ++ [':'], isDelimiter c = false := by
    intro c hc
    rcases List.mem_append.mp hc with hc | hc
    · exact e.scheme_cut scheme hs c ((List.dropWhile_suffix _).subset hc)
    · obtain rfl := List.mem_singleton.mp hc
      decide
  have hstrip := e.strip_scheme hs
  rw [← List.singleton_append,← List.append_assoc] at hstrip
  have hscheme : ∀ p, isScheme p = true → scheme.dropWhile isSpace ++ [':'] ≠ p ++ [':'] := by
    intro p hp heq
    rw [List.append_cancel_right heq,hp] at h
    cases h
  rw [sanitizeHost,hstrip,dropScheme_append (notMem_slash hcut) (by simp; decide) hscheme,
    cutTail_append hcut (by simp; decide),strip_of_last ⟨':',List.getLast?_concat,by decide⟩,
    dropWhile_append_cons (by decide),List.dropWhile_idempotent]

end Endpoint
end TruenasCE.Hosts
