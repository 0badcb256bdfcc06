import TruenasCE.Hosts.Spelling

/-! # Which endpoints are recognised by their host -/
namespace TruenasCE.Hosts
open Library TruenasCE.Flow
variable {u : Unicode}

namespace Endpoint
variable (e : Endpoint u)

theorem hostWithoutPort_append (x s : List Char) (hs : '@' ∉ s) :
    hostWithoutPort u (x ++ '@' :: s) = withoutPort u s := by
  rw [hostWithoutPort,dropUserinfo_append hs]

theorem hostWithoutPort_of_notMem {s : List Char} (hs : '@' ∉ s) : hostWithoutPort u s = withoutPort u s := by
  rw [hostWithoutPort,dropUserinfo_of_notMem hs]

theorem hostWithoutPort_lowered : hostWithoutPort u (bracketIpv6 e.lowered) = e.host.key := by
  cases hh : e.host with
  | name n =>
    rw [bracketIpv6,e.not_ipv6Address_name hh,if_neg (by simp),hostWithoutPort_of_notMem e.at_notMem_lowered,
      withoutPort_name hh,hh]
  | bracketed l =>
    have hread := withoutPort_bracketed hh []
    rw [List.append_nil] at hread
    rw [bracketIpv6,e.not_ipv6Address_bracketed hh,if_neg (by simp),hostWithoutPort_of_notMem e.at_notMem_lowered,
      hread,hh]
  | bare l =>
    have hat : '@' ∉ '[' :: (e.lowered ++ [']']) := by
      simpa using e.at_notMem_lowered
    rw [bracketIpv6,if_pos (ipv6Address_bare hh),hostWithoutPort_of_notMem hat,withoutPort_bare hh,hh]

theorem hostWithoutPort_userinfo {userinfo x : List Char} (hu : e.userinfo = some userinfo)
    (hx : u.Lowers (userinfo.dropWhile isSpace) x) :
    hostWithoutPort u (bracketIpv6 (x ++ '@' :: e.lowered)) = e.host.key ↔ ¬ e.Confusable := by
  have hat : '@' ∉ e.lowered ++ [']'] := by
    simpa using e.at_notMem_lowered
  have hplain := hostWithoutPort_append (u := u) x e.lowered e.at_notMem_lowered
  have hclosed := hostWithoutPort_append (u := u) ('[' :: x) (e.lowered ++ [']']) hat
  rw [bracketIpv6]
  cases hh : e.host with
  | name n =>
    have hiff : ipv6Address (x ++ '@' :: e.lowered) = true ↔ e.Confusable := by
      rw [e.ipv6Address_userinfo_iff hh hu hx]
      constructor
      · rintro ⟨a,z,hsplit⟩
        exact ⟨n,hh,userinfo,hu,a,z,hsplit⟩
      · rintro ⟨_,_,userinfo',hu',hsplit⟩
        obtain rfl : userinfo = userinfo' := Option.some.inj (hu.symm.trans hu')
        exact hsplit
    rw [← hiff,← hh]
    by_cases hip : ipv6Address (x ++ '@' :: e.lowered) = true
    · rw [if_pos hip,List.append_assoc,List.cons_append,← List.cons_append,hclosed]
      simpa [hip] using withoutPort_name_bracket hh
    · rw [if_neg hip,hplain,withoutPort_name hh]
      simp [hip]
  | bracketed l =>
    have hread := withoutPort_bracketed (e := e) hh
    have hopen := hread []
    rw [List.append_nil] at hopen
    have hnot : ¬ e.Confusable := by
      rintro ⟨n,hn,_⟩
      rw [hh] at hn
      cases hn
    rw [← hh]
    refine iff_of_true ?_ hnot
    split
    · rw [List.append_assoc,List.cons_append,← List.cons_append,hclosed,hread]
    · rw [hplain,hopen]
  | bare l =>
    rw [(e.bare_alone l hh).1] at hu
    cases hu

theorem hostWithoutPort_scheme_iff (h : ∀ scheme ∈ e.scheme, isScheme (scheme.dropWhile isSpace) = true) :
    hostWithoutPort u (sanitizeHost u e.write) = e.host.key ↔ ¬ e.Confusable := by
  rw [e.sanitizeHost_write h]
  rcases e.lower_core with ⟨hu,hlower⟩ | ⟨userinfo,x,hu,hx,hlower⟩
  · rw [hlower]
    refine iff_of_true e.hostWithoutPort_lowered ?_
    rintro ⟨_,_,userinfo,hu',_⟩
    rw [hu] at hu'
    cases hu'
  · rw [hlower]
    exact e.hostWithoutPort_userinfo hu hx

end Endpoint

/-- The text is the host, up to a closing bracket. -/
def Closed (s key : List Char) : Prop := ∃ rest, s = key ++ rest ∧ ∀ c ∈ rest.head?, c = ']'

/-- The text in front of the "://", in lower case and with the colon, spells the host itself: behind its
last "@", in brackets or as it is, or as an address with a scope. -/
def Spells (t key : List Char) : Prop :=
  (∃ x v, t = x ++ v ∧ (x = [] ∨ x.getLast? = some '@') ∧ '@' ∉ v ∧
    ((∃ s, v = '[' :: s ∧ Closed s key) ∨ (v = key ∧ ipv6Address t = false))) ∨
  ('@' ∉ t ∧ ipv6Address t = true ∧ Closed t key)

theorem takeWhile_eq_iff {s key : List Char} (hkey : ']' ∉ key) : s.takeWhile (· ≠ ']') = key ↔ Closed s key := by
  constructor
  · rintro rfl
    refine ⟨s.dropWhile (· ≠ ']'),List.takeWhile_append_dropWhile.symm,fun c hc => ?_⟩
    have := List.head?_dropWhile_not (· ≠ ']') s
    rw [Option.mem_def.mp hc] at this
    simpa using this
  · rintro ⟨rest,rfl,hrest⟩
    have hall : ∀ c ∈ key, decide (c ≠ ']') = true := fun c hc => decide_eq_true (fun h => hkey (h ▸ hc))
    cases rest with
    | nil => rw [List.append_nil]; exact List.takeWhile_eq_self_iff.mpr hall
    | cons c rest => exact takeWhile_append_cons (by simp [hrest c rfl]) hall rest

theorem exists_userinfo (t : List Char) : ∃ x v, t = x ++ v ∧ (x = [] ∨ x.getLast? = some '@') ∧ '@' ∉ v := by
  by_cases ht : '@' ∈ t
  · obtain ⟨a,b,hsplit,ha⟩ := List.eq_append_cons_of_mem (List.mem_reverse.mpr ht)
    refine ⟨b.reverse ++ ['@'],a.reverse,?_,Or.inr List.getLast?_concat,by simpa using ha⟩
    rw [← List.reverse_reverse t,hsplit]
    simp
  · exact ⟨[],t,rfl,Or.inl rfl,ht⟩

theorem dropUserinfo_of_userinfo {x v : List Char} (hx : x = [] ∨ x.getLast? = some '@') (hv : '@' ∉ v) :
    dropUserinfo (x ++ v) = v := by
  rcases hx with rfl | hx
  · exact dropUserinfo_of_notMem hv
  · obtain ⟨x,rfl⟩ := List.getLast?_eq_some_iff.mp hx
    rw [List.append_assoc]
    exact dropUserinfo_append hv x

theorem withoutPort_of_not_port {s port : List Char} {c : Char} (hs : (s ++ ':' :: port).head? ≠ some '[')
    (hcolon : ':' ∉ port) (hport : port = [] ∨ ∃ d ∈ port, u.digit d = false) (hlast : (':' :: port).getLast? = some c)
    (hc : c ≠ '.') : withoutPort u (s ++ ':' :: port) = s ++ ':' :: port := by
  have hnot : ¬ (port ≠ [] ∧ port.all u.digit = true) := by
    rintro ⟨hne,hall⟩
    rcases hport with rfl | ⟨d,hd,hdigit⟩
    · exact hne rfl
    · rw [List.all_eq_true.mp hall d hd] at hdigit
      cases hdigit
  rw [withoutPort_append hs hcolon,if_neg hnot,List.rdropWhile_eq_self_iff]
  intro hne hdot
  have hget := List.getLast?_eq_some_getLast hne
  rw [of_decide_eq_true hdot,List.getLast?_append_of_ne_nil _ (List.cons_ne_nil _ _),hlast] at hget
  exact hc (Option.some.inj hget)

theorem mem_key {host : Host} {c : Char} (hc : c ∈ host.key) : c ∈ literalChars := by
  have hmem := (List.rdropWhile_prefix _ _).subset hc
  cases host with
  | name n => exact List.mem_append_left _ (Endpoint.nameChars_toLower hmem)
  | bracketed l => exact Endpoint.literalChars_toLower hmem
  | bare l => exact Endpoint.literalChars_toLower hmem

section Spells
variable {t key : List Char} (hlast : t.getLast? = some ':') (hkey : ∀ c ∈ key, c ∈ literalChars)
include hkey

theorem withoutPort_open {s : List Char} : withoutPort u ('[' :: s) = key ↔ Closed s key := by
  rw [withoutPort,List.head?_cons,if_pos rfl,List.tail_cons]
  exact takeWhile_eq_iff (fun h => absurd (hkey _ h) (by decide))

theorem open_ne_key (s : List Char) : '[' :: s ≠ key := fun h =>
  absurd (hkey '[' (h ▸ List.mem_cons_self ..)) (by decide)

theorem closed_concat {s : List Char} : Closed (s ++ [']']) key ↔ Closed s key := by
  have hnot : ']' ∉ key := fun h => absurd (hkey _ h) (by decide)
  have htake : (s ++ [']']).takeWhile (· ≠ ']') = s.takeWhile (· ≠ ']') := by
    rw [List.takeWhile_append]
    split
    · rename_i hall
      rw [List.takeWhile_cons,if_neg (by simp),List.append_nil,(List.takeWhile_prefix _).eq_of_length hall]
    · rfl
  rw [← takeWhile_eq_iff hnot,← takeWhile_eq_iff hnot,htake]

/-- The last part of a text that ends with a colon is read as it is, or between brackets. -/
theorem withoutPort_concat_colon (w : List Char) : withoutPort u (w ++ [':']) = key ↔
    (∃ s, w ++ [':'] = '[' :: s ∧ Closed s key) ∨ w ++ [':'] = key := by
  by_cases hhead : (w ++ [':']).head? = some '['
  · obtain ⟨s,hs⟩ := List.head?_eq_some_iff.mp hhead
    rw [hs,withoutPort_open hkey]
    constructor
    · exact fun h => Or.inl ⟨s,rfl,h⟩
    · rintro (⟨s',heq,h⟩ | h)
      · rwa [(List.cons.inj heq).2]
      · exact absurd h (open_ne_key hkey s)
  · rw [withoutPort_of_not_port hhead (by simp) (Or.inl rfl) rfl (by decide)]
    constructor
    · exact Or.inr
    · rintro (⟨s,heq,_⟩ | h)
      · exact absurd (by rw [heq]; rfl) hhead
      · exact h

theorem withoutPort_concat_bracket (w : List Char) : withoutPort u (w ++ [':'] ++ [']']) = key ↔
    ∃ s, w ++ [':'] = '[' :: s ∧ Closed s key := by
  by_cases hhead : (w ++ [':']).head? = some '['
  · obtain ⟨s,hs⟩ := List.head?_eq_some_iff.mp hhead
    rw [hs,List.cons_append,withoutPort_open hkey,closed_concat hkey]
    constructor
    · exact fun h => ⟨s,rfl,h⟩
    · rintro ⟨s',heq,h⟩
      rwa [(List.cons.inj heq).2]
  · have hhead' : (w ++ ':' :: [']']).head? ≠ some '[' := by
      cases w with
      | nil => exact hhead
      | cons c rest => exact hhead
    have hdigit : u.digit ']' = false := Endpoint.digit_false (by decide) (by decide)
    rw [List.append_assoc,List.singleton_append,
      withoutPort_of_not_port hhead' (by decide) (Or.inr ⟨']',by simp,hdigit⟩) rfl (by decide)]
    refine iff_of_false (fun h => ?_) ?_
    · exact absurd (hkey ']' (h ▸ by simp)) (by decide)
    · rintro ⟨s,heq,_⟩
      exact absurd (by rw [heq]; rfl) hhead

omit hkey in
theorem spells_iff {x v : List Char} (hx : x = [] ∨ x.getLast? = some '@') (hv : '@' ∉ v) : Spells (x ++ v) key ↔
    ((∃ s, v = '[' :: s ∧ Closed s key) ∨ (v = key ∧ ipv6Address (x ++ v) = false)) ∨
      ('@' ∉ x ++ v ∧ ipv6Address (x ++ v) = true ∧ Closed (x ++ v) key) := by
  refine or_congr_left ⟨?_,fun h => ⟨x,v,rfl,hx,hv,h⟩⟩
  rintro ⟨x',v',heq,hx',hv',h⟩
  have hpart := dropUserinfo_of_userinfo hx hv
  rw [heq,dropUserinfo_of_userinfo hx' hv'] at hpart
  exact hpart ▸ h

include hlast

theorem hostWithoutPort_iff_spells : hostWithoutPort u (bracketIpv6 t) = key ↔ Spells t key := by
  obtain ⟨x,v,rfl,hx,hv⟩ := exists_userinfo t
  have hne : v ≠ [] := by
    rintro rfl
    rw [List.append_nil] at hlast
    rcases hx with rfl | hx
    · cases hlast
    · rw [hx] at hlast
      exact absurd hlast (by decide)
  rw [List.getLast?_append_of_ne_nil _ hne] at hlast
  obtain ⟨w,rfl⟩ := List.getLast?_eq_some_iff.mp hlast
  rw [spells_iff hx hv]
  cases hip : ipv6Address (x ++ (w ++ [':'])) with
  | false =>
    rw [bracketIpv6,hip,if_neg (by simp),hostWithoutPort,dropUserinfo_of_userinfo hx hv,withoutPort_concat_colon hkey]
    simp
  | true =>
    rw [bracketIpv6,hip,if_pos rfl]
    rcases hx with rfl | hx
    · -- the whole text is in brackets, so it begins with none
      have hat : '@' ∉ '[' :: (w ++ [':'] ++ [']']) := by simpa using hv
      rw [List.nil_append] at hip ⊢
      rw [Endpoint.hostWithoutPort_of_notMem hat,withoutPort_open hkey,closed_concat hkey]
      constructor
      · exact fun h => Or.inr ⟨hv,rfl,h⟩
      · rintro ((⟨s,heq,_⟩ | ⟨_,hip'⟩) | ⟨_,_,hclosed⟩)
        · rw [heq,not_ipv6Address_bracket] at hip
          cases hip
        · cases hip'
        · exact hclosed
    · have hbracket : '@' ∉ w ++ [':'] ++ [']'] := by simpa using hv
      have hx' : ('[' :: x).getLast? = some '@' := by
        obtain ⟨y,rfl⟩ := List.getLast?_eq_some_iff.mp hx
        rw [← List.cons_append,List.getLast?_concat]
      have hmem : '@' ∈ x ++ (w ++ [':']) := List.mem_append_left _ (List.mem_of_getLast? hx)
      rw [hostWithoutPort,List.append_assoc,← List.cons_append,dropUserinfo_of_userinfo (Or.inr hx') hbracket,
        withoutPort_concat_bracket hkey]
      simp [hmem]

end Spells

namespace Endpoint
variable (e : Endpoint u)

/-- An endpoint with a scheme that is none of a URL spells its host in front of the "://". Any other is no
name behind the scope of an address. -/
structure Clear : Prop where
  scheme : ∀ scheme ∈ e.scheme, isScheme (scheme.dropWhile isSpace) = false →
    Spells (u.lower (scheme.dropWhile isSpace ++ [':'])) e.host.key
  userinfo : (∀ scheme ∈ e.scheme, isScheme (scheme.dropWhile isSpace) = true) → ¬ e.Confusable

theorem hostWithoutPort_of_not_scheme {scheme : List Char} (hs : e.scheme = some scheme)
    (h : isScheme (scheme.dropWhile isSpace) = false) : hostWithoutPort u (sanitizeHost u e.write) = e.host.key ↔
      Spells (u.lower (scheme.dropWhile isSpace ++ [':'])) e.host.key := by
  have hlast : (u.lower (scheme.dropWhile isSpace ++ [':'])).getLast? = some ':' := by
    obtain ⟨t,rest,ht,_,hrest⟩ := (u.lowers_lower (scheme.dropWhile isSpace ++ [':'])).split
    have hcolon := hrest.plain (fun c hc => Or.inl (List.mem_singleton.mp hc ▸ by decide))
    rw [ht,hcolon]
    exact List.getLast?_concat
  rw [e.sanitizeHost_write_of_not hs h]
  exact hostWithoutPort_iff_spells hlast (fun _ hc => mem_key hc)

theorem recognised_of_cases : hostWithoutPort u (sanitizeHost u e.write) = e.host.key ↔ e.Clear := by
  by_cases h : ∀ scheme ∈ e.scheme, isScheme (scheme.dropWhile isSpace) = true
  · rw [e.hostWithoutPort_scheme_iff h]
    constructor
    · intro hclear
      refine ⟨fun scheme hs hnot => ?_,fun _ => hclear⟩
      rw [h scheme hs] at hnot
      cases hnot
    · exact fun hclear => hclear.userinfo h
  · obtain ⟨scheme,hs,hnot⟩ : ∃ scheme ∈ e.scheme, isScheme (scheme.dropWhile isSpace) = false := by simpa using h
    rw [e.hostWithoutPort_of_not_scheme hs hnot]
    constructor
    · intro hspells
      refine ⟨fun scheme' hs' _ => ?_,fun hall => absurd hall h⟩
      obtain rfl : scheme = scheme' := Option.some.inj (hs.symm.trans hs')
      exact hspells
    · exact fun hclear => hclear.scheme scheme hs hnot

end Endpoint

/-- Sanitizing twice is sanitizing once, and an endpoint leads to its host exactly if it is clear. -/
theorem recognised_iff (u : Unicode) :
    (∀ s, sanitizeHost u (sanitizeHost u s) = sanitizeHost u s) ∧
      ∀ e : Endpoint u, hostWithoutPort u (sanitizeHost u e.write) = e.host.key ↔ e.Clear :=
  ⟨sanitizeHost_sanitizeHost u,fun e => e.recognised_of_cases⟩

def asciiTables : Unicode where
  lowerCase c := [c.toLower]
  cased := Char.isAlpha
  caseIgnorable c := c ∈ ['\'','.',':','^']
  digit := Char.isDigit
  ascii _ _ := rfl
  stable := by
    intro c hc d hd
    obtain rfl := List.mem_singleton.mp hd
    refine ⟨fun h => hc ((toLower_eq_iff (by decide) (by decide)).mp h),?_⟩
    rw [toLower_congr (p := Char.toLower) (List.all_iff_forall_prop.mp (by decide))]
  sigmas := List.all_iff_forall_prop.mp (by decide)
  nonempty _ := List.cons_ne_nil _ _
  foreign := by
    intro c hc d hd hascii
    obtain rfl := List.mem_singleton.mp hd
    have hcapitals : ∀ x ∈ capitals, x.toNat < 128 := List.all_iff_forall_prop.mp (by decide)
    rcases toLower_eq_or_mem c with heq | hcap
    · rw [heq] at hascii
      omega
    · have := hcapitals c hcap
      omega
  space := by
    intro c d hd
    obtain rfl := List.mem_singleton.mp hd
    exact toLower_congr (List.all_iff_forall_prop.mp (by decide)) c
  asciiDigit _ _ := rfl
  digits := by
    intro c hc
    have hall : ∀ d ∈ "0123456789".toList, d ≠ 'Σ' ∧ [d.toLower] = [d] ∧ isSpace d = false :=
      List.all_iff_forall_prop.mp (by decide)
    exact hall c (mem_of_isDigit hc)

/-- A user whose name ends an IPv6 address with a scope. -/
def scopedLogin : Endpoint asciiTables where
  userinfo := some "::1%ab".toList
  host := .name ⟨"nas.local".toList,by decide,List.all_iff_forall_prop.mp (by decide)⟩
  leading_blank := by simp
  scheme_cut := by simp
  userinfo_cut := by
    rintro _ ⟨rfl⟩
    exact List.all_iff_forall_prop.mp (by decide)
  port_nonempty := by simp
  port_digits := by simp
  tail_start := by simp
  trailing_blank := by simp
  bare_alone := by simp

/-- The whole text is bracketed as an address, and the bracket stays with the name. -/
theorem not_recognised_of_scope : ¬ ∀ u : Unicode, (∀ s, sanitizeHost u (sanitizeHost u s) = sanitizeHost u s) ∧
    ∀ e : Endpoint u, hostWithoutPort u (sanitizeHost u e.write) = e.host.key := by
  intro hall
  have hhost := (hall asciiTables).2 scopedLogin
  revert hhost
  decide

end TruenasCE.Hosts
