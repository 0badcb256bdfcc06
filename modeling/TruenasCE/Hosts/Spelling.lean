import TruenasCE.Hosts.Endpoints

/-! # The host that is read out of a sanitized endpoint

Which spellings of an endpoint lead to its host.
-/
namespace TruenasCE.Hosts
open Library TruenasCE.Flow
variable {u : Unicode}

theorem dropUserinfo_of_notMem {s : List Char} (hs : '@' ∉ s) : dropUserinfo s = s := by
  have hnone : rpartition ['@'] s = none :=
    (rpartition_eq_none_iff (by simp)).mpr (fun h => hs (h.subset (by simp)))
  rw [dropUserinfo,hnone]

theorem dropUserinfo_append {s : List Char} (hs : '@' ∉ s) (x : List Char) : dropUserinfo (x ++ '@' :: s) = s := by
  rw [dropUserinfo,rpartition_singleton_append hs]

theorem withoutPort_bracket {s : List Char} (hs : ']' ∉ s) (rest : List Char) :
    withoutPort u ('[' :: (s ++ ']' :: rest)) = s := by
  rw [withoutPort,List.head?_cons,if_pos rfl,List.tail_cons]
  have hall : ∀ c ∈ s, decide (c ≠ ']') = true := fun c hc => decide_eq_true (fun h => hs (h ▸ hc))
  exact takeWhile_append_cons (by simp) hall rest

theorem withoutPort_of_colon {s : List Char} (hs : s.head? ≠ some '[') (hcolon : ':' ∉ s) :
    withoutPort u s = s.rdropWhile (· = '.') := by
  have hnone : rpartition [':'] s = none :=
    (rpartition_eq_none_iff (by simp)).mpr (fun h => hcolon (h.subset (by simp)))
  rw [withoutPort,if_neg hs,hnone]

theorem withoutPort_append {s port : List Char} (hs : (s ++ ':' :: port).head? ≠ some '[') (hcolon : ':' ∉ port) :
    withoutPort u (s ++ ':' :: port) =
      (if port ≠ [] ∧ port.all u.digit then s else s ++ ':' :: port).rdropWhile (· = '.') := by
  rw [withoutPort,if_neg hs,rpartition_singleton_append hcolon]

theorem toLower_of_digit {c : Char} (hc : u.digit c = true) : c.toLower = c := by
  have himage := u.image_lowerChar (c := c) [] []
  have hout := himage.digit hc
  rw [himage.plain (Or.inr hc)] at hout
  exact List.singleton_inj.mp hout

namespace Endpoint
variable (e : Endpoint u)

def lowered : List Char := e.authority.map Char.toLower

theorem lower_core : (e.userinfo = none ∧ u.lower (e.core.dropWhile isSpace) = e.lowered) ∨
    ∃ userinfo x, e.userinfo = some userinfo ∧ u.Lowers (userinfo.dropWhile isSpace) x ∧
      u.lower (e.core.dropWhile isSpace) = x ++ '@' :: e.lowered := by
  cases hu : e.userinfo with
  | none =>
    have hcore : e.core.dropWhile isSpace = e.authority := by
      rw [core,hu]
      cases ha : e.authority with
      | nil => rfl
      | cons c rest =>
        have hspace := (e.authority_spec (c := c) (by rw [ha]; simp)).2.2.2
        rw [List.dropWhile_cons,if_neg (by simp [hspace])]
    rw [hcore]
    exact Or.inl ⟨rfl,(u.lowers_lower _).plain (fun c hc => (e.authority_spec hc).1)⟩
  | some userinfo =>
    have hcore : e.core.dropWhile isSpace = userinfo.dropWhile isSpace ++ '@' :: e.authority := by
      rw [core,hu]
      exact dropWhile_append_cons (by decide) _ _
    obtain ⟨x,rest,ht,hx,hrest⟩ := (u.lowers_lower (userinfo.dropWhile isSpace ++ '@' :: e.authority)).split
    have hplain : ∀ c ∈ '@' :: e.authority, u.Plain c := by
      intro c hc
      rcases List.mem_cons.mp hc with rfl | hc
      · exact Or.inl (by decide)
      · exact (e.authority_spec hc).1
    refine Or.inr ⟨userinfo,x,rfl,hx,?_⟩
    rw [hcore,ht,hrest.plain hplain]
    rfl

theorem lowered_eq : e.lowered = e.host.write.map Char.toLower ++ match e.port with
    | none => []
    | some port => ':' :: port := by
  rw [lowered,authority,List.map_append]
  congr 1
  cases hp : e.port with
  | none => rfl
  | some port =>
    rw [List.map_cons,(List.map_congr_left (fun c hc => toLower_of_digit (e.port_digits port hp c hc))).trans
      (List.map_id' port)]
    rfl

theorem at_notMem_lowered : '@' ∉ e.lowered := by
  rw [lowered,mem_toLower (by decide) (by decide)]
  exact fun hmem => (e.authority_spec hmem).2.2.1 rfl

theorem colon_notMem_port {port : List Char} (hp : e.port = some port) : ':' ∉ port := fun hmem =>
  ne_of_digit (e.port_digits port hp _ hmem) (by decide) (by decide) rfl

theorem port_all {port : List Char} (hp : e.port = some port) : port ≠ [] ∧ port.all u.digit = true :=
  ⟨e.port_nonempty port hp,List.all_eq_true.mpr (e.port_digits port hp)⟩

section Name
variable {e} {n : Name} (hn : e.host = .name n)
include hn

theorem lowered_name : e.lowered = n.text.map Char.toLower ++ match e.port with
    | none => []
    | some port => ':' :: port := by
  rw [lowered_eq,hn]
  rfl

omit hn in
theorem nameChars_toLower {c : Char} (hc : c ∈ n.text.map Char.toLower) : c ∈ nameChars := by
  obtain ⟨d,hd,rfl⟩ := List.mem_map.mp hc
  have hlower : ∀ x ∈ nameChars, x.toLower ∈ nameChars := List.all_iff_forall_prop.mp (by decide)
  exact hlower d (n.chars d hd)

omit hn in
theorem head_name : (n.text.map Char.toLower).head? ≠ some '[' := fun h =>
  absurd (nameChars_toLower (List.mem_of_head? h)) (by decide)

omit hn in
theorem head_name_append (rest : List Char) : (n.text.map Char.toLower ++ rest).head? ≠ some '[' := by
  rw [List.head?_append_of_ne_nil _ (fun h => n.nonempty (List.map_eq_nil_iff.mp h))]
  exact head_name

theorem withoutPort_name : withoutPort u e.lowered = e.host.key := by
  rw [lowered_name hn,hn]
  cases hp : e.port with
  | none =>
    rw [List.append_nil,withoutPort_of_colon head_name (fun h => absurd (nameChars_toLower h) (by decide))]
    rfl
  | some port =>
    rw [withoutPort_append (head_name_append _) (e.colon_notMem_port hp),if_pos (e.port_all hp)]
    rfl

theorem withoutPort_name_bracket : withoutPort u (e.lowered ++ [']']) ≠ e.host.key := by
  have hkey : ']' ∉ e.host.key := by
    intro hmem
    rw [hn] at hmem
    exact absurd (nameChars_toLower ((List.rdropWhile_prefix _ _).subset hmem)) (by decide)
  intro h
  rw [← h,lowered_name hn] at hkey
  apply hkey
  cases hp : e.port with
  | none =>
    rw [List.append_nil,withoutPort_of_colon (head_name_append _) (by
      intro h
      rcases List.mem_append.mp h with h | h
      · exact absurd (nameChars_toLower h) (by decide)
      · exact absurd h (by decide)),List.rdropWhile_concat_neg _ _ _ (by decide)]
    simp
  | some port =>
    have hport : ':' ∉ port ++ [']'] := by
      simpa using e.colon_notMem_port hp
    rw [List.append_assoc,List.cons_append,withoutPort_append (head_name_append _) hport,if_neg (by
      rintro ⟨_,hall⟩
      have hdigit := List.all_eq_true.mp hall ']' (by simp)
      rw [digit_false (by decide) (by decide)] at hdigit
      cases hdigit),← List.cons_append,← List.append_assoc,List.rdropWhile_concat_neg _ _ _ (by decide)]
    simp

end Name

section Literal
variable {e} {l : Literal}

omit e in
theorem literalChars_toLower {c : Char} (hc : c ∈ l.text.map Char.toLower) : c ∈ literalChars := by
  obtain ⟨d,hd,rfl⟩ := List.mem_map.mp hc
  have hlower : ∀ x ∈ literalChars, x.toLower ∈ literalChars := List.all_iff_forall_prop.mp (by decide)
  exact hlower d (l.mem_literalChars hd)

theorem bracket_notMem_literal : ']' ∉ l.text.map Char.toLower := fun h =>
  absurd (literalChars_toLower h) (by decide)

theorem getLast?_literal : l.text.getLast? ≠ some '.' := by
  have haddress := getLast?_of_ipIntFromString l.valid
  unfold Literal.text
  cases hz : l.zone with
  | none => rwa [List.append_nil]
  | some zone =>
    have hlast := l.last zone hz
    rwa [List.getLast?_append_of_ne_nil _ (List.cons_ne_nil _ _),List.getLast?_cons_of_ne_nil (l.nonempty zone hz)]

theorem rdropWhile_literal : (l.text.map Char.toLower).rdropWhile (· = '.') = l.text.map Char.toLower := by
  rw [List.rdropWhile_eq_self_iff]
  intro hne hdot
  have hlast := List.getLast?_eq_some_getLast hne
  rw [of_decide_eq_true hdot,List.getLast?_map,Option.map_eq_some_iff] at hlast
  obtain ⟨c,hc,hlower⟩ := hlast
  rw [toLower_eq_iff (by decide) (by decide)] at hlower
  exact getLast?_literal (hlower ▸ hc)

theorem withoutPort_bracketed (hl : e.host = .bracketed l) (rest : List Char) :
    withoutPort u (e.lowered ++ rest) = e.host.key := by
  have hwrite : e.host.write.map Char.toLower = '[' :: (l.text.map Char.toLower ++ [']']) := by
    rw [hl,Host.write,List.map_cons,List.map_append]
    rfl
  have hkey : e.host.key = l.text.map Char.toLower := by
    rw [hl]
    exact rdropWhile_literal
  rw [lowered_eq,hwrite,hkey]
  simp only [List.cons_append,List.append_assoc,List.nil_append]
  exact withoutPort_bracket bracket_notMem_literal _

theorem lowered_bare (hl : e.host = .bare l) : e.lowered = l.text.map Char.toLower := by
  rw [lowered_eq,(e.bare_alone l hl).2,hl]
  exact List.append_nil _

theorem withoutPort_bare (hl : e.host = .bare l) : withoutPort u ('[' :: (e.lowered ++ [']'])) = e.host.key := by
  rw [lowered_bare hl,withoutPort_bracket bracket_notMem_literal [],hl]
  exact rdropWhile_literal.symm

theorem ipv6Address_bare (hl : e.host = .bare l) : ipv6Address e.lowered = true := by
  have hvalid : ipIntFromString (l.address.map Char.toLower) = true := by
    rw [ipIntFromString_toLower]
    exact l.valid
  have hslash : '/' ∉ l.text.map Char.toLower := fun h => absurd (literalChars_toLower h) (by decide)
  have hpercent := notMem_of_ipIntFromString (d := '%') hvalid (by decide)
  rw [lowered_bare hl]
  rw [Literal.text,List.map_append] at hslash ⊢
  cases hz : l.zone with
  | none =>
    rw [hz,List.map_nil,List.append_nil] at hslash
    rw [List.map_nil,List.append_nil,ipv6Address_iff_of_notMem hpercent]
    exact ⟨hslash,hvalid⟩
  | some zone =>
    rw [hz] at hslash
    refine (ipv6Address_scoped_iff hpercent).mpr ⟨hslash,⟨?_,?_⟩,hvalid⟩
    · exact fun h => l.nonempty zone hz (List.map_eq_nil_iff.mp h)
    · rw [mem_toLower (by decide) (by decide)]
      exact fun h => absurd (l.chars zone hz _ h) (by decide)

end Literal

theorem not_ipv6Address_bracketed {l : Literal} (hl : e.host = .bracketed l) : ipv6Address e.lowered = false := by
  rw [lowered_eq,hl]
  exact not_ipv6Address_bracket _

theorem percent_notMem_name {n : Name} (hn : e.host = .name n) : '%' ∉ e.lowered := by
  rw [lowered_name hn]
  intro h
  rcases List.mem_append.mp h with h | h
  · exact absurd (nameChars_toLower h) (by decide)
  · rcases e.port_spec h with h | h
    · exact absurd h (by decide)
    · exact ne_of_digit h (by decide) (by decide) rfl

theorem not_ipv6Address_name {n : Name} (hn : e.host = .name n) : ipv6Address e.lowered = false := by
  rw [Bool.eq_false_iff]
  intro h
  have hcolons := two_le_count_of_ipIntFromString ((ipv6Address_iff_of_notMem (e.percent_notMem_name hn)).mp h).2
  have hname : (n.text.map Char.toLower).count ':' = 0 :=
    List.count_eq_zero.mpr (fun hmem => absurd (nameChars_toLower hmem) (by decide))
  rw [lowered_name hn,List.count_append,hname] at hcolons
  cases hp : e.port with
  | none =>
    rw [hp] at hcolons
    simp at hcolons
  | some port =>
    rw [hp] at hcolons
    simp only [List.count_cons_self,List.count_eq_zero.mpr (e.colon_notMem_port hp)] at hcolons
    omega

theorem slash_notMem_lowered : '/' ∉ e.lowered := by
  rw [lowered,mem_toLower (by decide) (by decide)]
  exact fun hmem => absurd (e.authority_spec hmem).2.1 (by decide)

/-- The userinfo ends an IPv6 address with a scope, in front of a name. -/
def Confusable : Prop := ∃ n, e.host = .name n ∧ ∃ userinfo ∈ e.userinfo, ∃ a z,
  userinfo.dropWhile isSpace = a ++ '%' :: z ∧ '%' ∉ z ∧ ipIntFromString a = true

theorem lowers_percent {a z x : List Char} (h : u.Lowers (a ++ '%' :: z) x) :
    ∃ a' z', x = a' ++ '%' :: z' ∧ u.Lowers a a' ∧ u.Lowers z z' := by
  obtain ⟨a',rest,rfl,ha,hrest⟩ := h.split
  cases hrest with
  | cons himage hz =>
    rw [himage.ascii (by decide)]
    exact ⟨a',_,rfl,ha,hz⟩

theorem percent_mem_iff {a a' : List Char} (h : u.Lowers a a') : '%' ∈ a' ↔ '%' ∈ a :=
  h.mem_iff (by decide) (by decide) (by decide)

theorem ascii_of_ipIntFromString {a : List Char} (ha : ipIntFromString a = true) {c : Char} (hc : c ∈ a) :
    c.toNat < 128 ∧ c ∉ ['i','k'] := by
  rcases char_of_ipIntFromString ha hc with hhex | rfl | rfl
  · have hall : ∀ d ∈ "0123456789ABCDEFabcdef".toList, d.toNat < 128 ∧ d ∉ ['i','k'] :=
      List.all_iff_forall_prop.mp (by decide)
    exact hall c (of_decide_eq_true hhex)
  · decide
  · decide

theorem lowers_address {a a' : List Char} (h : u.Lowers a a') (ha : ipIntFromString a' = true) :
    ipIntFromString a = true := by
  have hascii : ∀ c ∈ a, u.Plain c := by
    intro c hc
    left
    by_contra hforeign
    obtain ⟨out,himage,hsub⟩ := h.image hc
    obtain ⟨d,rest,rfl⟩ := List.exists_cons_of_ne_nil himage.nonempty
    obtain ⟨hd,hletters⟩ := ascii_of_ipIntFromString ha (hsub (List.mem_cons_self ..))
    exact hletters (himage.foreign (by omega) (List.mem_cons_self ..) hd)
  rwa [h.plain hascii,ipIntFromString_toLower] at ha

/-- The whole text is taken for an address exactly if the userinfo begins one with a scope. -/
theorem ipv6Address_userinfo_iff {n : Name} (hn : e.host = .name n) {userinfo x : List Char}
    (hu : e.userinfo = some userinfo) (hx : u.Lowers (userinfo.dropWhile isSpace) x) :
    ipv6Address (x ++ '@' :: e.lowered) = true ↔
      ∃ a z, userinfo.dropWhile isSpace = a ++ '%' :: z ∧ '%' ∉ z ∧ ipIntFromString a = true := by
  constructor
  · intro h
    rcases ipv6Address_cases h with hip | ⟨a',z',heq,hz',ha'⟩
    · exact absurd (by simp) (notMem_of_ipIntFromString (d := '@') hip (by decide))
    have hmem : '%' ∈ x := by
      have hall : '%' ∈ x ++ '@' :: e.lowered := by
        rw [heq]
        simp
      rcases List.mem_append.mp hall with hx | hrest
      · exact hx
      · rcases List.mem_cons.mp hrest with hat | hname
        · exact absurd hat (by decide)
        · exact absurd hname (e.percent_notMem_name hn)
    obtain ⟨a,z,hsplit,hnot⟩ := List.eq_append_cons_of_mem ((percent_mem_iff hx).mp hmem)
    rw [hsplit] at hx
    obtain ⟨b,y,rfl,ha,hz⟩ := lowers_percent hx
    -- both cuts are at the first percent sign
    have hb : '%' ∉ b := fun h => hnot ((percent_mem_iff ha).mp h)
    rw [List.append_assoc,List.cons_append] at heq
    obtain ⟨htake,hdrop⟩ := takeWhile_percent hb (y ++ '@' :: e.lowered)
    obtain ⟨htake',hdrop'⟩ := takeWhile_percent (notMem_of_ipIntFromString ha' (by decide)) z'
    rw [heq] at htake hdrop
    obtain rfl : a' = b := htake'.symm.trans htake
    have hrest : z' = y ++ '@' :: e.lowered := List.cons_inj_right _ |>.mp (hdrop'.symm.trans hdrop)
    refine ⟨a,z,hsplit,fun hmem => hz' ?_,lowers_address ha ha'⟩
    rw [hrest]
    exact List.mem_append_left _ ((percent_mem_iff hz).mpr hmem)
  · rintro ⟨a,z,hsplit,hz,ha⟩
    have hslash : '/' ∉ x := by
      rw [hx.mem_iff (by decide) (by decide) (by decide)]
      exact fun hmem => absurd (e.userinfo_cut userinfo hu _ ((List.dropWhile_suffix _).subset hmem)) (by decide)
    rw [hsplit] at hx
    obtain ⟨b,y,rfl,hb,hy⟩ := lowers_percent hx
    have hlower := hb.plain (fun c hc => Or.inl (ascii_of_ipIntFromString ha hc).1)
    have hvalid : ipIntFromString b = true := by rwa [hlower,ipIntFromString_toLower]
    rw [List.append_assoc,List.cons_append]
    refine (ipv6Address_scoped_iff (notMem_of_ipIntFromString hvalid (by decide))).mpr ⟨?_,⟨by simp,?_⟩,hvalid⟩
    · rw [← List.cons_append,← List.append_assoc]
      intro hmem
      rcases List.mem_append.mp hmem with hmem | hmem
      · exact hslash hmem
      · rcases List.mem_cons.mp hmem with hat | hmem
        · exact absurd hat (by decide)
        · exact e.slash_notMem_lowered hmem
    · intro hmem
      rcases List.mem_append.mp hmem with hmem | hmem
      · exact hz ((percent_mem_iff hy).mp hmem)
      · rcases List.mem_cons.mp hmem with hat | hmem
        · exact absurd hat (by decide)
        · exact e.percent_notMem_name hn hmem

end Endpoint
end TruenasCE.Hosts
