import TruenasCE.Hosts.Lower

/-! # Hosts out of what a user enters -/
namespace TruenasCE.Hosts
open Library TruenasCE.Flow

def schemeChar (c : Char) : Bool := c.isAlpha || c.isDigit || c ∈ ['+','.','-']

/-- `_SCHEME_RE`, removed where the text starts with it -/
def dropScheme : List Char → List Char
  | [] => []
  | c :: rest =>
    if c.isAlpha = true ∧ [':','/','/'] <+: rest.dropWhile schemeChar then (rest.dropWhile schemeChar).drop 3
    else c :: rest

/-- `_HOST_TAIL_RE` -/
def isDelimiter (c : Char) : Bool := c ∈ ['/','?','#']

def cutTail (host : List Char) : List Char := host.takeWhile (fun c => !isDelimiter c)

def bracketIpv6 (host : List Char) : List Char := if ipv6Address host then '[' :: (host ++ [']']) else host

variable (u : Unicode)

def sanitizeHost (host : List Char) : List Char :=
  bracketIpv6 (u.lower (strip (cutTail (dropScheme (strip host)))))

def dropUserinfo (host : List Char) : List Char :=
  match rpartition ['@'] host with
  | none => host
  | some (_,rest) => rest

/-- The rest of `_host_without_port`, behind the userinfo. -/
def withoutPort (host : List Char) : List Char :=
  if host.head? = some '[' then host.tail.takeWhile (· ≠ ']')
  else
    (match rpartition [':'] host with
    | none => host
    | some (name,port) => if port ≠ [] ∧ port.all u.digit then name else host).rdropWhile (· = '.')

def hostWithoutPort (host : List Char) : List Char := withoutPort u (dropUserinfo host)

structure Trimmed (s : List Char) : Prop where
  head : ∀ c ∈ s.head?, isSpace c = false
  last : ∀ c ∈ s.getLast?, isSpace c = false

theorem trimmed_strip (s : List Char) : Trimmed (strip s) where
  head := by
    intro c hc
    obtain ⟨rest,hrest⟩ := List.head?_eq_some_iff.mp hc
    exact not_isSpace_head_strip hrest
  last := by
    intro c hc
    obtain ⟨init,hinit⟩ := List.getLast?_eq_some_iff.mp hc
    have hne : (s.dropWhile isSpace).rdropWhile isSpace ≠ [] := by
      change strip s ≠ []
      simp [hinit]
    have hlast := List.rdropWhile_last_not isSpace (s.dropWhile isSpace) hne
    have heq : ((s.dropWhile isSpace).rdropWhile isSpace).getLast hne = c := by
      have := List.getLast?_eq_some_getLast hne
      exact Option.some.inj (this.symm.trans hc)
    rw [heq] at hlast
    simpa using hlast

theorem Trimmed.strip_eq {s : List Char} (h : Trimmed s) : strip s = s := by
  have hdrop : s.dropWhile isSpace = s := by
    cases s with
    | nil => rfl
    | cons c rest => rw [List.dropWhile_cons,if_neg (by simp [h.head c rfl])]
  rw [strip,hdrop,List.rdropWhile_eq_self_iff]
  intro hne
  simp [h.last _ (List.getLast?_eq_some_getLast hne)]

theorem strip_append {before body after : List Char} (hbefore : ∀ c ∈ before, isSpace c = true)
    (hbody : ∃ c ∈ body.getLast?, isSpace c = false) :
    strip (before ++ (body ++ after)) = body.dropWhile isSpace ++ after.rdropWhile isSpace := by
  obtain ⟨c,hc,hspace⟩ := hbody
  obtain ⟨init,rfl⟩ := List.getLast?_eq_some_iff.mp hc
  rw [strip,List.dropWhile_append_of_pos hbefore,List.append_assoc,List.singleton_append,
    dropWhile_append_cons hspace,rdropWhile_append_cons hspace,dropWhile_append_cons hspace,List.append_assoc]
  rfl

variable {u}

theorem Unicode.Lowers.trimmed {s t : List Char} (h : u.Lowers s t) (hs : Trimmed s) : Trimmed t where
  head := by
    intro d hd
    cases h with
    | nil => cases hd
    | cons himage hrest =>
      rename_i c out rest t
      obtain ⟨x,out',rfl⟩ := List.exists_cons_of_ne_nil himage.nonempty
      obtain rfl : x = d := Option.some.inj hd
      rw [himage.space (List.mem_cons_self ..)]
      exact hs.head c rfl
  last := by
    intro d hd
    rcases List.eq_nil_or_concat s with rfl | ⟨init,c,rfl⟩
    · cases h
      cases hd
    · rw [List.concat_eq_append] at h hs
      obtain ⟨t₁,t₂,rfl,_,h₂⟩ := h.split
      cases h₂ with
      | cons himage hnil =>
        cases hnil
        rename_i out
        rw [List.append_nil,List.getLast?_append_of_ne_nil _ himage.nonempty] at hd
        rw [himage.space (List.mem_of_getLast? hd)]
        exact hs.last c (by simp)

/-- Nothing is left to do but for the brackets. -/
structure Normal (u : Unicode) (t : List Char) : Prop where
  trimmed : Trimmed t
  cut : ∀ c ∈ t, isDelimiter c = false
  fixed : ∀ c ∈ t, c ≠ 'Σ' ∧ u.lowerCase c = [c]

theorem dropScheme_of_notMem {s : List Char} (hs : '/' ∉ s) : dropScheme s = s := by
  cases s with
  | nil => rfl
  | cons c rest =>
    refine if_neg (fun h => hs ?_)
    have hmem : '/' ∈ rest.dropWhile schemeChar := h.2.subset (by simp)
    exact List.mem_cons_of_mem _ ((List.dropWhile_suffix schemeChar).subset hmem)

def isScheme : List Char → Bool
  | [] => false
  | c :: rest => c.isAlpha && rest.all schemeChar

theorem dropScheme_append_of_isScheme {p : List Char} (hp : isScheme p = true) (rest : List Char) :
    dropScheme (p ++ (':' :: '/' :: '/' :: rest)) = rest := by
  cases p with
  | nil => cases hp
  | cons c p =>
    obtain ⟨hc,hall⟩ := Bool.and_eq_true_iff.mp hp
    have hdrop : (p ++ ':' :: '/' :: '/' :: rest).dropWhile schemeChar = ':' :: '/' :: '/' :: rest := by
      rw [List.dropWhile_append_of_pos (List.all_eq_true.mp hall),List.dropWhile_cons,if_neg (by decide)]
    rw [List.cons_append,dropScheme,hdrop,if_pos ⟨hc,by simp⟩]
    rfl

/-- A cut that takes no scheme off: the "://" would have to begin at the end of the text. -/
theorem dropScheme_append {a y : List Char} (ha : '/' ∉ a) (hy : ∀ c ∈ y.head?, isDelimiter c = true)
    (hscheme : ∀ p, isScheme p = true → a ≠ p ++ [':']) : dropScheme (a ++ y) = a ++ y := by
  have hsigns : ∀ d ∈ ['/','?','#'], d.isAlpha = false ∧ schemeChar d = false ∧ d ≠ ':' :=
    List.all_iff_forall_prop.mp (by decide)
  cases a with
  | nil =>
    cases y with
    | nil => rfl
    | cons d rest =>
      obtain ⟨halpha,_⟩ := hsigns d (of_decide_eq_true (hy d rfl))
      exact if_neg (fun h => by simp [halpha] at h)
  | cons c a =>
    rw [List.cons_append]
    refine if_neg (fun ⟨hc,hpre⟩ => ?_)
    rw [List.dropWhile_append] at hpre
    cases hm : a.dropWhile schemeChar with
    | nil =>
      rw [hm,List.isEmpty_nil,if_pos rfl] at hpre
      cases y with
      | nil => simp at hpre
      | cons d rest =>
        obtain ⟨_,hscheme,hne⟩ := hsigns d (of_decide_eq_true (hy d rfl))
        rw [List.dropWhile_cons,if_neg (by simp [hscheme]),List.cons_prefix_cons] at hpre
        exact hne hpre.1.symm
    | cons d m =>
      rw [hm,List.isEmpty_cons,if_neg (by simp),List.cons_append,List.cons_prefix_cons] at hpre
      obtain ⟨rfl,hpre⟩ := hpre
      have hsplit := List.takeWhile_append_dropWhile (p := schemeChar) (l := a)
      rw [hm] at hsplit
      cases m with
      | nil =>
        refine hscheme (c :: a.takeWhile schemeChar) ?_ ?_
        · exact Bool.and_eq_true_iff.mpr ⟨hc,List.all_eq_true.mpr (fun x hx => List.mem_takeWhile_imp hx)⟩
        · rw [List.cons_append,hsplit]
      | cons x m =>
        obtain ⟨rfl,_⟩ := List.cons_prefix_cons.mp hpre
        refine ha (List.mem_cons_of_mem _ ?_)
        rw [← hsplit]
        simp

theorem cutTail_of_forall {s : List Char} (hs : ∀ c ∈ s, isDelimiter c = false) : cutTail s = s :=
  List.takeWhile_eq_self_iff.mpr (fun c hc => by simp [hs c hc])

theorem isDelimiter_of_mem_cutTail {s : List Char} {c : Char} (hc : c ∈ cutTail s) : isDelimiter c = false := by
  simpa using List.mem_takeWhile_imp hc

theorem Normal.sanitizeHost_eq {t : List Char} (h : Normal u t) : sanitizeHost u t = bracketIpv6 t := by
  have hslash : '/' ∉ t := fun hmem => absurd (h.cut _ hmem) (by decide)
  rw [sanitizeHost,h.trimmed.strip_eq,dropScheme_of_notMem hslash,cutTail_of_forall h.cut,h.trimmed.strip_eq,
    Unicode.lower,Unicode.lowerFrom_of_fixed h.fixed]

theorem normal_lower {s : List Char} (hs : Trimmed s) (hcut : ∀ c ∈ s, isDelimiter c = false) :
    Normal u (u.lower s) where
  trimmed := (u.lowers_lower s).trimmed hs
  cut := by
    intro c hc
    rw [Bool.eq_false_iff]
    intro hdelim
    have hsigns : ∀ d ∈ ['/','?','#'], d.toNat < 128 ∧ d ∉ capitals ∧ d ∉ capitals.map Char.toLower :=
      List.all_iff_forall_prop.mp (by decide)
    obtain ⟨hascii,hcap,hsmall⟩ := hsigns c (of_decide_eq_true hdelim)
    rw [hcut c (((u.lowers_lower s).mem_iff hascii hcap hsmall).mp hc)] at hdelim
    cases hdelim
  fixed := fun _ hc => u.fixed_lower hc

theorem Normal.bracket {t : List Char} (h : Normal u t) : Normal u ('[' :: (t ++ [']'])) := by
  have hforall : ∀ p : Char → Prop, p '[' → p ']' → (∀ c ∈ t, p c) → ∀ c ∈ '[' :: (t ++ [']']), p c := by
    intro p hopen hclose ht c hc
    rcases List.mem_cons.mp hc with rfl | hc
    · exact hopen
    · rcases List.mem_append.mp hc with hc | hc
      · exact ht c hc
      · exact List.mem_singleton.mp hc ▸ hclose
  refine ⟨⟨?_,?_⟩,hforall _ (by decide) (by decide) h.cut,hforall _ ?_ ?_ h.fixed⟩
  · intro c hc
    obtain rfl : '[' = c := Option.some.inj hc
    decide
  · intro c hc
    rw [← List.cons_append,List.getLast?_concat] at hc
    obtain rfl : ']' = c := Option.some.inj hc
    decide
  · exact ⟨by decide,u.ascii '[' (by decide)⟩
  · exact ⟨by decide,u.ascii ']' (by decide)⟩

/-- Whatever the text, a second pass changes nothing. -/
theorem sanitizeHost_sanitizeHost (u : Unicode) (s : List Char) :
    sanitizeHost u (sanitizeHost u s) = sanitizeHost u s := by
  have hcut : ∀ c ∈ strip (cutTail (dropScheme (strip s))), isDelimiter c = false := by
    intro c hc
    exact isDelimiter_of_mem_cutTail ((List.dropWhile_suffix _).subset ((List.rdropWhile_prefix _ _).subset hc))
  have hnormal : Normal u (u.lower (strip (cutTail (dropScheme (strip s))))) := normal_lower (trimmed_strip _) hcut
  rw [show sanitizeHost u s = bracketIpv6 (u.lower (strip (cutTail (dropScheme (strip s))))) from rfl]
  generalize u.lower (strip (cutTail (dropScheme (strip s)))) = h at hnormal
  by_cases hip : ipv6Address h = true
  · -- the brackets stay, and what is in brackets is no address
    have hbracket : bracketIpv6 h = '[' :: (h ++ [']']) := if_pos hip
    rw [hbracket,hnormal.bracket.sanitizeHost_eq,bracketIpv6,if_neg (by rw [not_ipv6Address_bracket]; decide)]
  · have hbracket : bracketIpv6 h = h := if_neg hip
    rw [hbracket,hnormal.sanitizeHost_eq,hbracket]

end TruenasCE.Hosts
