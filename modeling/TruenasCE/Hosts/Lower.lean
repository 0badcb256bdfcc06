import TruenasCE.Flow.Passphrases
import TruenasCE.Hosts.IpAddress

/-! # Lower case

`str.lower` on any text. Each character becomes one or more, by the Unicode tables alone but for the
capital sigma, which looks at its neighbours.
-/
namespace TruenasCE.Hosts
open TruenasCE.Flow

/-- What `str.lower` and `str.isdigit` read of the Unicode tables, and what the tables have in common. -/
structure Unicode where
  lowerCase : Char → List Char
  cased : Char → Bool
  caseIgnorable : Char → Bool
  digit : Char → Bool
  ascii : ∀ c, c.toNat < 128 → lowerCase c = [c.toLower]
  stable : ∀ c ≠ 'Σ', ∀ d ∈ lowerCase c, d ≠ 'Σ' ∧ lowerCase d = [d]
  sigmas : ∀ d ∈ ['σ','ς'], lowerCase d = [d]
  nonempty : ∀ c, lowerCase c ≠ []
  foreign : ∀ c, 128 ≤ c.toNat → ∀ d ∈ lowerCase c, d.toNat < 128 → d ∈ ['i','k']
  space : ∀ c, ∀ d ∈ lowerCase c, isSpace d = isSpace c
  asciiDigit : ∀ c, c.toNat < 128 → digit c = c.isDigit
  digits : ∀ c, digit c = true → c ≠ 'Σ' ∧ lowerCase c = [c] ∧ isSpace c = false

namespace Unicode
variable (u : Unicode)

/-- A capital sigma ends a word: a cased letter stands before it and none behind it. -/
def finalSigma (before after : List Char) : Bool :=
  (before.dropWhile u.caseIgnorable).head?.any u.cased ∧ ¬ (after.dropWhile u.caseIgnorable).head?.any u.cased

def lowerChar (before : List Char) (c : Char) (after : List Char) : List Char :=
  if c = 'Σ' then [if u.finalSigma before after then 'ς' else 'σ'] else u.lowerCase c

/-- The text is read up to `before`, in reverse. -/
def lowerFrom : List Char → List Char → List Char
  | _, [] => []
  | before, c :: rest => u.lowerChar before c rest ++ lowerFrom (c :: before) rest

def lower (s : List Char) : List Char := u.lowerFrom [] s

/-- What may become of a character. -/
def Image (c : Char) (out : List Char) : Prop := if c = 'Σ' then out = ['σ'] ∨ out = ['ς'] else out = u.lowerCase c

inductive Lowers : List Char → List Char → Prop
  | nil : Lowers [] []
  | cons {c out s t} : u.Image c out → Lowers s t → Lowers (c :: s) (out ++ t)

variable {u} {c d : Char} {out s t : List Char}

theorem image_lowerChar (before after : List Char) : u.Image c (u.lowerChar before c after) := by
  unfold Image lowerChar
  by_cases hc : c = 'Σ'
  · rw [if_pos hc,if_pos hc]
    split
    · exact Or.inr rfl
    · exact Or.inl rfl
  · rw [if_neg hc,if_neg hc]

theorem lowers_lowerFrom (before s : List Char) : u.Lowers s (u.lowerFrom before s) := by
  induction s generalizing before with
  | nil => exact .nil
  | cons c rest ih => exact .cons (image_lowerChar before rest) (ih _)

theorem lowers_lower (s : List Char) : u.Lowers s (u.lower s) := lowers_lowerFrom [] s

theorem Image.nonempty (h : u.Image c out) : out ≠ [] := by
  unfold Image at h
  split at h
  · rcases h with rfl | rfl <;> simp
  · exact h ▸ u.nonempty c

theorem Image.fixed (h : u.Image c out) (hd : d ∈ out) : d ≠ 'Σ' ∧ u.lowerCase d = [d] := by
  unfold Image at h
  split at h
  · have hmem : d ∈ ['σ','ς'] := by
      rcases h with rfl | rfl
      · exact List.mem_of_mem_take (i := 1) hd
      · exact List.mem_of_mem_drop (i := 1) hd
    refine ⟨?_,u.sigmas d hmem⟩
    rintro rfl
    revert hmem
    decide
  · rename_i hc
    exact u.stable c hc d (h ▸ hd)

theorem Image.ascii (h : u.Image c out) (hc : c.toNat < 128) : out = [c.toLower] := by
  unfold Image at h
  rw [if_neg (by rintro rfl; revert hc; decide)] at h
  rw [h,u.ascii c hc]

theorem Image.foreign (h : u.Image c out) (hc : 128 ≤ c.toNat) (hd : d ∈ out) (hascii : d.toNat < 128) :
    d ∈ ['i','k'] := by
  unfold Image at h
  split at h
  · rcases h with rfl | rfl
    all_goals
      obtain rfl := List.mem_singleton.mp hd
      revert hascii
      decide
  · exact u.foreign c hc d (h ▸ hd) hascii

theorem Image.space (h : u.Image c out) (hd : d ∈ out) : isSpace d = isSpace c := by
  unfold Image at h
  split at h
  · rename_i hc
    subst hc
    rcases h with rfl | rfl
    all_goals
      obtain rfl := List.mem_singleton.mp hd
      decide
  · exact u.space c d (h ▸ hd)

theorem Image.digit (h : u.Image c out) (hc : u.digit c = true) : out = [c] := by
  obtain ⟨hne,hlower,_⟩ := u.digits c hc
  unfold Image at h
  rw [if_neg hne] at h
  rw [h,hlower]

theorem Lowers.split {s' : List Char} (h : u.Lowers (s ++ s') t) : ∃ t₁ t₂, t = t₁ ++ t₂ ∧ u.Lowers s t₁ ∧
    u.Lowers s' t₂ := by
  induction s generalizing t with
  | nil => exact ⟨[],t,rfl,.nil,h⟩
  | cons c rest ih =>
    cases h with
    | cons himage hrest =>
      obtain ⟨t₁,t₂,rfl,h₁,h₂⟩ := ih hrest
      exact ⟨_,t₂,(List.append_assoc _ _ _).symm,.cons himage h₁,h₂⟩

theorem Lowers.source (h : u.Lowers s t) (hd : d ∈ t) : ∃ c ∈ s, ∃ out, u.Image c out ∧ d ∈ out := by
  induction h with
  | nil => cases hd
  | cons himage _ ih =>
    rcases List.mem_append.mp hd with hout | hrest
    · exact ⟨_,List.mem_cons_self ..,_,himage,hout⟩
    · obtain ⟨c,hc,hex⟩ := ih hrest
      exact ⟨c,List.mem_cons_of_mem _ hc,hex⟩

theorem Lowers.image (h : u.Lowers s t) (hc : c ∈ s) : ∃ out, u.Image c out ∧ out ⊆ t := by
  induction h with
  | nil => cases hc
  | cons himage _ ih =>
    rcases List.mem_cons.mp hc with rfl | hrest
    · exact ⟨_,himage,List.subset_append_left _ _⟩
    · obtain ⟨out,hout,hsub⟩ := ih hrest
      exact ⟨out,hout,List.Subset.trans hsub (List.subset_append_right _ _)⟩

theorem lowerFrom_of_fixed (h : ∀ d ∈ s, d ≠ 'Σ' ∧ u.lowerCase d = [d]) (before : List Char) :
    u.lowerFrom before s = s := by
  induction s generalizing before with
  | nil => rfl
  | cons c rest ih =>
    obtain ⟨hne,hlower⟩ := h c (by simp)
    rw [lowerFrom,ih (fun d hd => h d (by simp [hd])),lowerChar,if_neg hne,hlower]
    rfl

theorem fixed_lower (hd : d ∈ u.lower s) : d ≠ 'Σ' ∧ u.lowerCase d = [d] := by
  obtain ⟨_,_,_,himage,hout⟩ := (lowers_lower s).source hd
  exact himage.fixed hout

theorem Lowers.mem_iff (h : u.Lowers s t) (hd : d.toNat < 128) (hcap : d ∉ capitals)
    (hsmall : d ∉ capitals.map Char.toLower) : d ∈ t ↔ d ∈ s := by
  constructor
  · intro hmem
    obtain ⟨c,hc,out,himage,hout⟩ := h.source hmem
    by_cases hascii : c.toNat < 128
    · obtain rfl := himage.ascii hascii
      rwa [(toLower_eq_iff hcap hsmall).mp (List.mem_singleton.mp hout).symm] at hc
    · have hforeign := himage.foreign (by omega) hout hd
      have hletters : ∀ x ∈ ['i','k'], x ∈ capitals.map Char.toLower := List.all_iff_forall_prop.mp (by decide)
      exact absurd (hletters d hforeign) hsmall
  · intro hmem
    obtain ⟨out,himage,hsub⟩ := h.image hmem
    obtain rfl := himage.ascii hd
    rw [(toLower_eq_iff hcap hsmall).mpr rfl] at hsub
    exact hsub (List.mem_singleton_self _)

/-- ASCII and digits, where nothing depends on the tables. -/
def Plain (u : Unicode) (c : Char) : Prop := c.toNat < 128 ∨ u.digit c = true

theorem Image.plain (h : u.Image c out) (hc : u.Plain c) : out = [c.toLower] := by
  rcases hc with hascii | hdigit
  · exact h.ascii hascii
  · have hout := h.digit hdigit
    rcases toLower_eq_or_mem c with heq | hcap
    · rw [hout,heq]
    · have hascii : ∀ x ∈ capitals, x.toNat < 128 := List.all_iff_forall_prop.mp (by decide)
      exact h.ascii (hascii c hcap)

theorem Lowers.plain (h : u.Lowers s t) (hs : ∀ c ∈ s, u.Plain c) : t = s.map Char.toLower := by
  induction h with
  | nil => rfl
  | cons himage _ ih =>
    rw [himage.plain (hs _ (by simp)),ih (fun c hc => hs c (by simp [hc]))]
    rfl

end Unicode
end TruenasCE.Hosts
