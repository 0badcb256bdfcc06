import Mathlib.Data.Bool.AllAny
import TruenasCE.Library.Digits
import TruenasCE.Library.Separator

/-! # The version of TrueNAS

`_parse_version` takes the names of the product out of the reported text and searches it for two numbers with a dot
between them. What it finds decides which of the methods of TrueNAS are called.
-/
namespace TruenasCE.SystemData
open Library

/-- What `\d` matches, and the digit that `int` reads there: a decimal digit of any script. -/
structure Decimals where
  value : Char → Option ℕ
  lt_ten : ∀ {c d}, value c = some d → d < 10
  ascii : ∀ d, d < 10 → value d.digitChar = some d
  other : ∀ c, c.toNat < 128 → c.isDigit = false → value c = none

variable (u : Decimals)

def Decimals.digit (c : Char) : Bool := (u.value c).isSome

/-- `int` of a text of digits -/
def Decimals.read (s : List Char) : ℕ := readText 10 (fun c => (u.value c).getD 0) s

/-- `(\d{1,9})\.(\d{1,9})` at the head of a text, with what the two groups match. -/
def matchVersion (s : List Char) : Option (List Char × List Char) :=
  match s.dropWhile u.digit with
  | '.' :: rest =>
    let major := s.takeWhile u.digit
    let minor := (rest.takeWhile u.digit).take 9
    if major ≠ [] ∧ major.length ≤ 9 ∧ minor ≠ [] then some (major,minor) else none
  | _ => none

/-- `re.search` -/
def searchVersion : List Char → Option (List Char × List Char)
  | [] => none
  | c :: s => (matchVersion u (c :: s)).or (searchVersion s)

/-- `version_str.replace("TrueNAS-", "").replace("SCALE-", "")` -/
def cleanVersion (text : List Char) : List Char := removeAll "SCALE-".toList (removeAll "TrueNAS-".toList text)

def parseVersion (text : List Char) : Option (ℕ × ℕ) :=
  (searchVersion u (cleanVersion text)).map (fun groups => (u.read groups.1,u.read groups.2))

def versionAtLeast (version : Option (ℕ × ℕ)) (minimum : ℕ × ℕ) (ifUnknown : Bool) : Bool :=
  match version with
  | none => ifUnknown
  | some version => minimum.1 < version.1 ∨ (minimum.1 = version.1 ∧ minimum.2 ≤ version.2)

def supportsUpdateRun (version : Option (ℕ × ℕ)) : Bool := versionAtLeast version (25,10) true

def supportsContainerApi (version : Option (ℕ × ℕ)) : Bool := versionAtLeast version (26,0) false

def supportsServiceControl (version : Option (ℕ × ℕ)) : Bool := versionAtLeast version (26,0) true

/-- A dot between two digits. -/
def Dotted (s : List Char) : Prop := ∃ before a b after, s = before ++ a :: '.' :: b :: after ∧ u.digit a = true ∧
  u.digit b = true

variable {u}

theorem digit_digitChar {d : ℕ} (hd : d < 10) : u.digit d.digitChar = true := by
  rw [Decimals.digit,u.ascii d hd]
  rfl

theorem digit_other {c : Char} (hc : c.toNat < 128) (h : c.isDigit = false) : u.digit c = false := by
  rw [Decimals.digit,u.other c hc h]
  rfl

theorem digit_dot : u.digit '.' = false := digit_other (by decide) (by decide)

theorem digit_of_mem_toDigits {n : ℕ} {c : Char} (hc : c ∈ Nat.toDigits 10 n) : u.digit c = true := by
  obtain ⟨d,hd,rfl⟩ := mem_toDigits (by decide) hc
  exact digit_digitChar hd

theorem read_toDigits (n : ℕ) : u.read (Nat.toDigits 10 n) = n := by
  refine readText_toDigits (by decide) (fun d hd => ?_) n
  rw [u.ascii d hd]
  rfl

theorem read_lt (s : List Char) : u.read s < 10 ^ s.length := by
  refine readText_lt (fun c _ => ?_)
  cases hvalue : u.value c with
  | none => simp
  | some d => exact u.lt_ten hvalue

theorem matchVersion_eq_some {s major minor : List Char} (h : matchVersion u s = some (major,minor)) :
    ∃ rest, s = major ++ '.' :: rest ∧ minor = (rest.takeWhile u.digit).take 9 ∧ major ≠ [] ∧ major.length ≤ 9 ∧
      minor ≠ [] ∧ ∀ c ∈ major, u.digit c = true := by
  unfold matchVersion at h
  split at h
  · rename_i rest hrest
    dsimp only at h
    split at h
    · rename_i hcond
      obtain ⟨hmajor,hminor⟩ := Prod.mk.inj (Option.some.inj h)
      have hsplit := List.takeWhile_append_dropWhile (p := u.digit) (l := s)
      rw [hrest] at hsplit
      rw [← hmajor,← hminor]
      exact ⟨rest,hsplit.symm,rfl,hcond.1,hcond.2.1,hcond.2.2,fun c hc => List.mem_takeWhile_imp hc⟩
    · cases h
  · cases h

/-- A number of at most nine digits, a dot and a digit are matched where the number begins. -/
theorem matchVersion_append {major rest : List Char} (hmajor : ∀ c ∈ major, u.digit c = true) (hne : major ≠ [])
    (hlength : major.length ≤ 9) (hrest : (rest.takeWhile u.digit).take 9 ≠ []) :
    matchVersion u (major ++ '.' :: rest) = some (major,(rest.takeWhile u.digit).take 9) := by
  have hdrop : (major ++ '.' :: rest).dropWhile u.digit = '.' :: rest := by
    rw [List.dropWhile_append_of_pos hmajor,List.dropWhile_cons,digit_dot]
    rfl
  unfold matchVersion
  rw [hdrop,takeWhile_append_cons digit_dot hmajor]
  exact if_pos ⟨hne,hlength,hrest⟩

theorem dotted_of_matchVersion {s : List Char} (h : (matchVersion u s).isSome = true) : Dotted u s := by
  obtain ⟨⟨major,minor⟩,hmatch⟩ := Option.isSome_iff_exists.mp h
  obtain ⟨rest,rfl,rfl,hne,-,hminor,hmajor⟩ := matchVersion_eq_some hmatch
  obtain ⟨before,a,rfl⟩ := List.eq_nil_or_concat major |>.resolve_left hne
  cases rest with
  | nil => exact absurd rfl hminor
  | cons b after =>
    refine ⟨before,a,b,after,by simp,hmajor a (by simp),?_⟩
    by_contra hb
    exact hminor (by rw [List.takeWhile_cons,if_neg hb]; rfl)

theorem searchVersion_isSome_iff (s : List Char) : (searchVersion u s).isSome = true ↔ Dotted u s := by
  induction s with
  | nil =>
    refine ⟨fun h => (by cases h),?_⟩
    rintro ⟨before,a,b,after,h,-⟩
    simp at h
  | cons c s ih =>
    rw [searchVersion,Option.isSome_or,Bool.or_eq_true,ih]
    constructor
    · rintro (hmatch | ⟨before,a,b,after,rfl,ha,hb⟩)
      · exact dotted_of_matchVersion hmatch
      · exact ⟨c :: before,a,b,after,rfl,ha,hb⟩
    · rintro ⟨before,a,b,after,heq,ha,hb⟩
      cases before with
      | nil =>
        rw [List.nil_append] at heq
        rw [heq]
        have hrest : ((b :: after).takeWhile u.digit).take 9 ≠ [] := by
          rw [List.takeWhile_cons,if_pos hb,List.take_succ_cons]
          exact List.cons_ne_nil _ _
        have hmatch : matchVersion u ([a] ++ '.' :: b :: after) = _ :=
          matchVersion_append (by simpa using ha) (List.cons_ne_nil _ _) (by simp) hrest
        exact Or.inl (Option.isSome_iff_exists.mpr ⟨_,hmatch⟩)
      | cons d before =>
        obtain ⟨-,rfl⟩ := List.cons.inj heq
        exact Or.inr ⟨before,a,b,after,rfl,ha,hb⟩

theorem searchVersion_append {lead s : List Char} (hlead : ∀ c ∈ lead, u.digit c = false) :
    searchVersion u (lead ++ s) = searchVersion u s := by
  induction lead with
  | nil => rfl
  | cons c lead ih =>
    have hnone : matchVersion u (c :: (lead ++ s)) = none := by
      by_contra hsome
      obtain ⟨⟨major,minor⟩,hmatch⟩ := Option.ne_none_iff_exists'.mp hsome
      obtain ⟨rest,heq,-,hne,-,-,hmajor⟩ := matchVersion_eq_some hmatch
      obtain ⟨d,major,rfl⟩ := List.exists_cons_of_ne_nil hne
      obtain ⟨rfl,-⟩ := List.cons.inj heq
      have hdigit := hmajor c List.mem_cons_self
      rw [hlead c List.mem_cons_self] at hdigit
      cases hdigit
    rw [List.cons_append,searchVersion,hnone,Option.none_or,ih (fun d hd => hlead d (List.mem_cons_of_mem c hd))]

theorem not_mem_of_digit {old : List Char} (hold : ∀ c ∈ old, c.toNat < 128 ∧ c.isDigit = false) {c : Char}
    (hc : u.digit c = true) : c ∉ old := by
  intro hmem
  rw [digit_other (hold c hmem).1 (hold c hmem).2] at hc
  cases hc

/-- Two characters that no name holds keep what stands on their sides apart. -/
theorem cleanVersion_append_cons {c : Char} (hc : c ∉ "SCALE-".toList ∧ c ∉ "TrueNAS-".toList) (s t : List Char) :
    cleanVersion (s ++ c :: t) = cleanVersion s ++ c :: cleanVersion t := by
  unfold cleanVersion removeAll
  rw [removeFrom_append_cons (by decide) hc.2 (Nat.zero_le _)]
  exact removeFrom_append_cons (by decide) hc.1 (Nat.zero_le _) _

theorem digit_apart {c : Char} (hc : u.digit c = true) : c ∉ "SCALE-".toList ∧ c ∉ "TrueNAS-".toList :=
  ⟨not_mem_of_digit (List.all_iff_forall_prop.mp (by decide)) hc,
    not_mem_of_digit (List.all_iff_forall_prop.mp (by decide)) hc⟩

theorem cleanVersion_digits {ds : List Char} (hds : ∀ c ∈ ds, u.digit c = true) (t : List Char) :
    cleanVersion (ds ++ t) = ds ++ cleanVersion t := by
  induction ds with
  | nil => rfl
  | cons c ds ih =>
    have hnil : cleanVersion [] = [] := rfl
    have hcons := cleanVersion_append_cons (digit_apart (hds c List.mem_cons_self)) [] (ds ++ t)
    rw [List.nil_append,hnil,List.nil_append] at hcons
    rw [List.cons_append,hcons,ih (fun d hd => hds d (List.mem_cons_of_mem c hd)),List.cons_append]

theorem mem_of_mem_cleanVersion {c : Char} {s : List Char} (hc : c ∈ cleanVersion s) : c ∈ s :=
  mem_of_mem_removeFrom (mem_of_mem_removeFrom hc)

/-- A number as it is written with `k` zeros in front. -/
def padded (k n : ℕ) : List Char := List.replicate k '0' ++ Nat.toDigits 10 n

theorem padded_ne_nil (k n : ℕ) : padded k n ≠ [] := by simp [padded]

theorem digit_of_mem_padded {k n : ℕ} : ∀ c ∈ padded k n, u.digit c = true := by
  intro c hc
  rcases List.mem_append.mp hc with hc | hc
  · rw [(List.mem_replicate.mp hc).2]
    exact digit_digitChar (by decide : 0 < 10)
  · exact digit_of_mem_toDigits hc

theorem read_zero (s : List Char) : u.read ('0' :: s) = u.read s := by
  have hascii : u.value '0' = some 0 := u.ascii 0 (by decide)
  rw [Decimals.read,readText,List.foldl_cons,hascii]
  rfl

theorem read_padded (k n : ℕ) : u.read (padded k n) = n := by
  induction k with
  | zero => exact read_toDigits n
  | succ k ih =>
    have hcons : padded (k + 1) n = '0' :: padded k n := by simp [padded,List.replicate_succ]
    rw [hcons,read_zero,ih]

/-- The first two numbers of a text are its version, whatever names stand before them and whatever follows. -/
theorem parseVersion_written {lead tail : List Char} {i a j b : ℕ} (hlead : ∀ c ∈ lead, u.digit c = false)
    (ha : (padded i a).length ≤ 9) (hb : (padded j b).length ≤ 9)
    (htail : ∀ c ∈ (cleanVersion tail).head?, u.digit c = false) :
    parseVersion u (lead ++ (padded i a ++ '.' :: (padded j b ++ tail))) = some (a,b) := by
  have hdot : '.' ∉ "SCALE-".toList ∧ '.' ∉ "TrueNAS-".toList := by decide
  have hmajor : ∀ c ∈ padded i a, u.digit c = true := digit_of_mem_padded
  have hminor : ∀ c ∈ padded j b, u.digit c = true := digit_of_mem_padded
  have hclean : cleanVersion (lead ++ (padded i a ++ '.' :: (padded j b ++ tail))) =
      cleanVersion lead ++ (padded i a ++ '.' :: (padded j b ++ cleanVersion tail)) := by
    obtain ⟨d,ds,hds⟩ := List.exists_cons_of_ne_nil (padded_ne_nil i a)
    have hbehind := cleanVersion_append_cons hdot ds (padded j b ++ tail)
    rw [cleanVersion_digits hminor] at hbehind
    have hnone := cleanVersion_digits (fun c hc => hmajor c (hds ▸ List.mem_cons_of_mem d hc)) []
    rw [List.append_nil] at hnone
    rw [hds,List.cons_append,cleanVersion_append_cons (digit_apart (hmajor d (hds ▸ List.mem_cons_self))),hbehind,hnone]
    simp [cleanVersion,removeAll,removeFrom]
  have htake : ((padded j b ++ cleanVersion tail).takeWhile u.digit).take 9 = padded j b := by
    have hend : (cleanVersion tail).takeWhile u.digit = [] := by
      cases hcons : cleanVersion tail with
      | nil => rfl
      | cons c rest =>
        rw [hcons] at htail
        rw [List.takeWhile_cons,htail c rfl]
        rfl
    rw [List.takeWhile_append_of_pos hminor,hend,List.append_nil,List.take_of_length_le hb]
  have hmatch := matchVersion_append hmajor (padded_ne_nil i a) ha
    (by rw [htake]; exact padded_ne_nil j b : ((padded j b ++ cleanVersion tail).takeWhile u.digit).take 9 ≠ [])
  have hsearch : searchVersion u (padded i a ++ '.' :: (padded j b ++ cleanVersion tail)) =
      some (padded i a,padded j b) := by
    obtain ⟨d,ds,hds⟩ := List.exists_cons_of_ne_nil (padded_ne_nil i a)
    rw [htake] at hmatch
    rw [hds,List.cons_append] at hmatch ⊢
    rw [searchVersion,hmatch,Option.some_or]
  unfold parseVersion
  rw [hclean,searchVersion_append (fun c hc => hlead c (mem_of_mem_cleanVersion hc)),hsearch,Option.map_some,
    read_padded,read_padded]

theorem parseVersion_lt {text : List Char} {version : ℕ × ℕ} (h : parseVersion u text = some version) :
    version.1 < 10 ^ 9 ∧ version.2 < 10 ^ 9 := by
  obtain ⟨⟨major,minor⟩,hgroups,rfl⟩ := Option.map_eq_some_iff.mp h
  have hlengths : ∀ s : List Char, searchVersion u s = some (major,minor) → major.length ≤ 9 ∧ minor.length ≤ 9 := by
    intro s hs
    induction s with
    | nil => cases hs
    | cons c s ih =>
      rw [searchVersion] at hs
      rcases Option.or_eq_some_iff.mp hs with hmatch | ⟨-,hrest⟩
      · obtain ⟨rest,-,rfl,-,hmajor,-⟩ := matchVersion_eq_some hmatch
        exact ⟨hmajor,List.length_take_le _ _⟩
      · exact ih hrest
  obtain ⟨hmajor,hminor⟩ := hlengths _ hgroups
  exact ⟨(read_lt major).trans_le (Nat.pow_le_pow_right (by decide) hmajor),
    (read_lt minor).trans_le (Nat.pow_le_pow_right (by decide) hminor)⟩

theorem parseVersion_eq_none_iff {text : List Char} : parseVersion u text = none ↔ ¬ Dotted u (cleanVersion text) := by
  rw [← searchVersion_isSome_iff,parseVersion,Option.map_eq_none_iff,Option.not_isSome_iff_eq_none]

/-- A text has a version exactly if a dot stands between two digits when the names are gone; the version that is written
in it is read, with or without zeros in front; and no component has more than nine digits. -/
theorem parseVersion_spec (u : Decimals) :
    (∀ text, parseVersion u text = none ↔ ¬ Dotted u (cleanVersion text)) ∧
    (∀ lead tail i a j b, (∀ c ∈ lead, u.digit c = false) → (padded i a).length ≤ 9 → (padded j b).length ≤ 9 →
      (∀ c ∈ (cleanVersion tail).head?, u.digit c = false) →
      parseVersion u (lead ++ (padded i a ++ '.' :: (padded j b ++ tail))) = some (a,b)) ∧
    ∀ text version, parseVersion u text = some version → version.1 < 10 ^ 9 ∧ version.2 < 10 ^ 9 :=
  ⟨fun _ => parseVersion_eq_none_iff,fun _ _ _ _ _ _ => parseVersion_written,fun _ _ => parseVersion_lt⟩

def asciiDecimals : Decimals where
  value c := if c.isDigit then some (c.toNat - 48) else none
  lt_ten := by
    intro c d h
    split at h
    · rename_i hdigit
      simp only [Char.isDigit,Bool.and_eq_true,decide_eq_true_eq] at hdigit
      have hle : c.toNat ≤ 57 := hdigit.2
      cases h
      omega
    · cases h
  ascii := by decide
  other c _ h := by rw [h]; rfl

theorem parseVersion_fangtooth : parseVersion asciiDecimals "TrueNAS-SCALE-25.04.1".toList = some (25,4) := by
  have hlead : ∀ c ∈ "TrueNAS-SCALE-".toList, asciiDecimals.digit c = false := List.all_iff_forall_prop.mp (by decide)
  have htext : "TrueNAS-SCALE-25.04.1".toList =
      "TrueNAS-SCALE-".toList ++ (padded 0 25 ++ '.' :: (padded 1 4 ++ ".1".toList)) := by decide
  have htail : ∀ c ∈ (cleanVersion ".1".toList).head?, asciiDecimals.digit c = false := by
    have hclean : cleanVersion ".1".toList = ['.','1'] := by decide
    rw [hclean]
    rintro _ ⟨rfl⟩
    decide
  rw [htext]
  exact (parseVersion_spec asciiDecimals).2.1 _ _ 0 25 1 4 hlead (by decide) (by decide) htail

end TruenasCE.SystemData
