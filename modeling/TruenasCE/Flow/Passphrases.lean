import Mathlib.Data.Finmap
import Mathlib.Data.List.DropRight
import Mathlib.Data.String.Basic

/-! # Dataset passphrases as text

`_text_to_passphrases` reads one `<dataset>#<passphrase>` pair a line.
-/
namespace TruenasCE.Flow

abbrev Passphrases := Finmap (fun _ : String => String)

/-- `str.isspace` -/
def isSpace (c : Char) : Bool :=
  c.toNat ∈ [0x20,0x85,0xa0,0x1680,0x2028,0x2029,0x202f,0x205f,0x3000] || (9 ≤ c.toNat && c.toNat ≤ 13) ||
    (0x1c ≤ c.toNat && c.toNat ≤ 0x1f) || (0x2000 ≤ c.toNat && c.toNat ≤ 0x200a)

/-- The characters `str.splitlines` breaks at. -/
def isLineBreak (c : Char) : Bool := c.toNat ∈ [10,11,12,13,0x1c,0x1d,0x1e,0x85,0x2028,0x2029]

def strip (s : List Char) : List Char := (s.dropWhile isSpace).rdropWhile isSpace

/-- `str.splitlines`: "\r\n" is one break, and a break at the end begins no further line. -/
def splitlines : List Char → List (List Char)
  | [] => []
  | '\r' :: '\n' :: rest => [] :: splitlines rest
  | c :: rest =>
    if isLineBreak c then [] :: splitlines rest
    else
      match splitlines rest with
      | [] => [[c]]
      | line :: lines => (c :: line) :: lines

/-- `str.partition` at "#", without the separator -/
def partition (line : List Char) : List Char × List Char := (line.takeWhile (· ≠ '#'),(line.dropWhile (· ≠ '#')).tail)

/-- The arguments of the `ValueError`: the key of the message and the line. -/
abbrev LineFault := String × String

def entryOfLine (line : List Char) : Except LineFault (String × String) :=
  if '#' ∉ line then .error ("passphrase_malformed_line",String.ofList line)
  else if strip (partition line).1 = [] then .error ("passphrase_empty_name",String.ofList line)
  else if (partition line).2 = [] then .error ("passphrase_empty_value",String.ofList line)
  else .ok (String.ofList (strip (partition line).1),String.ofList (partition line).2)

/-- The loop of `_text_to_passphrases` -/
def collectLines (result : Passphrases) : List (List Char) → Except LineFault Passphrases
  | [] => .ok result
  | rawLine :: rest =>
    if strip rawLine = [] then collectLines result rest
    else
      match entryOfLine (strip rawLine) with
      | .error fault => .error fault
      | .ok (name,pp) => collectLines (result.insert name pp) rest

def textToPassphrases (text : String) : Except LineFault Passphrases := collectLines ∅ (splitlines (strip text.toList))

example : (textToPassphrases " tank/a#p#q \r\n\n tank/b # r").toOption.map (fun d =>
  (d.lookup "tank/a",d.lookup "tank/b")) =
    some (some "p#q",some " r") := by decide

theorem isSpace_of_isLineBreak {c : Char} (h : isLineBreak c = true) : isSpace c = true := by
  simp only [isLineBreak,List.mem_cons,List.not_mem_nil,or_false,decide_eq_true_eq] at h
  simp only [isSpace,List.mem_cons,List.not_mem_nil,or_false,Bool.or_eq_true,decide_eq_true_eq,Bool.and_eq_true]
  omega

theorem not_isSpace_head_strip {s rest : List Char} {c : Char} (h : strip s = c :: rest) : isSpace c = false := by
  unfold strip at h
  have hpre : c :: rest <+: s.dropWhile isSpace := h ▸ List.rdropWhile_prefix isSpace _
  obtain ⟨tail,htail⟩ := hpre
  have hne : s.dropWhile isSpace ≠ [] := by
    rw [← htail]
    simp
  have hhead := List.head_dropWhile_not isSpace hne
  simpa [← htail] using hhead

theorem strip_ne_nil {s : List Char} {c : Char} (hc : c ∈ s) (h : isSpace c = false) : strip s ≠ [] := by
  intro hs
  have hall := List.rdropWhile_eq_nil_iff.mp hs
  have hcd : c ∈ s.dropWhile isSpace := by
    rcases List.mem_append.mp ((List.takeWhile_append_dropWhile (p := isSpace) (l := s)).symm ▸ hc) with ht | hd
    · rw [List.mem_takeWhile_imp ht] at h
      cases h
    · exact hd
  rw [hall c hcd] at h
  cases h

theorem splitlines_cons {c : Char} (rest : List Char) (h : isSpace c = false) :
    ∃ line lines, splitlines (c :: rest) = (c :: line) :: lines := by
  have hbreak : isLineBreak c = false := by
    by_contra hb
    rw [isSpace_of_isLineBreak (by simpa using hb)] at h
    cases h
  unfold splitlines
  split
  · rename_i heq
    cases heq
  · rename_i heq
    obtain ⟨rfl,_⟩ := List.cons.inj heq
    cases hbreak
  · rename_i c' rest' _ heq
    obtain ⟨rfl,rfl⟩ := List.cons.inj heq
    rw [if_neg (by simp [hbreak])]
    cases splitlines rest with
    | nil => exact ⟨[],[],rfl⟩
    | cons line lines => exact ⟨line,lines,rfl⟩

theorem mem_of_collectLines {lines : List (List Char)} {result d : Passphrases} {name : String}
    (h : collectLines result lines = .ok d) (hn : name ∈ result) : name ∈ d := by
  induction lines generalizing result with
  | nil =>
    cases h
    exact hn
  | cons rawLine rest ih =>
    rw [collectLines] at h
    split at h
    · exact ih h hn
    · split at h
      · cases h
      · exact ih h (Finmap.mem_insert.mpr (Or.inr hn))

theorem ne_empty_of_textToPassphrases {text : String} {d : Passphrases} (hblank : strip text.toList ≠ [])
    (h : textToPassphrases text = .ok d) : d ≠ ∅ := by
  obtain ⟨c,rest,hstrip⟩ := List.exists_cons_of_ne_nil hblank
  have hc := not_isSpace_head_strip hstrip
  obtain ⟨line,lines,hlines⟩ := splitlines_cons rest hc
  rw [textToPassphrases,hstrip,hlines,collectLines,if_neg (strip_ne_nil (List.mem_cons_self ..) hc)] at h
  split at h
  · cases h
  · rename_i name pp _
    have hmem : name ∈ d := mem_of_collectLines h (Finmap.mem_insert.mpr (Or.inl rfl))
    rintro rfl
    exact Finmap.notMem_empty hmem

end TruenasCE.Flow
