import TruenasCE.Library.Separator
import TruenasCE.Flow.Reconfigure

/-! # Texts that list a mapping

What `_text_to_passphrases` makes of a text in the documented format, in which each entry has a
line of its own. The parser strips these lines, and breaks them further at the other characters
of `str.splitlines`.
-/
namespace TruenasCE.Flow
open Library

def isNewline (c : Char) : Bool := c = '\n' ∨ c = '\r'

/-- The lines of the form's text; "\r\n" counts as two ends, with a blank line between them. -/
def textLines (text : String) : List (List Char) := text.toList.splitOnP isNewline

def Blank (line : List Char) : Prop := strip line = []

instance (line : List Char) : Decidable (Blank line) := inferInstanceAs (Decidable (strip line = []))

/-- `<dataset>#<passphrase>` -/
def formatted (entry : String × String) : List Char := entry.1.toList ++ '#' :: entry.2.toList

def Lists (text : String) (d : Passphrases) : Prop :=
  ∃ entries : List (String × String), (textLines text).filter (fun line => ¬ Blank line) = entries.map formatted ∧
    (entries.map Prod.fst).Nodup ∧ ∀ name pp, d.lookup name = some pp ↔ (name,pp) ∈ entries

/-- A mapping that the format can express. -/
def Expressible (d : Passphrases) : Prop := ∀ name pp, d.lookup name = some pp →
  (name ≠ "" ∧ strip name.toList = name.toList ∧ '#' ∉ name.toList ∧ ∀ c ∈ name.toList, isLineBreak c = false) ∧
    pp ≠ "" ∧ ∀ c ∈ pp.toList, isNewline c = false

/-- A line that is not blank and has no separator, no name or no passphrase. -/
def Violates (line : List Char) : Prop :=
  ¬ Blank line ∧ ('#' ∉ line ∨ strip (partition line).1 = [] ∨ (partition line).2 = [])

/-- The passphrase has no character that breaks a line, and none to be stripped at its end. -/
def Intact (pp : String) : Prop :=
  (∀ c ∈ pp.toList, isLineBreak c = false) ∧ ∀ c ∈ pp.toList.getLast?, isSpace c = false

theorem isLineBreak_of_isNewline (c : Char) (h : isNewline c = true) : isLineBreak c = true := by
  rcases of_decide_eq_true h with rfl | rfl
  · rfl
  · rfl

section Strip
variable {c : Char} {s t : List Char}

theorem strip_isInfix (s : List Char) : strip s <:+: s :=
  (List.rdropWhile_prefix isSpace _).isInfix.trans (List.dropWhile_suffix _).isInfix

theorem strip_cons (h : isSpace c = true) (s : List Char) : strip (c :: s) = strip s := by
  unfold strip
  rw [List.dropWhile_cons_of_pos h]

theorem strip_append_singleton (h : isSpace c = true) (s : List Char) : strip (s ++ [c]) = strip s := by
  unfold strip
  induction s with
  | nil => simp [List.dropWhile,h]
  | cons a rest ih =>
    cases ha : isSpace a with
    | true =>
      rw [List.cons_append,List.dropWhile_cons_of_pos ha,List.dropWhile_cons_of_pos ha]
      exact ih
    | false =>
      have hdrop : ∀ l, (a :: l).dropWhile isSpace = a :: l := fun l => List.dropWhile_cons_of_neg (by simp [ha])
      rw [List.cons_append,hdrop,hdrop,← List.cons_append]
      exact List.rdropWhile_concat_pos _ _ _ h

theorem strip_of_space (h : ∀ c ∈ s, isSpace c = true) : strip s = [] := by
  induction s with
  | nil => rfl
  | cons a rest ih =>
    rw [strip_cons (h a (List.mem_cons_self ..))]
    exact ih (fun c hc => h c (List.mem_cons_of_mem _ hc))

theorem space_of_strip (h : strip s = []) (hc : c ∈ s) : isSpace c = true := by
  by_contra hn
  exact strip_ne_nil hc (by simpa using hn) h

/-- Nothing is stripped off a list without a blank at either end. -/
theorem strip_eq_self (hfirst : ∀ c ∈ s.head?, isSpace c = false) (hlast : ∀ c ∈ s.getLast?, isSpace c = false) :
    strip s = s := by
  cases s with
  | nil => rfl
  | cons a rest =>
    have ha : isSpace a = false := hfirst a rfl
    rw [strip,List.dropWhile_cons_of_neg (by simp [ha]),List.rdropWhile_eq_self_iff]
    intro hne
    simp [hlast _ (List.getLast?_eq_some_getLast hne)]

theorem isSpace_last_strip (h : c ∈ (strip s).getLast?) : isSpace c = false := by
  have hne : (s.dropWhile isSpace).rdropWhile isSpace ≠ [] := by
    intro hnil
    rw [strip,hnil] at h
    cases h
  have hlast := List.rdropWhile_last_not isSpace _ hne
  rw [strip,List.getLast?_eq_some_getLast hne] at h
  cases h
  simpa using hlast

theorem strip_strip (s : List Char) : strip (strip s) = strip s := by
  refine strip_eq_self (fun c hc => ?_) (fun c hc => isSpace_last_strip hc)
  obtain ⟨rest,hrest⟩ := List.head?_eq_some_iff.mp hc
  exact not_isSpace_head_strip hrest

theorem strip_cons_of_not_space (h : isSpace c = false) (s : List Char) : ∃ rest, strip (c :: s) = c :: rest := by
  have hne : strip (c :: s) ≠ [] := strip_ne_nil (List.mem_cons_self ..) h
  obtain ⟨first,rest,hcons⟩ := List.exists_cons_of_ne_nil hne
  have hprefixed : strip (c :: s) <+: c :: s := by
    rw [strip,List.dropWhile_cons_of_neg (by simp [h])]
    exact List.rdropWhile_prefix isSpace _
  rw [hcons] at hprefixed ⊢
  obtain ⟨tail,htail⟩ := hprefixed
  rw [List.cons_append] at htail
  exact ⟨rest,by rw [(List.cons.inj htail).1]⟩

theorem strip_append_of_space (h : ∀ c ∈ s, isSpace c = true) (t : List Char) : strip (s ++ t) = strip t := by
  unfold strip
  rw [List.dropWhile_append_of_pos h]

theorem strip_append_of_not_space (h : isSpace c = false) (s : List Char) :
    strip (s ++ [c]) = s.dropWhile isSpace ++ [c] := by
  induction s with
  | nil => simp [strip,List.dropWhile,h,List.rdropWhile]
  | cons a rest ih =>
    cases ha : isSpace a with
    | true => rw [List.cons_append,strip_cons ha,ih,List.dropWhile_cons_of_pos ha]
    | false =>
      rw [strip,List.cons_append,List.dropWhile_cons_of_neg (by simp [ha]),List.dropWhile_cons_of_neg (by simp [ha]),
        ← List.cons_append,List.rdropWhile_concat_neg _ _ _ (by simp [h])]

end Strip

def content (lines : List (List Char)) : List (List Char) := (lines.map strip).filter (fun line => line ≠ [])

section Content
variable {lines others : List (List Char)} {line s : List Char} {c : Char} {result d : Passphrases}

@[simp] theorem content_nil : content [] = [] := rfl

theorem content_cons (line : List Char) (lines : List (List Char)) :
    content (line :: lines) = (if strip line = [] then [] else [strip line]) ++ content lines := by
  unfold content
  by_cases h : strip line = []
  · simp [h]
  · simp [h]

theorem content_append (lines others : List (List Char)) : content (lines ++ others) = content lines ++ content others := by
  simp [content]

theorem content_cons_of_blank (h : strip line = []) : content (line :: lines) = content lines := by
  simp [content_cons,h]

theorem mem_content : line ∈ content lines ↔ line ≠ [] ∧ ∃ raw ∈ lines, strip raw = line := by
  simp [content,and_comm]

/-- A blank character at the beginning changes nothing. -/
theorem content_space_cons (h : isSpace c = true) (s : List Char) :
    content ((c :: s).splitOnP isLineBreak) = content (s.splitOnP isLineBreak) := by
  rw [List.splitOnP_cons_eq_if_modifyHead]
  split
  · exact content_cons_of_blank rfl
  · obtain ⟨first,rest,hs⟩ := List.exists_cons_of_ne_nil (List.splitOnP_ne_nil isLineBreak s)
    rw [hs,List.modifyHead_cons,content_cons,content_cons,strip_cons h]

theorem content_append_space (h : isSpace c = true) (s : List Char) :
    content ((s ++ [c]).splitOnP isLineBreak) = content (s.splitOnP isLineBreak) := by
  induction hn : s.length using Nat.strong_induction_on generalizing s with
  | h n ih =>
    by_cases hbreak : ∃ b ∈ s, isLineBreak b = true
    · obtain ⟨b,hb,hbreak⟩ := hbreak
      obtain ⟨before,after,rfl⟩ := List.append_of_mem hb
      have hlt : after.length < n := by
        rw [← hn,List.length_append,List.length_cons]
        omega
      rw [List.append_assoc,List.cons_append,List.splitOnP_append_cons _ _ hbreak,
        List.splitOnP_append_cons _ _ hbreak,content_append,content_append,ih after.length hlt after rfl]
    · have hs : ∀ b ∈ s, isLineBreak b = false := fun b hb => by
        by_contra hb'
        exact hbreak ⟨b,hb,by simpa using hb'⟩
      rw [List.splitOnP_eq_singleton hs]
      cases hc : isLineBreak c with
      | true =>
        rw [List.splitOnP_append_cons s [] hc,content_append,List.splitOnP_eq_singleton hs]
        simp [content_cons,strip]
      | false =>
        have hsc : ∀ b ∈ s ++ [c], isLineBreak b = false := by
          simpa [or_imp,forall_and] using And.intro hs hc
        rw [List.splitOnP_eq_singleton hsc,content_cons,content_cons,strip_append_singleton h]

/-- What is stripped off a text are blank lines and the blank ends of lines. -/
theorem content_strip (s : List Char) :
    content ((strip s).splitOnP isLineBreak) = content (s.splitOnP isLineBreak) := by
  have hleft : content ((s.dropWhile isSpace).splitOnP isLineBreak) = content (s.splitOnP isLineBreak) := by
    induction s with
    | nil => rfl
    | cons a rest ih =>
      cases ha : isSpace a with
      | true => rw [List.dropWhile_cons_of_pos ha,ih,content_space_cons ha]
      | false => rw [List.dropWhile_cons_of_neg (by simp [ha])]
  rw [← hleft,strip]
  induction s.dropWhile isSpace using List.reverseRecOn with
  | nil => rfl
  | append_singleton init a ih =>
    cases ha : isSpace a with
    | true => rw [List.rdropWhile_concat_pos _ _ _ ha,ih,content_append_space ha]
    | false => rw [List.rdropWhile_concat_neg _ _ _ (by simp [ha])]

/-- `str.splitlines` breaks at the same characters, but for the end of the text and "\r\n". -/
theorem splitlines_cases (s : List Char) : (splitlines s = [] ∧ s = []) ∨
    ∃ first rest others, splitlines s = first :: rest ∧ s.splitOnP isLineBreak = first :: others ∧
      content rest = content others := by
  have content_eq : ∀ {s}, (splitlines s = [] ∧ s = []) ∨
      (∃ first rest others, splitlines s = first :: rest ∧ s.splitOnP isLineBreak = first :: others ∧
        content rest = content others) → content (splitlines s) = content (s.splitOnP isLineBreak) := by
    rintro s (⟨hs,rfl⟩ | ⟨first,rest,others,hs,hsplit,hcontent⟩)
    · rfl
    · rw [hs,hsplit,content_cons,content_cons,hcontent]
  fun_induction splitlines s with
  | case1 => exact Or.inl ⟨rfl,rfl⟩
  | case2 rest ih =>
    have hsplit : ('\r' :: '\n' :: rest).splitOnP isLineBreak = [] :: [] :: rest.splitOnP isLineBreak := by
      rw [List.splitOnP_cons_eq_if_modifyHead,if_pos (by decide),List.splitOnP_cons_eq_if_modifyHead,
        if_pos (by decide)]
    refine Or.inr ⟨[],splitlines rest,_,rfl,hsplit,?_⟩
    rw [content_eq ih,content_cons_of_blank rfl]
  | case3 c rest _ hb ih =>
    refine Or.inr ⟨[],splitlines rest,_,rfl,?_,content_eq ih⟩
    rw [List.splitOnP_cons_eq_if_modifyHead,if_pos hb]
  | case4 c rest _ hb hnil ih =>
    obtain ⟨_,rfl⟩ : splitlines rest = [] ∧ rest = [] := by
      rcases ih with h | ⟨first,others,_,h,_⟩
      · exact h
      · simp [hnil] at h
    refine Or.inr ⟨[c],[],[],rfl,?_,rfl⟩
    exact List.splitOnP_eq_singleton (by simpa using hb)
  | case5 c rest _ hb line lines hcons ih =>
    rcases ih with ⟨h,_⟩ | ⟨first,others,parts,h,hsplit,hcontent⟩
    · simp [hcons] at h
    · obtain ⟨rfl,rfl⟩ := List.cons.inj (hcons.symm.trans h)
      refine Or.inr ⟨c :: line,lines,parts,rfl,?_,hcontent⟩
      rw [List.splitOnP_cons_eq_if_modifyHead,if_neg hb,hsplit,List.modifyHead_cons]

theorem content_splitlines (s : List Char) : content (splitlines s) = content (s.splitOnP isLineBreak) := by
  rcases splitlines_cases s with ⟨hs,rfl⟩ | ⟨first,rest,others,hs,hsplit,hcontent⟩
  · rfl
  · rw [hs,hsplit,content_cons,content_cons,hcontent]

theorem collectLines_content (result : Passphrases) (lines : List (List Char)) :
    collectLines result (content lines) = collectLines result lines := by
  induction lines generalizing result with
  | nil => rfl
  | cons line rest ih =>
    rw [content_cons,collectLines]
    split
    · exact ih result
    · rename_i hne
      rw [List.singleton_append,collectLines,strip_strip,if_neg hne]
      cases entryOfLine (strip line) with
      | error fault => rfl
      | ok e => exact ih _

theorem textToPassphrases_eq (text : String) :
    textToPassphrases text = collectLines ∅ (content ((textLines text).flatMap (List.splitOnP isLineBreak))) := by
  rw [textToPassphrases,← collectLines_content,content_splitlines,content_strip,textLines,
    flatMap_splitOnP isLineBreak_of_isNewline]

end Content

section Reading
variable {lines : List (List Char)} {line : List Char} {name pp : String} {result d : Passphrases}
  {entries : List (String × String)}

theorem entry_of_collectLines (h : collectLines result lines = .ok d) (hl : line ∈ lines) (hne : strip line ≠ []) :
    ∃ e, entryOfLine (strip line) = .ok e := by
  induction lines generalizing result with
  | nil => cases hl
  | cons first rest ih =>
    rw [collectLines] at h
    rcases List.mem_cons.mp hl with rfl | hl
    · rw [if_neg hne] at h
      split at h
      · cases h
      · rename_i name pp he
        exact ⟨(name,pp),he⟩
    · split at h
      · exact ih h hl
      · split at h
        · cases h
        · exact ih h hl

theorem entryOfLine_eq_ok_iff {e : String × String} : entryOfLine line = .ok e ↔
    ('#' ∈ line ∧ strip (partition line).1 ≠ [] ∧ (partition line).2 ≠ []) ∧
      e = (String.ofList (strip (partition line).1),String.ofList (partition line).2) := by
  unfold entryOfLine
  by_cases hsep : '#' ∈ line
  · by_cases hname : strip (partition line).1 = []
    · simp [hsep,hname]
    · by_cases hpp : (partition line).2 = []
      · simp [hsep,hname,hpp]
      · simp [hsep,hname,hpp,eq_comm]
  · simp [hsep]

theorem partition_append {before after : List Char} (h : '#' ∉ before) :
    partition (before ++ '#' :: after) = (before,after) := by
  have hbefore : ∀ c ∈ before, decide (c ≠ '#') = true := by
    intro c hc
    simp only [decide_eq_true_eq]
    rintro rfl
    exact h hc
  rw [partition,List.takeWhile_append_of_pos hbefore,List.dropWhile_append_of_pos hbefore]
  simp

theorem eq_partition (h : '#' ∈ line) : line = (partition line).1 ++ '#' :: (partition line).2 ∧ '#' ∉ (partition line).1 := by
  induction line with
  | nil => cases h
  | cons c rest ih =>
    by_cases hc : c = '#'
    · subst hc
      exact ⟨by simp [partition],by simp [partition]⟩
    · obtain ⟨heq,hnot⟩ := ih (by simpa [Ne.symm hc] using h)
      have hcons : partition (c :: rest) = (c :: (partition rest).1,(partition rest).2) := by simp [partition,hc]
      rw [hcons]
      exact ⟨congrArg (List.cons c) heq,by simpa [Ne.symm hc] using hnot⟩

theorem suffix_partition (line : List Char) : (partition line).2 <:+ line :=
  (List.tail_suffix _).trans (List.dropWhile_suffix _)

/-- A passphrase that was read has lost what would not survive. -/
theorem intact_of_entryOfLine {e : String × String} (hline : ∀ c ∈ line, isLineBreak c = false)
    (h : entryOfLine (strip line) = .ok e) : Intact e.2 := by
  obtain ⟨⟨_,_,hne⟩,rfl⟩ := entryOfLine_eq_ok_iff.mp h
  refine ⟨fun c hc => ?_,fun c hc => ?_⟩
  · rw [String.toList_ofList] at hc
    exact hline c ((strip_isInfix line).subset ((suffix_partition _).subset hc))
  · rw [String.toList_ofList] at hc
    refine isSpace_last_strip (s := line) ?_
    obtain ⟨before,hbefore⟩ := suffix_partition (strip line)
    rw [← hbefore,List.getLast?_append_of_ne_nil _ hne]
    exact hc

theorem intact_of_collectLines (h : collectLines result lines = .ok d) (hl : ∀ line ∈ lines, ∀ c ∈ line, isLineBreak c = false)
    (hr : ∀ name pp, result.lookup name = some pp → Intact pp) : ∀ name pp, d.lookup name = some pp → Intact pp := by
  induction lines generalizing result with
  | nil =>
    cases h
    exact hr
  | cons first rest ih =>
    have hrest : ∀ line ∈ rest, ∀ c ∈ line, isLineBreak c = false := fun line hline => hl line (List.mem_cons_of_mem _ hline)
    rw [collectLines] at h
    split at h
    · exact ih h hrest hr
    · split at h
      · cases h
      · rename_i name pp he
        refine ih h hrest (fun name' pp' hlookup => ?_)
        by_cases hname : name' = name
        · subst hname
          rw [Finmap.lookup_insert] at hlookup
          cases hlookup
          exact intact_of_entryOfLine (hl first (List.mem_cons_self ..)) he
        · rw [Finmap.lookup_insert_of_ne _ hname] at hlookup
          exact hr name' pp' hlookup

def Survives (e : String × String) : Prop := content ((formatted e).splitOnP isLineBreak) = [formatted e] ∧
  entryOfLine (formatted e) = .ok e

theorem content_of_survives (h : ∀ e ∈ entries, Survives e) :
    content ((entries.map formatted).flatMap (List.splitOnP isLineBreak)) = entries.map formatted := by
  induction entries with
  | nil => rfl
  | cons e rest ih =>
    rw [List.map_cons,List.flatMap_cons,content_append,(h e (List.mem_cons_self ..)).1,
      ih (fun e he => h e (List.mem_cons_of_mem _ he))]
    rfl

theorem strip_formatted {e : String × String} (h : Survives e) : strip (formatted e) = formatted e := by
  have hmem : formatted e ∈ content ((formatted e).splitOnP isLineBreak) := by
    rw [h.1]
    exact List.mem_singleton_self _
  obtain ⟨_,raw,_,hraw⟩ := mem_content.mp hmem
  rw [← hraw,strip_strip]

theorem collectLines_formatted (h : ∀ e ∈ entries, Survives e) (result : Passphrases) :
    collectLines result (entries.map formatted) = .ok (entries.foldl (fun m e => m.insert e.1 e.2) result) := by
  induction entries generalizing result with
  | nil => rfl
  | cons e rest ih =>
    have he := h e (List.mem_cons_self ..)
    have hne : formatted e ≠ [] := by simp [formatted]
    rw [List.map_cons,collectLines,strip_formatted he,if_neg hne,he.2,List.foldl_cons]
    exact ih (fun e he => h e (List.mem_cons_of_mem _ he)) _

theorem lookup_foldl_insert (hnodup : (entries.map Prod.fst).Nodup) (result : Passphrases) :
    (entries.foldl (fun m e => m.insert e.1 e.2) result).lookup name = some pp ↔
      (name,pp) ∈ entries ∨ (name ∉ entries.map Prod.fst ∧ result.lookup name = some pp) := by
  induction entries generalizing result with
  | nil => simp
  | cons e rest ih =>
    rw [List.map_cons,List.nodup_cons] at hnodup
    rw [List.foldl_cons,ih hnodup.2]
    by_cases hname : name = e.1
    · have hnot : (name,pp) ∉ rest := fun hmem => hnodup.1 (hname ▸ List.mem_map_of_mem hmem)
      rw [hname] at hnot ⊢
      simp [hnot,hnodup.1,Finmap.lookup_insert,Prod.ext_iff,eq_comm]
    · have hne : (name,pp) ≠ e := fun heq => hname (congrArg Prod.fst heq)
      simp [hname,hne,Finmap.lookup_insert_of_ne]

theorem survives_of_intact {e : String × String}
    (hname : e.1 ≠ "" ∧ strip e.1.toList = e.1.toList ∧ '#' ∉ e.1.toList ∧ ∀ c ∈ e.1.toList, isLineBreak c = false)
    (hpp : e.2 ≠ "") (h : Intact e.2) : Survives e := by
  obtain ⟨hne,hstrip,hsep,hbreak⟩ := hname
  have hnonempty : e.1.toList ≠ [] := by simpa using hne
  have hfirst : ∀ c ∈ (formatted e).head?, isSpace c = false := by
    intro c hc
    obtain ⟨first,rest,hcons⟩ := List.exists_cons_of_ne_nil hnonempty
    rw [formatted,hcons] at hc
    cases hc
    exact not_isSpace_head_strip (hstrip.trans hcons)
  have hlast : ∀ c ∈ (formatted e).getLast?, isSpace c = false := by
    intro c hc
    rw [formatted,List.getLast?_append_of_ne_nil _ (List.cons_ne_nil _ _)] at hc
    refine h.2 c ?_
    obtain ⟨first,rest,hcons⟩ := List.exists_cons_of_ne_nil (show e.2.toList ≠ [] by simpa using hpp)
    rw [hcons] at hc ⊢
    exact hc
  have hself : strip (formatted e) = formatted e := strip_eq_self hfirst hlast
  have hlines : ∀ c ∈ formatted e, isLineBreak c = false := by
    intro c hc
    rcases List.mem_append.mp hc with hc | hc
    · exact hbreak c hc
    · rcases List.mem_cons.mp hc with rfl | hc
      · rfl
      · exact h.1 c hc
  have hparts : partition (formatted e) = (e.1.toList,e.2.toList) := partition_append hsep
  refine ⟨?_,entryOfLine_eq_ok_iff.mpr ⟨⟨by simp [formatted],?_,?_⟩,?_⟩⟩
  · rw [List.splitOnP_eq_singleton hlines,content_cons,hself,if_neg (by simp [formatted])]
    rfl
  · rw [hparts,hstrip]
    exact hnonempty
  · rw [hparts]
    simpa using hpp
  · rw [hparts,hstrip]
    simp

end Reading

section Law
variable {d : Passphrases} {text : String} {line : List Char}

theorem content_filter (lines : List (List Char)) :
    content ((lines.filter (fun line => ¬ Blank line)).flatMap (List.splitOnP isLineBreak)) =
      content (lines.flatMap (List.splitOnP isLineBreak)) := by
  induction lines with
  | nil => rfl
  | cons line rest ih =>
    rw [List.flatMap_cons,content_append,← ih]
    by_cases hblank : Blank line
    · have hnone : content (line.splitOnP isLineBreak) = [] := by
        refine List.filter_eq_nil_iff.mpr (fun part hpart => ?_)
        obtain ⟨raw,hraw,rfl⟩ := List.mem_map.mp hpart
        simpa using strip_of_space (fun c hc => space_of_strip hblank (mem_splitOnP hraw hc).1)
      rw [hnone,List.filter_cons_of_neg (by simpa using hblank),List.nil_append]
    · rw [List.filter_cons_of_pos (by simpa using hblank),List.flatMap_cons,content_append]

theorem parsed_of_intact (hd : Expressible d) (hl : Lists text d) (h : ∀ name pp, d.lookup name = some pp → Intact pp) :
    textToPassphrases text = .ok d := by
  obtain ⟨entries,hlines,hnodup,hentries⟩ := hl
  have hsurvives : ∀ e ∈ entries, Survives e := by
    intro e he
    have hlookup := (hentries e.1 e.2).mpr he
    obtain ⟨hname,hpp,_⟩ := hd e.1 e.2 hlookup
    exact survives_of_intact hname hpp (h e.1 e.2 hlookup)
  have hread : content ((textLines text).flatMap (List.splitOnP isLineBreak)) = entries.map formatted := by
    rw [← content_filter,hlines,content_of_survives hsurvives]
  rw [textToPassphrases_eq,hread,collectLines_formatted hsurvives]
  refine congrArg Except.ok (Finmap.ext_lookup (fun name => Option.ext (fun pp => ?_)))
  rw [lookup_foldl_insert hnodup,hentries]
  simp

theorem intact_of_parsed (h : textToPassphrases text = .ok d) : ∀ name pp, d.lookup name = some pp → Intact pp := by
  rw [textToPassphrases_eq,collectLines_content] at h
  refine intact_of_collectLines h (fun part hpart c hc => ?_) (fun name pp hlookup => by simp at hlookup)
  obtain ⟨line,_,hpart⟩ := List.mem_flatMap.mp hpart
  exact (mem_splitOnP hpart hc).2

theorem not_parsed_of_violates (hline : line ∈ textLines text) (h : Violates line) : textToPassphrases text ≠ .ok d := by
  intro hok
  rw [textToPassphrases_eq,collectLines_content] at hok
  have hpart : ∀ part ∈ line.splitOnP isLineBreak, strip part ≠ [] → ∃ e, entryOfLine (strip part) = .ok e :=
    fun part hpart hne => entry_of_collectLines hok (List.mem_flatMap.mpr ⟨line,hline,hpart⟩) hne
  by_cases hsep : '#' ∈ line
  · obtain ⟨heq,hnot⟩ := eq_partition hsep
    have hfaulty := h.2.resolve_left (not_not.mpr hsep)
    obtain ⟨init,rest,hmem,hinit,hrest⟩ := exists_part (p := isLineBreak) (a := '#') (by decide)
      (partition line).1 (partition line).2
    rw [← heq] at hmem
    obtain ⟨e,he⟩ := hpart _ hmem (strip_ne_nil (c := '#') (by simp) (by decide))
    obtain ⟨⟨_,hname,hpp⟩,_⟩ := entryOfLine_eq_ok_iff.mp he
    rcases hfaulty with hblank | hempty
    · -- nothing but blanks stands before the separator
      have hspace : ∀ c ∈ init, isSpace c = true := fun c hc => space_of_strip hblank (hinit hc)
      obtain ⟨tail,htail⟩ := strip_cons_of_not_space (c := '#') (by decide) rest
      rw [strip_append_of_space hspace,htail] at hname
      simp [partition,strip] at hname
    · -- the part ends with the separator
      obtain rfl : rest = [] := List.subset_nil.mp (hempty ▸ hrest)
      have hinit' : '#' ∉ init.dropWhile isSpace := fun hc => hnot (hinit ((List.dropWhile_suffix _).subset hc))
      rw [strip_append_of_not_space (by decide),partition_append hinit'] at hpp
      exact hpp rfl
  · obtain ⟨c,hc,hspace⟩ : ∃ c ∈ line, isSpace c = false := by
      by_contra hall
      refine h.1 (strip_of_space (fun c hc => ?_))
      by_contra hc'
      exact hall ⟨c,hc,by simpa using hc'⟩
    obtain ⟨before,after,rfl⟩ := List.append_of_mem hc
    have hbreak : isLineBreak c = false := by
      by_contra hb
      rw [isSpace_of_isLineBreak (by simpa using hb)] at hspace
      cases hspace
    obtain ⟨init,rest,hmem,hinit,hrest⟩ := exists_part hbreak before after
    obtain ⟨e,he⟩ := hpart _ hmem (strip_ne_nil (c := c) (by simp) hspace)
    obtain ⟨⟨hin,_⟩,_⟩ := entryOfLine_eq_ok_iff.mp he
    exact hsep ((mem_splitOnP hmem ((strip_isInfix _).subset hin)).1)

/-- A text that lists a mapping is read as this mapping exactly if its passphrases are intact, and one with
a line that violates the format leaves an error in the form and nothing to be stored. -/
theorem faithful_iff (text : String) : (∀ d, Expressible d → Lists text d →
      (textToPassphrases text = .ok d ↔ ∀ name pp, d.lookup name = some pp → Intact pp)) ∧
    ((∃ line ∈ textLines text, Violates line) → ∀ (site : Site) stored, ∃ errorKey badLine,
      site.applyPassphraseInput text stored =
        some (some (.text text),[("dataset_passphrases",errorKey)],[("line",badLine)])) := by
  refine ⟨fun d hd hl => ⟨intact_of_parsed,parsed_of_intact hd hl⟩,?_⟩
  rintro ⟨line,hline,hviolates⟩ site stored
  have hne : strip text.toList ≠ [] := by
    intro hblank
    refine hviolates.1 (strip_of_space (fun c hc => space_of_strip hblank ?_))
    exact (mem_splitOnP hline hc).1
  rw [Site.applyPassphraseInput,if_neg hne]
  cases hread : textToPassphrases text with
  | error fault => exact ⟨fault.1,fault.2,rfl⟩
  | ok d => exact absurd hread (not_parsed_of_violates hline hviolates)

end Law

section Single
variable {name pp : String} {text : String}

theorem lookup_singleton_iff {name' pp' : String} :
    (Finmap.singleton name pp : Passphrases).lookup name' = some pp' ↔ name' = name ∧ pp' = pp := by
  by_cases hname : name' = name
  · subst hname
    rw [Finmap.lookup_singleton_eq]
    simp [eq_comm]
  · have hnot : name' ∉ (Finmap.singleton name pp : Passphrases) := by simpa using hname
    rw [Finmap.lookup_eq_none.mpr hnot]
    simp [hname]

theorem lists_singleton (h : (textLines text).filter (fun line => ¬ Blank line) = [formatted (name,pp)]) :
    Lists text (Finmap.singleton name pp) :=
  ⟨[(name,pp)],h,by simp,fun name' pp' => by simp [lookup_singleton_iff]⟩

theorem expressible_singleton (hname : name ≠ "" ∧ strip name.toList = name.toList ∧ '#' ∉ name.toList ∧
    ∀ c ∈ name.toList, isLineBreak c = false) (hpp : pp ≠ "" ∧ ∀ c ∈ pp.toList, isNewline c = false) :
    Expressible (Finmap.singleton name pp) := by
  intro name' pp' h
  obtain ⟨rfl,rfl⟩ := lookup_singleton_iff.mp h
  exact ⟨hname,hpp⟩

theorem eq_false_of_all {p : Char → Bool} {s : List Char} (h : s.all (fun c => !p c) = true) : ∀ c ∈ s, p c = false := by
  simpa using h

end Single

/-- Blanks before a passphrase and a "#" in it are kept. -/
theorem faithful_iff_hash : textToPassphrases "\ntank/a# p#q\r\n" = .ok (Finmap.singleton "tank/a" " p#q") := by
  have hd : Expressible (Finmap.singleton "tank/a" " p#q") := expressible_singleton
    ⟨by decide,by decide,by decide,eq_false_of_all (by decide)⟩ ⟨by decide,eq_false_of_all (by decide)⟩
  refine ((faithful_iff _).1 _ hd (lists_singleton (by decide))).mpr (fun name pp h => ?_)
  obtain ⟨rfl,rfl⟩ := lookup_singleton_iff.mp h
  refine ⟨eq_false_of_all (by decide),fun c hc => ?_⟩
  obtain rfl : 'q' = c := Option.some.inj hc
  rfl

/-- A blank at the end of a passphrase is lost. -/
theorem not_faithful_of_blank : ¬ ∀ d, Expressible d → ∀ text, Lists text d → textToPassphrases text = .ok d := by
  intro h
  have hd : Expressible (Finmap.singleton "tank/a" "secret ") := expressible_singleton
    ⟨by decide,by decide,by decide,eq_false_of_all (by decide)⟩ ⟨by decide,eq_false_of_all (by decide)⟩
  have hread := h _ hd "tank/a#secret " (lists_singleton (by decide))
  exact absurd hread (by decide)

end TruenasCE.Flow
