import Mathlib.Data.Bool.AllAny
import Mathlib.Data.List.TakeWhile
import TruenasCE.Library.Separator

/-! # IPv6 addresses in text

Which texts `ipaddress.IPv6Address` takes. What number a text stands for is not needed.
-/
namespace TruenasCE.Hosts
open Library

def capitals : List Char := "ABCDEFGHIJKLMNOPQRSTUVWXYZ".toList

theorem toLower_eq_or_mem (c : Char) : c.toLower = c ∨ c ∈ capitals := by
  by_cases hc : c.val ≥ 'A'.val ∧ c.val ≤ 'Z'.val
  · right
    have hcapitals : capitals = (List.range' 65 26).map Char.ofNat := by decide
    rw [hcapitals]
    refine List.mem_map.mpr ⟨c.toNat,List.mem_range'_1.mpr ?_,Char.ofNat_toNat c⟩
    have hlow : 65 ≤ c.toNat := hc.1
    have hhigh : c.toNat ≤ 90 := hc.2
    omega
  · left
    unfold Char.toLower
    exact dif_neg hc

theorem toLower_congr {α : Type*} {p : Char → α} (h : ∀ c ∈ capitals, p c.toLower = p c) (c : Char) :
    p c.toLower = p c := by
  rcases toLower_eq_or_mem c with hc | hc
  · rw [hc]
  · exact h c hc

/-- `_HEX_DIGITS` -/
def hexDigit (c : Char) : Bool := c ∈ "0123456789ABCDEFabcdef".toList

def parseOctet (octet : List Char) : Bool :=
  octet ≠ [] ∧ octet.all Char.isDigit ∧ octet.length ≤ 3 ∧ (octet = ['0'] ∨ octet.head? ≠ some '0') ∧
    octet.foldl (fun n c => 10 * n + (c.toNat - '0'.toNat)) 0 ≤ 255

/-- `IPv4Address` -/
def ipv4Address (s : List Char) : Bool :=
  '/' ∉ s ∧ s ≠ [] ∧ (s.splitOn '.').length = 4 ∧ (s.splitOn '.').all parseOctet

def parseHextet (hextet : List Char) : Bool := hextet.all hexDigit ∧ hextet.length ≤ 4 ∧ hextet ≠ []

/-- The hextets that are left when an IPv4 address at the end is two of them; its digits do not matter. -/
def hextets (parts : List (List Char)) : Option (List (List Char)) :=
  match parts.getLast? with
  | none => some parts
  | some last =>
    if '.' ∉ last then some parts
    else if ipv4Address last then some (parts.dropLast ++ [['0'],['0']])
    else none

/-- The rest of `_ip_int_from_string`: at most one "::" inside, and enough hextets around it. -/
def scanParts (parts : List (List Char)) : Bool :=
  let inner := parts.tail.dropLast
  let leading := parts.head?.any List.isEmpty
  let trailing := parts.getLast?.any List.isEmpty
  if 9 < parts.length then false
  else if 1 < inner.countP List.isEmpty then false
  else if inner.any List.isEmpty then
    let skipIndex := inner.findIdx List.isEmpty + 1
    let partsHi := if leading then skipIndex - 1 else skipIndex
    let partsLo := if trailing then parts.length - skipIndex - 2 else parts.length - skipIndex - 1
    if leading ∧ partsHi ≠ 0 then false
    else if trailing ∧ partsLo ≠ 0 then false
    else partsHi + partsLo < 8 ∧ (parts.take partsHi).all parseHextet ∧
      (parts.drop (parts.length - partsLo)).all parseHextet
  else parts.length = 8 ∧ parts.all parseHextet

def ipIntFromString (s : List Char) : Bool :=
  s ≠ [] ∧ 3 ≤ (s.splitOn ':').length ∧ (hextets (s.splitOn ':')).any scanParts

/-- `IPv6Address`: no "/", and a scope behind the first "%" is not empty and has no further one. -/
def ipv6Address (s : List Char) : Bool :=
  '/' ∉ s ∧ ('%' ∈ s → (s.dropWhile (· ≠ '%')).tail ≠ [] ∧ '%' ∉ (s.dropWhile (· ≠ '%')).tail) ∧
    ipIntFromString (s.takeWhile (· ≠ '%'))

theorem isDigit_toLower (c : Char) : c.toLower.isDigit = c.isDigit :=
  toLower_congr (List.all_iff_forall_prop.mp (by decide)) c

theorem hexDigit_toLower (c : Char) : hexDigit c.toLower = hexDigit c :=
  toLower_congr (List.all_iff_forall_prop.mp (by decide)) c

theorem toLower_eq_iff {c d : Char} (hd : d ∉ capitals) (hd' : d ∉ capitals.map Char.toLower) :
    c.toLower = d ↔ c = d := by
  rcases toLower_eq_or_mem c with hc | hc
  · rw [hc]
  · refine ⟨fun h => absurd (List.mem_map.mpr ⟨c,hc,h⟩) hd',fun h => absurd (h ▸ hc) hd⟩

theorem map_toLower_of_notMem {s : List Char} (h : ∀ c ∈ s, c ∉ capitals) : s.map Char.toLower = s := by
  have hmap := List.map_congr_left (fun c hc => (toLower_eq_or_mem c).resolve_right (h c hc))
  exact hmap.trans (List.map_id' s)

theorem splitOn_toLower {d : Char} (hd : d ∉ capitals) (hd' : d ∉ capitals.map Char.toLower) (s : List Char) :
    (s.map Char.toLower).splitOn d = (s.splitOn d).map (List.map Char.toLower) :=
  splitOnP_map (fun c => by simp only [beq_eq_decide,toLower_eq_iff hd hd']) s

theorem mem_toLower {d : Char} (hd : d ∉ capitals) (hd' : d ∉ capitals.map Char.toLower) {s : List Char} :
    d ∈ s.map Char.toLower ↔ d ∈ s := by
  simp only [List.mem_map,toLower_eq_iff hd hd',exists_eq_right]

theorem parseOctet_toLower (octet : List Char) : parseOctet (octet.map Char.toLower) = parseOctet octet := by
  by_cases hdigits : octet.all Char.isDigit = true
  · have hnot : ∀ c ∈ capitals, ¬ c.isDigit = true := List.all_iff_forall_prop.mp (by decide)
    rw [map_toLower_of_notMem (fun c hc hmem => hnot c hmem (List.all_eq_true.mp hdigits c hc))]
  · have hdigits' : ¬ (octet.map Char.toLower).all Char.isDigit = true := by
      rwa [List.all_map,show Char.isDigit ∘ Char.toLower = Char.isDigit from funext isDigit_toLower]
    simp [parseOctet,hdigits,hdigits']

theorem ipv4Address_toLower (s : List Char) : ipv4Address (s.map Char.toLower) = ipv4Address s := by
  unfold ipv4Address
  rw [splitOn_toLower (by decide) (by decide),List.length_map,List.all_map,
    show parseOctet ∘ List.map Char.toLower = parseOctet from funext parseOctet_toLower]
  simp only [mem_toLower (d := '/') (by decide) (by decide),ne_eq,List.map_eq_nil_iff]

theorem parseHextet_toLower (hextet : List Char) : parseHextet (hextet.map Char.toLower) = parseHextet hextet := by
  unfold parseHextet
  rw [List.all_map,show hexDigit ∘ Char.toLower = hexDigit from funext hexDigit_toLower]
  simp only [List.length_map,ne_eq,List.map_eq_nil_iff]

theorem hextets_toLower (parts : List (List Char)) :
    hextets (parts.map (List.map Char.toLower)) = (hextets parts).map (List.map (List.map Char.toLower)) := by
  unfold hextets
  rw [List.getLast?_map]
  cases parts.getLast? with
  | none => rfl
  | some last =>
    simp only [Option.map_some,mem_toLower (d := '.') (by decide) (by decide),ipv4Address_toLower]
    split
    · rfl
    · split
      · rw [← List.map_dropLast,Option.map_some,List.map_append]
        rfl
      · rfl

theorem scanParts_map {f : List Char → List Char} (hempty : List.isEmpty ∘ f = List.isEmpty)
    (hhextet : parseHextet ∘ f = parseHextet) (parts : List (List Char)) :
    scanParts (parts.map f) = scanParts parts := by
  have hpart : ∀ part, (f part).isEmpty = part.isEmpty := congrFun hempty
  unfold scanParts
  simp only [← List.map_tail,← List.map_dropLast,List.head?_map,List.getLast?_map,Option.any_map,List.countP_map,
    List.any_map,List.findIdx_map,← List.map_take,← List.map_drop,List.all_map,List.length_map,
    hpart,hempty,hhextet]

theorem scanParts_toLower (parts : List (List Char)) :
    scanParts (parts.map (List.map Char.toLower)) = scanParts parts := by
  have hempty : List.isEmpty ∘ List.map Char.toLower = List.isEmpty := funext (fun s => List.isEmpty_map)
  have hhextet : parseHextet ∘ List.map Char.toLower = parseHextet := funext parseHextet_toLower
  exact scanParts_map hempty hhextet parts

theorem ipIntFromString_toLower (s : List Char) : ipIntFromString (s.map Char.toLower) = ipIntFromString s := by
  unfold ipIntFromString
  rw [splitOn_toLower (by decide) (by decide),List.length_map,hextets_toLower,Option.any_map]
  simp only [ne_eq,List.map_eq_nil_iff,scanParts_toLower]

/-- What is parsed on the two sides of a "::" that is part `k + 1`. -/
theorem sides_of_scanParts {parts : List (List Char)} (h : scanParts parts = true)
    (hinner : parts.tail.dropLast.any List.isEmpty = true) {k : ℕ}
    (hk : parts.tail.dropLast.findIdx List.isEmpty = k) :
    (parts.head?.any List.isEmpty = true → k = 0) ∧
    (parts.head?.any List.isEmpty = false → (parts.take (k + 1)).all parseHextet = true) ∧
    (parts.getLast?.any List.isEmpty = true → parts.length ≤ k + 3) ∧
    (parts.getLast?.any List.isEmpty = false →
      (parts.drop (parts.length - (parts.length - (k + 1) - 1))).all parseHextet = true) := by
  simp only [scanParts,hinner,hk,if_true] at h
  split at h
  · cases h
  split at h
  · cases h
  have hleading : parts.head?.any List.isEmpty = true → k = 0 := by
    intro hl
    by_contra hne
    rw [if_pos ⟨hl,by simpa [hl] using hne⟩] at h
    cases h
  rw [if_neg (by
    rintro ⟨hl,hne⟩
    simp [hl,hleading hl] at hne)] at h
  have htrailing : parts.getLast?.any List.isEmpty = true → parts.length ≤ k + 3 := by
    intro ht
    by_contra hne
    rw [if_pos ⟨ht,by rw [if_pos ht]; omega⟩] at h
    cases h
  rw [if_neg (by
    rintro ⟨ht,hne⟩
    have := htrailing ht
    rw [if_pos ht] at hne
    omega)] at h
  obtain ⟨_,htake,hdrop⟩ := of_decide_eq_true h
  refine ⟨hleading,fun hl => ?_,htrailing,fun ht => ?_⟩
  · simpa only [hl,if_false,Bool.false_eq_true] using htake
  · simpa only [ht,if_false,Bool.false_eq_true] using hdrop

theorem getElem_of_any {l : List (List Char)} {i : ℕ} (hi : i < l.length) (h : l[i]?.any List.isEmpty = true) :
    l[i] = [] := by
  rw [List.getElem?_eq_getElem hi] at h
  exact List.isEmpty_iff.mp h

theorem hextet_of_scanParts {parts : List (List Char)} (h : scanParts parts = true) {part : List Char}
    (hpart : part ∈ parts) : part = [] ∨ parseHextet part = true := by
  obtain ⟨i,hi,rfl⟩ := List.mem_iff_getElem.mp hpart
  by_cases hinner : parts.tail.dropLast.any List.isEmpty = true
  · obtain ⟨k,hk⟩ : ∃ k, parts.tail.dropLast.findIdx List.isEmpty = k := ⟨_,rfl⟩
    have hlt : parts.tail.dropLast.findIdx List.isEmpty < parts.tail.dropLast.length :=
      List.findIdx_lt_length.mpr (List.any_eq_true.mp hinner)
    have hskip : parts.tail.dropLast[parts.tail.dropLast.findIdx List.isEmpty].isEmpty = true := List.findIdx_getElem
    obtain ⟨hhead,htake,hlast,hdrop⟩ := sides_of_scanParts h hinner hk
    simp only [hk,List.length_dropLast,List.length_tail,List.getElem_dropLast,List.getElem_tail] at hlt hskip
    rcases Nat.lt_trichotomy i (k + 1) with hik | rfl | hik
    · cases hl : parts.head?.any List.isEmpty with
      | true =>
        obtain rfl : i = 0 := by
          have := hhead hl
          omega
        rw [List.head?_eq_getElem?] at hl
        exact Or.inl (getElem_of_any hi hl)
      | false =>
        refine Or.inr (List.all_eq_true.mp (htake hl) _ (List.mem_take_iff_getElem.mpr ⟨i,?_,rfl⟩))
        omega
    · exact Or.inl (List.isEmpty_iff.mp hskip)
    · cases ht : parts.getLast?.any List.isEmpty with
      | true =>
        obtain rfl : i = parts.length - 1 := by
          have := hlast ht
          omega
        rw [List.getLast?_eq_getElem?] at ht
        exact Or.inl (getElem_of_any hi ht)
      | false =>
        refine Or.inr (List.all_eq_true.mp (hdrop ht) _ (List.mem_drop_iff_getElem.mpr ⟨i - (k + 2),?_,?_⟩))
        · omega
        · congr 1
          omega
  · simp only [scanParts,hinner] at h
    split at h
    · cases h
    split at h
    · cases h
    have hall := (of_decide_eq_true h).2
    exact Or.inr (List.all_eq_true.mp hall _ (List.getElem_mem hi))

theorem mem_of_isDigit {c : Char} (h : c.isDigit = true) : c ∈ "0123456789".toList := by
  have hdigits : (List.range' 48 10).map Char.ofNat = "0123456789".toList := by decide
  rw [← hdigits]
  refine List.mem_map.mpr ⟨c.toNat,List.mem_range'_1.mpr ?_,Char.ofNat_toNat c⟩
  have hlow : 48 ≤ c.toNat := (Char.isDigit_iff_toNat.mp h).1
  have hhigh : c.toNat ≤ 57 := (Char.isDigit_iff_toNat.mp h).2
  omega

theorem hexDigit_of_isDigit {c : Char} (h : c.isDigit = true) : hexDigit c = true := by
  have hall : ∀ d ∈ "0123456789".toList, hexDigit d = true := List.all_iff_forall_prop.mp (by decide)
  exact hall c (mem_of_isDigit h)

theorem exists_mem_splitOn {c d : Char} {s : List Char} (hc : c ∈ s) (hne : c ≠ d) :
    ∃ part ∈ s.splitOn d, c ∈ part := by
  obtain ⟨before,after,rfl⟩ := List.append_of_mem hc
  obtain ⟨init,rest,hpart,_⟩ := exists_part (p := (· == d)) (by simpa using hne) before after
  exact ⟨_,hpart,by simp⟩

theorem char_of_ipv4Address {s : List Char} (h : ipv4Address s = true) {c : Char} (hc : c ∈ s) :
    hexDigit c = true ∨ c = '.' := by
  by_cases hdot : c = '.'
  · exact Or.inr hdot
  · obtain ⟨octet,hoctet,hmem⟩ := exists_mem_splitOn hc hdot
    obtain ⟨_,_,_,hall⟩ := of_decide_eq_true h
    obtain ⟨_,hdigits,_⟩ := of_decide_eq_true (List.all_eq_true.mp hall octet hoctet)
    exact Or.inl (hexDigit_of_isDigit (List.all_eq_true.mp hdigits c hmem))

theorem mem_hextets {parts parts' : List (List Char)} (h : hextets parts = some parts') {part : List Char}
    (hpart : part ∈ parts) : part ∈ parts' ∨ ipv4Address part = true := by
  unfold hextets at h
  split at h
  · obtain rfl := Option.some.inj h
    exact Or.inl hpart
  · rename_i last hlast
    split at h
    · obtain rfl := Option.some.inj h
      exact Or.inl hpart
    split at h
    · rename_i hip
      obtain rfl := Option.some.inj h
      obtain ⟨init,rfl⟩ := List.getLast?_eq_some_iff.mp hlast
      rcases List.mem_append.mp hpart with hinit | hend
      · exact Or.inl (by simp [hinit])
      · exact Or.inr (List.mem_singleton.mp hend ▸ hip)
    · cases h

theorem char_of_ipIntFromString {s : List Char} (h : ipIntFromString s = true) {c : Char} (hc : c ∈ s) :
    hexDigit c = true ∨ c = ':' ∨ c = '.' := by
  by_cases hcolon : c = ':'
  · exact Or.inr (Or.inl hcolon)
  · obtain ⟨part,hpart,hmem⟩ := exists_mem_splitOn hc hcolon
    obtain ⟨_,_,hparts⟩ := of_decide_eq_true h
    obtain ⟨parts',hparts',hscan⟩ := (Option.any_eq_true _ _).mp hparts
    rcases mem_hextets hparts' hpart with hpart' | hip
    · rcases hextet_of_scanParts hscan hpart' with rfl | hhextet
      · cases hmem
      · exact Or.inl (List.all_eq_true.mp (of_decide_eq_true hhextet).1 c hmem)
    · exact (char_of_ipv4Address hip hmem).imp_right Or.inr

theorem getLast?_of_ipIntFromString {s : List Char} (h : ipIntFromString s = true) : s.getLast? ≠ some '.' := by
  intro hlast
  obtain ⟨before,rfl⟩ := List.getLast?_eq_some_iff.mp hlast
  obtain ⟨init,rest,hpart,_,hrest⟩ := exists_part (p := (· == ':')) (a := '.') (by decide) before []
  obtain rfl : rest = [] := List.subset_nil.mp hrest
  obtain ⟨_,_,hparts⟩ := of_decide_eq_true h
  obtain ⟨parts',hparts',hscan⟩ := (Option.any_eq_true _ _).mp hparts
  rcases mem_hextets hparts' hpart with hpart' | hip
  · rcases hextet_of_scanParts hscan hpart' with hnil | hhextet
    · simp at hnil
    · exact absurd (List.all_eq_true.mp (of_decide_eq_true hhextet).1 '.' (by simp)) (by decide)
  · obtain ⟨_,_,_,hall⟩ := of_decide_eq_true hip
    have hnil : [] ∈ (init ++ ['.']).splitOn '.' := by
      rw [List.splitOn_append_cons_self]
      simp
    exact absurd (List.all_eq_true.mp hall [] hnil) (by decide)

theorem two_le_count_of_ipIntFromString {s : List Char} (h : ipIntFromString s = true) : 2 ≤ s.count ':' := by
  have hlength := (of_decide_eq_true h).2.1
  rw [List.splitOn_eq_splitOnP,length_splitOnP] at hlength
  rw [List.count]
  omega

theorem notMem_of_ipIntFromString {s : List Char} (h : ipIntFromString s = true) {d : Char}
    (hd : hexDigit d = false ∧ d ≠ ':' ∧ d ≠ '.') : d ∉ s := by
  intro hmem
  rcases char_of_ipIntFromString h hmem with hhex | hcolon | hdot
  · rw [hd.1] at hhex
    cases hhex
  · exact hd.2.1 hcolon
  · exact hd.2.2 hdot

theorem takeWhile_percent {a : List Char} (ha : '%' ∉ a) (z : List Char) :
    (a ++ '%' :: z).takeWhile (· ≠ '%') = a ∧ (a ++ '%' :: z).dropWhile (· ≠ '%') = '%' :: z := by
  have hall : ∀ c ∈ a, decide (c ≠ '%') = true := fun c hc => decide_eq_true (fun h => ha (h ▸ hc))
  rw [List.takeWhile_append_of_pos hall,List.dropWhile_append_of_pos hall]
  simp

theorem ipv6Address_scoped_iff {a z : List Char} (ha : '%' ∉ a) : ipv6Address (a ++ '%' :: z) = true ↔
    '/' ∉ a ++ '%' :: z ∧ (z ≠ [] ∧ '%' ∉ z) ∧ ipIntFromString a = true := by
  obtain ⟨htake,hdrop⟩ := takeWhile_percent ha z
  rw [ipv6Address,htake,hdrop,decide_eq_true_iff,List.tail_cons]
  simp

theorem ipv6Address_iff_of_notMem {s : List Char} (hs : '%' ∉ s) : ipv6Address s = true ↔
    '/' ∉ s ∧ ipIntFromString s = true := by
  have hall : s.takeWhile (· ≠ '%') = s := List.takeWhile_eq_self_iff.mpr (fun c hc =>
    decide_eq_true (fun h => hs (h ▸ hc)))
  rw [ipv6Address,hall,decide_eq_true_iff]
  simp [hs]

theorem ipv6Address_cases {s : List Char} (h : ipv6Address s = true) : ipIntFromString s = true ∨
    ∃ a z, s = a ++ '%' :: z ∧ '%' ∉ z ∧ ipIntFromString a = true := by
  by_cases hs : '%' ∈ s
  · obtain ⟨a,z,rfl,ha⟩ := List.eq_append_cons_of_mem hs
    obtain ⟨_,⟨_,hz⟩,hip⟩ := (ipv6Address_scoped_iff ha).mp h
    exact Or.inr ⟨a,z,rfl,hz,hip⟩
  · exact Or.inl ((ipv6Address_iff_of_notMem hs).mp h).2

theorem not_ipv6Address_bracket (s : List Char) : ipv6Address ('[' :: s) = false := by
  rw [Bool.eq_false_iff]
  intro h
  rcases ipv6Address_cases h with hip | ⟨a,z,heq,_,hip⟩
  · exact notMem_of_ipIntFromString (d := '[') hip (by decide) (by simp)
  · have hmem : '[' ∈ a := by
      cases a with
      | nil => cases heq
      | cons c rest =>
        rw [List.cons_append,List.cons.injEq] at heq
        simp [← heq.1]
    exact notMem_of_ipIntFromString hip (by decide) hmem

end TruenasCE.Hosts
