import TruenasCE.Hosts.IpAddress
import TruenasCE.Library.Digits

/-! # Canonical texts of addresses

What number an accepted text stands for, and the one text that `str` gives an address.
-/
namespace TruenasCE.Hosts
open Library

/-- The value of a digit in `int(text, 16)`. -/
def digitValue (c : Char) : ℕ := if c.isDigit then c.toNat - '0'.toNat else c.toLower.toNat - 'a'.toNat + 10

/-- The number of `_parse_octet`. -/
def octetNumber (octet : List Char) : ℕ := readText 10 (fun c => c.toNat - '0'.toNat) octet

/-- The number of `_parse_hextet`. -/
def hextetNumber (hextet : List Char) : ℕ := readText 16 digitValue hextet

/-- The number of an `IPv4Address`. -/
def ipv4Number (s : List Char) : Option ℕ :=
  if ipv4Address s then some (readDigits 256 0 ((s.splitOn '.').map octetNumber)) else none

/-- An IPv4 address at the end is two hextets. -/
def withoutIpv4 (parts : List (List Char)) : Option (List (List Char)) :=
  match parts.getLast? with
  | none => some parts
  | some last =>
    if '.' ∉ last then some parts
    else (ipv4Number last).map (fun n =>
      parts.dropLast ++ [Nat.toDigits 16 (n >>> 16 &&& 0xFFFF),Nat.toDigits 16 (n &&& 0xFFFF)])

def readHextets (read : ℕ) (hextets : List (List Char)) : ℕ :=
  hextets.foldl (fun n hextet => n <<< 16 ||| hextetNumber hextet) read

def partsNumber (parts : List (List Char)) : ℕ :=
  let inner := parts.tail.dropLast
  let leading := parts.head?.any List.isEmpty
  let trailing := parts.getLast?.any List.isEmpty
  if inner.any List.isEmpty then
    let skipIndex := inner.findIdx List.isEmpty + 1
    let partsHi := if leading then skipIndex - 1 else skipIndex
    let partsLo := if trailing then parts.length - skipIndex - 2 else parts.length - skipIndex - 1
    let partsSkipped := 8 - (partsHi + partsLo)
    readHextets (readHextets 0 (parts.take partsHi) <<< (16 * partsSkipped)) (parts.drop (parts.length - partsLo))
  else readHextets 0 parts

/-- The number of `_ip_int_from_string`. -/
def ipv6Number (s : List Char) : Option ℕ :=
  if s ≠ [] ∧ 3 ≤ (s.splitOn ':').length then
    (withoutIpv4 (s.splitOn ':')).bind (fun parts => if scanParts parts then some (partsNumber parts) else none)
  else none

/-- `IPv4Address._string_from_ip_int` -/
def ipv4Text (n : ℕ) : List Char := ['.'].intercalate ((fixedDigits 256 4 n).map (Nat.toDigits 10))

/-- The runs of zeros that `_compress_hextets` keeps; a run that goes on has a start. -/
structure Runs where
  bestStart : ℕ := 0
  bestLength : ℕ := 0
  start : Option ℕ := none
  length : ℕ := 0
deriving DecidableEq

/-- One pass of the loop of `_compress_hextets`. -/
def Runs.next (r : Runs) (index : ℕ) (hextet : List Char) : Runs :=
  if hextet = ['0'] then
    let start := r.start.getD index
    if r.bestLength < r.length + 1 then ⟨start,r.length + 1,some start,r.length + 1⟩
    else ⟨r.bestStart,r.bestLength,some start,r.length + 1⟩
  else ⟨r.bestStart,r.bestLength,none,0⟩

/-- The loop of `_compress_hextets`. -/
def scanRuns (hextets : List (List Char)) : Runs :=
  hextets.zipIdx.foldl (fun r hextet => r.next hextet.2 hextet.1) {}

def compressHextets (hextets : List (List Char)) : List (List Char) :=
  let r := scanRuns hextets
  if 1 < r.bestLength then
    let stop := r.bestStart + r.bestLength
    let hextets' := if stop = hextets.length then hextets ++ [[]] else hextets
    let compressed := hextets'.take r.bestStart ++ [] :: hextets'.drop stop
    if r.bestStart = 0 then [] :: compressed else compressed
  else hextets

/-- `IPv6Address._string_from_ip_int` -/
def stringFromIpInt (n : ℕ) : List Char :=
  [':'].intercalate (compressHextets ((fixedDigits 65536 8 n).map (Nat.toDigits 16)))

/-- `str` of an IPv6 address: one that stands for an IPv4 address ends in that. -/
def ipv6Text (n : ℕ) : List Char :=
  if n >>> 32 = 0xFFFF then stringFromIpInt (n >>> 32) ++ ':' :: ipv4Text (n &&& 0xFFFFFFFF) else stringFromIpInt n

theorem octetNumber_le {octet : List Char} (h : parseOctet octet = true) : octetNumber octet ≤ 255 :=
  (of_decide_eq_true h).2.2.2.2

theorem octetNumber_toDigits (d : ℕ) : octetNumber (Nat.toDigits 10 d) = d :=
  readText_toDigits (by decide) (by decide) d

theorem parseOctet_toDigits {d : ℕ} (hd : d < 256) : parseOctet (Nat.toDigits 10 d) = true := by
  have hdigits : (Nat.toDigits 10 d).all Char.isDigit = true := by
    refine List.all_eq_true.mpr (fun c hc => ?_)
    exact Nat.isDigit_of_mem_toDigits (by decide) (by decide) hc
  have hlength : (Nat.toDigits 10 d).length ≤ 3 := (Nat.length_toDigits_le_iff (by decide) (by decide)).mpr (by omega)
  have hzero : Nat.toDigits 10 d = ['0'] ∨ (Nat.toDigits 10 d).head? ≠ some '0' := by
    rcases eq_or_ne d 0 with rfl | hne
    · exact Or.inl (by decide)
    · exact Or.inr (head?_toDigits (by decide) hne)
  have hle : octetNumber (Nat.toDigits 10 d) ≤ 255 := by
    rw [octetNumber_toDigits]
    omega
  exact decide_eq_true ⟨Nat.toDigits_ne_nil,hdigits,hlength,hzero,hle⟩

theorem hextetNumber_toDigits (d : ℕ) : hextetNumber (Nat.toDigits 16 d) = d :=
  readText_toDigits (by decide) (by decide) d

theorem hexDigit_of_mem_toDigits {d : ℕ} {c : Char} (hc : c ∈ Nat.toDigits 16 d) : hexDigit c = true := by
  obtain ⟨e,he,rfl⟩ := mem_toDigits (by decide) hc
  have hall : ∀ e < 16, hexDigit e.digitChar = true := by decide
  exact hall e he

theorem parseHextet_toDigits {d : ℕ} (hd : d < 65536) : parseHextet (Nat.toDigits 16 d) = true := by
  have hlength : (Nat.toDigits 16 d).length ≤ 4 := (Nat.length_toDigits_le_iff (by decide) (by decide)).mpr (by omega)
  exact decide_eq_true ⟨List.all_eq_true.mpr (fun c hc => hexDigit_of_mem_toDigits hc),hlength,Nat.toDigits_ne_nil⟩

theorem digitValue_lt {c : Char} (hc : hexDigit c = true) : digitValue c < 16 := by
  have hall : ∀ d ∈ "0123456789ABCDEFabcdef".toList, digitValue d < 16 := List.all_iff_forall_prop.mp (by decide)
  exact hall c (of_decide_eq_true hc)

theorem hextetNumber_lt {hextet : List Char} (h : parseHextet hextet = true) : hextetNumber hextet < 2 ^ 16 := by
  obtain ⟨hdigits,hlength,-⟩ := of_decide_eq_true h
  have hlt : readText 16 digitValue hextet < 16 ^ hextet.length :=
    readText_lt (fun c hc => digitValue_lt (List.all_eq_true.mp hdigits c hc))
  have hpow : 16 ^ hextet.length ≤ 16 ^ 4 := Nat.pow_le_pow_right (by decide) hlength
  exact lt_of_lt_of_le hlt hpow

theorem readHextets_eq {hextets : List (List Char)} (h : hextets.all parseHextet = true) (read : ℕ) :
    readHextets read hextets = readDigits 65536 read (hextets.map hextetNumber) := by
  have hlt : ∀ d ∈ hextets.map hextetNumber, d < 2 ^ 16 := by
    intro d hd
    obtain ⟨hextet,hmem,rfl⟩ := List.mem_map.mp hd
    exact hextetNumber_lt (List.all_eq_true.mp h hextet hmem)
  have hfold := readDigits_eq_foldl_or (i := 16) hlt read
  rw [List.foldl_map] at hfold
  exact hfold

theorem ipv4Number_lt {s : List Char} {n : ℕ} (h : ipv4Number s = some n) : n < 2 ^ 32 := by
  unfold ipv4Number at h
  split at h
  · rename_i hip
    obtain ⟨-,-,hlength,hall⟩ := of_decide_eq_true hip
    cases h
    have hlt : ∀ d ∈ (s.splitOn '.').map octetNumber, d < 256 := by
      intro d hd
      obtain ⟨octet,hmem,rfl⟩ := List.mem_map.mp hd
      have := octetNumber_le (List.all_eq_true.mp hall octet hmem)
      omega
    have hbound := readDigits_lt hlt
    rw [List.length_map,hlength] at hbound
    exact hbound
  · cases h

theorem notMem_toDigits {b d : ℕ} (hb : 1 < b ∧ b ≤ 16) {c : Char} (hc : hexDigit c = false) :
    c ∉ Nat.toDigits b d := by
  intro hmem
  obtain ⟨e,he,rfl⟩ := mem_toDigits hb.1 hmem
  have hall : ∀ e < 16, hexDigit e.digitChar = true := by decide
  rw [hall e (by omega)] at hc
  cases hc

theorem splitOn_ipv4Text (n : ℕ) :
    (ipv4Text n).splitOn '.' = (fixedDigits 256 4 n).map (Nat.toDigits 10) := by
  refine List.splitOn_intercalate '.' (fun octet hoctet => ?_) (by simp [fixedDigits])
  obtain ⟨d,-,rfl⟩ := List.mem_map.mp hoctet
  exact notMem_toDigits (by decide) (by decide)

theorem ipv4Address_ipv4Text (n : ℕ) : ipv4Address (ipv4Text n) = true := by
  have hslash : '/' ∉ ipv4Text n := by
    intro hmem
    obtain ⟨octet,hoctet,hc⟩ := exists_mem_splitOn (d := '.') hmem (by decide)
    rw [splitOn_ipv4Text] at hoctet
    obtain ⟨d,-,rfl⟩ := List.mem_map.mp hoctet
    exact notMem_toDigits (by decide) (by decide) hc
  have hne : ipv4Text n ≠ [] := by
    intro hnil
    have hsplit := splitOn_ipv4Text n
    rw [hnil] at hsplit
    simp [fixedDigits] at hsplit
  have hall : ((fixedDigits 256 4 n).map (Nat.toDigits 10)).all parseOctet = true := by
    refine List.all_eq_true.mpr (fun octet hoctet => ?_)
    obtain ⟨d,hd,rfl⟩ := List.mem_map.mp hoctet
    exact parseOctet_toDigits (lt_of_mem_fixedDigits (by decide) hd)
  refine decide_eq_true ⟨hslash,hne,?_⟩
  rw [splitOn_ipv4Text]
  exact ⟨rfl,hall⟩

theorem map_number_toDigits {b : ℕ} {number : List Char → ℕ} (h : ∀ d, number (Nat.toDigits b d) = d) (ds : List ℕ) :
    (ds.map (Nat.toDigits b)).map number = ds := by
  rw [List.map_map,show number ∘ Nat.toDigits b = id from funext h,List.map_id]

/-- The text of an IPv4 address is read as that address. -/
theorem ipv4Number_ipv4Text {n : ℕ} (hn : n < 2 ^ 32) : ipv4Number (ipv4Text n) = some n := by
  have hmod : n % 256 ^ 4 = n := Nat.mod_eq_of_lt hn
  rw [ipv4Number,if_pos (ipv4Address_ipv4Text n),splitOn_ipv4Text,map_number_toDigits octetNumber_toDigits,
    readDigits_fixedDigits,hmod]

/-- The best run and the one that goes on, of the hextets before `k`, are runs of zeros. -/
structure Runs.Sound (hextets : List (List Char)) (k : ℕ) (r : Runs) : Prop where
  best_le : r.bestStart + r.bestLength ≤ k
  best_zero : ∀ j, r.bestStart ≤ j → j < r.bestStart + r.bestLength → hextets[j]? = some ['0']
  current : r.start.getD k + r.length = k
  current_zero : ∀ j, r.start.getD k ≤ j → j < k → hextets[j]? = some ['0']

theorem Runs.Sound.next {hextets : List (List Char)} {k : ℕ} {r : Runs} (h : r.Sound hextets k) {hextet : List Char}
    (hk : hextets[k]? = some hextet) : (r.next k hextet).Sound hextets (k + 1) := by
  have hbest := h.best_le
  have hcurrent := h.current
  unfold Runs.next
  split
  · rename_i hzero
    have hgrown : ∀ j, r.start.getD k ≤ j → j < k + 1 → hextets[j]? = some ['0'] := by
      intro j hlow hhigh
      rcases Nat.lt_succ_iff_lt_or_eq.mp hhigh with hlt | rfl
      · exact h.current_zero j hlow hlt
      · rw [hk,hzero]
    split
    · refine ⟨?_,fun j hlow hhigh => hgrown j hlow ?_,?_,fun j hlow hhigh => hgrown j hlow hhigh⟩
      · change r.start.getD k + (r.length + 1) ≤ k + 1
        omega
      · change j < r.start.getD k + (r.length + 1) at hhigh
        omega
      · change r.start.getD k + (r.length + 1) = k + 1
        omega
    · refine ⟨?_,h.best_zero,?_,fun j hlow hhigh => hgrown j hlow hhigh⟩
      · change r.bestStart + r.bestLength ≤ k + 1
        omega
      · change r.start.getD k + (r.length + 1) = k + 1
        omega
  · refine ⟨?_,h.best_zero,rfl,fun j hlow hhigh => ?_⟩
    · change r.bestStart + r.bestLength ≤ k + 1
      omega
    · change k + 1 ≤ j at hlow
      omega

theorem sound_scanRuns (hextets : List (List Char)) : (scanRuns hextets).Sound hextets hextets.length := by
  have hrest : ∀ rest before r, hextets = before ++ rest → Runs.Sound hextets before.length r →
      ((rest.zipIdx before.length).foldl (fun r hextet => r.next hextet.2 hextet.1) r).Sound hextets
        hextets.length := by
    intro rest
    induction rest with
    | nil =>
      rintro before r rfl hr
      simpa using hr
    | cons hextet rest ih =>
      intro before r heq hr
      have hk : hextets[before.length]? = some hextet := by simp [heq]
      have hnext := ih (before ++ [hextet]) _ (by simp [heq]) (by simpa using hr.next hk)
      simpa using hnext
  refine hrest hextets [] {} rfl ⟨by simp,fun j hlow hhigh => ?_,rfl,fun j hlow hhigh => absurd hhigh (by simp)⟩
  simp at hhigh

/-- The parts around a "::" between two lists of hextets. -/
def compressed (before after : List (List Char)) : List (List Char) :=
  (if before = [] then [[]] else before) ++ [] :: (if after = [] then [[]] else after)

theorem compressHextets_cases (hextets : List (List Char)) : compressHextets hextets = hextets ∨
    ∃ before k after, hextets = before ++ List.replicate k ['0'] ++ after ∧ 0 < k ∧
      compressHextets hextets = compressed before after := by
  have h := sound_scanRuns hextets
  unfold compressHextets
  generalize scanRuns hextets = r at h
  have hle := h.best_le
  by_cases hlong : 1 < r.bestLength
  · refine Or.inr ⟨hextets.take r.bestStart,r.bestLength,hextets.drop (r.bestStart + r.bestLength),?_,by omega,?_⟩
    · apply List.ext_getElem?
      intro j
      rw [List.append_assoc,List.getElem?_append,List.length_take,Nat.min_eq_left (by omega)]
      split
      · rename_i hj
        rw [List.getElem?_take_of_lt hj]
      · rename_i hj
        rw [List.getElem?_append,List.length_replicate]
        split
        · rename_i hin
          rw [h.best_zero j (by omega) (by omega),List.getElem?_replicate_of_lt hin]
        · rename_i hout
          rw [List.getElem?_drop]
          congr 1
          omega
    · simp only [hlong,if_true]
      have hbefore : hextets.take r.bestStart = [] ↔ r.bestStart = 0 := by
        rw [List.take_eq_nil_iff]
        refine ⟨fun hor => hor.resolve_right (fun hnil => ?_),Or.inl⟩
        rw [hnil,List.length_nil] at hle
        omega
      have hafter : hextets.drop (r.bestStart + r.bestLength) = [] ↔ r.bestStart + r.bestLength = hextets.length := by
        rw [List.drop_eq_nil_iff]
        omega
      have hsides : ∀ hextets', (hextets' = if r.bestStart + r.bestLength = hextets.length then hextets ++ [[]]
          else hextets) → hextets'.take r.bestStart = hextets.take r.bestStart ∧
          hextets'.drop (r.bestStart + r.bestLength) =
            if hextets.drop (r.bestStart + r.bestLength) = [] then [[]] else hextets.drop (r.bestStart + r.bestLength) := by
        rintro hextets' rfl
        split
        · rename_i hend
          rw [if_pos (hafter.mpr hend),hend]
          exact ⟨List.take_append_of_le_length (by omega),List.drop_left⟩
        · rename_i hend
          rw [if_neg (fun hnil => hend (hafter.mp hnil))]
          exact ⟨rfl,rfl⟩
      obtain ⟨htake,hdrop⟩ := hsides _ rfl
      rw [htake,hdrop,compressed]
      split
      · rename_i hzero
        rw [if_pos (hbefore.mpr hzero),hbefore.mpr hzero]
        rfl
      · rename_i hzero
        rw [if_neg (fun hnil => hzero (hbefore.mp hnil))]
  · exact Or.inl (by simp only [hlong,if_false])

variable {before after : List (List Char)}

theorem ne_nil_of_parseHextet {hextet : List Char} (h : parseHextet hextet = true) : hextet ≠ [] :=
  (of_decide_eq_true h).2.2

theorem isEmpty_of_all {hextets : List (List Char)} (h : hextets.all parseHextet = true) {part : List Char}
    (hpart : part ∈ hextets) : part.isEmpty = false := by
  rw [List.isEmpty_eq_false_iff]
  exact ne_nil_of_parseHextet (List.all_eq_true.mp h part hpart)

theorem inner_compressed (before after : List (List Char)) :
    (compressed before after).tail.dropLast = before.tail ++ [] :: after.dropLast := by
  cases before with
  | nil => cases after <;> rfl
  | cons first before =>
    have htail : (compressed (first :: before) after).tail = before ++ ([] :: if after = [] then [[]] else after) := rfl
    rw [htail,List.dropLast_append_of_ne_nil (List.cons_ne_nil _ _)]
    cases after <;> rfl

theorem head_compressed (hbefore : before.all parseHextet = true) :
    (compressed before after).head?.any List.isEmpty = before.isEmpty := by
  cases before with
  | nil => rfl
  | cons first before => exact isEmpty_of_all hbefore List.mem_cons_self

theorem getLast_compressed (hafter : after.all parseHextet = true) :
    (compressed before after).getLast?.any List.isEmpty = after.isEmpty := by
  rcases List.eq_nil_or_concat after with rfl | ⟨after,last,rfl⟩
  · simp [compressed]
  · have hlast : last.isEmpty = false := isEmpty_of_all hafter (by simp)
    have hparts : compressed before (after.concat last) =
        (if before = [] then [[]] else before) ++ ([] :: after) ++ [last] := by simp [compressed]
    rw [hparts,List.getLast?_concat,Option.any_some,hlast]
    simp

theorem length_compressed (before after : List (List Char)) :
    (compressed before after).length = max before.length 1 + 1 + max after.length 1 := by
  cases before <;> cases after <;> simp [compressed] <;> omega

theorem skip_compressed (hbefore : before.all parseHextet = true) (hafter : after.all parseHextet = true) :
    (compressed before after).tail.dropLast.any List.isEmpty = true ∧
    (compressed before after).tail.dropLast.countP List.isEmpty = 1 ∧
    (compressed before after).tail.dropLast.findIdx List.isEmpty + 1 = max before.length 1 := by
  have htail : ∀ part ∈ before.tail, part.isEmpty = false := fun part hpart =>
    isEmpty_of_all hbefore (List.mem_of_mem_tail hpart)
  have hlast : ∀ part ∈ after.dropLast, part.isEmpty = false := fun part hpart =>
    isEmpty_of_all hafter (List.mem_of_mem_dropLast hpart)
  rw [inner_compressed]
  refine ⟨by simp,?_,?_⟩
  · have hnone : ∀ parts : List (List Char), (∀ part ∈ parts, part.isEmpty = false) → parts.countP List.isEmpty = 0 :=
      fun parts h => List.countP_eq_zero.mpr (fun part hpart => by simp [h part hpart])
    rw [List.countP_append,List.countP_cons_of_pos rfl,hnone _ htail,hnone _ hlast]
  · have hfind : before.tail.findIdx List.isEmpty = before.tail.length := List.findIdx_eq_length_of_false htail
    rw [List.findIdx_append,hfind,if_neg (lt_irrefl _),List.findIdx_cons]
    simp only [List.isEmpty_nil,cond_true,List.length_tail]
    omega

theorem sides_compressed (hbefore : before.all parseHextet = true) (hafter : after.all parseHextet = true) :
    (scanParts (compressed before after) = true ↔ before.length + after.length < 8) ∧
    partsNumber (compressed before after) =
      readHextets (readHextets 0 before <<< (16 * (8 - (before.length + after.length)))) after := by
  obtain ⟨hany,hcount,hskip⟩ := skip_compressed hbefore hafter
  have hhead := @head_compressed _ after hbefore
  have hlast := @getLast_compressed before _ hafter
  have hlength := length_compressed before after
  have hhi : (if before.isEmpty = true then max before.length 1 - 1 else max before.length 1) = before.length := by
    cases before <;> simp
  have hlo : (if after.isEmpty = true then (compressed before after).length - max before.length 1 - 2
      else (compressed before after).length - max before.length 1 - 1) = after.length := by
    rw [hlength]
    cases after <;> simp <;> omega
  have htake : (compressed before after).take before.length = before := by
    cases before <;> simp [compressed]
  have hdrop : (compressed before after).drop ((compressed before after).length - after.length) = after := by
    rw [hlength]
    cases after with
    | nil =>
      rw [List.length_nil,List.drop_eq_nil_iff,hlength]
      simp
    | cons part after =>
      have hparts : compressed before (part :: after) = ((if before = [] then [[]] else before) ++ [[]]) ++
          part :: after := by simp [compressed]
      rw [hparts]
      refine List.drop_left' ?_
      cases before <;> simp
  unfold scanParts partsNumber
  simp only [hany,hcount,hskip,hhead,hlast,if_true]
  simp only [hhi,hlo,htake,hdrop,hbefore,hafter]
  refine ⟨?_,trivial⟩
  have hempty : ∀ hextets : List (List Char), ¬ (hextets.isEmpty = true ∧ hextets.length ≠ 0) := by
    rintro hextets ⟨hnil,hne⟩
    exact hne (by simpa using hnil)
  rw [if_neg (lt_irrefl 1),if_neg (hempty before),if_neg (hempty after),hlength]
  split
  · simp only [Bool.false_eq_true,false_iff]
    omega
  · simp

theorem readHextets_append (read : ℕ) (ds es : List (List Char)) :
    readHextets read (ds ++ es) = readHextets (readHextets read ds) es := List.foldl_append

theorem scanParts_hextets {hextets : List (List Char)} (h : hextets.all parseHextet = true)
    (hlength : hextets.length = 8) : scanParts hextets = true ∧ partsNumber hextets = readHextets 0 hextets := by
  have hinner : hextets.tail.dropLast.any List.isEmpty = false := by
    rw [List.any_eq_false]
    intro part hpart
    rw [isEmpty_of_all h (List.mem_of_mem_tail (List.mem_of_mem_dropLast hpart))]
    decide
  have hcount : hextets.tail.dropLast.countP List.isEmpty = 0 := by
    rw [List.countP_eq_zero]
    exact List.any_eq_false.mp hinner
  unfold scanParts partsNumber
  simp [hinner,hcount,hlength,h]

theorem scanParts_compressHextets {hextets : List (List Char)} (h : hextets.all parseHextet = true)
    (hlength : hextets.length = 8) : scanParts (compressHextets hextets) = true ∧
    partsNumber (compressHextets hextets) = readHextets 0 hextets := by
  rcases compressHextets_cases hextets with heq | ⟨before,k,after,rfl,hk,heq⟩
  · rw [heq]
    exact scanParts_hextets h hlength
  · simp only [List.all_append,Bool.and_eq_true] at h
    obtain ⟨⟨hbefore,hzeros⟩,hafter⟩ := h
    simp only [List.length_append,List.length_replicate] at hlength
    obtain ⟨hscan,hnumber⟩ := sides_compressed hbefore hafter
    have hshift : ∀ read, readHextets read (List.replicate k ['0']) = read <<< (16 * k) := by
      intro read
      rw [readHextets_eq hzeros,List.map_replicate,show hextetNumber ['0'] = 0 from rfl,readDigits_replicate_zero,
        Nat.shiftLeft_eq,pow_mul]
      norm_num
    have hskipped : 8 - (before.length + after.length) = k := by omega
    rw [heq,hnumber,hskipped,← hshift,← readHextets_append,← readHextets_append]
    exact ⟨hscan.mpr (by omega),by rw [List.append_assoc]⟩

theorem all_hextets (n : ℕ) : ((fixedDigits 65536 8 n).map (Nat.toDigits 16)).all parseHextet = true := by
  refine List.all_eq_true.mpr (fun hextet hhextet => ?_)
  obtain ⟨d,hd,rfl⟩ := List.mem_map.mp hhextet
  exact parseHextet_toDigits (lt_of_mem_fixedDigits (by decide) hd)

theorem readHextets_fixedDigits {n : ℕ} (hn : n < 2 ^ 128) :
    readHextets 0 ((fixedDigits 65536 8 n).map (Nat.toDigits 16)) = n := by
  have hmod : n % 65536 ^ 8 = n := Nat.mod_eq_of_lt hn
  rw [readHextets_eq (all_hextets n),map_number_toDigits hextetNumber_toDigits,readDigits_fixedDigits,hmod]

theorem mem_compressHextets {hextets : List (List Char)} {part : List Char} (h : part ∈ compressHextets hextets) :
    part = [] ∨ part ∈ hextets := by
  rcases compressHextets_cases hextets with heq | ⟨before,k,after,rfl,-,heq⟩
  · exact Or.inr (heq ▸ h)
  · rw [heq,compressed] at h
    rcases List.mem_append.mp h with hmem | hmem
    · split at hmem
      · exact Or.inl (List.mem_singleton.mp hmem)
      · exact Or.inr (by simp [hmem])
    · rcases List.mem_cons.mp hmem with rfl | hmem
      · exact Or.inl rfl
      · split at hmem
        · exact Or.inl (List.mem_singleton.mp hmem)
        · exact Or.inr (by simp [hmem])

theorem three_le_compressHextets {hextets : List (List Char)} (hlength : 3 ≤ hextets.length) :
    3 ≤ (compressHextets hextets).length := by
  rcases compressHextets_cases hextets with heq | ⟨before,k,after,-,-,heq⟩
  · rwa [heq]
  · rw [heq,length_compressed]
    omega

theorem notMem_compressHextets {n : ℕ} {c : Char} (hc : hexDigit c = false) {part : List Char}
    (hpart : part ∈ compressHextets ((fixedDigits 65536 8 n).map (Nat.toDigits 16))) : c ∉ part := by
  rcases mem_compressHextets hpart with rfl | hmem
  · exact List.not_mem_nil
  · obtain ⟨d,-,rfl⟩ := List.mem_map.mp hmem
    exact notMem_toDigits (by decide) hc

theorem splitOn_stringFromIpInt (n : ℕ) : (stringFromIpInt n).splitOn ':' =
    compressHextets ((fixedDigits 65536 8 n).map (Nat.toDigits 16)) := by
  refine List.splitOn_intercalate ':' (fun part hpart => notMem_compressHextets (by decide) hpart) (fun hnil => ?_)
  have hthree := @three_le_compressHextets ((fixedDigits 65536 8 n).map (Nat.toDigits 16)) (by simp)
  rw [hnil] at hthree
  simp at hthree

theorem ipv6Number_of_parts {s : List Char} {parts : List (List Char)} (hlength : 3 ≤ (s.splitOn ':').length)
    (hparts : withoutIpv4 (s.splitOn ':') = some parts) (hscan : scanParts parts = true) :
    ipv6Number s = some (partsNumber parts) := by
  have hne : s ≠ [] := by
    rintro rfl
    simp at hlength
  rw [ipv6Number,if_pos ⟨hne,hlength⟩,hparts,Option.bind_some,if_pos hscan]

theorem ipv6Number_stringFromIpInt {n : ℕ} (hn : n < 2 ^ 128) : ipv6Number (stringFromIpInt n) = some n := by
  obtain ⟨hscan,hnumber⟩ := scanParts_compressHextets (all_hextets n) (by simp)
  have hsplit := splitOn_stringFromIpInt n
  have hthree := @three_le_compressHextets ((fixedDigits 65536 8 n).map (Nat.toDigits 16)) (by simp)
  have hwithout : withoutIpv4 ((stringFromIpInt n).splitOn ':') =
      some (compressHextets ((fixedDigits 65536 8 n).map (Nat.toDigits 16))) := by
    rw [hsplit,withoutIpv4]
    split
    · rfl
    · rename_i last hlast
      rw [if_pos (notMem_compressHextets (by decide) (List.mem_of_getLast? hlast))]
  rw [ipv6Number_of_parts (by rw [hsplit]; exact hthree) hwithout hscan,hnumber,readHextets_fixedDigits hn]

/-- The two hextets of an IPv4 address. -/
theorem readDigits_halves {n : ℕ} (hn : n < 2 ^ 32) (read : ℕ) :
    readDigits 65536 read [n >>> 16 &&& 0xFFFF,n &&& 0xFFFF] = read * 2 ^ 32 + n := by
  have hhigh : n >>> 16 &&& 0xFFFF = n / 65536 % 65536 := by
    rw [Nat.shiftRight_eq_div_pow]
    exact Nat.and_two_pow_sub_one_eq_mod (n / 2 ^ 16) 16
  have hlow : n &&& 0xFFFF = n % 65536 := Nat.and_two_pow_sub_one_eq_mod n 16
  rw [hhigh,hlow]
  simp only [readDigits,List.foldl_cons,List.foldl_nil]
  omega

theorem ipv6Number_mapped {n : ℕ} (hn : n < 2 ^ 32) :
    ipv6Number (stringFromIpInt 0xFFFF ++ ':' :: ipv4Text n) = some (0xFFFF * 2 ^ 32 + n) := by
  have hcolon : ':' ∉ ipv4Text n := by
    intro hmem
    rcases char_of_ipv4Address (ipv4Address_ipv4Text n) hmem with hhex | hdot
    · exact absurd hhex (by decide)
    · exact absurd hdot (by decide)
  have hdot : ¬ '.' ∉ ipv4Text n := by
    intro hnot
    have hsplit := splitOn_ipv4Text n
    rw [List.splitOn_eq_singleton hnot] at hsplit
    have hlength := congrArg List.length hsplit
    simp at hlength
  have hsplit : (stringFromIpInt 0xFFFF ++ ':' :: ipv4Text n).splitOn ':' =
      [[],[],['f','f','f','f']] ++ [ipv4Text n] := by
    rw [List.splitOn_append_cons_self,splitOn_stringFromIpInt,List.splitOn_eq_singleton hcolon]
    congr 1
  have hall : [['f','f','f','f'],Nat.toDigits 16 (n >>> 16 &&& 0xFFFF),Nat.toDigits 16 (n &&& 0xFFFF)].all
      parseHextet = true := by
    have hmask : ∀ m : ℕ, m &&& 0xFFFF < 2 ^ 16 := fun m => Nat.and_lt_two_pow m (by decide)
    simp only [List.all_cons,parseHextet_toDigits (hmask _),List.all_nil]
    decide
  have hwithout : withoutIpv4 ((stringFromIpInt 0xFFFF ++ ':' :: ipv4Text n).splitOn ':') = some (compressed []
      [['f','f','f','f'],Nat.toDigits 16 (n >>> 16 &&& 0xFFFF),Nat.toDigits 16 (n &&& 0xFFFF)]) := by
    rw [hsplit,withoutIpv4,List.getLast?_concat]
    simp only [if_neg hdot,ipv4Number_ipv4Text hn,Option.map_some,List.dropLast_concat]
    rfl
  obtain ⟨hscan,hnumber⟩ := @sides_compressed [] _ rfl hall
  rw [ipv6Number_of_parts (by rw [hsplit]; simp) hwithout (hscan.mpr (by simp)),hnumber,readHextets_eq hall]
  have hmap : [['f','f','f','f'],Nat.toDigits 16 (n >>> 16 &&& 0xFFFF),Nat.toDigits 16 (n &&& 0xFFFF)].map
      hextetNumber = [0xFFFF] ++ [n >>> 16 &&& 0xFFFF,n &&& 0xFFFF] := by
    simp only [List.map_cons,hextetNumber_toDigits,List.map_nil]
    rfl
  have hzero : ∀ k, readHextets 0 [] <<< k = 0 := fun k => Nat.zero_shiftLeft k
  rw [hmap,hzero,readDigits_append,readDigits_halves hn]
  rfl

/-- The text of an IPv6 address is read as that address. -/
theorem ipv6Number_ipv6Text {n : ℕ} (hn : n < 2 ^ 128) : ipv6Number (ipv6Text n) = some n := by
  unfold ipv6Text
  split
  · rename_i hmapped
    have hlow : n &&& 0xFFFFFFFF = n % 2 ^ 32 := Nat.and_two_pow_sub_one_eq_mod n 32
    have hhigh : n / 2 ^ 32 = 0xFFFF := by rwa [Nat.shiftRight_eq_div_pow] at hmapped
    rw [hmapped,hlow,ipv6Number_mapped (Nat.mod_lt n (by decide)),← hhigh,Nat.div_add_mod']
  · exact ipv6Number_stringFromIpInt hn

def partKind (part : List Char) : List Char :=
  if part.isEmpty then [] else if parseHextet part then ['0'] else ['.']

theorem scanParts_partKind (parts : List (List Char)) : scanParts (parts.map partKind) = scanParts parts := by
  refine scanParts_map (funext fun part => ?_) (funext fun part => ?_) parts
  · simp only [Function.comp_apply,partKind]
    split
    · rename_i hempty
      exact hempty.symm
    · rename_i hempty
      rw [Bool.eq_false_iff.mpr hempty]
      split <;> rfl
  · simp only [Function.comp_apply,partKind]
    split
    · rename_i hempty
      rw [List.isEmpty_iff.mp hempty]
    · split
      · rename_i hhextet
        rw [hhextet]
        decide
      · rename_i hhextet
        rw [Bool.eq_false_iff.mpr hhextet]
        decide

theorem partKind_of_parseHextet {part : List Char} (h : parseHextet part = true) : partKind part = ['0'] := by
  rw [partKind,if_neg (by simpa using ne_nil_of_parseHextet h),if_pos h]

/-- The parts are accepted whatever the digits of an IPv4 address at the end are. -/
theorem scanParts_withoutIpv4 (parts : List (List Char)) :
    (withoutIpv4 parts).map scanParts = (hextets parts).map scanParts := by
  unfold withoutIpv4 hextets
  cases parts.getLast? with
  | none => rfl
  | some last =>
    by_cases hdot : '.' ∉ last
    · simp only [if_pos hdot]
    · by_cases hip : ipv4Address last = true
      · have hmask : ∀ m : ℕ, m &&& 0xFFFF < 2 ^ 16 := fun m => Nat.and_lt_two_pow m (by decide)
        have hhex : ∀ m : ℕ, partKind (Nat.toDigits 16 (m &&& 0xFFFF)) = partKind ['0'] := fun m =>
          (partKind_of_parseHextet (parseHextet_toDigits (hmask m))).trans (by decide)
        simp only [if_neg hdot,ipv4Number,if_pos hip,Option.map_some]
        rw [← scanParts_partKind,← scanParts_partKind (parts.dropLast ++ [['0'],['0']])]
        simp only [List.map_append,List.map_cons,hhex,List.map_nil]
      · simp only [if_neg hdot,ipv4Number,if_neg hip,Option.map_none]

theorem isSome_ipv6Number (s : List Char) : (ipv6Number s).isSome = ipIntFromString s := by
  have hscan := scanParts_withoutIpv4 (s.splitOn ':')
  have hany : ∀ o : Option (List (List Char)), (o.bind (fun parts =>
      if scanParts parts then some (partsNumber parts) else none)).isSome = (o.map scanParts).any id := by
    rintro (_ | parts)
    · rfl
    · by_cases h : scanParts parts = true <;> simp [h]
  by_cases hs : s ≠ [] ∧ 3 ≤ (s.splitOn ':').length
  · rw [ipv6Number,if_pos hs,hany,hscan,Option.any_map,ipIntFromString,Bool.eq_iff_iff,decide_eq_true_iff]
    exact ⟨fun h => ⟨hs.1,hs.2,h⟩,fun h => h.2.2⟩
  · rw [ipv6Number,if_neg hs,Option.isSome_none,ipIntFromString]
    exact (decide_eq_false (fun h => hs ⟨h.1,h.2.1⟩)).symm

theorem readHextets_lt {hextets : List (List Char)} (h : hextets.all parseHextet = true) {read k : ℕ}
    (hread : read < 65536 ^ k) : readHextets read hextets < 65536 ^ (k + hextets.length) := by
  have hlt : ∀ d ∈ hextets.map hextetNumber, d < 65536 := by
    intro d hd
    obtain ⟨hextet,hmem,rfl⟩ := List.mem_map.mp hd
    exact hextetNumber_lt (List.all_eq_true.mp h hextet hmem)
  have hlow := readDigits_lt hlt
  rw [readHextets_eq h,readDigits_eq,pow_add]
  rw [List.length_map] at hlow ⊢
  have hhigh : (read + 1) * 65536 ^ hextets.length ≤ 65536 ^ k * 65536 ^ hextets.length :=
    Nat.mul_le_mul_right _ hread
  rw [Nat.add_mul,one_mul] at hhigh
  omega

theorem skipped_lt {parts : List (List Char)} {hi lo : ℕ} (hsum : hi + lo < 8)
    (htake : (parts.take hi).all parseHextet = true) (hdrop : (parts.drop (parts.length - lo)).all parseHextet = true) :
    readHextets (readHextets 0 (parts.take hi) <<< (16 * (8 - (hi + lo)))) (parts.drop (parts.length - lo)) <
      2 ^ 128 := by
  have hhi : (parts.take hi).length ≤ hi := List.length_take_le hi parts
  have hlo : (parts.drop (parts.length - lo)).length ≤ lo := by
    rw [List.length_drop]
    omega
  have hhigh : readHextets 0 (parts.take hi) < 65536 ^ hi := by
    have hread : readHextets 0 (parts.take hi) < 65536 ^ (0 + (parts.take hi).length) :=
      readHextets_lt htake (by decide)
    exact lt_of_lt_of_le hread (Nat.pow_le_pow_right (by decide) (by omega))
  have hshift : readHextets 0 (parts.take hi) <<< (16 * (8 - (hi + lo))) < 65536 ^ (8 - lo) := by
    have hpow : 65536 ^ (8 - lo) = 65536 ^ hi * 65536 ^ (8 - (hi + lo)) := by
      rw [← pow_add]
      congr 1
      omega
    rw [Nat.shiftLeft_eq,pow_mul,hpow]
    exact Nat.mul_lt_mul_of_pos_right hhigh (Nat.pow_pos (by decide))
  have hall := readHextets_lt hdrop hshift
  have hpow : 65536 ^ (8 - lo + (parts.drop (parts.length - lo)).length) ≤ 65536 ^ 8 :=
    Nat.pow_le_pow_right (by decide) (by omega)
  exact lt_of_lt_of_le hall hpow

theorem partsNumber_lt {parts : List (List Char)} (h : scanParts parts = true) : partsNumber parts < 2 ^ 128 := by
  by_cases hinner : parts.tail.dropLast.any List.isEmpty = true
  · obtain ⟨hi,hhi⟩ : ∃ hi, (if parts.head?.any List.isEmpty = true then
        parts.tail.dropLast.findIdx List.isEmpty + 1 - 1 else parts.tail.dropLast.findIdx List.isEmpty + 1) = hi :=
      ⟨_,rfl⟩
    obtain ⟨lo,hlo⟩ : ∃ lo, (if parts.getLast?.any List.isEmpty = true then
        parts.length - (parts.tail.dropLast.findIdx List.isEmpty + 1) - 2
      else parts.length - (parts.tail.dropLast.findIdx List.isEmpty + 1) - 1) = lo := ⟨_,rfl⟩
    simp only [scanParts,partsNumber,hinner,if_true,hhi,hlo] at h ⊢
    split at h
    · cases h
    split at h
    · cases h
    split at h
    · cases h
    split at h
    · cases h
    obtain ⟨hsum,htake,hdrop⟩ := of_decide_eq_true h
    exact skipped_lt hsum htake hdrop
  · simp only [scanParts,partsNumber,hinner] at h ⊢
    split at h
    · cases h
    split at h
    · cases h
    obtain ⟨hlength,hall⟩ := of_decide_eq_true h
    have hread : readHextets 0 parts < 65536 ^ (0 + parts.length) := readHextets_lt hall (by decide)
    rw [hlength] at hread
    exact hread

theorem ipv6Number_lt {s : List Char} {n : ℕ} (h : ipv6Number s = some n) : n < 2 ^ 128 := by
  unfold ipv6Number at h
  split at h
  · obtain ⟨parts,-,hparts⟩ := Option.bind_eq_some_iff.mp h
    split at hparts
    · rename_i hscan
      exact Option.some.inj hparts ▸ partsNumber_lt hscan
    · cases hparts
  · cases h

end TruenasCE.Hosts
