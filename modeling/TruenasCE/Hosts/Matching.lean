import Mathlib.Data.Finset.Dedup
import TruenasCE.ApiParser.Value
import TruenasCE.Hosts.Canonical
import TruenasCE.Hosts.Recognition

/-! # Which entry a discovered box belongs to

Addresses, the canonical texts of them in which the config flow compares, and the entries that are the box
behind some discovered addresses.
-/
namespace TruenasCE.Hosts
open Library TruenasCE.ApiParser

inductive Address
  | v4 (n : Fin (2 ^ 32))
  | v6 (n : Fin (2 ^ 128))
  deriving DecidableEq

namespace Address

/-- `str(address)` -/
def text : Address → List Char
  | v4 n => ipv4Text n
  | v6 n => ipv6Text n

/-- `ip_address` of a text without a scope. -/
def read (s : List Char) : Option Address :=
  (Option.pmap (fun n h => v4 ⟨n,h⟩) (ipv4Number s) (fun _ h => ipv4Number_lt h)).or
    (if '/' ∉ s then Option.pmap (fun n h => v6 ⟨n,h⟩) (ipv6Number s) (fun _ h => ipv6Number_lt h) else none)

/-- The address of a text, without the scope that an IPv6 one may have. -/
def parse (s : List Char) : Option Address := read (s.takeWhile (· ≠ '%'))

theorem read_eq_v4 {s : List Char} {n : ℕ} (h : ipv4Number s = some n) : read s = some (v4 ⟨n,ipv4Number_lt h⟩) := by
  have hmap : Option.pmap (fun n h => v4 ⟨n,h⟩) (ipv4Number s) (fun _ h => ipv4Number_lt h) =
      some (v4 ⟨n,ipv4Number_lt h⟩) := Option.pmap_eq_some_iff.mpr ⟨n,ipv4Number_lt h,h,rfl⟩
  rw [read,hmap,Option.some_or]

theorem read_eq_v6 {s : List Char} {n : ℕ} (hnot : ipv4Number s = none) (hslash : '/' ∉ s) (h : ipv6Number s = some n) :
    read s = some (v6 ⟨n,ipv6Number_lt h⟩) := by
  have hmap : Option.pmap (fun n h => v6 ⟨n,h⟩) (ipv6Number s) (fun _ h => ipv6Number_lt h) =
      some (v6 ⟨n,ipv6Number_lt h⟩) := Option.pmap_eq_some_iff.mpr ⟨n,ipv6Number_lt h,h,rfl⟩
  have hnone : Option.pmap (fun n h => v4 ⟨n,h⟩) (ipv4Number s) (fun _ h => ipv4Number_lt h) = none :=
    Option.pmap_eq_none_iff.mpr hnot
  rw [read,hnone,Option.none_or,if_pos hslash,hmap]

/-- A text with a colon is none of an IPv4 address. -/
theorem ipv4Number_of_ipv6 {s : List Char} (h : ipIntFromString s = true) : ipv4Number s = none := by
  have hcolon : ':' ∈ s := by
    rw [← List.count_pos_iff]
    have := two_le_count_of_ipIntFromString h
    omega
  rw [ipv4Number,if_neg]
  intro hip
  rcases char_of_ipv4Address hip hcolon with hhex | hdot
  · exact absurd hhex (by decide)
  · exact absurd hdot (by decide)

theorem read_of_ipv6 {s : List Char} {n : ℕ} (h : ipv6Number s = some n) :
    read s = some (v6 ⟨n,ipv6Number_lt h⟩) := by
  have hip : ipIntFromString s = true := by rw [← isSome_ipv6Number,h,Option.isSome_some]
  exact read_eq_v6 (ipv4Number_of_ipv6 hip) (notMem_of_ipIntFromString hip (by decide)) h

theorem read_text (a : Address) : read a.text = some a := by
  cases a with
  | v4 n => exact read_eq_v4 (ipv4Number_ipv4Text n.isLt)
  | v6 n => exact read_of_ipv6 (ipv6Number_ipv6Text n.isLt)

theorem percent_notMem_text (a : Address) : '%' ∉ a.text := by
  cases a with
  | v4 n =>
    intro hmem
    rcases char_of_ipv4Address (ipv4Address_ipv4Text n) hmem with hhex | hdot
    · exact absurd hhex (by decide)
    · exact absurd hdot (by decide)
  | v6 n =>
    have hip : ipIntFromString (ipv6Text n) = true := by
      rw [← isSome_ipv6Number,ipv6Number_ipv6Text n.isLt,Option.isSome_some]
    exact notMem_of_ipIntFromString hip (by decide)

theorem parse_text (a : Address) : parse a.text = some a := by
  have hall : a.text.takeWhile (· ≠ '%') = a.text :=
    List.takeWhile_eq_self_iff.mpr (fun c hc => decide_eq_true (fun h => a.percent_notMem_text (h ▸ hc)))
  rw [parse,hall,read_text]

theorem text_injective : Function.Injective text := by
  intro a b h
  have hread : read a.text = read b.text := by rw [h]
  rw [read_text,read_text] at hread
  exact Option.some.inj hread

end Address

def normalizeIp (value : List Char) : Option (List Char) := (Address.parse value).map Address.text

/-- Canonical texts are as they are, every address has one, and two texts have the same one exactly if they stand for
one address. -/
theorem normalizeIp_canonical :
    (∀ s t, normalizeIp s = some t → normalizeIp t = some t) ∧
    (∀ a : Address, Address.parse a.text = some a ∧ normalizeIp a.text = some a.text) ∧
    ∀ s t, normalizeIp s = normalizeIp t ↔ Address.parse s = Address.parse t := by
  have htext : ∀ a : Address, normalizeIp a.text = some a.text := fun a => by
    rw [normalizeIp,a.parse_text,Option.map_some]
  refine ⟨fun s t h => ?_,fun a => ⟨a.parse_text,htext a⟩,fun s t => ?_⟩
  · obtain ⟨a,-,rfl⟩ := Option.map_eq_some_iff.mp h
    exact htext a
  · exact (Option.map_injective Address.text_injective).eq_iff

theorem digitValue_toLower (c : Char) : digitValue c.toLower = digitValue c :=
  toLower_congr (List.all_iff_forall_prop.mp (by decide)) c

theorem hextetNumber_toLower (hextet : List Char) : hextetNumber (hextet.map Char.toLower) = hextetNumber hextet := by
  rw [hextetNumber,hextetNumber,readText_eq,readText_eq,List.map_map,
    show digitValue ∘ Char.toLower = digitValue from funext digitValue_toLower]

theorem readHextets_toLower (read : ℕ) (hextets : List (List Char)) :
    readHextets read (hextets.map (List.map Char.toLower)) = readHextets read hextets := by
  rw [readHextets,List.foldl_map]
  simp only [hextetNumber_toLower]
  rfl

theorem partsNumber_toLower (parts : List (List Char)) :
    partsNumber (parts.map (List.map Char.toLower)) = partsNumber parts := by
  have hempty : List.isEmpty ∘ List.map Char.toLower = List.isEmpty := funext (fun s => List.isEmpty_map)
  unfold partsNumber
  simp only [← List.map_tail,← List.map_dropLast,List.head?_map,List.getLast?_map,Option.any_map,List.any_map,
    List.findIdx_map,← List.map_take,← List.map_drop,List.length_map,List.isEmpty_map,hempty,readHextets_toLower]

theorem toLower_of_ipv4Address {s : List Char} (h : ipv4Address s = true) : s.map Char.toLower = s := by
  have hnot : ∀ c ∈ capitals, ¬ c.isDigit = true := List.all_iff_forall_prop.mp (by decide)
  refine map_toLower_of_notMem (fun c hc hcapital => ?_)
  by_cases hdot : c = '.'
  · rw [hdot] at hcapital
    exact absurd hcapital (by decide)
  · obtain ⟨octet,hoctet,hmem⟩ := exists_mem_splitOn hc hdot
    obtain ⟨-,-,-,hall⟩ := of_decide_eq_true h
    obtain ⟨-,hdigits,-⟩ := of_decide_eq_true (List.all_eq_true.mp hall octet hoctet)
    exact hnot c hcapital (List.all_eq_true.mp hdigits c hmem)

theorem ipv4Number_toLower (s : List Char) : ipv4Number (s.map Char.toLower) = ipv4Number s := by
  by_cases h : ipv4Address s = true
  · rw [toLower_of_ipv4Address h]
  · rw [ipv4Number,ipv4Number,ipv4Address_toLower,if_neg h,if_neg h]

theorem toLower_toDigits (m : ℕ) : (Nat.toDigits 16 m).map Char.toLower = Nat.toDigits 16 m := by
  have hall : ∀ e < 16, e.digitChar ∉ capitals := by decide
  refine map_toLower_of_notMem (fun c hc => ?_)
  obtain ⟨e,he,rfl⟩ := mem_toDigits (by decide) hc
  exact hall e he

theorem withoutIpv4_toLower (parts : List (List Char)) :
    withoutIpv4 (parts.map (List.map Char.toLower)) = (withoutIpv4 parts).map (List.map (List.map Char.toLower)) := by
  unfold withoutIpv4
  rw [List.getLast?_map]
  cases parts.getLast? with
  | none => rfl
  | some last =>
    simp only [Option.map_some,mem_toLower (d := '.') (by decide) (by decide),ipv4Number_toLower]
    split
    · rfl
    · cases ipv4Number last with
      | none => rfl
      | some n => simp [List.map_dropLast,toLower_toDigits]

theorem ipv6Number_toLower (s : List Char) : ipv6Number (s.map Char.toLower) = ipv6Number s := by
  unfold ipv6Number
  rw [splitOn_toLower (by decide) (by decide),List.length_map,withoutIpv4_toLower,Option.bind_map]
  simp only [ne_eq,List.map_eq_nil_iff,Function.comp_def,scanParts_toLower,partsNumber_toLower]

/-- The key of an IPv6 literal stands for its address, whatever its case and its zone. -/
theorem parse_key {l : Literal} {host : Host} (hhost : host = .bracketed l ∨ host = .bare l) :
    ∃ n : Fin (2 ^ 128), ipv6Number l.address = some n.val ∧ Address.parse host.key = some (.v6 n) := by
  have hsome : (ipv6Number l.address).isSome = true := by rw [isSome_ipv6Number,l.valid]
  obtain ⟨n,hn⟩ := Option.isSome_iff_exists.mp hsome
  refine ⟨⟨n,ipv6Number_lt hn⟩,hn,?_⟩
  have hkey : host.key = l.text.map Char.toLower := by
    rcases hhost with rfl | rfl
    · exact Endpoint.rdropWhile_literal
    · exact Endpoint.rdropWhile_literal
  have hpercent : '%' ∉ l.address.map Char.toLower := by
    rw [mem_toLower (by decide) (by decide)]
    exact notMem_of_ipIntFromString l.valid (by decide)
  have htake : host.key.takeWhile (· ≠ '%') = l.address.map Char.toLower := by
    rw [hkey,Literal.text,List.map_append]
    cases l.zone with
    | none =>
      rw [List.map_nil,List.append_nil]
      exact List.takeWhile_eq_self_iff.mpr (fun c hc => decide_eq_true (fun h => hpercent (h ▸ hc)))
    | some zone =>
      rw [List.map_cons]
      exact (takeWhile_percent hpercent _).1
  rw [Address.parse,htake]
  exact Address.read_of_ipv6 ((ipv6Number_toLower l.address).trans hn)

def ipSet (values : List (List Char)) : Finset (List Char) := (values.filterMap normalizeIp).toFinset

/-- What is read of an entry. The API is none without runtime data, or tells whether it is connected. -/
structure ConfigEntry where
  host : Value
  loaded : Bool
  api : Option Bool

/-- What is answered from outside: the lookup of a name, or none when it fails or takes too long, and what
`interface.ip_in_use` returns, or none when the call raises. -/
structure Site where
  getaddrinfo : List Char → Option (List (List Char))
  ipInUse : Option Value

def resolveHost (site : Site) (host : List Char) : Finset (List Char) :=
  match site.getaddrinfo host with
  | none => ∅
  | some infos => ipSet infos

def reportedAddresses (items : List Value) : List (List Char) :=
  items.filterMap (fun item => match item with
    | .dict fields => (match dictGet fields "address" with
      | .str address => some address.toList
      | _ => none)
    | _ => none)

def entryReportedIps (site : Site) (entry : ConfigEntry) : Finset (List Char) :=
  if entry.loaded = true ∧ entry.api = some true then
    match site.ipInUse with
    | some (.list items) => ipSet (reportedAddresses items)
    | _ => ∅
  else ∅

/-- The stored host as it is compared; an entry without a text for a host has none. -/
def comparedHost (u : Unicode) : Value → List Char
  | .str stored => hostWithoutPort u (sanitizeHost u stored.toList)
  | _ => []

def entryMatchesDiscovery (u : Unicode) (site : Site) (entry : ConfigEntry) (addresses : Finset (List Char))
    (hostname : List Char) : Bool :=
  let host := comparedHost u entry.host
  let hostIp := normalizeIp host
  if host ≠ [] ∧ (host = hostname ∨ ∃ ip ∈ hostIp, ip ∈ addresses) then true
  else if host ≠ [] ∧ hostIp = none ∧ (resolveHost site host ∩ addresses).Nonempty then true
  else decide (entryReportedIps site entry ∩ addresses).Nonempty

def addressesOf (values : List (List Char)) : Set Address := { a | ∃ value ∈ values, Address.parse value = some a }

theorem mem_ipSet {values : List (List Char)} {ip : List Char} :
    ip ∈ ipSet values ↔ ∃ a ∈ addressesOf values, ip = a.text := by
  rw [ipSet,List.mem_toFinset,List.mem_filterMap]
  constructor
  · rintro ⟨value,hmem,hip⟩
    obtain ⟨a,ha,rfl⟩ := Option.map_eq_some_iff.mp hip
    exact ⟨a,⟨value,hmem,ha⟩,rfl⟩
  · rintro ⟨a,⟨value,hmem,ha⟩,rfl⟩
    exact ⟨value,hmem,by rw [normalizeIp,ha,Option.map_some]⟩

theorem text_mem_ipSet {values : List (List Char)} {a : Address} : a.text ∈ ipSet values ↔ a ∈ addressesOf values := by
  rw [mem_ipSet]
  constructor
  · rintro ⟨b,hb,htext⟩
    exact Address.text_injective htext ▸ hb
  · exact fun ha => ⟨a,ha,rfl⟩

theorem inter_ipSet_nonempty {values values' : List (List Char)} :
    (ipSet values ∩ ipSet values').Nonempty ↔ (addressesOf values ∩ addressesOf values').Nonempty := by
  constructor
  · rintro ⟨ip,hip⟩
    obtain ⟨hleft,hright⟩ := Finset.mem_inter.mp hip
    obtain ⟨a,ha,rfl⟩ := mem_ipSet.mp hleft
    exact ⟨a,ha,text_mem_ipSet.mp hright⟩
  · rintro ⟨a,ha,ha'⟩
    exact ⟨a.text,Finset.mem_inter.mpr ⟨text_mem_ipSet.mpr ha,text_mem_ipSet.mpr ha'⟩⟩

/-- The addresses that are known of an entry whose host is `host`: its own one, or those that the name has, and those that
the box reports to a loaded entry that is connected. -/
def knownAddresses (site : Site) (entry : ConfigEntry) (host : List Char) : Set Address :=
  { a | (host ≠ [] ∧ (Address.parse host = some a ∨ Address.parse host = none ∧
      ∃ infos, site.getaddrinfo host = some infos ∧ a ∈ addressesOf infos)) ∨
    (entry.loaded = true ∧ entry.api = some true ∧
      ∃ items, site.ipInUse = some (.list items) ∧ a ∈ addressesOf (reportedAddresses items)) }

variable {site : Site} {entry : ConfigEntry} {discovered : List (List Char)}

theorem resolveHost_inter {host : List Char} : (resolveHost site host ∩ ipSet discovered).Nonempty ↔
    ∃ infos, site.getaddrinfo host = some infos ∧ (addressesOf infos ∩ addressesOf discovered).Nonempty := by
  unfold resolveHost
  cases site.getaddrinfo host with
  | none => simp
  | some infos => simp [inter_ipSet_nonempty]

theorem entryReportedIps_inter : (entryReportedIps site entry ∩ ipSet discovered).Nonempty ↔
    entry.loaded = true ∧ entry.api = some true ∧ ∃ items, site.ipInUse = some (.list items) ∧
      (addressesOf (reportedAddresses items) ∩ addressesOf discovered).Nonempty := by
  unfold entryReportedIps
  split
  · rename_i hready
    split
    · rename_i items hitems
      simp [inter_ipSet_nonempty,hready,hitems]
    · rename_i hother
      simp only [Finset.empty_inter,Finset.not_nonempty_empty,false_iff]
      rintro ⟨-,-,items,hitems,-⟩
      exact hother items hitems
  · rename_i hready
    simp only [Finset.empty_inter,Finset.not_nonempty_empty,false_iff]
    exact fun h => hready ⟨h.1,h.2.1⟩

/-- An entry whose host is spelled clearly is the discovered box exactly if its host is the name of the box, or if one of
the addresses that are known of it is one of those discovered, however the two are written. -/
theorem entryMatchesDiscovery_iff (u : Unicode) (site : Site) (entry : ConfigEntry) (e : Endpoint u) (hclear : e.Clear)
    (hhost : entry.host = .str (String.ofList e.write)) (discovered : List (List Char)) (hostname : List Char) :
    entryMatchesDiscovery u site entry (ipSet discovered) hostname = true ↔
      (e.host.key ≠ [] ∧ e.host.key = hostname) ∨
        (knownAddresses site entry e.host.key ∩ addressesOf discovered).Nonempty := by
  have hkey : comparedHost u entry.host = e.host.key := by
    rw [hhost,comparedHost,String.toList_ofList]
    exact e.recognised_of_cases.mpr hclear
  have hip : (∃ ip ∈ normalizeIp e.host.key, ip ∈ ipSet discovered) ↔
      ∃ a, Address.parse e.host.key = some a ∧ a ∈ addressesOf discovered := by
    constructor
    · rintro ⟨ip,hip,hmem⟩
      obtain ⟨a,ha,rfl⟩ := Option.map_eq_some_iff.mp hip
      exact ⟨a,ha,text_mem_ipSet.mp hmem⟩
    · rintro ⟨a,ha,hmem⟩
      exact ⟨a.text,by rw [normalizeIp,ha]; rfl,text_mem_ipSet.mpr hmem⟩
  have hnone : normalizeIp e.host.key = none ↔ Address.parse e.host.key = none := Option.map_eq_none_iff
  have hknown : (knownAddresses site entry e.host.key ∩ addressesOf discovered).Nonempty ↔
      (e.host.key ≠ [] ∧ ∃ a, Address.parse e.host.key = some a ∧ a ∈ addressesOf discovered) ∨
      (e.host.key ≠ [] ∧ Address.parse e.host.key = none ∧ (resolveHost site e.host.key ∩ ipSet discovered).Nonempty) ∨
      (entryReportedIps site entry ∩ ipSet discovered).Nonempty := by
    rw [resolveHost_inter,entryReportedIps_inter]
    constructor
    · rintro ⟨a,⟨hne,hparse | ⟨hparse,infos,hinfos,ha⟩⟩ | ⟨hloaded,happi,items,hitems,ha⟩,hmem⟩
      · exact Or.inl ⟨hne,a,hparse,hmem⟩
      · exact Or.inr (Or.inl ⟨hne,hparse,infos,hinfos,a,ha,hmem⟩)
      · exact Or.inr (Or.inr ⟨hloaded,happi,items,hitems,a,ha,hmem⟩)
    · rintro (⟨hne,a,hparse,hmem⟩ | ⟨hne,hparse,infos,hinfos,a,ha,hmem⟩ | ⟨hloaded,happi,items,hitems,a,ha,hmem⟩)
      · exact ⟨a,Or.inl ⟨hne,Or.inl hparse⟩,hmem⟩
      · exact ⟨a,Or.inl ⟨hne,Or.inr ⟨hparse,infos,hinfos,ha⟩⟩,hmem⟩
      · exact ⟨a,Or.inr ⟨hloaded,happi,items,hitems,ha⟩,hmem⟩
  unfold entryMatchesDiscovery
  rw [hkey,hknown]
  dsimp only
  split
  · rename_i hfirst
    simp only [true_iff]
    obtain ⟨hne,hname | haddress⟩ := hfirst
    · exact Or.inl ⟨hne,hname⟩
    · exact Or.inr (Or.inl ⟨hne,hip.mp haddress⟩)
  · rename_i hfirst
    split
    · rename_i hsecond
      simp only [true_iff]
      exact Or.inr (Or.inr (Or.inl ⟨hsecond.1,hnone.mp hsecond.2.1,hsecond.2.2⟩))
    · rename_i hsecond
      rw [decide_eq_true_iff]
      constructor
      · exact fun h => Or.inr (Or.inr (Or.inr h))
      · rintro (⟨hne,hname⟩ | ⟨hne,haddress⟩ | hresolved | hreported)
        · exact absurd ⟨hne,Or.inl hname⟩ hfirst
        · exact absurd ⟨hne,Or.inr (hip.mpr haddress)⟩ hfirst
        · exact absurd ⟨hresolved.1,hnone.mpr hresolved.2.1,hresolved.2.2⟩ hsecond
        · exact hreported

theorem exists_linkLocal : ∃ e : Endpoint asciiTables, e.Clear ∧ String.ofList e.write = "[FE80::1%eth0]:443" ∧
    ∃ n, Address.parse e.host.key = some (.v6 n) ∧ Address.parse "fe80:0::0:1%en3".toList = some (.v6 n) := by
  let literal : Literal := ⟨"FE80::1".toList,some "eth0".toList,by decide,by simp,by
    rintro _ ⟨rfl⟩
    exact List.all_iff_forall_prop.mp (by decide),by simp⟩
  let e : Endpoint asciiTables :=
    { host := .bracketed literal
      port := some "443".toList
      leading_blank := by simp
      scheme_cut := by simp
      userinfo_cut := by simp
      port_nonempty := by simp
      port_digits := by
        rintro _ ⟨rfl⟩
        exact List.all_iff_forall_prop.mp (by decide)
      tail_start := by simp
      trailing_blank := by simp
      bare_alone := fun _ hbare => Host.noConfusion hbare }
  have hclear : e.Clear := by
    refine ⟨fun _ hs => (by cases hs),fun _ hconfusable => ?_⟩
    obtain ⟨_,hn,-⟩ := hconfusable
    cases hn
  have hsame : Address.parse e.host.key = Address.parse "fe80:0::0:1%en3".toList := by decide
  obtain ⟨n,-,hn⟩ := @parse_key literal e.host (Or.inl rfl)
  exact ⟨e,hclear,by decide,n,hn,hsame ▸ hn⟩

theorem entryMatchesDiscovery_linkLocal : entryMatchesDiscovery asciiTables ⟨fun _ => none,none⟩
    ⟨.str "[FE80::1%eth0]:443",false,none⟩ (ipSet ["fe80:0::0:1%en3".toList]) [] = true := by
  obtain ⟨e,hclear,hwrite,n,hn,hdiscovered⟩ := exists_linkLocal
  rw [← hwrite,entryMatchesDiscovery_iff asciiTables _ _ e hclear rfl]
  have hne : e.host.key ≠ [] := by
    intro hnil
    rw [hnil] at hn
    cases hn
  exact Or.inr ⟨.v6 n,Or.inl ⟨hne,Or.inl hn⟩,_,List.mem_singleton_self _,hdiscovered⟩

end TruenasCE.Hosts
