import Mathlib.Data.Finset.Lattice.Lemmas
import Mathlib.Data.List.ReduceOption
import Mathlib.Tactic.FinCases
import TruenasCE.Library.Dict

/-! # Identities of certificates

`get_certificates` keys the certificates by their common name as long as it tells them apart,
and by their name otherwise. A common name that two certificates of a poll shared is
remembered as poisoned.
-/
namespace TruenasCE.Certificates
open Library

/-- The fields of a `certificate.query` row that its key in `ds["certificate"]` depends on. -/
structure Certificate where
  name : Option String
  common : Option String := none
  deriving DecidableEq, Repr

def Certificate.usableCommon (c : Certificate) : Option String := c.common.filter (fun common => common ≠ "")

def sharedCommons (certificates : List Certificate) : Finset String :=
  ((certificates.filterMap Certificate.usableCommon).filter
    (fun common => 1 < (certificates.filterMap Certificate.usableCommon).count common)).toFinset

def poison (certificates : List Certificate) (poisonedCommons : Finset String) : Finset String :=
  poisonedCommons ∪ sharedCommons certificates

def Certificate.identity (poisonedCommons : Finset String) (c : Certificate) : Option String :=
  match c.usableCommon with
  | none => c.name
  | some common => if common ∈ poisonedCommons then c.name else some common

/-- `_assign_certificate_identities`: the rows with their identity, and the poisoned names. -/
def assignCertificateIdentities (certificates : List Certificate) (poisonedCommons : Finset String) :
    List (Option String × Certificate) × Finset String :=
  (certificates.map (fun c => (c.identity (poison certificates poisonedCommons),c)),poison certificates poisonedCommons)

structure CertificateEntry where
  name : String
  identity : String
  common : String
  deriving DecidableEq, Repr

def fromEntry (value : Option String) (default : String) : String :=
  match value with
  | none => default
  | some value => String.ofList (value.toList.take 255)

def certificateEntry (row : Option String × Certificate) : CertificateEntry :=
  ⟨fromEntry row.2.name "unknown",fromEntry row.1 "unknown",fromEntry row.2.common ""⟩

/-- `get_certificates`; rows that are not a dict are `none`, and so is an answer that is not a list. -/
def getCertificates (source : Option (List (Option Certificate))) (poisonedCommons : Finset String) :
    Dict String CertificateEntry × Finset String :=
  match source with
  | none => (∅,poisonedCommons)
  | some rows =>
    (Dict.collect Prod.fst certificateEntry ∅ (assignCertificateIdentities rows.reduceOption poisonedCommons).1,
      (assignCertificateIdentities rows.reduceOption poisonedCommons).2)

/-- The rows of a poll have different identities, and each has its entry. -/
structure AllKept (certificates : List Certificate) (poisonedCommons : Finset String) : Prop where
  distinct : (certificates.map (Certificate.identity (poison certificates poisonedCommons))).Nodup
  entry : ∀ c ∈ certificates, ∃ uid, c.identity (poison certificates poisonedCommons) = some uid ∧
    (getCertificates (some (certificates.map some)) poisonedCommons).1.lookup uid = some (certificateEntry (some uid,c))
  size : (getCertificates (some (certificates.map some)) poisonedCommons).1.keys.length = certificates.length

/-- A row that goes by its common name: neither shared in this poll nor poisoned before. -/
def GoesByCommon (certificates : List Certificate) (poisonedCommons : Finset String) (c : Certificate)
  (common : String) : Prop :=
  c.usableCommon = some common ∧ common ∉ poisonedCommons ∧ common ∉ sharedCommons certificates

section Identity
variable {certificates : List Certificate} {poisonedCommons : Finset String} {a b c : Certificate} {common : String}

theorem identity_of_common (h : GoesByCommon certificates poisonedCommons c common) :
    c.identity (poison certificates poisonedCommons) = some common := by
  obtain ⟨hu,hp,hs⟩ := h
  simp [Certificate.identity,poison,hu,hp,hs]

theorem identity_of_name (h : ∀ common, ¬ GoesByCommon certificates poisonedCommons c common) :
    c.identity (poison certificates poisonedCommons) = c.name := by
  unfold Certificate.identity
  split
  · rfl
  · rename_i common hu
    refine if_pos ?_
    by_contra hnot
    simp only [poison,Finset.mem_union,not_or] at hnot
    exact h common ⟨hu,hnot⟩

theorem mem_sharedCommons (ha : a ∈ certificates) (hb : b ∈ certificates) (hne : a ≠ b)
    (hua : a.usableCommon = some common)
    (hub : b.usableCommon = some common) : common ∈ sharedCommons certificates := by
  have hcount := two_le_count_filterMap ha hb hne hua hub
  rw [sharedCommons,List.mem_toFinset,List.mem_filter]
  exact ⟨List.mem_filterMap.mpr ⟨a,ha,hua⟩,decide_eq_true hcount⟩

theorem eq_or_clash (hn : (certificates.map Certificate.name).Nodup) (ha : a ∈ certificates) (hb : b ∈ certificates)
    (h : a.identity (poison certificates poisonedCommons) = b.identity (poison certificates poisonedCommons)) :
    a = b ∨ ∃ x ∈ certificates, ∃ y ∈ certificates, ∃ common, GoesByCommon certificates poisonedCommons x common ∧
      (∀ common, ¬ GoesByCommon certificates poisonedCommons y common) ∧ y.name = some common := by
  by_cases hca : ∃ common, GoesByCommon certificates poisonedCommons a common
  · obtain ⟨common,hca⟩ := hca
    by_cases hcb : ∃ common, GoesByCommon certificates poisonedCommons b common
    · obtain ⟨common',hcb⟩ := hcb
      rw [identity_of_common hca,identity_of_common hcb] at h
      obtain rfl := Option.some.inj h
      by_contra hclash
      exact hca.2.2 (mem_sharedCommons ha hb (fun hab => hclash (Or.inl hab)) hca.1 hcb.1)
    · rw [not_exists] at hcb
      rw [identity_of_common hca,identity_of_name hcb] at h
      exact Or.inr ⟨a,ha,b,hb,common,hca,hcb,h.symm⟩
  · rw [not_exists] at hca
    by_cases hcb : ∃ common, GoesByCommon certificates poisonedCommons b common
    · obtain ⟨common,hcb⟩ := hcb
      rw [identity_of_name hca,identity_of_common hcb] at h
      exact Or.inr ⟨b,hb,a,ha,common,hcb,hca,h⟩
    · rw [not_exists] at hcb
      rw [identity_of_name hca,identity_of_name hcb] at h
      exact Or.inl (List.inj_on_of_nodup_map hn ha hb h)

theorem getCertificates_fst (certificates : List Certificate) (poisonedCommons : Finset String) :
    (getCertificates (some (certificates.map some)) poisonedCommons).1 = Dict.collect Prod.fst certificateEntry ∅
      (certificates.map (fun c => (c.identity (poison certificates poisonedCommons),c))) := by
  have hrows : (certificates.map some).reduceOption = certificates := by simp [List.reduceOption]
  simp only [getCertificates,assignCertificateIdentities,hrows]

theorem allKept_of_distinct (hn : ∀ c ∈ certificates, c.name.isSome)
    (h : (certificates.map (Certificate.identity (poison certificates poisonedCommons))).Nodup) :
    AllKept certificates poisonedCommons := by
  have hsome : ∀ c ∈ certificates, ∃ uid, c.identity (poison certificates poisonedCommons) = some uid := by
    intro c hc
    by_cases hcommon : ∃ common, GoesByCommon certificates poisonedCommons c common
    · obtain ⟨common,hcommon⟩ := hcommon
      exact ⟨common,identity_of_common hcommon⟩
    · rw [not_exists] at hcommon
      obtain ⟨name,hname⟩ := Option.isSome_iff_exists.mp (hn c hc)
      exact ⟨name,(identity_of_name hcommon).trans hname⟩
  refine ⟨h,fun c hc => ?_,?_⟩
  · obtain ⟨uid,huid⟩ := hsome c hc
    refine ⟨uid,huid,?_⟩
    rw [getCertificates_fst,← huid]
    refine Dict.lookup_collect (List.mem_map_of_mem hc) huid ?_
    rintro ⟨identity,b⟩ hb (rfl : identity = some uid)
    obtain ⟨x,hx,hxb⟩ := List.mem_map.mp hb
    obtain ⟨hxi,rfl⟩ := Prod.mk.inj hxb
    rw [List.inj_on_of_nodup_map h hx hc (hxi.trans huid.symm),huid]
  · have hkeys : (certificates.filterMap (Certificate.identity (poison certificates poisonedCommons))).map some =
        certificates.map (Certificate.identity (poison certificates poisonedCommons)) := by
      rw [List.map_filterMap]
      refine List.filterMap_eq_map_iff_forall_eq_some.mpr (fun c hc => ?_)
      obtain ⟨uid,huid⟩ := hsome c hc
      simp [huid]
    rw [getCertificates_fst,Dict.length_keys_collect,List.filterMap_map]
    have hnodup : (certificates.filterMap (Certificate.identity (poison certificates poisonedCommons))).Nodup :=
      List.Nodup.of_map some (hkeys ▸ h)
    calc _ = (certificates.filterMap (Certificate.identity (poison certificates poisonedCommons))).length := by
          rw [show (Prod.fst ∘ fun c : Certificate => (c.identity (poison certificates poisonedCommons),c)) =
            Certificate.identity (poison certificates poisonedCommons) from rfl,hnodup.dedup]
      _ = certificates.length := by rw [← List.length_map some,hkeys,List.length_map]

end Identity

/-- All certificates of a poll are kept exactly if no common name that stands for a certificate is
the name of one that goes by its name. -/
theorem allKept_iff (certificates : List Certificate) (poisonedCommons : Finset String)
    (hn : (certificates.map Certificate.name).Nodup)
    (hne : ∀ c ∈ certificates, ∃ name, c.name = some name ∧ name ≠ "") :
    AllKept certificates poisonedCommons ↔ ∀ a ∈ certificates, ∀ b ∈ certificates, ∀ common,
      GoesByCommon certificates poisonedCommons a common →
        (∀ common, ¬ GoesByCommon certificates poisonedCommons b common) →
        b.name ≠ some common := by
  have hsome : ∀ c ∈ certificates, c.name.isSome := by
    intro c hc
    obtain ⟨name,hname,_⟩ := hne c hc
    simp [hname]
  constructor
  · intro h a ha b hb common hca hcb hname
    have hsame := (identity_of_common hca).trans (hname.symm.trans (identity_of_name hcb).symm)
    obtain rfl := List.inj_on_of_nodup_map h.distinct ha hb hsame
    exact hcb common hca
  · intro h
    refine allKept_of_distinct hsome (List.Nodup.map_on (fun a ha b hb hab => ?_) (List.Nodup.of_map _ hn))
    rcases eq_or_clash hn ha hb hab with heq | ⟨x,hx,y,hy,common,hcx,hcy,hname⟩
    · exact heq
    · exact absurd hname (h x hx y hy common hcx hcy)

/-- Two certificates with common names of their own. -/
theorem allKept_iff_apart : AllKept [⟨some "web",some "nas.local"⟩,⟨some "mail",some "mail.local"⟩] ∅ := by
  refine (allKept_iff _ ∅ (by decide) ?_).mpr ?_
  · intro c hc
    fin_cases hc
    · exact ⟨"web",rfl,by decide⟩
    · exact ⟨"mail",rfl,by decide⟩
  · intro a ha b hb common _ hcb _
    fin_cases hb
    · exact hcb "nas.local" ⟨by decide,by decide,by decide⟩
    · exact hcb "mail.local" ⟨by decide,by decide,by decide⟩

/-- A certificate goes by the common name "web", and another of that name has no common name. -/
theorem not_allKept_of_clash : ¬ ∀ (certificates : List Certificate) (poisonedCommons : Finset String),
    (certificates.map Certificate.name).Nodup → (∀ c ∈ certificates, ∃ name, c.name = some name ∧ name ≠ "") →
      AllKept certificates poisonedCommons := by
  intro hall
  have h := hall [⟨some "acme",some "web"⟩,⟨some "web",none⟩] ∅ (by decide) ?_
  · exact absurd h.distinct (by decide)
  · intro c hc
    fin_cases hc
    · exact ⟨"acme",rfl,by decide⟩
    · exact ⟨"web",rfl,by decide⟩

end TruenasCE.Certificates
