import TruenasCE.Identity.Formats

/-! # Legacy unique ids under the identity of the entry

`_current_unique_id` swaps the name of the legacy entry for the identity and looks the result up
in the map of the formats. What it makes of the id of a listed object depends only on whether the
map knows the earlier reference.
-/
namespace TruenasCE.Identity
open Library Migration Cleanup

/-- An object of the description, with the reference that an earlier release took; an app may be
listed without statistics. -/
def ListedObject (s : Snapshot) (d : EntityDescription) (o : Source) : Prop :=
  o ∈ sources s d ∨ (o.1 ∈ s.references d ∧ o.2 = none)

/-- The reference is one that an earlier release had for the object, and for no object that has
another reference now. -/
structure EarlierReference (T : Text) (s : Snapshot) (d : EntityDescription) (o : Source) (reference : String) : Prop where
  listed : ListedObject s d o
  earlier : reference ∈ earlierReferences T o
  unambiguous : ∀ o', ListedObject s d o' → reference ∈ earlierReferences T o' → o'.1 = o.1

def Text.legacyUniqueId (T : Text) (legacyName : String) (d : EntityDescription) (reference : String) : String :=
  T.prefixOf legacyName ++ d.id reference

/-- The unique id that `async_adopt_legacy_entities` looks for. -/
def Text.translated (T : Text) (legacyName identity : String) (s : Snapshot) (legacyUniqueId : String) : String :=
  currentUniqueId T.lower legacyName identity (uniqueIdRenames T identity s) legacyUniqueId

section Translate
variable {T : Text} {legacyName identity : String} {s : Snapshot} {d : EntityDescription} {o : Source}
  {reference : String}

theorem translated_legacyUniqueId (hn : legacyName ≠ "") :
    T.translated legacyName identity s (T.legacyUniqueId legacyName d reference) =
      (uniqueIdRenames T identity s (T.prefixOf identity ++ d.id reference)).getD (T.prefixOf identity ++ d.id reference) := by
  unfold Text.translated currentUniqueId Text.legacyUniqueId
  rw [if_neg hn,Text.prefixOf,stripPrefix_append]
  rfl

theorem EarlierReference.eq_of_formerly (h : EarlierReference T s d o reference) {c : String}
    (hc : Formerly T s d reference c) : c = o.1 := by
  obtain ⟨o',ho',rfl,hformer⟩ := hc
  exact h.unambiguous o' (Or.inl ho') (mem_earlierReferences_of_former hformer)

theorem EarlierReference.superseded_iff (h : EarlierReference T s d o reference) {c : String} :
    Superseded T s d reference c ↔ c ≠ reference ∧ c = o.1 ∧ Formerly T s d reference o.1 := by
  constructor
  · rintro ⟨hne,hall⟩
    have hc := (hall c).mpr rfl
    obtain rfl := h.eq_of_formerly hc
    exact ⟨hne,rfl,hc⟩
  · rintro ⟨hne,rfl,hformerly⟩
    refine ⟨hne,fun c => ⟨h.eq_of_formerly,?_⟩⟩
    rintro rfl
    exact hformerly

/-- A legacy unique id is translated to the unique id of the object exactly if its reference is the
current one, or if the migration has a description of it with the reference as the slug or the lower
case of the current one, or as the earlier reference itself. -/
theorem translated_iff (T : Text) (legacyName identity : String) (s : Snapshot) (d : EntityDescription)
    (hd : d ∈ platformDescriptions) (href : d.dataReference.isSome = true) (hn : legacyName ≠ "") (o : Source)
    (reference : String) (h : EarlierReference T s d o reference) :
    T.translated legacyName identity s (T.legacyUniqueId legacyName d reference) =
        T.formatUniqueId identity d.key (some o.1) ↔
      reference = o.1 ∨ (d ∈ allDescriptions ∧ Formerly T s d reference o.1) := by
  have hdash := dash_notMem_key d hd (Or.inl href)
  have hinj : ∀ {r r' : String}, T.prefixOf identity ++ d.id r = T.prefixOf identity ++ d.id r' → r = r' := fun heq =>
    (id_inj hdash hdash ((String.append_right_inj _).mp heq)).2
  have hcurrent : T.formatUniqueId identity d.key (some o.1) = T.prefixOf identity ++ d.id o.1 := rfl
  rw [translated_legacyUniqueId hn,hcurrent]
  cases hnew : uniqueIdRenames T identity s (T.prefixOf identity ++ d.id reference) with
  | none =>
    rw [Option.getD_none]
    refine ⟨fun heq => Or.inl (hinj heq),?_⟩
    rintro (rfl | ⟨hall,hformerly⟩)
    · rfl
    · by_contra hne
      have hsup : Superseded T s d reference o.1 :=
        h.superseded_iff.mpr ⟨fun heq => hne (by rw [heq]),rfl,hformerly⟩
      have hsome : uniqueIdRenames T identity s (T.prefixOf identity ++ d.id reference) =
          some (T.prefixOf identity ++ d.id o.1) :=
        (uniqueIdRenames_eq_some_iff hd href).mpr ⟨hall,o.1,hsup,rfl⟩
      rw [hnew] at hsome
      cases hsome
  | some new =>
    obtain ⟨hall,c,hsup,rfl⟩ := (uniqueIdRenames_eq_some_iff hd href).mp hnew
    obtain ⟨_,rfl,hformerly⟩ := h.superseded_iff.mp hsup
    rw [Option.getD_some]
    exact ⟨fun _ => Or.inr ⟨hall,hformerly⟩,fun _ => rfl⟩

end Translate

theorem listed_capitals {o : Source} (h : ListedObject capitals certificate o) : o.1 = "Nas" := by
  have hsources : ∀ o ∈ sources capitals certificate, o.1 = "Nas" := by decide +kernel
  have hreferences : ∀ r ∈ capitals.references certificate, r = "Nas" := by decide +kernel
  rcases h with h | ⟨h,_⟩
  · exact hsources o h
  · exact hreferences o.1 h

theorem earlier_capitals {reference : String} (h : reference ∈ earlierReferences ascii ("Nas",some "Web")) :
    EarlierReference ascii capitals certificate ("Nas",some "Web") reference :=
  ⟨Or.inl (by decide +kernel),h,fun _ ho _ => listed_capitals ho⟩

/-- A name with a dash, an underscore, a space and capitals. -/
theorem translated_iff_lowercased :
    ascii.translated "My-Nas_1 b" "guid" capitals (ascii.legacyUniqueId "My-Nas_1 b" certificate "nas") =
        ascii.formatUniqueId "guid" certificate.key (some "Nas") ↔
      "nas" = "Nas" ∨ (certificate ∈ allDescriptions ∧ Formerly ascii capitals certificate "nas" "Nas") :=
  translated_iff ascii "My-Nas_1 b" "guid" capitals certificate (by decide +kernel) rfl (by decide) ("Nas",some "Web")
    "nas" (earlier_capitals (by decide +kernel))

/-- The name of a certificate in lower case is not translated to its common name. -/
theorem not_translated_of_name : ¬ ∀ (T : Text) (legacyName identity : String) (s : Snapshot),
    ∀ d ∈ platformDescriptions, d.dataReference.isSome = true → legacyName ≠ "" → ∀ (o : Source) (reference : String),
      EarlierReference T s d o reference →
        T.translated legacyName identity s (T.legacyUniqueId legacyName d reference) =
          T.formatUniqueId identity d.key (some o.1) := by
  intro hall
  have h := hall ascii "nas" "guid" capitals certificate (by decide +kernel) rfl (by decide) ("Nas",some "Web") "web"
    (earlier_capitals (by decide +kernel))
  revert h
  decide +kernel

end TruenasCE.Identity
