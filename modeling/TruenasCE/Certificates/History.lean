import TruenasCE.Certificates.Identities

/-! # Identities over polls and reloads

The poisoned common names live in the coordinator, and a reload sets up a new one. Histories
are written with the latest event first.
-/
namespace TruenasCE.Certificates
open Library

inductive Event
  | poll (source : Option (List (Option Certificate)))
  | reload
  deriving DecidableEq, Repr

def rowsOf (source : Option (List (Option Certificate))) : List Certificate := (source.getD []).reduceOption

def poisonedCommons : List Event → Finset String
  | [] => ∅
  | .reload :: _ => ∅
  | .poll source :: earlier => (getCertificates source (poisonedCommons earlier)).2

/-- Two rows of the answer, or of one since the last reload, share the common name. -/
def SharedSinceReload (source : Option (List (Option Certificate))) (earlier : List Event) (common : String) : Prop :=
  common ∈ sharedCommons (rowsOf source) ∨ ∃ between source' before, earlier = between ++ .poll source' :: before ∧
    .reload ∉ between ∧ common ∈ sharedCommons (rowsOf source')

theorem snd_getCertificates (source : Option (List (Option Certificate))) (poisoned : Finset String) :
    (getCertificates source poisoned).2 = poison (rowsOf source) poisoned := by
  cases source with
  | none =>
    have hnone : sharedCommons (rowsOf none) = ∅ := rfl
    rw [poison,hnone,Finset.union_empty]
    rfl
  | some rows => rfl

theorem mem_poisonedCommons {history : List Event} {common : String} : common ∈ poisonedCommons history ↔
    ∃ between source before, history = between ++ .poll source :: before ∧ .reload ∉ between ∧
      common ∈ sharedCommons (rowsOf source) := by
  induction history with
  | nil => simp [poisonedCommons]
  | cons event earlier ih =>
    cases event with
    | reload =>
      constructor
      · intro h
        simp [poisonedCommons] at h
      · rintro ⟨between,source,before,he,hno,_⟩
        cases between with
        | nil => cases he
        | cons e rest =>
          obtain ⟨rfl,_⟩ := List.cons.inj he
          simp at hno
    | poll source =>
      rw [poisonedCommons,snd_getCertificates,poison,Finset.mem_union,ih]
      constructor
      · rintro (⟨between,source',before,rfl,hno,hs⟩ | hs)
        · exact ⟨.poll source :: between,source',before,rfl,by simpa using hno,hs⟩
        · exact ⟨[],source,earlier,rfl,by simp,hs⟩
      · rintro ⟨between,source',before,he,hno,hs⟩
        cases between with
        | nil =>
          obtain ⟨hsource,rfl⟩ := List.cons.inj he
          cases hsource
          exact Or.inr hs
        | cons e rest =>
          obtain ⟨rfl,rfl⟩ := List.cons.inj he
          simp only [List.mem_cons,not_or] at hno
          exact Or.inl ⟨rest,source',before,rfl,hno.2,hs⟩

theorem mem_poison_iff {source : Option (List (Option Certificate))} {earlier : List Event} {common : String} :
    common ∈ poison (rowsOf source) (poisonedCommons earlier) ↔ SharedSinceReload source earlier common := by
  rw [poison,Finset.mem_union,mem_poisonedCommons,SharedSinceReload,or_comm]

def publishedAs (source : Option (List (Option Certificate))) (earlier : List Event) (c : Certificate) :
  Option String :=
  c.identity (poison (rowsOf source) (poisonedCommons earlier))

/-- A poll of the history published the certificate under its name because its common name was ambiguous. -/
def Demoted (history : List Event) (name : String) : Prop :=
  ∃ later source earlier, history = later ++ .poll source :: earlier ∧ ∃ c ∈ rowsOf source, c.name = some name ∧
    publishedAs source earlier c = some name ∧ ∃ common ∈ c.usableCommon,
      common ∈ poison (rowsOf source) (poisonedCommons earlier)

/-- No poll publishes a certificate under its common name after one has published it under its name. -/
def NeverBack (history : List Event) : Prop :=
  ∀ later source earlier, history = later ++ .poll source :: earlier → ∀ c ∈ rowsOf source, ∀ name, c.name = some name →
    Demoted earlier name → publishedAs source earlier c = some name

/-- The common name of a certificate that an earlier poll has published under its name is shared in
the poll that returns it again, or was since the last reload. -/
def StillAmbiguous (history : List Event) : Prop :=
  ∀ later source earlier, history = later ++ .poll source :: earlier → ∀ c ∈ rowsOf source, ∀ name, c.name = some name →
    Demoted earlier name → ∀ common ∈ c.usableCommon, common = name ∨ SharedSinceReload source earlier common

theorem publishedAs_name_iff {source : Option (List (Option Certificate))} {earlier : List Event}
    {c : Certificate} {name : String}
    (hn : c.name = some name) : publishedAs source earlier c = some name ↔
      ∀ common ∈ c.usableCommon, common = name ∨ SharedSinceReload source earlier common := by
  unfold publishedAs Certificate.identity
  cases hu : c.usableCommon with
  | none => simp [hn]
  | some common =>
    simp only [Option.mem_some_iff,forall_eq']
    by_cases hp : common ∈ poison (rowsOf source) (poisonedCommons earlier)
    · simp [hp,hn,mem_poison_iff.mp hp]
    · have hnot : ¬ SharedSinceReload source earlier common := fun h => hp (mem_poison_iff.mpr h)
      simp [hp,hnot]

/-- A certificate stays under its name exactly along the histories that keep showing its common name
as ambiguous; a reload forgets what was shown before. -/
theorem neverBack_iff (history : List Event) : NeverBack history ↔ StillAmbiguous history := by
  constructor
  · intro h later source earlier he c hc name hn hd
    exact (publishedAs_name_iff hn).mp (h later source earlier he c hc name hn hd)
  · intro h later source earlier he c hc name hn hd
    exact (publishedAs_name_iff hn).mpr (h later source earlier he c hc name hn hd)

/-- Two certificates share a common name; after a reload only one of them is left. -/
theorem not_neverBack_of_reload : ¬ ∀ history, NeverBack history := by
  intro hall
  have h := hall [.poll (some [some ⟨some "old",some "nas.local"⟩]),.reload,
    .poll (some [some ⟨some "old",some "nas.local"⟩,some ⟨some "new",some "nas.local"⟩])] [] _ _ rfl
    ⟨some "old",some "nas.local"⟩ (by decide) "old" rfl
    ⟨[.reload],_,[],rfl,⟨some "old",some "nas.local"⟩,by decide,rfl,by decide,"nas.local",by decide,by decide⟩
  exact absurd h (by decide)

end TruenasCE.Certificates
