import Mathlib.Data.List.Infix
import Mathlib.Data.List.Sort
import Mathlib.Data.String.Basic
import Mathlib.Logic.Function.Basic
import TruenasCE.ApiParser.Value
import TruenasCE.Library.Transition

/-! # Orphaned statistics and the entry they belong to

Each entry looks for recorder statistics that no registered entity records any more, and deletes
them on demand. Which entry a statistic belongs to is read from the slug of the device in its id.
-/
namespace TruenasCE.Statistics
open Library ApiParser

def sensorPrefix : String := "sensor."

/-- `statistic_id[len("sensor."):]` -/
def remainder (statisticId : String) : List Char := statisticId.toList.drop sensorPrefix.toList.length

def isTruenasSensorId (statisticId deviceSlug : String) : Bool :=
  if deviceSlug = "" ∨ ¬ sensorPrefix.toList <+: statisticId.toList then false
  else decide (deviceSlug.toList <:+: remainder statisticId)

def recorderId : Value → Option String
  | .dict fields =>
    match (dictGet fields "source").eq (.str "recorder"),dictGet fields "statistic_id" with
    | true,.str statisticId => some statisticId
    | _,_ => none
  | _ => none

def unregistered (statIds : List Value) (registry : List String) : List String :=
  (statIds.filterMap recorderId).filter (fun statisticId => decide (statisticId ∉ registry))

def detectOrphanedStatistics (deviceSlug : String) (statIds : List Value) (registry : List String) : List String :=
  ((unregistered statIds registry).filter (fun statisticId => isTruenasSensorId statisticId deviceSlug)).insertionSort (· ≤ ·)

/-- The entries with their device slugs, and the entry whose entity recorded a statistic: under an id
that was generated from the slug of the entry. -/
structure Installation (ε : Type) where
  slug : ε → String
  distinct : Function.Injective slug
  recordedBy : String → Option ε
  generated : ∀ statisticId entry, recordedBy statisticId = some entry →
    sensorPrefix.toList <+: statisticId.toList ∧ (slug entry).toList <:+: remainder statisticId

structure State (ε : Type) where
  orphanedStatistics : ε → List String
  deleted : List (ε × String)

inductive Event (ε : Type)
  /-- A detection; `none` stands for a recorder that is missing or cannot list its statistics. -/
  | detect (entry : ε) (statIds : Option (List Value)) (registry : List String)
  | clear (entry : ε)

section System
variable {ε : Type} [DecidableEq ε]

def step (w : Installation ε) (s : State ε) : Event ε → State ε
  | .detect entry (some statIds) registry => { s with
      orphanedStatistics :=
        Function.update s.orphanedStatistics entry (detectOrphanedStatistics (w.slug entry) statIds registry) }
  | .detect _ none _ => s
  | .clear entry =>
    { orphanedStatistics := Function.update s.orphanedStatistics entry []
      deleted := (s.orphanedStatistics entry).map (fun statisticId => (entry,statisticId)) ++ s.deleted }

def lifetime (w : Installation ε) : System (State ε) (Event ε) where
  init s := s = ⟨fun _ => [],[]⟩
  step s e := some (step w s e)

end System

section Claims
variable {ε : Type} (w : Installation ε)

/-- The statistic is flagged as an orphan on behalf of the entry, or was deleted as one. -/
def State.Claims (s : State ε) (entry : ε) (statisticId : String) : Prop :=
  statisticId ∈ s.orphanedStatistics entry ∨ (entry,statisticId) ∈ s.deleted

/-- Each claimed statistic was recorded by no entity of another entry, and no other entry claims it. -/
def Owned (s : State ε) : Prop := ∀ entry statisticId, s.Claims entry statisticId →
  (∀ other, w.recordedBy statisticId = some other → other = entry) ∧ ∀ other, s.Claims other statisticId → other = entry

def Holds (entry : ε) (statisticId : String) : Prop :=
  ∃ before after, statisticId.toList = sensorPrefix.toList ++ (before ++ (w.slug entry).toList ++ after)

def PointsAt (entry : ε) (statisticId : String) : Prop := w.slug entry ≠ "" ∧ Holds w entry statisticId

/-- An unregistered statistic of the listing that holds the slug of the detecting entry and that of another was not
recorded by the other one and is not claimed by it yet. -/
def Unambiguous (s : State ε) : Event ε → Prop
  | .detect entry (some statIds) registry => ∀ statisticId ∈ unregistered statIds registry,
      PointsAt w entry statisticId → ∀ other, other ≠ entry → Holds w other statisticId →
        w.recordedBy statisticId ≠ some other ∧ ¬ s.Claims other statisticId
  | .detect _ none _ => True
  | .clear _ => True

end Claims

section Steps
variable {ε : Type} [DecidableEq ε] {w : Installation ε} {s : State ε} {entry : ε} {statisticId : String}
variable {statIds : List Value} {registry : List String}

theorem mem_detect_iff {deviceSlug : String} : statisticId ∈ detectOrphanedStatistics deviceSlug statIds registry ↔
    statisticId ∈ unregistered statIds registry ∧ isTruenasSensorId statisticId deviceSlug = true := by
  rw [detectOrphanedStatistics,List.mem_insertionSort,List.mem_filter]

omit [DecidableEq ε] in
theorem holds_iff : Holds w entry statisticId ↔
    sensorPrefix.toList <+: statisticId.toList ∧ (w.slug entry).toList <:+: remainder statisticId := by
  unfold Holds remainder
  constructor
  · rintro ⟨before,after,hid⟩
    rw [hid,List.drop_left]
    exact ⟨List.prefix_append _ _,before,after,rfl⟩
  · rintro ⟨⟨rest,hrest⟩,before,after,hslug⟩
    rw [← hrest,List.drop_left] at hslug
    exact ⟨before,after,by rw [hslug,hrest]⟩

omit [DecidableEq ε] in
theorem isTruenasSensorId_iff : isTruenasSensorId statisticId (w.slug entry) = true ↔ PointsAt w entry statisticId := by
  unfold isTruenasSensorId PointsAt
  rw [holds_iff]
  split
  · rename_i h
    rcases h with h | h
    · simp [h]
    · simp [h]
  · rename_i h
    rw [not_or,not_not] at h
    simp [h]

omit [DecidableEq ε] in
theorem holds_of_recorded (h : w.recordedBy statisticId = some entry) : Holds w entry statisticId :=
  holds_iff.mpr (w.generated statisticId entry h)

def Sound (w : Installation ε) (s : State ε) : Prop :=
  (∀ entry statisticId, s.Claims entry statisticId → PointsAt w entry statisticId) ∧ Owned w s

theorem claims_detect {entry' : ε} (h : (step w s (.detect entry (some statIds) registry)).Claims entry' statisticId) :
    s.Claims entry' statisticId ∨ entry' = entry ∧ statisticId ∈ detectOrphanedStatistics (w.slug entry) statIds registry := by
  rcases h with h | h
  · simp only [step,Function.update_apply] at h
    split at h
    · exact Or.inr ⟨‹_›,h⟩
    · exact Or.inl (Or.inl h)
  · exact Or.inl (Or.inr h)

theorem claims_clear {entry' : ε} (h : (step w s (.clear entry)).Claims entry' statisticId) : s.Claims entry' statisticId := by
  rcases h with h | h
  · simp only [step,Function.update_apply] at h
    split at h
    · cases h
    · exact Or.inl h
  · rcases List.mem_append.mp h with h | h
    · obtain ⟨_,hmem,heq⟩ := List.mem_map.mp h
      cases heq
      exact Or.inl hmem
    · exact Or.inr h

theorem claims_or_points {entry' : ε} (h : (step w s (.detect entry (some statIds) registry)).Claims entry' statisticId) :
    s.Claims entry' statisticId ∨ entry' = entry ∧ statisticId ∈ unregistered statIds registry ∧
      PointsAt w entry statisticId := by
  refine (claims_detect h).imp_right (fun ⟨heq,hmem⟩ => ?_)
  obtain ⟨hunregistered,hid⟩ := mem_detect_iff.mp hmem
  exact ⟨heq,hunregistered,isTruenasSensorId_iff.mp hid⟩

theorem Sound.detect (hs : Sound w s) (hu : Unambiguous w s (.detect entry (some statIds) registry)) :
    Sound w (step w s (.detect entry (some statIds) registry)) := by
  obtain ⟨hpoints,hown⟩ := hs
  refine ⟨fun entry' statisticId hclaims => ?_,fun entry' statisticId hclaims => ?_⟩
  · rcases claims_or_points hclaims with hold | ⟨rfl,-,hnew⟩
    · exact hpoints entry' statisticId hold
    · exact hnew
  · rcases claims_or_points hclaims with hold | ⟨rfl,hmem,hnew⟩
    · refine ⟨(hown entry' statisticId hold).1,fun other hother => ?_⟩
      rcases claims_or_points hother with hother | ⟨rfl,hmem,hnew⟩
      · exact (hown entry' statisticId hold).2 other hother
      · by_contra hne
        exact (hu statisticId hmem hnew entry' (Ne.symm hne) (hpoints entry' statisticId hold).2).2 hold
    · refine ⟨fun other hother => ?_,fun other hother => ?_⟩
      · by_contra hne
        exact (hu statisticId hmem hnew other hne (holds_of_recorded hother)).1 hother
      · rcases claims_or_points hother with hother | ⟨rfl,-,-⟩
        · by_contra hne
          exact (hu statisticId hmem hnew other hne (hpoints other statisticId hother).2).2 hother
        · rfl

theorem Sound.step (hs : Sound w s) {event : Event ε} (hu : Unambiguous w s event) : Sound w (step w s event) := by
  match event with
  | .detect _ (some _) _ => exact hs.detect hu
  | .detect _ none _ => exact hs
  | .clear _ =>
    exact ⟨fun entry statisticId hclaims => hs.1 entry statisticId (claims_clear hclaims),fun entry statisticId hclaims =>
      ⟨(hs.2 entry statisticId (claims_clear hclaims)).1,fun other hother =>
        (hs.2 entry statisticId (claims_clear hclaims)).2 other (claims_clear hother)⟩⟩

theorem sound_of_reach (hs : (lifetime w).Reach (Unambiguous w) s) : Sound w s := by
  refine hs.invariant ?_ ?_
  · rintro s rfl
    have hnone : ∀ entry statisticId, ¬ (⟨fun _ => [],[]⟩ : State ε).Claims entry statisticId := by
      rintro entry statisticId (h | h)
      · cases h
      · cases h
    exact ⟨fun entry statisticId h => absurd h (hnone entry statisticId),
      fun entry statisticId h => absurd h (hnone entry statisticId)⟩
  · intro s event t hs hu hstep
    cases hstep
    exact hs.step hu

theorem claims_of_detect (h : statisticId ∈ unregistered statIds registry) (hpoints : PointsAt w entry statisticId) :
    (step w s (.detect entry (some statIds) registry)).Claims entry statisticId := by
  refine Or.inl ?_
  simp only [step,Function.update_self]
  exact mem_detect_iff.mpr ⟨h,isTruenasSensorId_iff.mpr hpoints⟩

theorem claims_of_other {other : ε} (hne : other ≠ entry) (h : s.Claims other statisticId) :
    (step w s (.detect entry (some statIds) registry)).Claims other statisticId := by
  refine h.imp_left (fun h => ?_)
  simp only [step,Function.update_of_ne hne]
  exact h

/-- A detection that does not meet the condition claims wrongly. -/
theorem not_owned_of_not_unambiguous (h : ¬ Unambiguous w s (.detect entry (some statIds) registry)) :
    ¬ Owned w (step w s (.detect entry (some statIds) registry)) := by
  intro howned
  refine h (fun statisticId hmem hpoints other hne _ => ⟨fun hrecorded => ?_,fun hclaims => ?_⟩)
  · exact hne ((howned entry statisticId (claims_of_detect hmem hpoints)).1 other hrecorded)
  · exact hne ((howned entry statisticId (claims_of_detect hmem hpoints)).2 other (claims_of_other hne hclaims))

/-- Runs whose detections are unambiguous claim own statistics only; any other detection claims wrongly. -/
theorem owned_iff_unambiguous (w : Installation ε) :
    (∀ s, (lifetime w).Reach (Unambiguous w) s → Owned w s) ∧
    ∀ s entry statIds registry, ¬ Unambiguous w s (.detect entry (some statIds) registry) →
      ¬ Owned w (step w s (.detect entry (some statIds) registry)) :=
  ⟨fun _ hs => (sound_of_reach hs).2,fun _ _ _ _ => not_owned_of_not_unambiguous⟩

end Steps

def twoBoxes (first second statisticId : String) (hne : first ≠ second) (hpre : sensorPrefix.toList <+: statisticId.toList)
    (hslug : second.toList <:+: remainder statisticId) : Installation Bool where
  slug b := if b then second else first
  distinct
    | false,false,_ => rfl
    | true,true,_ => rfl
    | false,true,h => absurd h hne
    | true,false,h => absurd h hne.symm
  recordedBy other := if other = statisticId then some true else none
  generated other entry h := by
    split at h
    · rename_i heq
      cases h
      rw [heq]
      exact ⟨hpre,hslug⟩
    · cases h

def nuc13 : Installation Bool :=
  twoBoxes "truenas_x11dpu" "truenas_nuc13" "sensor.truenas_nuc13_uptime" (by decide) (by decide) (by decide)

def backup : Installation Bool :=
  twoBoxes "truenas" "truenas_backup" "sensor.truenas_backup_uptime" (by decide) (by decide) (by decide)

def listing (statisticId : String) : List Value :=
  [.dict [("statistic_id",.str statisticId),("source",.str "recorder")]]

theorem unregistered_nuc13 : unregistered (listing "sensor.truenas_nuc13_uptime") [] = ["sensor.truenas_nuc13_uptime"] := by
  decide

/-- The id holds the slug of the box that recorded it only. -/
theorem unambiguous_nuc13 (s : State Bool) (entry : Bool) :
    Unambiguous nuc13 s (.detect entry (some (listing "sensor.truenas_nuc13_uptime")) []) := by
  have hnot : ¬ Holds nuc13 false "sensor.truenas_nuc13_uptime" := by
    rw [holds_iff]
    decide +kernel
  intro statisticId hmem hpoints other hne hother
  rw [unregistered_nuc13,List.mem_singleton] at hmem
  subst hmem
  cases entry with
  | false => exact absurd hpoints.2 hnot
  | true =>
    cases other with
    | false => exact absurd hother hnot
    | true => exact absurd rfl hne

/-- Slugs of which neither holds the other: the entry that recorded the statistic claims it alone. -/
theorem owned_iff_unambiguous_nuc13 :
    let s := step nuc13 (step nuc13 ⟨fun _ => [],[]⟩ (.detect false (some (listing "sensor.truenas_nuc13_uptime")) []))
      (.detect true (some (listing "sensor.truenas_nuc13_uptime")) [])
    s.orphanedStatistics true = ["sensor.truenas_nuc13_uptime"] ∧ Owned nuc13 s := by
  refine ⟨by decide +kernel,(owned_iff_unambiguous nuc13).1 _ (.step (.step (.init rfl) ?_ rfl) ?_ rfl)⟩
  · exact unambiguous_nuc13 _ _
  · exact unambiguous_nuc13 _ _

/-- A box may detect its own statistic though that holds the slug of another box too. -/
example : Unambiguous backup ⟨fun _ => [],[]⟩ (.detect true (some (listing "sensor.truenas_backup_uptime")) []) := by
  have hids : unregistered (listing "sensor.truenas_backup_uptime") [] = ["sensor.truenas_backup_uptime"] := by decide
  intro statisticId hmem _ other hne _
  rw [hids,List.mem_singleton] at hmem
  subst hmem
  cases other with
  | true => exact absurd rfl hne
  | false => exact ⟨by decide,fun hclaims => hclaims.elim List.not_mem_nil List.not_mem_nil⟩

/-- A box whose slug begins with that of another: its history is deleted on behalf of the other. -/
theorem not_owned_of_longer_slug :
    let s := step backup (step backup ⟨fun _ => [],[]⟩
      (.detect false (some (listing "sensor.truenas_backup_uptime")) [])) (.clear false)
    (lifetime backup).Reachable s ∧ (false,"sensor.truenas_backup_uptime") ∈ s.deleted ∧ ¬ Owned backup s := by
  intro s
  have hdeleted : (false,"sensor.truenas_backup_uptime") ∈ s.deleted := by decide
  refine ⟨.step (.step (.init rfl) trivial rfl) trivial rfl,hdeleted,fun howned => ?_⟩
  exact absurd ((howned false _ (Or.inr hdeleted)).1 true (by decide)) (by decide)

end TruenasCE.Statistics
