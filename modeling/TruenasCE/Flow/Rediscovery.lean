import TruenasCE.Flow.Setup
import TruenasCE.Library.TaskTable

/-! # Setup retries that a discovery triggers

Any number of discovery flows run at once, each waiting for its probes and for the entries that it compares with the box.
An entry that waits for its next setup retry is reloaded when its box is back.
-/
namespace TruenasCE.Flow.Rediscovery
open Library Setup

/-- An entry as the flows look at it: its host, and whether its setup waits for the next retry. -/
structure Entry where
  host : String
  retrying : Bool
  deriving DecidableEq

/-- What makes a flow reload an entry: it is stored with the host that has answered, or it is the box that is found. -/
inductive Cause
  | host (host : String)
  | box
  deriving DecidableEq

/-- A reload that has been scheduled: the entry as it was, when, by which flow and why. -/
structure Reload where
  id : ℕ
  entry : Entry
  time : ℕ
  flow : ℕ
  cause : Cause
  deriving DecidableEq

/-- Where a flow waits: for the probe of its host, with the entries that it may retry, for the probe of the first of some
candidates, or for the comparison with the entries. -/
inductive Phase
  | retrying (host : String) (ids : List ℕ) (candidates : List String)
  | probing (candidates : List String)
  | matching
  deriving DecidableEq

structure Discovery where
  now : ℕ := 0
  entries : Mapping ℕ Entry := []
  reloadTimes : Mapping ℕ ℕ := []
  flows : TaskTable Phase := .empty
  reloads : List Reload := []
  /-- The probes that have been answered as TrueNAS does: the flow and the host. -/
  answered : List (ℕ × String) := []

/-- What happens: time passes, entries are added, removed, set up or changed, a box is discovered, the probe that a flow
waits for ends, and the comparison with the entries has found some. The checks before the probes may end a flow. -/
inductive Event
  | tick (seconds : ℕ)
  | change (entries : Mapping ℕ Entry)
  | discover (info : ServiceInfo) (proceeds : Bool)
  | probe (flow : ℕ) (answers proceeds : Bool)
  | compared (flow : ℕ) (ids : List ℕ)

def discoveryReloadCooldown : ℕ := 60

namespace Discovery
variable (S : Discovery) (id n : ℕ) (cause : Cause)

def inDiscoveryReloadCooldown : Bool :=
  (S.reloadTimes.lookup id).any (fun last => S.now - last < discoveryReloadCooldown)

def reloadIfRetrying : Discovery :=
  match S.entries.lookup id with
  | none => S
  | some entry =>
    if entry.retrying = false ∨ S.inDiscoveryReloadCooldown id = true then S
    else { S with
      reloadTimes := Mapping.set S.reloadTimes id S.now
      reloads := ⟨id,entry,S.now,n,cause⟩ :: S.reloads }

def reloadAll (ids : List ℕ) : Discovery := ids.foldl (fun S id => S.reloadIfRetrying id n cause) S

/-- The entries that `_async_retry_entries_for_host` may retry. -/
def retryingFor (host : String) : List ℕ :=
  Mapping.keys (S.entries.filter (fun e => e.2.host = host ∧ e.2.retrying = true ∧ S.inDiscoveryReloadCooldown e.1 = false))

def proceed (candidates : List String) (proceeds : Bool) : Discovery :=
  { S with flows := S.flows.set n (if proceeds then some (.probing candidates) else none) }

variable (sanitizeHost : String → String)

def step (S : Discovery) : Event → Option Discovery
  | .tick seconds => some { S with now := S.now + seconds }
  | .change entries => some { S with entries := entries }
  | .discover info proceeds =>
    let host := sanitizeHost info.host
    let candidates := probeCandidates host info.port
    let ids := S.retryingFor host
    if ids ≠ [] then some { S with flows := S.flows.spawn (.retrying host ids candidates) }
    else some (proceed { S with flows := S.flows.spawn (.probing candidates) } S.flows.next candidates proceeds)
  | .probe n answers proceeds =>
    match S.flows.get n with
    | some (.retrying host ids candidates) =>
      if answers then
        some ((reloadAll { S with answered := (n,host) :: S.answered } n (.host host) ids).proceed n candidates proceeds)
      else some (S.proceed n candidates proceeds)
    | some (.probing (candidate :: rest)) =>
      if answers then some { S with flows := S.flows.set n (some .matching), answered := (n,candidate) :: S.answered }
      else some { S with flows := S.flows.set n (if rest = [] then none else some (.probing rest)) }
    | _ => none
  | .compared n ids =>
    match S.flows.get n with
    | some .matching => some { S.reloadAll n .box ids with flows := S.flows.set n none }
    | _ => none

def system : System Discovery Event where
  init S := S = {}
  step := step sanitizeHost

/-- The times that are kept are those of the latest reloads, and two reloads of an entry are a cooldown apart. -/
structure Inv (S : Discovery) : Prop where
  known : ∀ r ∈ S.reloads, ∃ last, S.reloadTimes.lookup r.id = some last ∧ r.time ≤ last
  past : ∀ id last, S.reloadTimes.lookup id = some last → last ≤ S.now
  spaced : S.reloads.Pairwise (fun later earlier => later.id = earlier.id →
    earlier.time + discoveryReloadCooldown ≤ later.time)
  caused : ∀ r ∈ S.reloads, r.entry.retrying = true ∧ ∃ host, (r.flow,host) ∈ S.answered ∧
    ∀ host', r.cause = .host host' → host' = host
  matching : ∀ n, S.flows.get n = some .matching → ∃ host, (n,host) ∈ S.answered

variable {S S' : Discovery} {id n : ℕ} {cause : Cause} {sanitizeHost : String → String}

/-- A reload changes nothing but the times and the reloads. -/
structure SameFlows (S T : Discovery) : Prop where
  now : T.now = S.now
  flows : T.flows = S.flows
  answered : T.answered = S.answered

theorem sameFlows_reloadIfRetrying : SameFlows S (S.reloadIfRetrying id n cause) := by
  unfold reloadIfRetrying
  split
  · exact ⟨rfl,rfl,rfl⟩
  · split <;> exact ⟨rfl,rfl,rfl⟩

theorem Inv.reloadIfRetrying (h : Inv S) {host : String} (hanswered : (n,host) ∈ S.answered)
    (hcause : ∀ host', cause = .host host' → host' = host) : Inv (S.reloadIfRetrying id n cause) := by
  unfold Discovery.reloadIfRetrying
  split
  · exact h
  · rename_i entry hentry
    split
    · exact h
    · rename_i hready
      rw [not_or] at hready
      obtain ⟨hretrying,hcooldown⟩ := hready
      have hold : ∀ last, S.reloadTimes.lookup id = some last → last + discoveryReloadCooldown ≤ S.now := by
        intro last hlast
        have hpast := h.past id last hlast
        have hwaited : ¬ S.now - last < discoveryReloadCooldown := by
          simpa [inDiscoveryReloadCooldown,hlast] using hcooldown
        omega
      refine ⟨?_,?_,?_,?_,h.matching⟩
      · rintro r hr
        rw [Mapping.lookup_set]
        rcases List.mem_cons.mp hr with rfl | hr
        · exact ⟨S.now,if_pos rfl,le_rfl⟩
        · obtain ⟨last,hlast,hle⟩ := h.known r hr
          by_cases hid : r.id = id
          · exact ⟨S.now,if_pos hid,hle.trans (h.past r.id last hlast)⟩
          · exact ⟨last,by rw [if_neg hid,hlast],hle⟩
      · intro id' last hlast
        rw [Mapping.lookup_set] at hlast
        split at hlast
        · cases hlast
          exact le_rfl
        · exact h.past id' last hlast
      · refine List.pairwise_cons.mpr ⟨fun r hr heq => ?_,h.spaced⟩
        obtain ⟨last,hlast,hle⟩ := h.known r hr
        rw [← heq] at hlast
        have hapart := hold last hlast
        change r.time + discoveryReloadCooldown ≤ S.now
        omega
      · intro r hr
        rcases List.mem_cons.mp hr with rfl | hr
        · exact ⟨Bool.eq_true_of_not_eq_false hretrying,host,hanswered,hcause⟩
        · exact h.caused r hr

theorem Inv.reloadAll (h : Inv S) {host : String} (hanswered : (n,host) ∈ S.answered)
    (hcause : ∀ host', cause = .host host' → host' = host) (ids : List ℕ) : Inv (S.reloadAll n cause ids) ∧
      SameFlows S (S.reloadAll n cause ids) := by
  induction ids generalizing S with
  | nil => exact ⟨h,⟨rfl,rfl,rfl⟩⟩
  | cons id rest ih =>
    have hsame : SameFlows S (S.reloadIfRetrying id n cause) := sameFlows_reloadIfRetrying
    obtain ⟨hinv,hrest⟩ := ih (@Inv.reloadIfRetrying S id n cause h host hanswered hcause) (hsame.answered ▸ hanswered)
    exact ⟨hinv,⟨hrest.now.trans hsame.now,hrest.flows.trans hsame.flows,hrest.answered.trans hsame.answered⟩⟩

theorem Inv.moved (h : Inv S) {flows : TaskTable Phase} {answered : List (ℕ × String)}
    (hanswered : S.answered ⊆ answered)
    (hmatching : ∀ n, flows.get n = some .matching → ∃ host, (n,host) ∈ answered) :
    Inv { S with flows := flows, answered := answered } := by
  refine ⟨h.known,h.past,h.spaced,fun r hr => ?_,hmatching⟩
  obtain ⟨hretrying,host,hmem,hcause⟩ := h.caused r hr
  exact ⟨hretrying,host,hanswered hmem,hcause⟩

theorem matching_of_set {flows : TaskTable Phase} {m : ℕ} {phase : Option Phase} (hphase : phase ≠ some .matching)
    (h : (flows.set n phase).get m = some .matching) : flows.get m = some .matching := by
  rcases TaskTable.get_set_cases h with ⟨-,hsome⟩ | ⟨-,hold⟩
  · exact absurd hsome hphase
  · exact hold

theorem Inv.proceed (h : Inv S) (candidates : List String) (proceeds : Bool) : Inv (S.proceed n candidates proceeds) := by
  refine h.moved (List.Subset.refl _) (fun m hm => h.matching m (matching_of_set ?_ hm))
  split
  · exact fun heq => (by cases heq)
  · exact (Option.some_ne_none _).symm

theorem Inv.step (h : Inv S) {e : Event} (he : step sanitizeHost S e = some S') : Inv S' := by
  cases e with
  | tick seconds =>
    cases he
    exact ⟨h.known,fun id last hlast => (h.past id last hlast).trans (Nat.le_add_right _ _),h.spaced,h.caused,h.matching⟩
  | change entries =>
    cases he
    exact ⟨h.known,h.past,h.spaced,h.caused,h.matching⟩
  | discover info proceeds =>
    have hspawn : ∀ phase, phase ≠ .matching → Inv { S with flows := S.flows.spawn phase } := by
      intro phase hphase
      refine h.moved (List.Subset.refl _) (fun m hm => ?_)
      rcases TaskTable.get_spawn_cases hm with ⟨-,heq⟩ | hold
      · exact absurd heq.symm hphase
      · exact h.matching m hold
    simp only [Discovery.step] at he
    split at he
    · cases he
      exact hspawn _ Phase.noConfusion
    · cases he
      exact (hspawn _ Phase.noConfusion).proceed _ _
  | probe n answers proceeds =>
    simp only [Discovery.step] at he
    split at he
    · rename_i host ids candidates hget
      split at he
      · cases he
        have hlogged : Inv { S with answered := (n,host) :: S.answered } :=
          h.moved (List.subset_cons_self _ _) (fun m hm => by
            obtain ⟨host',hmem⟩ := h.matching m hm
            exact ⟨host',List.mem_cons_of_mem _ hmem⟩)
        obtain ⟨hinv,-⟩ := @Inv.reloadAll _ n (.host host) hlogged host List.mem_cons_self
          (fun host' heq => (Cause.host.inj heq).symm) ids
        exact hinv.proceed _ _
      · cases he
        exact h.proceed _ _
    · rename_i candidate rest hget
      split at he
      · cases he
        refine h.moved (List.subset_cons_self _ _) (fun m hm => ?_)
        rcases TaskTable.get_set_cases hm with ⟨rfl,-⟩ | ⟨-,hold⟩
        · exact ⟨candidate,List.mem_cons_self⟩
        · obtain ⟨host,hmem⟩ := h.matching m hold
          exact ⟨host,List.mem_cons_of_mem _ hmem⟩
      · cases he
        refine h.moved (List.Subset.refl _) (fun m hm => h.matching m (matching_of_set ?_ hm))
        split
        · exact (Option.some_ne_none _).symm
        · exact fun heq => (by cases heq)
    · cases he
  | compared n ids =>
    simp only [Discovery.step] at he
    split at he
    · rename_i hget
      cases he
      obtain ⟨host,hmem⟩ := h.matching n hget
      obtain ⟨hinv,hsame⟩ := @Inv.reloadAll S n .box h host hmem (fun host' heq => (by cases heq)) ids
      refine hinv.moved (List.Subset.refl _) (fun m hm => hinv.matching m ?_)
      rw [hsame.flows]
      exact matching_of_set (Option.some_ne_none _).symm hm
    · cases he

/-- However many discoveries run at once, an entry is reloaded only while it waits for a retry and only by a flow whose
probe has been answered, and two reloads of one entry are a cooldown apart. -/
theorem reloads_of_reachable (hr : (system sanitizeHost).Reachable S) :
    S.reloads.Pairwise (fun later earlier => later.id = earlier.id →
      earlier.time + discoveryReloadCooldown ≤ later.time) ∧
    ∀ r ∈ S.reloads, r.entry.retrying = true ∧ ∃ host, (r.flow,host) ∈ S.answered ∧
      ∀ host', r.cause = .host host' → host' = host := by
  have h : Inv S := hr.invariant (fun S hS => by
    subst hS
    exact ⟨by simp,by simp,List.Pairwise.nil,by simp,by simp⟩) (fun h _ he => h.step he)
  exact ⟨h.spaced,h.caused⟩

/-- A box that comes back is announced twice, and its entry is reloaded by the first of the two flows only. -/
def announcedTwice : List Event :=
  [.change [(7,⟨"nas.local",true⟩)],.discover ⟨"nas.local",none⟩ true,.discover ⟨"nas.local",none⟩ true,
    .probe 0 true false,.tick 5,.probe 1 true false]

theorem reloads_of_announcedTwice : ∃ S, (system (fun host => host)).Reachable S ∧
    S.reloads = [⟨7,⟨"nas.local",true⟩,0,0,.host "nas.local"⟩] ∧ ∃ host, (0,host) ∈ S.answered := by
  have hrun : ∃ S, (system (fun host => host)).run (fun _ _ => True) {} announcedTwice = some S ∧
      S.reloads = [⟨7,⟨"nas.local",true⟩,0,0,.host "nas.local"⟩] := ⟨_,rfl,rfl⟩
  obtain ⟨S,hrun,hreloads⟩ := hrun
  have hr : (system (fun host => host)).Reachable S := (System.Reach.init rfl).run hrun
  obtain ⟨-,host,hmem,-⟩ := (reloads_of_reachable hr).2 ⟨7,⟨"nas.local",true⟩,0,0,.host "nas.local"⟩
    (by rw [hreloads]; exact List.mem_cons_self)
  exact ⟨S,hr,hreloads,host,hmem⟩

end Discovery
end TruenasCE.Flow.Rediscovery
