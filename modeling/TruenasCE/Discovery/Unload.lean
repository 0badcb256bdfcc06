import TruenasCE.Library.TaskTable
import TruenasCE.Library.Transition

/-! # Additions of entities while the entry is unloaded

The two discovery paths of a platform as tasks that are suspended at each `await`, beside the life
of the config entry. Every setup creates a coordinator of its own.
-/
namespace TruenasCE.Discovery
open Library

inductive ConfigEntryState
  | notLoaded | setupInProgress | loaded | unloadInProgress
  deriving DecidableEq, Repr

def entityAddStates : List ConfigEntryState := [.setupInProgress,.loaded]

structure Entry where
  state : ConfigEntryState := .notLoaded
  coordinator : ℕ := 0
  runtimeData : Option ℕ := none
  platformReset : Bool := false
  unloaded : List ℕ := []
  deriving DecidableEq, Repr

inductive Stage
  | create
  | setupFails
  | store
  | setUp
  | unload
  | reset
  | clear
  | unloadEnds
  deriving DecidableEq, Repr

namespace Entry
variable (entry : Entry)

/-- `_entry_serves`, which `entry_accepts_entities` returns -/
def serves (coordinator : ℕ) : Bool :=
  decide (entry.state ∈ entityAddStates) && decide (entry.runtimeData = some coordinator)

def step : Stage → Option Entry
  | .create =>
    if entry.state = .notLoaded then
      some { entry with state := .setupInProgress, coordinator := entry.coordinator + 1, runtimeData := none }
    else none
  | .setupFails =>
    if entry.state = .setupInProgress ∧ entry.runtimeData = none then some { entry with state := .notLoaded } else none
  | .store =>
    if entry.state = .setupInProgress ∧ entry.runtimeData = none then
      some { entry with runtimeData := some entry.coordinator }
    else none
  | .setUp =>
    if entry.state = .setupInProgress ∧ entry.runtimeData ≠ none then some { entry with state := .loaded } else none
  | .unload =>
    if entry.state = .loaded then some { entry with state := .unloadInProgress, platformReset := false } else none
  | .reset =>
    if entry.state = .unloadInProgress ∧ entry.platformReset = false then some { entry with platformReset := true }
    else none
  | .clear =>
    if entry.state = .unloadInProgress ∧ entry.platformReset = true then some { entry with runtimeData := none }
    else none
  | .unloadEnds =>
    if entry.state = .unloadInProgress ∧ entry.platformReset = true ∧ entry.runtimeData = none then
      some { entry with state := .notLoaded, unloaded := entry.coordinator :: entry.unloaded }
    else none

end Entry

structure Entity where
  coordinator : ℕ
  number : ℕ
  deriving DecidableEq, Repr

/-- Suspension points of an addition. -/
inductive Pc
  /-- `async with add_lock` -/
  | waiting
  /-- `await platform.async_add_entities` -/
  | adding (batch : List ℕ)
  | removing (added : List ℕ)
  deriving DecidableEq, Repr

/-- `async_update_controller`, or `_async_add_app_stats_sensors`, which takes no lock. -/
inductive Path
  | controller | appStats
  deriving DecidableEq, Repr

structure Addition where
  coordinator : ℕ
  path : Path
  pc : Pc
  deriving DecidableEq, Repr

structure State where
  entry : Entry := {}
  attached : List Entity := []
  tasks : TaskTable Addition := TaskTable.empty
  /-- `add_lock` of each setup -/
  addLock : ℕ → Bool := fun _ => false
  /-- Entities whose removal has raised, or was given up when the task was cancelled. -/
  left : List Entity := []

inductive Event
  | entry (stage : Stage)
  /-- A refresh of a coordinator reaches `async_update_controller` of its setup. -/
  | refresh (coordinator : ℕ)
  | locked (n : ℕ) (batch : List ℕ)
  /-- A refresh reaches `_discover_app_stats_sensors`. -/
  | appStats (coordinator : ℕ) (batch : List ℕ)
  /-- The addition returns, raises or is cancelled, and has attached these. -/
  | added (n : ℕ) (numbers : List ℕ)
  | removed (n : ℕ)
  | removalRaises (n : ℕ)
  | cancelled (n : ℕ)
  | detached (entity : Entity)
  deriving DecidableEq, Repr

namespace State
variable (s : State)

def detach (e : Entity) : State := { s with attached := s.attached.filter (fun x => x ≠ e) }

def attach (coordinator : ℕ) (numbers : List ℕ) : State :=
  { s with attached := numbers.map (fun number => ⟨coordinator,number⟩) ++ s.attached }

def leave (coordinator : ℕ) (numbers : List ℕ) : State :=
  { s with left := numbers.map (fun number => ⟨coordinator,number⟩) ++ s.left }

def finish (n : ℕ) (a : Addition) : State :=
  { s with
    tasks := s.tasks.set n none
    addLock :=
      if a.path = .controller ∧ a.pc ≠ .waiting then Function.update s.addLock a.coordinator false else s.addLock }

def remove (n : ℕ) (a : Addition) : List ℕ → State
  | [] => s.finish n a
  | number :: rest => { s with tasks := s.tasks.set n (some { a with pc := .removing (number :: rest) }) }

/-- `async_update_controller` with the lock -/
def add (n : ℕ) (a : Addition) (batch : List ℕ) : State :=
  if s.entry.serves a.coordinator && !batch.isEmpty then
    { s with
      tasks := s.tasks.set n (some { a with pc := .adding batch })
      addLock := Function.update s.addLock a.coordinator true }
  else s.finish n a

/-- `remove_entities_added_during_unload` behind the addition -/
def addEnds (n : ℕ) (a : Addition) (numbers : List ℕ) : State :=
  (s.attach a.coordinator numbers).remove n a (if s.entry.serves a.coordinator then [] else numbers)

def step : Event → Option State
  | .entry stage => (s.entry.step stage).map (fun entry =>
    { s with
      entry
      attached :=
        if stage = .reset then s.attached.filter (fun e => e.coordinator ≠ s.entry.coordinator) else s.attached })
  | .refresh coordinator =>
    some (if s.entry.serves coordinator then
      { s with tasks := s.tasks.spawn ⟨coordinator,.controller,.waiting⟩ } else s)
  | .appStats coordinator batch =>
    some (if s.entry.serves coordinator && !batch.isEmpty then
      { s with tasks := s.tasks.spawn ⟨coordinator,.appStats,.adding batch⟩ } else s)
  | .locked n batch =>
    match s.tasks.get n with
    | some ⟨coordinator,path,.waiting⟩ =>
      if s.addLock coordinator then none else some (s.add n ⟨coordinator,path,.waiting⟩ batch)
    | _ => none
  | .added n numbers =>
    match s.tasks.get n with
    | some ⟨coordinator,path,.adding batch⟩ =>
      if ∀ number ∈ numbers, number ∈ batch then some (s.addEnds n ⟨coordinator,path,.adding batch⟩ numbers) else none
    | _ => none
  | .removed n =>
    match s.tasks.get n with
    | some ⟨coordinator,path,.removing (number :: rest)⟩ =>
      some ((s.detach ⟨coordinator,number⟩).remove n ⟨coordinator,path,.removing (number :: rest)⟩ rest)
    | _ => none
  | .removalRaises n =>
    match s.tasks.get n with
    | some ⟨coordinator,path,.removing (number :: rest)⟩ =>
      some ((s.leave coordinator [number]).remove n ⟨coordinator,path,.removing (number :: rest)⟩ rest)
    | _ => none
  | .cancelled n =>
    match s.tasks.get n with
    | some ⟨coordinator,path,.waiting⟩ => some (s.finish n ⟨coordinator,path,.waiting⟩)
    | some ⟨coordinator,path,.removing rest⟩ =>
      some ((s.leave coordinator rest).finish n ⟨coordinator,path,.removing rest⟩)
    | _ => none
  | .detached e => some (s.detach e)

/-- Each step by its event: the addition it goes on with, and the state it leaves. -/
inductive Steps (s : State) : Event → State → Prop
  | entry {stage : Stage} {entry : Entry} (h : s.entry.step stage = some entry) : s.Steps (.entry stage)
    { s with
      entry
      attached :=
        if stage = .reset then s.attached.filter (fun e => e.coordinator ≠ s.entry.coordinator) else s.attached }
  | refresh {coordinator : ℕ} (h : s.entry.serves coordinator = true) :
    s.Steps (.refresh coordinator) { s with tasks := s.tasks.spawn ⟨coordinator,.controller,.waiting⟩ }
  | refreshRefused (coordinator : ℕ) : s.Steps (.refresh coordinator) s
  | appStats {coordinator : ℕ} (batch : List ℕ) (h : s.entry.serves coordinator = true) :
    s.Steps (.appStats coordinator batch) { s with tasks := s.tasks.spawn ⟨coordinator,.appStats,.adding batch⟩ }
  | appStatsRefused (coordinator : ℕ) (batch : List ℕ) : s.Steps (.appStats coordinator batch) s
  | locked {n coordinator : ℕ} {path : Path} (hn : s.tasks.get n = some ⟨coordinator,path,.waiting⟩) (batch : List ℕ) :
    s.Steps (.locked n batch) (s.add n ⟨coordinator,path,.waiting⟩ batch)
  | added {n coordinator : ℕ} {path : Path} {batch : List ℕ}
    (hn : s.tasks.get n = some ⟨coordinator,path,.adding batch⟩) (numbers : List ℕ) :
    s.Steps (.added n numbers) (s.addEnds n ⟨coordinator,path,.adding batch⟩ numbers)
  | removed {n coordinator number : ℕ} {path : Path} {rest : List ℕ}
    (hn : s.tasks.get n = some ⟨coordinator,path,.removing (number :: rest)⟩) : s.Steps (.removed n)
      ((s.detach ⟨coordinator,number⟩).remove n ⟨coordinator,path,.removing (number :: rest)⟩ rest)
  | removalRaises {n coordinator number : ℕ} {path : Path} {rest : List ℕ}
    (hn : s.tasks.get n = some ⟨coordinator,path,.removing (number :: rest)⟩) : s.Steps (.removalRaises n)
      ((s.leave coordinator [number]).remove n ⟨coordinator,path,.removing (number :: rest)⟩ rest)
  | cancelledWaiting {n coordinator : ℕ} {path : Path} (hn : s.tasks.get n = some ⟨coordinator,path,.waiting⟩) :
    s.Steps (.cancelled n) (s.finish n ⟨coordinator,path,.waiting⟩)
  | cancelledRemoving {n coordinator : ℕ} {path : Path} {rest : List ℕ}
    (hn : s.tasks.get n = some ⟨coordinator,path,.removing rest⟩) :
    s.Steps (.cancelled n) ((s.leave coordinator rest).finish n ⟨coordinator,path,.removing rest⟩)
  | detached (e : Entity) : s.Steps (.detached e) (s.detach e)

theorem steps_of_step {s t : State} {event : Event} (h : s.step event = some t) : s.Steps event t := by
  cases event with
  | entry stage =>
    obtain ⟨entry,hentry,rfl⟩ := Option.map_eq_some_iff.mp h
    exact .entry hentry
  | refresh coordinator =>
    obtain rfl := Option.some.inj h
    split
    · exact .refresh ‹_›
    · exact .refreshRefused coordinator
  | appStats coordinator batch =>
    obtain rfl := Option.some.inj h
    split
    · rename_i hserves
      exact .appStats batch (Bool.and_eq_true_iff.mp hserves).1
    · exact .appStatsRefused coordinator batch
  | locked n batch =>
    rw [step] at h
    split at h
    · split at h
      · cases h
      · obtain rfl := Option.some.inj h
        exact .locked ‹_› batch
    · cases h
  | added n numbers =>
    rw [step] at h
    split at h
    · split at h
      · obtain rfl := Option.some.inj h
        exact .added ‹_› numbers
      · cases h
    · cases h
  | removed n =>
    rw [step] at h
    split at h
    · obtain rfl := Option.some.inj h
      exact .removed ‹_›
    · cases h
  | removalRaises n =>
    rw [step] at h
    split at h
    · obtain rfl := Option.some.inj h
      exact .removalRaises ‹_›
    · cases h
  | cancelled n =>
    rw [step] at h
    split at h
    · obtain rfl := Option.some.inj h
      exact .cancelledWaiting ‹_›
    · obtain rfl := Option.some.inj h
      exact .cancelledRemoving ‹_›
    · cases h
  | detached e =>
    obtain rfl := Option.some.inj h
    exact .detached e

end State

def additions : System State Event where
  init s := s = {}
  step := State.step

def Entry.Live (entry : Entry) (coordinator : ℕ) : Prop :=
  entry.runtimeData = some coordinator ∧ ¬ (entry.state = .unloadInProgress ∧ entry.platformReset = true)

def Removing (T : TaskTable Addition) (e : Entity) : Prop :=
  ∃ n path rest, T.get n = some ⟨e.coordinator,path,.removing rest⟩ ∧ e.number ∈ rest

def Accounted (s : State) (e : Entity) : Prop :=
  s.entry.Live e.coordinator ∨ Removing s.tasks e ∨ e ∈ s.left

structure EntryInv (entry : Entry) : Prop where
  runtime : ∀ g, entry.runtimeData = some g → g = entry.coordinator ∧ entry.state ≠ .notLoaded
  current : entry.state ≠ .notLoaded → entry.coordinator ∉ entry.unloaded
  old : ∀ g ∈ entry.unloaded, g ≤ entry.coordinator

structure Inv (s : State) : Prop where
  entry : EntryInv s.entry
  accounted : ∀ e ∈ s.attached, Accounted s e

section Steps
variable {s t : State} {entry entry' : Entry} {T : TaskTable Addition} {a x : Addition} {e : Entity} {n g : ℕ}
variable {numbers rest : List ℕ} {stage : Stage}

theorem of_guarded {α : Type*} {p : Prop} [Decidable p] {u v : α} (h : (if p then some u else none) = some v) :
    p ∧ u = v := by
  obtain ⟨hp,heq⟩ := Option.ite_none_right_eq_some.mp h
  exact ⟨hp,Option.some.inj heq⟩

theorem live_of_serves (h : entry.serves g = true) : entry.Live g := by
  unfold Entry.serves at h
  rw [Bool.and_eq_true,decide_eq_true_iff,decide_eq_true_iff] at h
  refine ⟨h.2,fun hun => ?_⟩
  rw [hun.1] at h
  exact absurd h.1 (by decide)

theorem entryInv_step (h : EntryInv entry) (hs : entry.step stage = some entry') : EntryInv entry' := by
  cases stage with
  | create =>
    obtain ⟨hstate,rfl⟩ := of_guarded hs
    refine ⟨fun g hg => (Option.some_ne_none g hg.symm).elim,fun _ hmem => ?_,fun g hg =>
      Nat.le_succ_of_le (h.old g hg)⟩
    exact Nat.not_succ_le_self _ (h.old _ hmem)
  | setupFails =>
    obtain ⟨⟨hstate,hnone⟩,rfl⟩ := of_guarded hs
    refine ⟨fun g hg => ?_,fun hstate => absurd rfl hstate,h.old⟩
    rw [hnone] at hg
    cases hg
  | store =>
    obtain ⟨⟨hstate,hnone⟩,rfl⟩ := of_guarded hs
    refine ⟨fun g hg => ⟨(Option.some.inj hg).symm,?_⟩,h.current,h.old⟩
    rw [hstate]
    decide
  | setUp =>
    obtain ⟨⟨hstate,hsome⟩,rfl⟩ := of_guarded hs
    refine ⟨fun g hg => ⟨(h.runtime g hg).1,by simp⟩,fun _ => h.current ?_,h.old⟩
    rw [hstate]
    decide
  | unload =>
    obtain ⟨hstate,rfl⟩ := of_guarded hs
    refine ⟨fun g hg => ⟨(h.runtime g hg).1,by simp⟩,fun _ => h.current ?_,h.old⟩
    rw [hstate]
    decide
  | reset =>
    obtain ⟨⟨hstate,hreset⟩,rfl⟩ := of_guarded hs
    exact ⟨h.runtime,h.current,h.old⟩
  | clear =>
    obtain ⟨⟨hstate,hreset⟩,rfl⟩ := of_guarded hs
    exact ⟨fun g hg => (Option.some_ne_none g hg.symm).elim,h.current,h.old⟩
  | unloadEnds =>
    obtain ⟨⟨hstate,hreset,hnone⟩,rfl⟩ := of_guarded hs
    refine ⟨fun g hg => ?_,fun hstate => absurd rfl hstate,fun g hg => ?_⟩
    · rw [hnone] at hg
      cases hg
    · rcases List.mem_cons.mp hg with rfl | hmem
      · exact le_rfl
      · exact h.old g hmem

theorem live_step (h : EntryInv entry) (hs : entry.step stage = some entry') (hl : entry.Live g) :
    entry'.Live g ∨ (stage = .reset ∧ g = entry.coordinator) := by
  obtain ⟨hg,hlive⟩ := hl
  obtain ⟨hcoordinator,hloaded⟩ := h.runtime g hg
  cases stage with
  | create =>
    obtain ⟨hstate,rfl⟩ := of_guarded hs
    exact absurd hstate hloaded
  | setupFails | store =>
    obtain ⟨⟨hstate,hnone⟩,rfl⟩ := of_guarded hs
    rw [hnone] at hg
    cases hg
  | setUp =>
    obtain ⟨⟨hstate,hsome⟩,rfl⟩ := of_guarded hs
    exact Or.inl ⟨hg,by simp⟩
  | unload =>
    obtain ⟨hstate,rfl⟩ := of_guarded hs
    exact Or.inl ⟨hg,by simp⟩
  | reset => exact Or.inr ⟨rfl,hcoordinator⟩
  | clear =>
    obtain ⟨⟨hstate,hreset⟩,rfl⟩ := of_guarded hs
    exact absurd ⟨hstate,hreset⟩ hlive
  | unloadEnds =>
    obtain ⟨⟨hstate,hreset,hnone⟩,rfl⟩ := of_guarded hs
    exact absurd ⟨hstate,hreset⟩ hlive

theorem removing_spawn (h : Removing T e) : Removing (T.spawn x) e := by
  obtain ⟨n,path,rest,hn,hmem⟩ := h
  refine ⟨n,path,rest,?_,hmem⟩
  rw [TaskTable.get_spawn,if_neg (Nat.ne_of_lt (TaskTable.lt_next hn)),hn]

theorem removing_set_cases (hn : T.get n = some a) (h : Removing T e) (o : Option Addition) :
    Removing (T.set n o) e ∨ ∃ rest, a.coordinator = e.coordinator ∧ a.pc = .removing rest ∧ e.number ∈ rest := by
  obtain ⟨m,path,rest,hm,hmem⟩ := h
  by_cases hmn : m = n
  · subst hmn
    rw [hn] at hm
    obtain rfl := Option.some.inj hm
    exact Or.inr ⟨rest,rfl,rfl,hmem⟩
  · refine Or.inl ⟨m,path,rest,?_,hmem⟩
    rw [TaskTable.get_set hn,if_neg hmn,hm]

/-- A task goes on to remove some entities: those it has attached and is not yet known to remove, and
those of its own list that are still there. -/
theorem accounted_remove (hn : s.tasks.get n = some a)
    (h : ∀ e ∈ s.attached, Accounted s e ∨ (e.coordinator = a.coordinator ∧ e.number ∈ numbers))
    (hrest : ∀ rest, a.pc = .removing rest → ∀ e ∈ s.attached, e.coordinator = a.coordinator → e.number ∈ rest →
      e ∈ s.left ∨ e.number ∈ numbers) : ∀ e ∈ (s.remove n a numbers).attached, Accounted (s.remove n a numbers) e := by
  have hstep : ∀ o, (∀ e, e.coordinator = a.coordinator → e.number ∈ numbers → Removing (s.tasks.set n o) e) →
      ∀ e ∈ s.attached, s.entry.Live e.coordinator ∨ Removing (s.tasks.set n o) e ∨ e ∈ s.left := by
    intro o ho e he
    rcases h e he with (hlive | hremoving | hleft) | ⟨hg,hmem⟩
    · exact Or.inl hlive
    · rcases removing_set_cases hn hremoving o with hstill | ⟨rest,hg,hpc,hmem⟩
      · exact Or.inr (Or.inl hstill)
      · rcases hrest rest hpc e he hg.symm hmem with hleft | hnumbers
        · exact Or.inr (Or.inr hleft)
        · exact Or.inr (Or.inl (ho e hg.symm hnumbers))
    · exact Or.inr (Or.inr hleft)
    · exact Or.inr (Or.inl (ho e hg hmem))
  cases numbers with
  | nil => exact hstep none (fun e _ hmem => absurd hmem List.not_mem_nil)
  | cons number rest =>
    refine hstep _ (fun e hg hmem => ⟨n,a.path,number :: rest,?_,hmem⟩)
    rw [TaskTable.get_set hn,if_pos rfl,hg]

theorem entry_remove : (s.remove n a numbers).entry = s.entry := by
  cases numbers <;> rfl

theorem inv_entry (h : Inv s) (hs : s.step (.entry stage) = some t) : Inv t := by
  obtain ⟨entry,hentry,rfl⟩ := Option.map_eq_some_iff.mp hs
  refine ⟨entryInv_step h.entry hentry,fun e he => ?_⟩
  have hattached : e ∈ s.attached ∧ (stage = .reset → e.coordinator ≠ s.entry.coordinator) := by
    dsimp only at he
    split at he
    · rw [List.mem_filter] at he
      exact ⟨he.1,fun _ => by simpa using he.2⟩
    · rename_i hstage
      exact ⟨he,fun hreset => absurd hreset hstage⟩
  rcases h.accounted e hattached.1 with hlive | hrest
  · rcases live_step h.entry hentry hlive with hstill | ⟨hreset,hg⟩
    · exact Or.inl hstill
    · exact absurd hg (hattached.2 hreset)
  · exact Or.inr hrest

theorem inv_spawn (h : Inv s) (x : Addition) : Inv { s with tasks := s.tasks.spawn x } :=
  ⟨h.entry,fun e he => (h.accounted e he).imp_right (Or.imp_left removing_spawn)⟩

theorem inv_finish (h : Inv s) (hn : s.tasks.get n = some a)
    (hrest : ∀ rest, a.pc = .removing rest → ∀ number ∈ rest, (⟨a.coordinator,number⟩ : Entity) ∈ s.left) :
    Inv (s.finish n a) := by
  refine ⟨h.entry,@accounted_remove s a n [] hn (fun e he => Or.inl (h.accounted e he)) ?_⟩
  rintro rest hpc ⟨_,number⟩ _ rfl hmem
  exact Or.inl (hrest rest hpc number hmem)

theorem inv_add (h : Inv s) (hn : s.tasks.get n = some a) (hpc : a.pc = .waiting) (batch : List ℕ) :
    Inv (s.add n a batch) := by
  unfold State.add
  split
  · refine ⟨h.entry,fun e he => (h.accounted e he).imp_right (Or.imp_left (fun hr => ?_))⟩
    rcases removing_set_cases hn hr (some { a with pc := .adding batch }) with hstill | ⟨rest,_,hrem,_⟩
    · exact hstill
    · rw [hpc] at hrem
      cases hrem
  · refine inv_finish h hn (fun rest hrem => ?_)
    rw [hpc] at hrem
    cases hrem

theorem inv_addEnds (h : Inv s) {batch : List ℕ} (hn : s.tasks.get n = some a) (hpc : a.pc = .adding batch)
    (numbers : List ℕ) :
    Inv (s.addEnds n a numbers) := by
  have hnone : ∀ rest, a.pc ≠ .removing rest := fun rest hrem => by
    rw [hpc] at hrem
    cases hrem
  unfold State.addEnds
  refine ⟨by rw [entry_remove]; exact h.entry,
    accounted_remove hn (fun e he => ?_) (fun rest hrem => absurd hrem (hnone rest))⟩
  rcases List.mem_append.mp he with hnew | hold
  · obtain ⟨number,hmem,rfl⟩ := List.mem_map.mp hnew
    cases hserves : s.entry.serves a.coordinator with
    | true => exact Or.inl (Or.inl (live_of_serves hserves))
    | false => exact Or.inr ⟨rfl,hmem⟩
  · exact Or.inl (h.accounted e hold)

theorem inv_removal (h : EntryInv s.entry) {number : ℕ} (hn : s.tasks.get n = some a)
    (hpc : a.pc = .removing (number :: rest))
    (hacc : ∀ e ∈ s.attached, Accounted s e) (hgone : (⟨a.coordinator,number⟩ : Entity) ∈ s.attached →
      (⟨a.coordinator,number⟩ : Entity) ∈ s.left) : Inv (s.remove n a rest) := by
  refine ⟨by rw [entry_remove]; exact h,accounted_remove hn (fun e he => Or.inl (hacc e he)) ?_⟩
  rintro rest' hpc' ⟨_,number'⟩ he rfl hmem
  rw [hpc] at hpc'
  obtain rfl := Pc.removing.inj hpc'
  rcases List.mem_cons.mp hmem with rfl | hmem
  · exact Or.inl (hgone he)
  · exact Or.inr hmem

theorem inv_step {event : Event} (h : Inv s) (hs : s.step event = some t) : Inv t := by
  cases State.steps_of_step hs with
  | entry => exact inv_entry h hs
  | refresh => exact inv_spawn h _
  | refreshRefused => exact h
  | appStats => exact inv_spawn h _
  | appStatsRefused => exact h
  | locked hn batch => exact inv_add h hn rfl batch
  | added hn numbers => exact inv_addEnds h hn rfl numbers
  | removed hn =>
    refine inv_removal (s := s.detach _) h.entry hn rfl (fun e he =>
      h.accounted e (List.mem_filter.mp he).1) (fun he => ?_)
    simpa using (List.mem_filter.mp he).2
  | removalRaises hn =>
    refine inv_removal (s := s.leave _ _) h.entry hn rfl
      (fun e he => (h.accounted e he).imp_right (Or.imp_right (List.mem_append_right _))) (fun _ => ?_)
    simp [State.leave]
  | cancelledWaiting hn => exact inv_finish h hn (fun rest hrem => by cases hrem)
  | cancelledRemoving hn =>
    refine inv_finish ⟨h.entry,fun e he =>
      (h.accounted e he).imp_right (Or.imp_right (List.mem_append_right _))⟩ hn ?_
    rintro rest hrem number hmem
    obtain rfl := Pc.removing.inj hrem
    exact List.mem_append_left _ (List.mem_map.mpr ⟨number,hmem,rfl⟩)
  | detached e => exact ⟨h.entry,fun e he => h.accounted e (List.mem_filter.mp he).1⟩

theorem inv_initial : Inv {} where
  entry := {
    runtime := fun _ hg => by cases hg
    current := fun hstate => absurd rfl hstate
    old := fun _ hg => absurd hg List.not_mem_nil }
  accounted _ he := absurd he List.not_mem_nil

theorem inv_of_reachable (h : additions.Reachable s) : Inv s := by
  refine System.Reach.invariant (I := Inv) ?_ (fun hi _ hs => inv_step hi hs) h
  rintro s rfl
  exact inv_initial

theorem not_unloaded_of_live (h : EntryInv entry) (hl : entry.Live g) : g ∉ entry.unloaded := by
  obtain ⟨rfl,hloaded⟩ := h.runtime g hl.1
  exact h.current hloaded

/-- The task adds entities of the coordinator. -/
def Adding (T : TaskTable Addition) (n g : ℕ) : Prop := ∃ path batch, T.get n = some ⟨g,path,.adding batch⟩

theorem adding_remove {m : ℕ} (h : Adding (s.remove n a numbers).tasks m g) : Adding s.tasks m g := by
  obtain ⟨path,batch,hm⟩ := h
  cases numbers with
  | nil =>
    rcases TaskTable.get_set_cases hm with ⟨_,hnone⟩ | ⟨_,hold⟩
    · cases hnone
    · exact ⟨path,batch,hold⟩
  | cons number rest =>
    rcases TaskTable.get_set_cases hm with ⟨_,hrem⟩ | ⟨_,hold⟩
    · cases hrem
    · exact ⟨path,batch,hold⟩

theorem adding_finish {m : ℕ} (h : Adding (s.finish n a).tasks m g) : Adding s.tasks m g :=
    @adding_remove s a n g [] m h

theorem adding_add {m : ℕ} {batch : List ℕ} (h : Adding (s.add n a batch).tasks m g) :
    Adding s.tasks m g ∨ s.entry.serves g = true := by
  unfold State.add at h
  split at h
  · rename_i hserves
    rw [Bool.and_eq_true] at hserves
    obtain ⟨path,batch',hm⟩ := h
    rcases TaskTable.get_set_cases hm with ⟨_,hnew⟩ | ⟨_,hold⟩
    · obtain rfl : a.coordinator = g := congrArg Addition.coordinator (Option.some.inj hnew)
      exact Or.inr hserves.1
    · exact Or.inl ⟨path,batch',hold⟩
  · exact Or.inl (adding_finish h)

/-- An addition starts only for a coordinator whose platform is live. -/
theorem adding_step {event : Event} (hs : s.step event = some t) (h : Adding t.tasks n g) :
    Adding s.tasks n g ∨ s.entry.serves g = true := by
  cases State.steps_of_step hs with
  | entry => exact Or.inl h
  | refresh =>
    obtain ⟨path,batch,hn⟩ := h
    rcases TaskTable.get_spawn_cases hn with ⟨_,hnew⟩ | hold
    · cases hnew
    · exact Or.inl ⟨path,batch,hold⟩
  | refreshRefused => exact Or.inl h
  | @appStats coordinator batch hserves =>
    obtain ⟨path,batch',hn⟩ := h
    rcases TaskTable.get_spawn_cases hn with ⟨_,hnew⟩ | hold
    · obtain rfl : g = coordinator := congrArg Addition.coordinator hnew
      exact Or.inr hserves
    · exact Or.inl ⟨path,batch',hold⟩
  | appStatsRefused => exact Or.inl h
  | locked => exact adding_add h
  | added => exact Or.inl (adding_remove (s := s.attach _ _) h)
  | removed => exact Or.inl (adding_remove (s := s.detach _) h)
  | removalRaises => exact Or.inl (adding_remove (s := s.leave _ _) h)
  | cancelledWaiting => exact Or.inl (adding_finish h)
  | cancelledRemoving => exact Or.inl (adding_finish (s := s.leave _ _) h)
  | detached => exact Or.inl h

end Steps

/-- After the unload of its coordinator has completed, an entity is attached only while an addition is about to
remove it or if its removal was given up, and no addition of the coordinator starts. -/
theorem removing_of_unloaded {s : State} (h : additions.Reachable s) :
    (∀ e ∈ s.attached, e.coordinator ∈ s.entry.unloaded → Removing s.tasks e ∨ e ∈ s.left) ∧
      ∀ event t, s.step event = some t → ∀ n, ∀ g ∈ s.entry.unloaded, Adding t.tasks n g → Adding s.tasks n g := by
  have hinv := inv_of_reachable h
  refine ⟨fun e he hunloaded => ?_,fun event t hs n g hunloaded hadding => ?_⟩
  · rcases hinv.accounted e he with hlive | hrest
    · exact absurd hunloaded (not_unloaded_of_live hinv.entry hlive)
    · exact hrest
  · rcases adding_step hs hadding with hold | hserves
    · exact hold
    · exact absurd hunloaded (not_unloaded_of_live hinv.entry (live_of_serves hserves))

def inFlight : List Event :=
  [.entry .create,.entry .store,.entry .setUp,.refresh 1,.locked 0 [1,2],.entry .unload,.entry .reset,.entry .clear,
    .entry .unloadEnds,.added 0 [1,2]]

theorem removing_of_unloaded_inFlight : ∃ s : State, (⟨1,2⟩ ∈ s.attached ∧ 1 ∈ s.entry.unloaded) ∧
    (∀ e ∈ s.attached, e.coordinator ∈ s.entry.unloaded → Removing s.tasks e ∨ e ∈ s.left) ∧
      ∀ event t, s.step event = some t → ∀ n, ∀ g ∈ s.entry.unloaded, Adding t.tasks n g → Adding s.tasks n g := by
  obtain ⟨s,hs,hp⟩ := System.exists_reach_of_run additions (fun _ _ => True) (s := {}) rfl inFlight
    (fun s => ⟨1,2⟩ ∈ s.attached ∧ 1 ∈ s.entry.unloaded) (by decide)
  exact ⟨s,hp,removing_of_unloaded hs⟩

/-- The entities are attached behind the unload, and one whose removal raises stays when the addition has ended. -/
theorem attached_after_unload :
    (¬ ∀ s, additions.Reachable s → ∀ e ∈ s.attached, e.coordinator ∉ s.entry.unloaded) ∧
      ∃ s, additions.Reachable s ∧ ⟨1,1⟩ ∈ s.attached ∧ 1 ∈ s.entry.unloaded ∧ s.tasks.get 0 = none := by
  constructor
  · intro hall
    obtain ⟨s,hs,hmem,hunloaded⟩ := System.exists_reach_of_run additions (fun _ _ => True) (s := {}) rfl inFlight
      (fun s => ⟨1,2⟩ ∈ s.attached ∧ 1 ∈ s.entry.unloaded) (by decide)
    exact hall s hs _ hmem hunloaded
  · exact System.exists_reach_of_run additions (fun _ _ => True) (s := {}) rfl
      (inFlight ++ [.removalRaises 0,.removed 0])
      (fun s => ⟨1,1⟩ ∈ s.attached ∧ 1 ∈ s.entry.unloaded ∧ s.tasks.get 0 = none) (by decide)

end TruenasCE.Discovery
