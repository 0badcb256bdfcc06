import TruenasCE.Library.Cells
import TruenasCE.Library.Transition

/-! # Poll and push refreshes of the pushed sources

Each `get_..` of a poll and each `_on_.._push` runs in a task of its own and replaces
one key of `ds` by the answer to a request. All sources but the alerts refresh under
`refresh_lock` on both paths.
-/
namespace TruenasCE.Push
open Library

/-- The keys of `ds` with a push subscription. -/
inductive DataSource
  | service
  | pool
  | vm
  | container
  | cloudsync
  | replication
  | rsynctask
  | app
  | alerts
  deriving DecidableEq, Repr

/-- `ds[key] = await state.get_..()` -/
def queryDs : List CellOp := [.request,.land]

def refreshService : List CellOp := queryDs
def refreshPool : List CellOp := queryDs
def refreshVm : List CellOp := queryDs
def refreshContainer : List CellOp := queryDs
def refreshCloudsync : List CellOp := queryDs
def refreshReplication : List CellOp := queryDs
def refreshRsync : List CellOp := queryDs
def refreshAlerts : List CellOp := queryDs

/-- The update jobs are tracked behind the query; `ds["app"]` is edited in place there. -/
def refreshApp : List CellOp := queryDs ++ [.pause]

def refreshLocked (refresh : List CellOp) : List CellOp := .acquire :: (refresh ++ [.release])

/-- A refresh and `_ensure_push_subscription` behind it. -/
def getLocked (refresh : List CellOp) : List CellOp := refreshLocked refresh ++ [.pause]

/-- Without its monitored group a source is emptied and its subscription stopped. -/
def getMonitored (monitored : Bool) (refresh : List CellOp) : List CellOp :=
  if monitored then getLocked refresh else [.clear,.pause]

def getService : List CellOp := getLocked refreshService
def getPool : List CellOp := getLocked refreshPool
def getApp : List CellOp := getLocked refreshApp
def getVm (monitored : Bool) : List CellOp := getMonitored monitored refreshVm
def getContainer (monitored : Bool) : List CellOp := getMonitored monitored refreshContainer
def getCloudsync (monitored : Bool) : List CellOp := getMonitored monitored refreshCloudsync
def getReplication (monitored : Bool) : List CellOp := getMonitored monitored refreshReplication
def getRsync (monitored : Bool) : List CellOp := getMonitored monitored refreshRsync

/-- The alerts refresh takes no lock, on either path. -/
def getAlerts : List CellOp := refreshAlerts ++ [.pause]
def onAlertsPush : List CellOp := refreshAlerts

def onServicePush : List CellOp := refreshLocked refreshService
def asyncRefreshPools : List CellOp := refreshLocked refreshPool
def onPoolPush : List CellOp := asyncRefreshPools
def onVmPush : List CellOp := refreshLocked refreshVm
def onContainerPush : List CellOp := refreshLocked refreshContainer
def onCloudsyncPush : List CellOp := refreshLocked refreshCloudsync
def onReplicationPush : List CellOp := refreshLocked refreshReplication
def onRsyncPush : List CellOp := refreshLocked refreshRsync
def onAppPush : List CellOp := refreshLocked refreshApp

/-- What starts a refresh; the scrub buttons call `async_refresh_pools` directly. -/
inductive Trigger
  | poll (source : DataSource) (monitored : Bool)
  | push (source : DataSource)
  | scrubButton
  deriving DecidableEq, Repr

def Trigger.source : Trigger → DataSource
  | .poll source _ => source
  | .push source => source
  | .scrubButton => .pool

def Trigger.program : Trigger → List CellOp
  | .poll .service _ => getService
  | .poll .pool _ => getPool
  | .poll .vm monitored => getVm monitored
  | .poll .container monitored => getContainer monitored
  | .poll .cloudsync monitored => getCloudsync monitored
  | .poll .replication monitored => getReplication monitored
  | .poll .rsynctask monitored => getRsync monitored
  | .poll .app _ => getApp
  | .poll .alerts _ => getAlerts
  | .push .service => onServicePush
  | .push .pool => onPoolPush
  | .push .vm => onVmPush
  | .push .container => onContainerPush
  | .push .cloudsync => onCloudsyncPush
  | .push .replication => onReplicationPush
  | .push .rsynctask => onRsyncPush
  | .push .app => onAppPush
  | .push .alerts => onAlertsPush
  | .scrubButton => asyncRefreshPools

theorem Trigger.prompt_program (trigger : Trigger) : prompt trigger.program = true := by
  cases trigger with
  | poll source monitored => cases source <;> cases monitored <;> rfl
  | push source => cases source <;> rfl
  | scrubButton => rfl

theorem Trigger.locked_program {trigger : Trigger} (h : trigger.source ≠ .alerts) :
    locked false trigger.program = true := by
  cases trigger with
  | poll source monitored =>
    cases source with
    | alerts => exact absurd rfl h
    | _ => cases monitored <;> rfl
  | push source =>
    cases source with
    | alerts => exact absurd rfl h
    | _ => rfl
  | scrubButton => rfl

inductive RefreshAction
  | start (trigger : Trigger)
  | advance (n : ℕ) (ok : Bool)
  | abort (n : ℕ)
  deriving DecidableEq, Repr

def refreshStep (s : Cells DataSource) : RefreshAction → Option (Cells DataSource)
  | .start trigger => some (s.spawn trigger.source trigger.program)
  | .advance n ok => s.advance n ok
  | .abort n => some (s.abort n)

def refreshSystem : System (Cells DataSource) RefreshAction where
  init s := s = Cells.initial
  step := refreshStep

/-- The condition on a step: an alerts answer lands only when no earlier alerts request is
still unanswered. -/
def AlertsInOrder (s : Cells DataSource) : RefreshAction → Prop
  | .advance n _ => ∀ j ∈ s.jobs.get n, j.cell = .alerts → s.InOrder n
  | _ => True

instance (s : Cells DataSource) (a : RefreshAction) : Decidable (AlertsInOrder s a) := by
  unfold AlertsInOrder
  split <;> infer_instance

section Steps
variable {s t : Cells DataSource} {a : RefreshAction} {source : DataSource}

theorem guarded_step (hs : source ≠ .alerts) (h : s.Guarded source) (hst : refreshStep s a = some t) :
    t.Guarded source := by
  cases a with
  | start trigger =>
    cases hst
    exact h.spawn (fun he => trigger.locked_program (he ▸ hs))
  | advance n ok => exact h.moves (.of_advance hst)
  | abort n =>
    cases hst
    exact h.abort n

theorem ordered_step (h : s.Ordered source)
    (ho : ∀ n ok, a = .advance n ok → ∀ j ∈ s.jobs.get n, j.cell = source → s.InOrder n)
    (hst : refreshStep s a = some t) : t.Ordered source ∧ NotOlder (s.published source) (t.published source) := by
  cases a with
  | start trigger =>
    cases hst
    exact ⟨h.spawn trigger.prompt_program,NotOlder.of_eq rfl⟩
  | advance n ok => exact h.moves (ho n ok rfl) (.of_advance hst)
  | abort n =>
    cases hst
    exact ⟨h.drop rfl rfl rfl rfl,NotOlder.of_eq rfl⟩

theorem inOrder_of_guarded (h : s.Guarded source) (n : ℕ) (ok : Bool) (_ : a = .advance n ok) :
    ∀ j ∈ s.jobs.get n, j.cell = source → s.InOrder n := fun _ hj hc => h.inOrder hj hc

end Steps

/-- The invariant of a locked source along every run. -/
theorem guarded_of_reach {ok : Cells DataSource → RefreshAction → Prop} {s : Cells DataSource}
    (h : refreshSystem.Reach ok s) {source : DataSource} (hs : source ≠ .alerts) :
    s.Guarded source ∧ s.Ordered source := by
  refine h.invariant (I := fun s => s.Guarded source ∧ s.Ordered source) (fun s hi => ?_) (fun hi _ hst => ?_)
  · cases hi
    exact ⟨Cells.Guarded.initial _,Cells.Ordered.initial _⟩
  · exact ⟨guarded_step hs hi.1 hst,(ordered_step hi.2 (inOrder_of_guarded hi.1) hst).1⟩

theorem alerts_ordered_of_reach {s : Cells DataSource} (h : refreshSystem.Reach AlertsInOrder s) :
    s.Ordered .alerts := by
  refine h.invariant (I := fun s => s.Ordered .alerts) (fun s hi => ?_) (fun hi hg hst => ?_)
  · cases hi
    exact Cells.Ordered.initial _
  · refine (ordered_step hi ?_ hst).1
    rintro n ok rfl
    exact hg

/-- The condition on the runs of a source; there is none for a source other than the alerts. -/
def LandsInOrder (source : DataSource) (s : Cells DataSource) (a : RefreshAction) : Prop :=
  source = .alerts → AlertsInOrder s a

/-- No step replaces a snapshot of the source by an earlier requested one, in every run whose
steps meet the condition of the source. -/
theorem notOlder_of_reach (source : DataSource) {s t : Cells DataSource} {a : RefreshAction}
    (hr : refreshSystem.Reach (LandsInOrder source) s) (ha : LandsInOrder source s a)
    (hst : refreshSystem.step s a = some t) :
    NotOlder (s.published source) (t.published source) := by
  by_cases hs : source = .alerts
  · subst hs
    have horder : refreshSystem.Reach AlertsInOrder s := hr.mono (fun _ _ h => h rfl)
    refine (ordered_step (alerts_ordered_of_reach horder) ?_ hst).2
    rintro n ok rfl
    exact ha rfl
  · obtain ⟨hg,ho⟩ := guarded_of_reach hr hs
    exact (ordered_step ho (inOrder_of_guarded hg) hst).2

/-- Two overlapping alerts refreshes whose answers arrive in the order of the requests. -/
theorem notOlder_of_reach_alerts : ∃ s t, (refreshSystem.Reach AlertsInOrder s ∧
    refreshSystem.step s (.advance 1 true) = some t ∧ s.published .alerts = some 0 ∧ t.published .alerts = some 1) ∧
    NotOlder (s.published .alerts) (t.published .alerts) := by
  obtain ⟨s,hr,hs,hg,ht⟩ := refreshSystem.exists_reach_of_run AlertsInOrder rfl
    ([.start (.poll .alerts true),.advance 0 true,.start (.push .alerts),.advance 1 true,.advance 0 true])
    (fun s => s.published .alerts = some 0 ∧ AlertsInOrder s (.advance 1 true) ∧
      (refreshSystem.step s (.advance 1 true)).any (fun t => decide (t.published .alerts = some 1)) = true) (by decide)
  obtain ⟨t,hst,hp⟩ := (Option.any_eq_true _ _).mp ht
  refine ⟨s,t,⟨hr,hst,hs,of_decide_eq_true hp⟩,?_⟩
  exact notOlder_of_reach .alerts (hr.mono (fun _ _ h _ => h)) (fun _ => hg) hst

/-- A push refresh of the alerts overtakes a poll, whose answer then lands last. -/
theorem older_alerts_land_last : ¬ ∀ s a t, refreshSystem.Reachable s → refreshSystem.step s a = some t →
    ∀ source, NotOlder (s.published source) (t.published source) := by
  intro hall
  obtain ⟨s,hr,hs,ht⟩ := refreshSystem.exists_reach_of_run (fun _ _ => True) rfl
    ([.start (.poll .alerts true),.advance 0 true,.start (.push .alerts),.advance 1 true,.advance 1 true])
    (fun s => s.published .alerts = some 1 ∧
      (refreshSystem.step s (.advance 0 true)).any (fun t => decide (t.published .alerts = some 0)) = true) (by decide)
  obtain ⟨t,hst,hp⟩ := (Option.any_eq_true _ _).mp ht
  exact absurd (hall s _ t hr hst .alerts 1 hs 0 (of_decide_eq_true hp)) (by decide)

end TruenasCE.Push
