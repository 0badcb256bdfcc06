import TruenasCE.AppUpdate.Frame

/-! # Restarts after a failed upgrade and newer upgrades of the same app

A late watch decides once, when its job is over, whether a newer upgrade replaced
the job, and then awaits two answers before it sends `app.start`. No newer upgrade is
overtaken along every run in which that decision reads the published row and no newer
job starts to be tracked behind it.
-/
namespace TruenasCE.AppUpdate
open Library

def Event.startsWatch (n : ℕ) : Event → Bool
  | .watchStarted m _ _ _ => m == n
  | _ => false

/-- The job of `uid` that the event returns to an install, or whose tracking it ends. -/
def Event.upgradeOf (uid : Uid) : Event → Option JobId
  | .upgraded u k => if u = uid then some k else none
  | .ended u k => if u = uid then some k else none
  | _ => none

/-- The jobs of `uid` that were returned to an install, or ended, since watch `n` was started; the history
begins with its newest event. -/
def upgradesSince (n : ℕ) (uid : Uid) (log : List Event) : List JobId :=
  (log.takeWhile (fun e => !e.startsWatch n)).filterMap (Event.upgradeOf uid)

section UpgradesSince
variable {n : ℕ} {uid : Uid} {k : JobId} {log es : List Event} {e : Event}

theorem mem_upgradesSince_cons (h : k ∈ upgradesSince n uid (e :: log)) :
    e.upgradeOf uid = some k ∨ k ∈ upgradesSince n uid log := by
  unfold upgradesSince at h
  rw [List.takeWhile_cons] at h
  split at h
  · rw [List.filterMap_cons] at h
    split at h
    · exact Or.inr h
    · rcases List.mem_cons.mp h with rfl | h
      · exact Or.inl ‹_›
      · exact Or.inr h
  · simp at h

theorem Event.upgradeOf_of_quiet (he : e.Quiet) : e.upgradeOf uid = none := by
  cases e with
  | upgraded u k => exact he.elim
  | ended u k => exact he.elim
  | _ => rfl

theorem mem_upgradesSince_append (he : ∀ e ∈ es, e.upgradeOf uid = none) (h : k ∈ upgradesSince n uid (es ++ log)) :
    k ∈ upgradesSince n uid log := by
  induction es with
  | nil => exact h
  | cons e es ih =>
    have hk := (mem_upgradesSince_cons h).resolve_left (by simp [he e List.mem_cons_self])
    exact ih (fun x hx => he x (List.mem_cons_of_mem _ hx)) hk

theorem upgradesSince_started (u : Uid) (job : JobId) (restart : Bool) :
    upgradesSince n uid (.watchStarted n u job restart :: log) = [] := by
  simp [upgradesSince,Event.startsWatch]

end UpgradesSince

/-- `update_ended_jobid` of the published row. -/
def State.endedJob (s : State) (uid : Uid) : Option JobId := s.published Tracking.updateEndedJobid uid

/-- A newer upgrade of the app than `job` is tracked in the published row or in that of the entity, or was returned to
an install or has ended since watch `n` was started. -/
def Newer (s : State) (n : ℕ) (entity : Entity) (job : JobId) : Prop :=
  (∃ k ∈ s.tracked entity.uid, job < k) ∨ (∃ k ∈ (s.dataJob entity).updateJobid, job < k) ∨
    ∃ k ∈ upgradesSince n entity.uid s.log, job < k

instance (s : State) (n : ℕ) (entity : Entity) (job : JobId) : Decidable (Newer s n entity job) :=
  inferInstanceAs (Decidable ((∃ k ∈ s.tracked entity.uid, job < k) ∨
    (∃ k ∈ (s.dataJob entity).updateJobid, job < k) ∨ ∃ k ∈ upgradesSince n entity.uid s.log, job < k))

/-- The published row names a newer job than `job`, tracked or ended. -/
def NamesNewer (s : State) (uid : Uid) (job : JobId) : Prop :=
  (∃ k ∈ s.tracked uid, job < k) ∨ ∃ k ∈ s.endedJob uid, job < k

instance (s : State) (uid : Uid) (job : JobId) : Decidable (NamesNewer s uid job) :=
  inferInstanceAs (Decidable ((∃ k ∈ s.tracked uid, job < k) ∨ ∃ k ∈ s.endedJob uid, job < k))

/-- Suspension points of a watch at which it has yet to find out whether it is superseded
by an ended job. -/
def WatchPc.undecided : WatchPc → Bool
  | .waiting _ => true
  | .resolving none => true
  | _ => false

/-- Suspension points behind the check for a newer tracked job. -/
def WatchPc.passed : WatchPc → Bool
  | .resolving none => true
  | .inspecting => true
  | _ => false

/-- A restarting watch of an older job of `uid` than `k` is past its check. -/
def Task.Overtaken (uid : Uid) (k : JobId) : Task → Prop
  | .watch e job restart pc => e.uid = uid ∧ restart = true ∧ pc.passed = true ∧ job < k
  | _ => False

instance (uid : Uid) (k : JobId) : (task : Task) → Decidable (task.Overtaken uid k)
  | .install _ _ => inferInstanceAs (Decidable False)
  | .watch e job restart pc => inferInstanceAs (Decidable (e.uid = uid ∧ restart = true ∧ pc.passed = true ∧ job < k))

/-- `k` may start to be tracked: it is newer than the jobs that the row names, and no restarting watch of an
older job is past its check. -/
def MayTrack (s : State) (uid : Uid) (k : JobId) : Prop :=
  (∀ n < s.tasks.next, ∀ task ∈ s.tasks.get n, ¬ task.Overtaken uid k) ∧ (∀ e ∈ s.endedJob uid, e < k) ∧
    ∀ j ∈ s.tracked uid, j ≤ k

instance (s : State) (uid : Uid) (k : JobId) : Decidable (MayTrack s uid k) :=
  inferInstanceAs (Decidable ((∀ n < s.tasks.next, ∀ task ∈ s.tasks.get n, ¬ task.Overtaken uid k) ∧
    (∀ e ∈ s.endedJob uid, e < k) ∧ ∀ j ∈ s.tracked uid, j ≤ k))

/-- A publication keeps the row in which a restarting watch still has to read of a newer job. -/
def Task.KeepsRow (s : State) (listing : List (Uid × AppState)) : Task → Prop
  | .watch e job restart pc => restart = true → pc.undecided = true →
      NamesNewer s e.uid job → (listing.lookup e.uid).isSome = true
  | _ => True

instance (s : State) (listing : List (Uid × AppState)) : (task : Task) → Decidable (task.KeepsRow s listing)
  | .install _ _ => inferInstanceAs (Decidable True)
  | .watch e job restart pc => inferInstanceAs (Decidable (restart = true → pc.undecided = true →
      NamesNewer s e.uid job → (listing.lookup e.uid).isSome = true))

/-- A restarting watch reads what is published, or nothing newer is there to be read. -/
def Task.ReadsCurrent (s : State) (n : ℕ) : Task → Prop
  | .watch e job restart pc => restart = true → pc.undecided = true →
      s.data e = .row s.gen ∨ ¬ Newer s n e job
  | _ => True

instance (s : State) (n : ℕ) : (task : Task) → Decidable (task.ReadsCurrent s n)
  | .install _ _ => inferInstanceAs (Decidable True)
  | .watch e job restart pc => inferInstanceAs (Decidable (restart = true → pc.undecided = true →
      s.data e = .row s.gen ∨ ¬ Newer s n e job))

/-- The condition on a step: a watch decides on the published row, every job that `app.upgrade` returns gets into that
row, no newer job starts to be tracked behind the check of a watch, jobs of an app are tracked in increasing order, and
an app is not unlisted before its watch has read of a newer job. -/
def KeepsOrder (s : State) : Action → Prop
  | .upgradeAnswer n =>
    match s.tasks.get n with
    | some (.install entity (.upgrading (some job))) =>
      s.data entity = .row s.gen ∧ (s.app entity.uid).isSome = true ∧ MayTrack s entity.uid job
    | _ => True
  | .scanAnswer (some jobs) => ∀ job ∈ jobs, ∀ uid ∈ upgradeJobApp job, ∀ k ∈ job.id,
      firstUpgrade jobs uid = some job → (s.app uid).isSome = true → s.tracked uid = none → MayTrack s uid k
  | .appsAnswer listing => ∀ n < s.tasks.next, ∀ task ∈ s.tasks.get n, task.KeepsRow s listing
  | .watchResume n => ∀ task ∈ s.tasks.get n, task.ReadsCurrent s n
  | .resolveAnswer n _ => ∀ task ∈ s.tasks.get n, task.ReadsCurrent s n
  | _ => True

instance (s : State) : (a : Action) → Decidable (KeepsOrder s a)
  | .upgradeAnswer n => by
    dsimp only [KeepsOrder]
    rcases s.tasks.get n with _ | ⟨_,(_ | _) | _ | _ | _ | _ | _ | _ | _ | _⟩ | _ <;> infer_instance
  | .scanAnswer none => inferInstanceAs (Decidable True)
  | .scanAnswer (some jobs) => inferInstanceAs (Decidable (∀ job ∈ jobs, ∀ uid ∈ upgradeJobApp job, ∀ k ∈ job.id,
      firstUpgrade jobs uid = some job → (s.app uid).isSome = true → s.tracked uid = none → MayTrack s uid k))
  | .appsAnswer listing =>
    inferInstanceAs (Decidable (∀ n < s.tasks.next, ∀ task ∈ s.tasks.get n, task.KeepsRow s listing))
  | .watchResume n => inferInstanceAs (Decidable (∀ task ∈ s.tasks.get n, task.ReadsCurrent s n))
  | .resolveAnswer n _ => inferInstanceAs (Decidable (∀ task ∈ s.tasks.get n, task.ReadsCurrent s n))
  | .refreshStart | .refreshAborted | .lookupAnswer _ | .entityCreated _ | .entityRemoved _ | .entityAdded _
  | .notifyEntity _ | .notifyWatch _ | .installCall _ | .jobCreated _ | .jobCreatedElsewhere _ | .upgradeFailed _
  | .wake _ _ | .pollAnswer _ _ _ | .refreshDone _ | .instanceAnswer _ _ | .startAnswer _ | .taskAborted _
  | .installEnd _ | .watchTimeout _ => inferInstanceAs (Decidable True)

/-- A step leaves the tracked and the ended job of `uid` alone, drops the row, starts to
track a job, or ends the tracked one. -/
inductive JobMove (s t : State) (uid : Uid) : Prop
  | same (ht : t.tracked uid = s.tracked uid) (he : t.endedJob uid = s.endedJob uid)
      (hl : ∀ n, ∀ k ∈ upgradesSince n uid t.log, k ∈ upgradesSince n uid s.log)
  | unlisted (ht : t.tracked uid = none)
      (hl : ∀ n, ∀ k ∈ upgradesSince n uid t.log, k ∈ upgradesSince n uid s.log)
      (hw : ∀ n entity job pc, s.tasks.get n = some (.watch entity job true pc) → entity.uid = uid →
        pc.undecided = true → ¬ NamesNewer s uid job)
  | tracks (k : JobId) (ht : t.tracked uid = some k) (he : t.endedJob uid = s.endedJob uid)
      (hl : ∀ n, ∀ x ∈ upgradesSince n uid t.log, x = k ∨ x ∈ upgradesSince n uid s.log) (hm : MayTrack s uid k)
  | ends (k : JobId) (hs : s.tracked uid = some k) (ht : t.tracked uid = none)
      (he : t.endedJob uid = some k) (hl : ∀ n, ∀ x ∈ upgradesSince n uid t.log, x = k ∨ x ∈ upgradesSince n uid s.log)

namespace JobMove
variable {s t u : State} {uid : Uid}

theorem of_app (ha : t.app uid = s.app uid)
    (hl : ∃ es, t.log = es ++ s.log ∧ ∀ e ∈ es, e.upgradeOf uid = none) : JobMove s t uid := by
  obtain ⟨es,hes,hq⟩ := hl
  refine .same (by simp [State.tracked,ha]) (by simp [State.endedJob,State.published,ha]) (fun n k hk => ?_)
  rw [hes] at hk
  exact mem_upgradesSince_append hq hk

theorem frame (h : JobMove s t uid) (hf : Frame t u) : JobMove s u uid := by
  obtain ⟨es,hes,hq⟩ := hf.log
  have htr : u.tracked uid = t.tracked uid := by rw [hf.tracked]
  have hen : u.endedJob uid = t.endedJob uid := by simp [State.endedJob,State.published,hf.app]
  have hlog : ∀ n, ∀ k ∈ upgradesSince n uid u.log, k ∈ upgradesSince n uid t.log := fun n k hk =>
    mem_upgradesSince_append (fun e he => Event.upgradeOf_of_quiet (hq e he)) (hes ▸ hk)
  cases h with
  | same ht he hl => exact .same (htr.trans ht) (hen.trans he) (fun n k hk => hl n k (hlog n k hk))
  | unlisted ht hl hw => exact .unlisted (htr.trans ht) (fun n k hk => hl n k (hlog n k hk)) hw
  | tracks k ht he hl hm => exact .tracks k (htr.trans ht) (hen.trans he) (fun n x hx => hl n x (hlog n x hx)) hm
  | ends k hs ht he hl =>
    exact .ends k hs (htr.trans ht) (hen.trans he) (fun n x hx => hl n x (hlog n x hx))

theorem watchAdopted {b : State} (ha : b.app = s.app) (hl : b.log = s.log) (u : Entity) (uid : Uid) :
    JobMove s (b.watchAdoptedUpgrade u) uid := by
  obtain ⟨es,hes,hq⟩ := b.log_watchAdoptedUpgrade u
  have ht : (b.watchAdoptedUpgrade u).tracked = b.tracked := b.tracked_watchAdoptedUpgrade u
  refine .same (by rw [ht]; simp [State.tracked,ha]) ?_ (fun n k hk => ?_)
  · unfold State.endedJob State.published
    rcases b.app_watchAdoptedUpgrade u uid with h | h
    · rw [h,ha]
    · cases hr : s.app uid <;> simp [h,ha,hr,clearAdopted]
  · refine mem_upgradesSince_append (fun e he => ?_) (hl ▸ hes ▸ hk)
    obtain ⟨job,rfl⟩ := hq e he
    rfl

theorem publish {listing : List (Uid × AppState)} (hk : KeepsOrder s (.appsAnswer listing)) (uid : Uid) :
    JobMove s (s.publish listing) uid := by
  have ht : (s.publish listing).tracked uid = if (listing.lookup uid).isSome then s.tracked uid else none :=
    s.published_publish rfl listing uid
  have he : (s.publish listing).endedJob uid = if (listing.lookup uid).isSome then s.endedJob uid else none :=
    s.published_publish rfl listing uid
  by_cases hl : (listing.lookup uid).isSome = true
  · exact .same (by simpa [hl] using ht) (by simpa [hl] using he) (fun _ _ hk => hk)
  · refine .unlisted (by simpa [hl] using ht) (fun _ _ hk => hk) (fun n entity job pc hn hu hpc hnames => hl ?_)
    subst hu
    exact hk n (TaskTable.lt_next hn) _ hn rfl hpc hnames

theorem adopt {jobs : List JobRecord} (hk : KeepsOrder s (.scanAnswer (some jobs))) (uid : Uid) :
    JobMove s (s.adoptRunningJobs jobs) uid := by
  have hlog : ∀ n, ∀ k ∈ upgradesSince n uid (s.adoptRunningJobs jobs).log, k ∈ upgradesSince n uid s.log := by
    intro n k hk
    refine mem_upgradesSince_append (fun e he => ?_) hk
    obtain ⟨_,_,_,_,_,_,rfl⟩ := mem_scanReports he
    rfl
  have keep : ∀ {row}, s.app uid = some row → adoptedRow jobs uid row = row →
      JobMove s (s.adoptRunningJobs jobs) uid := by
    intro row hr ha
    refine .same ?_ ?_ hlog
    · simp [State.tracked,hr,ha]
    · simp [State.endedJob,State.published,hr,ha]
  cases hr : s.app uid with
  | none => exact .same (by simp [State.tracked,hr]) (by simp [State.endedJob,State.published,hr]) hlog
  | some row =>
    cases ht : row.job.updateJobid with
    | some k => exact keep hr (adoptedRow_of_tracked ht _ _)
    | none =>
      cases hf : firstUpgrade jobs uid with
      | none => exact keep hr (by simp [adoptedRow,ht,hf])
      | some job =>
        obtain ⟨hmem,hu⟩ := firstUpgrade_app hf
        obtain ⟨k,hid⟩ := id_of_upgradeJobApp hu
        have ha : adoptedRow jobs uid row = adoptRow job row := by simp [adoptedRow,ht,hf]
        refine .tracks k ?_ ?_ (fun n x hx => Or.inr (hlog n x hx)) (hk job hmem uid hu k hid hf (by simp [hr]) (by simp [State.tracked,hr,ht]))
        · simpa [State.tracked,hr,ha,adoptRow] using hid
        · simp [State.endedJob,State.published,hr,ha,adoptRow]

theorem refreshJob (s : State) (v : Uid) (k : JobId) (ans : LookupAnswer) (uid : Uid) :
    JobMove s (s.refreshAppUpdateJob v k ans).1 uid := by
  have hlog := s.log_refreshAppUpdateJob v k ans
  have happ := s.app_refreshAppUpdateJob v k ans uid
  by_cases hc : uid = v ∧ s.tracked v = some k
  · obtain ⟨rfl,ht⟩ := hc
    obtain ⟨row,hrow,hrk⟩ := Option.bind_eq_some_iff.mp ht
    rw [if_pos ⟨rfl,ht⟩,hrow,Option.map_some] at happ
    have ended : ∀ {r : Report}, ans.report = some r → r.Ends →
        (State.recordAnswer ans row.job).updateJobid = none →
        (State.recordAnswer ans row.job).updateEndedJobid = some k →
        JobMove s (s.refreshAppUpdateJob uid k ans).1 uid := by
      intro r hr he hj hend
      refine .ends k ht (by simp [State.tracked,happ,hj]) (by simp [State.endedJob,State.published,happ,hend]) ?_
      intro n x hx
      simp only [hlog,hr,ht,he,and_self,if_true] at hx
      rcases mem_upgradesSince_cons hx with hx | hx
      · exact Or.inl (by simpa [Event.upgradeOf,eq_comm] using hx)
      · exact Or.inr ((mem_upgradesSince_cons hx).resolve_left (by simp [Event.upgradeOf]))
    cases ans with
    | failed => exact of_app (by rw [happ,hrow]; rfl) ⟨[],rfl,by simp⟩
    | missing => exact ended rfl trivial rfl hrk
    | job j =>
      by_cases ha : j.state.Active
      · have hr : ¬ (s.tracked uid = some k ∧ (Report.state j.state).Ends) := fun h => h.2 ha
        refine .same ?_ ?_ (fun n x hx => ?_)
        · simp [State.tracked,happ,hrow,State.recordAnswer,ha]
        · simp [State.endedJob,State.published,happ,hrow,State.recordAnswer,ha]
        · simp only [hlog,LookupAnswer.report,if_neg hr] at hx
          exact (mem_upgradesSince_cons hx).resolve_left (by simp [Event.upgradeOf])
      · exact ended rfl ha (by simp [State.recordAnswer,ha]) (by simp [State.recordAnswer,ha,hrk])
  · rw [if_neg hc] at happ
    refine of_app happ ?_
    rw [hlog]
    cases ans.report with
    | none => exact ⟨[],rfl,by simp⟩
    | some r =>
      simp only
      split
      · rename_i h
        exact ⟨[.ended v k,.reported k r],rfl,by simpa [Event.upgradeOf] using fun hv => hc ⟨hv.symm,h.1⟩⟩
      · exact ⟨[.reported k r],rfl,by simp [Event.upgradeOf]⟩

theorem upgraded {n : ℕ} {entity : Entity} {job : JobId} (hd : s.data entity = .row s.gen)
    (hlisted : (s.app entity.uid).isSome = true) (hk : MayTrack s entity.uid job) (uid : Uid) :
    JobMove s (s.upgradeReturned n entity job) uid := by
  have happ := s.app_upgradeReturned n entity job uid
  have hlog := s.log_upgradeReturned n entity job
  by_cases hu : uid = entity.uid
  · subst hu
    obtain ⟨row,hr⟩ := Option.isSome_iff_exists.mp hlisted
    rw [if_pos ⟨hd,rfl⟩,hr,Option.map_some] at happ
    refine .tracks job (by simp [State.tracked,happ,storeUpgradeJob])
      (by simp [State.endedJob,State.published,happ,hr,storeUpgradeJob]) (fun m k hm => ?_) hk
    rw [hlog] at hm
    exact (mem_upgradesSince_cons hm).imp_left (fun h => by simpa [Event.upgradeOf,eq_comm] using h)
  · exact of_app (by rw [happ,if_neg (fun h => hu h.2)])
      ⟨[.upgraded entity.uid job],hlog,by simp [Event.upgradeOf,Ne.symm hu]⟩

theorem of_rowStep {a : Action} (hk : KeepsOrder s a) (h : RowStep s a t) (uid : Uid) : JobMove s t uid := by
  have quiet : ∀ {t : State}, t.app = s.app → t.log = s.log → JobMove s t uid :=
    fun ha hl => of_app (by rw [ha]) ⟨[],hl,by simp⟩
  cases h with
  | publish => exact (publish hk uid).frame (.setRefresh _ _)
  | adopt _ => exact (adopt hk uid).frame (.setRefresh _ _)
  | looked _ hf => exact (refreshJob s _ _ _ uid).frame hf
  | polled _ hf => exact (refreshJob s _ _ _ uid).frame hf
  | entityCreated _ => exact quiet rfl rfl
  | entityAdded _ => exact watchAdopted rfl rfl _ uid
  | @notifyEntity _ u _ => exact watchAdopted (s := s) (b := s.refreshData u) rfl rfl u uid
  | upgraded hn =>
    simp only [KeepsOrder,hn] at hk
    exact upgraded hk.1 hk.2.1 hk.2.2 uid
  | @installEnd n u _ => exact watchAdopted (s := s) (b := s.dropInstall n u) rfl rfl u uid
  | installCall _ => exact quiet rfl rfl
  | jobCreated _ => exact quiet rfl rfl
  | jobCreatedElsewhere => exact quiet rfl rfl
  | started _ _ => exact of_app rfl ⟨[_],rfl,by simp [Event.upgradeOf]⟩
  | frame _ hf => exact (quiet rfl rfl).frame hf

end JobMove

/-- An app's jobs are tracked in increasing order. -/
def Ordered (s : State) : Prop := ∀ uid, ∀ k ∈ s.tracked uid, ∀ e ∈ s.endedJob uid, e < k

theorem Ordered.move {s t : State} (h : Ordered s) (hm : ∀ uid, JobMove s t uid) : Ordered t := by
  intro uid k hk e he
  cases hm uid with
  | same ht hen _ => exact h uid k (ht ▸ hk) e (hen ▸ he)
  | unlisted ht _ _ => simp [ht] at hk
  | tracks k' ht hen _ hmay =>
    obtain rfl : k' = k := by simpa [ht] using hk
    exact hmay.2.1 e (hen ▸ he)
  | ends _ _ ht _ _ => simp [ht] at hk

/-- A step leaves the job that the entity's row tracks alone, or it is the one of the published row. -/
def OwnMove (s t : State) (entity : Entity) : Prop :=
  (t.dataJob entity).updateJobid = (s.dataJob entity).updateJobid ∨
    (t.dataJob entity).updateJobid = t.tracked entity.uid

namespace OwnMove
variable {s t u : State} {entity : Entity}

theorem frame (h : OwnMove s t entity) (hf : Frame t u) : OwnMove s u entity := by
  unfold OwnMove at h ⊢
  rwa [hf.dataJob,hf.tracked]

theorem of_maps (hd : t.data = s.data) (hm : ∀ g, g ≠ t.gen → t.maps g entity.uid = s.maps g entity.uid) :
    OwnMove s t entity := by
  by_cases hc : t.data entity = .row t.gen
  · exact Or.inr (t.published_of_current (f := Tracking.updateJobid) rfl hc).symm
  · refine Or.inl ?_
    unfold State.dataJob
    rw [hd] at hc ⊢
    cases hr : s.data entity with
    | detached v => rfl
    | row g =>
      have hg : g ≠ t.gen := fun he => hc (by rw [hr,he])
      simp only [hm g hg]

theorem writeData (e : Entity) {f : Tracking → Tracking} (hf : ∀ v, (f v).updateJobid = v.updateJobid) :
    ((s.writeData e f).dataJob entity).updateJobid = (s.dataJob entity).updateJobid := by
  unfold State.dataJob
  rw [State.data_writeData]
  cases he : s.data e with
  | row g =>
    cases hr : s.data entity with
    | detached v => rfl
    | row g' =>
      simp only [State.maps_writeData]
      split
      · cases s.maps g' entity.uid <;> simp [hf]
      · rfl
  | detached v =>
    by_cases hx : entity = e
    · subst hx
      simp [he,hf]
    · cases hr : s.data entity <;> simp [hx,State.maps_writeData,he]

theorem watchAdopted (e : Entity) (h : OwnMove s t entity) : OwnMove s (t.watchAdoptedUpgrade e) entity := by
  have hj : ((t.watchAdoptedUpgrade e).dataJob entity).updateJobid = (t.dataJob entity).updateJobid := by
    unfold State.watchAdoptedUpgrade
    split
    · rfl
    split
    · rfl
    · exact writeData e (fun _ => rfl)
  unfold OwnMove at h ⊢
  rwa [hj,t.tracked_watchAdoptedUpgrade]

theorem refreshData (e : Entity) : OwnMove s (s.refreshData e) entity := by
  by_cases he : entity = e
  · subst he
    refine Or.inr ?_
    by_cases hl : (s.app entity.uid).isSome = true
    · have hc : (s.refreshData entity).data entity = .row (s.refreshData entity).gen := by
        simp [State.refreshData,hl]
      exact (State.published_of_current _ (f := Tracking.updateJobid) rfl hc).symm
    · have hnone : s.app entity.uid = none := by simpa using hl
      have ht : (s.refreshData entity).tracked entity.uid = none := by
        rw [show (s.refreshData entity).tracked entity.uid = s.tracked entity.uid from rfl]
        simp [State.tracked,hnone]
      rw [ht]
      simp [State.dataJob,State.refreshData,hnone]
  · refine Or.inl ?_
    simp [State.dataJob,State.refreshData,Function.update_of_ne he]

theorem of_rowStep {a : Action} (hk : KeepsOrder s a) (h : RowStep s a t) : OwnMove s t entity := by
  have same : ∀ {t : State}, t.dataJob = s.dataJob → OwnMove s t entity := fun hd => Or.inl (by rw [hd])
  cases h with
  | @publish listing r =>
    refine frame (t := s.publish listing) (of_maps rfl (fun g hg => ?_)) (.setRefresh _ _)
    have hg' : g ≠ s.gen+1 := hg
    simp [State.publish,hg']
  | @adopt jobs r _ =>
    refine frame (t := s.adoptRunningJobs jobs) (of_maps rfl (fun g hg => ?_)) (.setRefresh _ _)
    have hg' : g ≠ s.gen := hg
    simp [State.adoptRunningJobs,hg']
  | looked _ hf =>
    refine frame (of_maps (by simp) (fun g hg => ?_)) hf
    rw [State.maps_refreshAppUpdateJob,if_neg (fun h => hg (by simp [h.1]))]
  | polled _ hf =>
    refine frame (of_maps (by simp) (fun g hg => ?_)) hf
    rw [State.maps_refreshAppUpdateJob,if_neg (fun h => hg (by simp [h.1]))]
  | @entityCreated uid _ =>
    exact (refreshData (s := s) ⟨uid,s.made uid⟩ : OwnMove s (s.refreshData ⟨uid,s.made uid⟩) entity)
  | entityAdded _ => exact (same rfl).watchAdopted _
  | notifyEntity _ => exact (refreshData _).watchAdopted _
  | @upgraded n e job hn =>
    simp only [KeepsOrder,hn] at hk
    refine of_maps ?_ (fun g hg => ?_)
    · funext x
      simp [State.upgradeReturned,State.data_writeData,hk.1]
    · have hg' : g ≠ s.gen := by simpa [State.upgradeReturned] using hg
      simp [State.upgradeReturned,State.maps_writeData,hk.1,hg'.symm]
  | @installEnd n e _ => exact watchAdopted (t := s.dropInstall n e) e (same rfl)
  | installCall _ => exact same rfl
  | jobCreated _ => exact same rfl
  | jobCreatedElsewhere => exact same rfl
  | started _ _ => exact same rfl
  | frame _ hf => exact same hf.dataJob

end OwnMove

/-- A newer job that was returned to an install or ended since the watch was started is named in the published
row, or a newer one is. -/
def Covered (s : State) (n : ℕ) (uid : Uid) (job : JobId) : Prop :=
  ∀ k ∈ upgradesSince n uid s.log, job < k → NamesNewer s uid job

/-- No newer job is tracked in the published row nor in the one of the entity. -/
def NoneTracked (s : State) (entity : Entity) (job : JobId) : Prop :=
  (∀ k ∈ s.tracked entity.uid, ¬ job < k) ∧ ∀ k ∈ (s.dataJob entity).updateJobid, ¬ job < k

/-- What a suspended watch can rely on. -/
def Task.Unovertaken (s : State) (n : ℕ) : Task → Prop
  | .watch entity job restart (.waiting _) => restart = true → Covered s n entity.uid job
  | .watch entity job restart (.resolving none) =>
    restart = true ∧ Covered s n entity.uid job ∧ NoneTracked s entity job
  | .watch entity job restart .inspecting => restart = true ∧ ¬ Newer s n entity job
  | _ => True

section Move
variable {s t : State} {entity : Entity} {n : ℕ} {job : JobId} {pc : WatchPc}

theorem Covered.move (h : Covered s n entity.uid job) (ho : Ordered s) (hm : JobMove s t entity.uid)
    (hn : s.tasks.get n = some (.watch entity job true pc)) (hu : pc.undecided = true) :
    Covered t n entity.uid job := by
  intro k hk hlt
  cases hm with
  | same ht he hl =>
    have hnames := h k (hl n k hk) hlt
    unfold NamesNewer at hnames ⊢
    rwa [ht,he]
  | unlisted _ hl hw => exact absurd (h k (hl n k hk) hlt) (hw n entity job pc hn rfl hu)
  | tracks k' ht he hl hmay =>
    rcases hl n k hk with rfl | hold
    · exact Or.inl ⟨k,ht,hlt⟩
    · rcases h k hold hlt with ⟨j,hj,hjlt⟩ | ⟨e,hen,helt⟩
      · exact Or.inl ⟨k',ht,hjlt.trans_le (hmay.2.2 j hj)⟩
      · exact Or.inr ⟨e,he ▸ hen,helt⟩
  | ends k' hs ht he hl =>
    refine Or.inr ⟨k',he,?_⟩
    rcases hl n k hk with rfl | hold
    · exact hlt
    · rcases h k hold hlt with ⟨j,hj,hjlt⟩ | ⟨e,hen,helt⟩
      · obtain rfl : k' = j := Option.some.inj (hs.symm.trans hj)
        exact hjlt
      · exact helt.trans (ho entity.uid k' hs e hen)

theorem NoneTracked.move (h : NoneTracked s entity job) (hm : JobMove s t entity.uid) (how : OwnMove s t entity)
    (hn : s.tasks.get n = some (.watch entity job true pc)) (hp : pc.passed = true) : NoneTracked t entity job := by
  have ht : ∀ k ∈ t.tracked entity.uid, ¬ job < k := by
    intro k hk
    cases hm with
    | same ht _ _ => exact h.1 k (ht ▸ hk)
    | unlisted ht _ _ => simp [ht] at hk
    | tracks k' ht _ _ hmay =>
      obtain rfl : k' = k := by simpa [ht] using hk
      exact fun hlt => hmay.1 n (TaskTable.lt_next hn) _ hn ⟨rfl,rfl,hp,hlt⟩
    | ends _ _ ht _ _ => simp [ht] at hk
  refine ⟨ht,fun k hk => ?_⟩
  rcases how with hs | hs
  · exact h.2 k (hs ▸ hk)
  · exact ht k (hs ▸ hk)

theorem not_newer_iff : ¬ Newer s n entity job ↔
    NoneTracked s entity job ∧ ∀ k ∈ upgradesSince n entity.uid s.log, ¬ job < k := by
  unfold Newer NoneTracked
  constructor
  · intro h
    exact ⟨⟨fun k hk hlt => h (Or.inl ⟨k,hk,hlt⟩),fun k hk hlt => h (Or.inr (Or.inl ⟨k,hk,hlt⟩))⟩,
      fun k hk hlt => h (Or.inr (Or.inr ⟨k,hk,hlt⟩))⟩
  · rintro ⟨⟨ht,ho⟩,hl⟩ (⟨k,hk,hlt⟩ | ⟨k,hk,hlt⟩ | ⟨k,hk,hlt⟩)
    · exact ht k hk hlt
    · exact ho k hk hlt
    · exact hl k hk hlt

theorem notNewer_move (h : ¬ Newer s n entity job) (hm : JobMove s t entity.uid) (how : OwnMove s t entity)
    (hn : s.tasks.get n = some (.watch entity job true .inspecting)) : ¬ Newer t n entity job := by
  obtain ⟨htr,hen⟩ := not_newer_iff.mp h
  refine not_newer_iff.mpr ⟨htr.move hm how hn rfl,fun k hk hlt => ?_⟩
  cases hm with
  | same _ _ hl => exact hen k (hl n k hk) hlt
  | unlisted _ hl _ => exact hen k (hl n k hk) hlt
  | tracks k' _ _ hl hmay =>
    rcases hl n k hk with rfl | hold
    · exact hmay.1 n (TaskTable.lt_next hn) _ hn ⟨rfl,rfl,rfl,hlt⟩
    · exact hen k hold hlt
  | ends k' hs _ _ hl =>
    rcases hl n k hk with rfl | hold
    · exact htr.1 k hs hlt
    · exact hen k hold hlt

theorem Task.Unovertaken.move {task : Task} (h : task.Unovertaken s n) (ho : Ordered s)
    (hm : ∀ uid, JobMove s t uid) (how : ∀ entity, OwnMove s t entity) (hn : s.tasks.get n = some task) :
    task.Unovertaken t n := by
  cases task with
  | install entity pc => trivial
  | watch entity job restart pc =>
    cases pc with
    | waiting finished =>
      intro hr
      subst hr
      exact Covered.move (h rfl) ho (hm entity.uid) hn rfl
    | resolving skipped =>
      cases skipped with
      | some skipped => trivial
      | none =>
        obtain ⟨rfl,hc,htr⟩ := h
        exact ⟨rfl,hc.move ho (hm entity.uid) hn rfl,htr.move (hm entity.uid) (how entity) hn rfl⟩
    | inspecting =>
      obtain ⟨rfl,hnew⟩ := h
      exact ⟨rfl,notNewer_move hnew (hm entity.uid) (how entity) hn⟩
    | starting => trivial

theorem Newer.of_frame (hf : Frame s t) (h : Newer t n entity job) : Newer s n entity job := by
  obtain ⟨es,hes,hq⟩ := hf.log
  unfold Newer at h ⊢
  rw [hf.tracked,hf.dataJob] at h
  refine h.imp_right (Or.imp_right (fun ⟨k,hk,hlt⟩ => ⟨k,?_,hlt⟩))
  exact mem_upgradesSince_append (fun e he => Event.upgradeOf_of_quiet (hq e he)) (hes ▸ hk)

end Move

section Decisions
variable {s : State} {n : ℕ} {entity : Entity} {job : JobId} {restart : Bool}

theorem noneTracked_of_notSkipped (hr : s.data entity = .row s.gen ∨ ¬ Newer s n entity job)
    (hs : s.lateRestartSkipped entity job restart = some none) : NoneTracked s entity job := by
  have hown : ∀ k ∈ (s.dataJob entity).updateJobid, ¬ job < k := by
    intro k hk hlt
    have hk' : (s.dataJob entity).updateJobid = some k := hk
    have hne : k ≠ job := (ne_of_lt hlt).symm
    simp only [State.lateRestartSkipped,hk',ne_eq,reduceCtorEq,not_false_eq_true,Option.some.injEq,hne,and_self,
      if_true] at hs
    split at hs <;> cases hs
  rcases hr with hcur | hnew
  · have htr : s.tracked entity.uid = (s.dataJob entity).updateJobid :=
      s.published_of_current (f := Tracking.updateJobid) rfl hcur
    exact ⟨htr ▸ hown,hown⟩
  · exact (not_newer_iff.mp hnew).1

theorem notNewer_of_notEnded (hr : s.data entity = .row s.gen ∨ ¬ Newer s n entity job)
    (hc : Covered s n entity.uid job) (ht : NoneTracked s entity job)
    (he : s.newerEndedJob entity job = false) : ¬ Newer s n entity job := by
  rcases hr with hcur | hnew
  · refine not_newer_iff.mpr ⟨ht,fun k hk hlt => ?_⟩
    rcases hc k hk hlt with ⟨j,hj,hjlt⟩ | ⟨e,hen,helt⟩
    · exact ht.1 j hj hjlt
    · have hpub : s.endedJob entity.uid = (s.dataJob entity).updateEndedJobid :=
        s.published_of_current (f := Tracking.updateEndedJobid) rfl hcur
      rw [hpub] at hen
      have hen' : (s.dataJob entity).updateEndedJobid = some e := hen
      simp only [State.newerEndedJob,hen',Option.any_some,decide_eq_false_iff_not] at he
      exact he helt
  · exact hnew

end Decisions

theorem Task.unovertaken_returned {t : State} {n : ℕ} {task u : Task} (h : u ∈ task.returned) :
    u.Unovertaken t n := by
  cases task with
  | install entity pc =>
    cases h
    trivial
  | watch entity job restart pc => cases h

/-- The invariant of the runs under `KeepsOrder`. -/
structure Unovertaken (s : State) : Prop where
  ordered : Ordered s
  tasks : ∀ n task, s.tasks.get n = some task → task.Unovertaken s n

section Tasks
variable {s t : State}

theorem unovertaken_of_set {n : ℕ} {o : Option Task} (he : t.tasks = s.tasks.set n o)
    (keep : ∀ m task, s.tasks.get m = some task → task.Unovertaken t m) (ho : ∀ task ∈ o, task.Unovertaken t n) :
    ∀ m task, t.tasks.get m = some task → task.Unovertaken t m := by
  intro m task hn
  rw [he] at hn
  rcases TaskTable.get_set_cases hn with ⟨rfl,hu⟩ | ⟨_,hu⟩
  · exact ho task hu
  · exact keep m task hu

theorem unovertaken_of_spawn {x : Task} (he : t.tasks = s.tasks.spawn x)
    (keep : ∀ m task, s.tasks.get m = some task → task.Unovertaken t m) (hx : x.Unovertaken t s.tasks.next) :
    ∀ m task, t.tasks.get m = some task → task.Unovertaken t m := by
  intro m task hn
  rw [he] at hn
  rcases TaskTable.get_spawn_cases hn with ⟨rfl,rfl⟩ | hu
  · exact hx
  · exact keep m task hu

theorem unovertaken_afterPoll {n : ℕ} {entity : Entity} {job : JobId} {late : Bool}
    (keep : ∀ m task, s.tasks.get m = some task → task.Unovertaken (s.afterPoll n entity job late) m) :
    ∀ m task, (s.afterPoll n entity job late).tasks.get m = some task →
      task.Unovertaken (s.afterPoll n entity job late) m := by
  rcases s.afterPoll_cases n entity job late with ⟨pc,he,_⟩ | he
  · exact unovertaken_of_set (by rw [he,State.tasks_setTask]) keep (by simp [Task.Unovertaken])
  · intro m task hm
    rw [he] at keep hm ⊢
    rcases TaskTable.get_set_cases hm with ⟨_,hi⟩ | ⟨_,hi⟩
    · cases hi
      trivial
    rcases TaskTable.get_spawn_cases hi with ⟨rfl,rfl⟩ | hi
    · intro _ k hk
      have hnil : upgradesSince s.tasks.next entity.uid ((s.spawnWatch entity job true).setTask n
          (some (.install entity (.handedOver job)))).log = [] := upgradesSince_started entity.uid job true
      rw [hnil] at hk
      cases hk
    · exact keep m task hi

theorem unovertaken_watchAdopted {entity : Entity}
    (keep : ∀ m task, s.tasks.get m = some task → task.Unovertaken (s.watchAdoptedUpgrade entity) m) :
    ∀ m task, (s.watchAdoptedUpgrade entity).tasks.get m = some task →
      task.Unovertaken (s.watchAdoptedUpgrade entity) m := by
  rcases s.tasks_watchAdoptedUpgrade entity with htasks | ⟨job,finished,htasks⟩
  · exact fun m task hn => keep m task (htasks ▸ hn)
  · exact unovertaken_of_spawn htasks keep (fun hf => by cases hf)

end Tasks

theorem restart_of_notSkipped {s : State} {entity : Entity} {job : JobId} {restart : Bool}
    (h : s.lateRestartSkipped entity job restart = some none) :
    restart = true := by
  cases restart with
  | true => rfl
  | false =>
    unfold State.lateRestartSkipped at h
    simp only at h
    split at h
    · split at h <;> cases h
    · cases h

theorem Unovertaken.step {s t : State} {a : Action} (h : Unovertaken s) (hk : KeepsOrder s a)
    (hst : Step s a t) : Unovertaken t := by
  have hm : ∀ uid, JobMove s t uid := JobMove.of_rowStep hk hst.rowStep
  have how : ∀ entity, OwnMove s t entity := fun _ => OwnMove.of_rowStep hk hst.rowStep
  have keep : ∀ n task, s.tasks.get n = some task → task.Unovertaken t n :=
    fun n task hn => (h.tasks n task hn).move h.ordered hm how hn
  refine ⟨h.ordered.move hm,?_⟩
  cases hst with
  | refreshStart _ => exact keep
  | refreshAborted => exact keep
  | appsAnswer _ => exact keep
  | scanFailed => exact keep
  | scanAnswer _ => exact keep
  | lookupAnswer _ => exact fun n task hn => keep n task (by simpa using hn)
  | entityCreated _ => exact keep
  | entityRemoved => exact keep
  | entityAdded _ => exact unovertaken_watchAdopted keep
  | @notifyEntity _ entity _ => exact unovertaken_watchAdopted (s := s.refreshData entity) keep
  | @notifyWatch n entity job restart finished hn =>
    refine unovertaken_of_set rfl keep (fun task ht => ?_)
    cases ht
    exact fun hr => keep n _ hn hr
  | installCall _ => exact unovertaken_of_spawn rfl keep trivial
  | jobCreated _ => exact unovertaken_of_set rfl keep (by simp [Task.Unovertaken])
  | jobCreatedElsewhere => exact keep
  | upgradeFailed _ => exact unovertaken_of_set rfl keep (by simp [Task.Unovertaken])
  | @upgradeAnswer n entity job _ =>
    exact unovertaken_of_set (s.tasks_upgradeReturned n entity job) keep (by simp [Task.Unovertaken])
  | @wake n entity job late _ =>
    rcases s.pollUpgradeJob_cases n entity job late with ⟨pc,he,_⟩ | he
    · exact unovertaken_of_set (by rw [he,State.tasks_setTask]) keep (by simp [Task.Unovertaken])
    · rw [he] at keep ⊢
      exact unovertaken_afterPoll keep
  | @pollAnswer n entity job k ans late _ =>
    rcases s.pollAnswered_cases n entity job k ans late with ⟨j,_,_,he⟩ | he
    · exact unovertaken_of_set (by rw [he,State.tasks_setTask,State.tasks_refreshAppUpdateJob]) keep
        (by simp [Task.Unovertaken])
    · rw [he] at keep ⊢
      exact unovertaken_afterPoll (fun m task hn => keep m task (by simpa using hn))
  | installResolved _ =>
    exact unovertaken_of_set (by rw [State.tasks_setTask,State.tasks_emitLookup]) keep (by simp [Task.Unovertaken])
  | @watchResolved n entity job restart skipped ans outcome hn hres =>
    obtain ⟨o,ho,hu⟩ := (s.emitLookup job ans).tasks_watchResolved n entity job restart skipped outcome
    refine unovertaken_of_set (by rw [ho,State.tasks_emitLookup]) keep (fun task ht => ?_)
    obtain ⟨rfl,rfl,he⟩ := hu task ht
    obtain ⟨rfl,hc,htr⟩ := h.tasks n _ hn
    have hf := Frame.emitLookup s job ans
    have hnew : ¬ Newer s n entity job := by
      refine notNewer_of_notEnded (hk _ hn rfl rfl) hc htr ?_
      simpa [State.newerEndedJob,hf.dataJob] using he
    exact ⟨rfl,fun hnt => hnew (hnt.of_frame (hf.trans (.watchResolved _ _ _ _ _ _ _)))⟩
  | watchUnresolved _ =>
    exact unovertaken_of_set (by rw [State.tasks_setTask,State.tasks_emitLookup]) keep (by simp)
  | handoverDone _ => exact unovertaken_of_set rfl keep (by simp [Task.Unovertaken])
  | @refreshDone n entity job outcome _ =>
    rcases s.tasks_handleUpgradeOutcome n (.install entity (.refreshing job outcome)) job none outcome with ho | ⟨ho,_⟩
    · exact unovertaken_of_set ho keep (fun _ ht => Task.unovertaken_returned ht)
    · exact unovertaken_of_set ho keep (by simp [Task.inspectingInstance,Task.Unovertaken])
  | @installInspected n entity job state _ =>
    rcases s.tasks_restartAfterFailedUpgrade n (.install entity (.inspecting job)) job state with ho | ho
    · exact unovertaken_of_set ho keep (fun _ ht => Task.unovertaken_returned ht)
    · exact unovertaken_of_set ho keep (by simp [Task.startingApp,Task.Unovertaken])
  | @watchInspected n entity job restart state _ =>
    rcases s.tasks_restartAfterFailedUpgrade n (.watch entity job restart .inspecting) job state with ho | ho
    · exact unovertaken_of_set ho keep (fun _ ht => Task.unovertaken_returned ht)
    · exact unovertaken_of_set ho keep (by simp [Task.startingApp,Task.Unovertaken])
  | installStarted _ => exact unovertaken_of_set rfl keep (by simp [Task.Unovertaken])
  | watchStarted _ => exact unovertaken_of_set rfl keep (by simp)
  | taskAborted _ => exact unovertaken_of_set rfl keep (fun _ ht => Task.unovertaken_returned ht)
  | @installEnd n entity _ =>
    refine unovertaken_watchAdopted (s := s.dropInstall n entity) (fun m task hm => ?_)
    rcases TaskTable.get_set_cases hm with ⟨_,hi⟩ | ⟨_,hi⟩
    · cases hi
    · exact keep m task hi
  | @watchResume n entity job restart hn =>
    by_cases hl : (s.app entity.uid).isNone = true
    · exact unovertaken_of_set (n := n) (o := none) (by simp [State.watchFinished,hl]) keep (by simp)
    · have he : s.watchFinished n entity job restart = s.setTask n ((s.lateRestartSkipped entity job restart).map
          (fun skipped => .watch entity job restart (.resolving skipped))) := by simp [State.watchFinished,hl]
      rw [he] at keep hm ⊢
      refine unovertaken_of_set rfl keep (fun task ht => ?_)
      obtain ⟨skipped,hs,rfl⟩ := Option.map_eq_some_iff.mp ht
      cases skipped with
      | some skipped => trivial
      | none =>
        obtain rfl := restart_of_notSkipped hs
        have htr := noneTracked_of_notSkipped (hk _ hn rfl rfl) hs
        exact ⟨rfl,keep n _ hn rfl,htr⟩
  | watchTimeout _ => exact unovertaken_of_set rfl keep (by simp)

def Event.IsStart : Event → Prop
  | .startSent _ _ _ => True
  | _ => False

theorem inspecting_of_startSent {s t : State} {a : Action} {n : ℕ} {uid : Uid} {job : JobId} (hst : Step s a t)
    (hsent : t.log = .startSent n uid job :: s.log) :
    ∃ task, s.tasks.get n = some task ∧ task.uid = uid ∧ task.Inspecting job := by
  have silent : ∀ es : List Event, t.log = es ++ s.log → ¬ ∀ e ∈ es, ¬ e.IsStart := by
    intro es hes hq
    have he : [Event.startSent n uid job] = es := List.append_cancel_right (hsent.symm.trans hes)
    exact hq (.startSent n uid job) (by simp [← he]) trivial
  have quiet : ∀ {es : List Event}, (∀ e ∈ es, e.Quiet) → ∀ e ∈ es, ¬ e.IsStart := by
    intro es hq e he hs
    cases e with
    | startSent m u k => exact hq _ he
    | _ => exact hs
  have framed : ∀ {b : State} {l : List Event}, b.log = l ++ s.log → (∀ e ∈ l, ¬ e.IsStart) → ¬ Frame b t := by
    intro b l hb hq hf
    obtain ⟨es',hes',hq'⟩ := hf.log
    refine silent (es' ++ l) (by rw [hes',hb,List.append_assoc]) (fun e he => ?_)
    exact (List.mem_append.mp he).elim (quiet hq' e) (hq e)
  have looked : ∀ {u k ans}, ¬ Frame (s.refreshAppUpdateJob u k ans).1 t := by
    intro u k ans
    obtain ⟨es,hes,_,he⟩ := s.reported_refreshAppUpdateJob u k ans
    refine framed hes (fun e hm => ?_)
    rcases he e hm with rfl | ⟨r,rfl⟩ <;> exact id
  have adopted : ∀ {b : State} {u}, b.log = s.log → t.log ≠ (b.watchAdoptedUpgrade u).log := by
    intro b u hb he
    obtain ⟨es,hes,hq⟩ := b.log_watchAdoptedUpgrade u
    refine silent es (by rw [he,hes,hb]) (fun e hm => ?_)
    obtain ⟨k,rfl⟩ := hq e hm
    exact id
  cases hst.rowStep with
  | publish => exact absurd (by simp) (silent [] rfl)
  | adopt _ =>
    refine absurd (fun e he => ?_) (silent (scanReports _) rfl)
    obtain ⟨_,_,_,_,_,_,rfl⟩ := mem_scanReports he
    exact id
  | looked _ hf => exact absurd hf looked
  | polled _ hf => exact absurd hf looked
  | entityCreated _ => exact absurd (by simp) (silent [] rfl)
  | entityAdded _ => exact absurd rfl (adopted rfl)
  | @notifyEntity _ u _ => exact absurd rfl (adopted (b := s.refreshData u) (u := u) rfl)
  | @upgraded m u k _ =>
    exact absurd (by simp [Event.IsStart]) (silent [.upgraded u.uid k] (s.log_upgradeReturned m u k))
  | @installEnd m u _ => exact absurd rfl (adopted (b := s.dropInstall m u) (u := u) rfl)
  | installCall _ => exact absurd (by simp) (silent [] rfl)
  | jobCreated _ => exact absurd (by simp) (silent [] rfl)
  | jobCreatedElsewhere => exact absurd (by simp) (silent [] rfl)
  | @started m state task k hn ht =>
    cases hsent
    exact ⟨task,hn,rfl,ht⟩
  | frame _ hf => exact absurd hf (framed (b := s) (l := []) rfl (by simp))

/-- In every run whose steps meet `KeepsOrder`, the restart after the failure of a late watch's job is not sent while a
newer upgrade of the app is tracked, nor after one was returned to an install or has ended since the watch was
started. -/
theorem not_newer_of_startSent {s t : State} {a : Action} {n : ℕ} {entity : Entity} {job : JobId}
    {restart : Bool} {pc : WatchPc} (h : system.Reach KeepsOrder s) (hst : system.step s a = some t)
    (hn : s.tasks.get n = some (.watch entity job restart pc)) (hsent : t.log = .startSent n entity.uid job :: s.log) :
    ¬ Newer s n entity job := by
  have hinv : Unovertaken s := h.invariant (fun s hi => by
    cases hi
    exact ⟨fun uid k hk => by simp [State.initial,State.tracked,State.app] at hk,
      fun _ _ hn => by simp [State.initial] at hn⟩) (fun hi hk hs => hi.step hk (Step.of_step hs))
  obtain ⟨task,htask,_,hins⟩ := inspecting_of_startSent (Step.of_step hst) hsent
  obtain rfl := Option.some.inj (hn.symm.trans htask)
  cases pc with
  | inspecting => exact (hinv.tasks n _ hn).2
  | _ => exact hins.elim

def lateFailure : List Action :=
  [.refreshStart,.appsAnswer [("a",.running)],.scanAnswer (some []),.entityCreated "a",
    .installCall "a",.jobCreated 0,.upgradeAnswer 0,.wake 0 false,.pollAnswer 0 .failed true,.refreshDone 0,
    .installEnd 0,.refreshStart,.appsAnswer [("a",.running)],.lookupAnswer (.job { state := .failed }),
    .notifyEntity "a",.notifyWatch 1,.watchResume 1]

def SendsRestart (s : State) : Prop :=
  s.tasks.get 1 = some (.watch ⟨"a",0⟩ 1 true .inspecting) ∧
    ((system.step s (.instanceAnswer 1 (some .stopped))).map State.log) = some (.startSent 1 "a" 1 :: s.log)

instance (s : State) : Decidable (SendsRestart s) := inferInstanceAs (Decidable (_ ∧ _))

theorem not_newer_of_lateFailure : ∃ s, SendsRestart s ∧ ¬ Newer s 1 ⟨"a",0⟩ 1 := by
  obtain ⟨s,hr,hs⟩ := system.exists_reach_of_run KeepsOrder rfl
    (lateFailure ++ [.resolveAnswer 1 (.job { state := .failed })]) SendsRestart (by decide)
  obtain ⟨t,ht,hl⟩ := Option.map_eq_some_iff.mp hs.2
  exact ⟨s,hs,not_newer_of_startSent hr ht hs.1 hl⟩

/-- A second upgrade starts while the watch of the first awaits its lookup: the app is
started again in the middle of it. -/
theorem newer_of_install_during_lookup : ¬ ∀ s t a n entity job restart pc, system.Reachable s →
    system.step s a = some t → s.tasks.get n = some (.watch entity job restart pc) →
    t.log = .startSent n entity.uid job :: s.log → ¬ Newer s n entity job := by
  intro hall
  obtain ⟨s,hr,hs,hnew⟩ := system.exists_reach_of_run (fun _ _ => True) rfl
    (lateFailure ++ [.installCall "a",.jobCreated 2,.upgradeAnswer 2,
      .resolveAnswer 1 (.job { state := .failed })])
    (fun s => SendsRestart s ∧ Newer s 1 ⟨"a",0⟩ 1) (by decide)
  obtain ⟨t,ht,hl⟩ := Option.map_eq_some_iff.mp hs.2
  exact hall s t _ 1 ⟨"a",0⟩ 1 true .inspecting hr ht hs.1 hl hnew
end TruenasCE.AppUpdate
