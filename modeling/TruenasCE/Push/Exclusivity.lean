import TruenasCE.Push.Subscription

/-! # One live subscription and one consumer per source

At rest, a live subscription is the one the push state names, together with its
running consumer, along every run in which no other subscription was stored while
one was awaited and no stop resumes on a state that has been stored anew.
-/
namespace TruenasCE.Push
open Library

/-- No refresh and no stop is under way: only drain tasks are suspended. -/
def Quiescent (s : Source) : Prop := ∀ n thread, s.tasks.get n = some thread → ∃ sub, thread = .draining sub false

def Thread.isDrain : Thread → Bool
  | .draining _ false => true
  | _ => false

theorem Thread.isDrain_iff {x : Thread} : x.isDrain = true ↔ ∃ sub, x = .draining sub false := by
  rcases x with _ | _ | _ | _ | ⟨_,_ | _⟩ <;> simp [Thread.isDrain]

instance (s : Source) : Decidable (Quiescent s) :=
  decidable_of_iff (∀ n < s.tasks.next, ∀ x ∈ s.tasks.get n, x.isDrain = true)
    ⟨fun h n x hx => Thread.isDrain_iff.mp (h n (TaskTable.lt_next hx) x hx),
      fun h n _ x hx => Thread.isDrain_iff.mpr (h n x hx)⟩

/-- At most one drain task runs, at most one subscription is live, and a live one is held
by the push state together with its running consumer. -/
structure Exclusive (s : Source) : Prop where
  consumer : ∀ n m x y, s.tasks.get n = some x → s.tasks.get m = some y → n = m
  live : ∀ a ∈ s.live, ∀ b ∈ s.live, a = b
  held : ∀ sub ∈ s.live, s.push.subId = some sub ∧
    ∃ n, s.push.consumer = some n ∧ s.tasks.get n = some (.draining sub false)

/-- The push state is what a resuming stop began with, or cleared. -/
def Thread.Undisturbed (s : Source) : Thread → Prop
  | .stopping consumer _ => s.push.consumer = some consumer ∨ s.push.subId = none
  | .unsubscribing sub _ => s.push.subId = some sub ∨ s.push.subId = none
  | _ => True

instance (s : Source) (thread : Thread) : Decidable (thread.Undisturbed s) := by
  unfold Thread.Undisturbed
  split <;> infer_instance

def Thread.Live (s : Source) : Thread → Prop
  | .unsubscribing sub _ => sub ∈ s.live
  | .draining sub _ => sub ∈ s.live
  | _ => False

instance (s : Source) (thread : Thread) : Decidable (thread.Live s) := by
  unfold Thread.Live
  split <;> infer_instance

/-- The condition on a step: nothing was stored while a subscription was awaited, a failed subscribe call leaves no
subscription behind, a stop resumes on the state it began with, a live subscription can be unsubscribed, and its drain
task does not end without the trip callback. -/
def OneAtATime (s : Source) : Action → Prop
  | .subscribed _ => s.push.subId = none
  | .subscribeFailed _ made => made = false ∨ s.connected = false
  | .stopped n _ => ∀ thread ∈ s.tasks.get n, thread.Undisturbed s
  | .unsubscribed n ok _ => ∀ thread ∈ s.tasks.get n, thread.Undisturbed s ∧ (ok = true ∨ ¬ thread.Live s)
  | .died n _ => ∀ thread ∈ s.tasks.get n, ¬ thread.Live s
  | _ => True

instance (s : Source) (a : Action) : Decidable (OneAtATime s a) := by
  unfold OneAtATime
  split <;> infer_instance

/-- Facts that ask something of each suspended thread. -/
structure Base (s : Source) (T : ℕ → Thread → Prop) : Prop where
  paired : s.push.subId = none ↔ s.push.consumer = none
  subLt : ∀ k ∈ s.push.subId, k < s.nextSub
  liveLt : ∀ k ∈ s.live, k < s.nextSub
  consumerLt : ∀ c ∈ s.push.consumer, c < s.tasks.next
  offline : s.connected = false → s.live = []
  running : ∀ n k, T n (.draining k false) →
    s.push.subId = some k ∧ s.push.consumer = some n ∧ s.attached n = true
  attached : ∀ c ∈ s.push.consumer, s.attached c = true → ∀ x, T c x → ∃ k, x = .draining k false
  stopping : ∀ n c next, T n (.stopping c next) → s.attached c = false ∧ c < s.tasks.next
  unsubscribing : ∀ n k next, T n (.unsubscribing k next) →
    k < s.nextSub ∧ (s.push.subId = some k → ∀ c ∈ s.push.consumer, s.attached c = false)

/-- A live subscription is held by the push state or about to be unsubscribed. -/
def Owner (s : Source) (T : ℕ → Thread → Prop) : Prop := ∀ k ∈ s.live,
  s.push.subId = some k ∨ ∃ n next, T n (.unsubscribing k next)

/-- A held live subscription has a running consumer or is being stopped. -/
def Held (s : Source) (T : ℕ → Thread → Prop) : Prop := ∀ k ∈ s.live, s.push.subId = some k →
  ∃ c, s.push.consumer = some c ∧ (T c (.draining k false) ∨ (∃ n next, T n (.stopping c next)) ∨
    ∃ n next, T n (.unsubscribing k next))

structure Inv (s : Source) (T : ℕ → Thread → Prop) : Prop extends Base s T where
  owner : Owner s T
  held : Held s T

def Source.suspended (s : Source) (n : ℕ) (x : Thread) : Prop := s.tasks.get n = some x

/-- The suspended threads without the running task `n`. -/
def Source.others (s : Source) (n m : ℕ) (x : Thread) : Prop := m ≠ n ∧ s.tasks.get m = some x

/-- The threads `T` and what a segment of task `n` suspends as. -/
def withThread (T : ℕ → Thread → Prop) (n : ℕ) (o : Option Thread) (m : ℕ) (x : Thread) : Prop :=
  T m x ∨ (m = n ∧ o = some x)

/-- Nothing depends on a thread that awaits `is_subscribed` or `subscribe_events`. -/
def Thread.Idle : Thread → Prop
  | .checking _ _ => True
  | .subscribing _ => True
  | _ => False

section Threads
variable {s t : Source} {T U : ℕ → Thread → Prop} {n : ℕ} {o : Option Thread}

theorem Base.mono (h : Base s T) (hu : ∀ m x, U m x → T m x) : Base s U :=
  ⟨h.paired,h.subLt,h.liveLt,h.consumerLt,h.offline,fun m k hm => h.running m k (hu m _ hm),
    fun c hc ha x hx => h.attached c hc ha x (hu c x hx),fun m c next hm => h.stopping m c next (hu m _ hm),
    fun m k next hm => h.unsubscribing m k next (hu m _ hm)⟩

theorem Inv.congr (h : Inv s T) (hu : ∀ m x, U m x ↔ T m x) : Inv s U := by
  obtain rfl : U = T := funext fun m => funext fun x => propext (hu m x)
  exact h

theorem Inv.transfer (h : Inv s T) (hp : t.push = s.push) (hl : t.live = s.live) (hn : t.nextSub = s.nextSub)
    (hc : t.connected = s.connected) (ha : t.attached = s.attached) (hx : s.tasks.next ≤ t.tasks.next) : Inv t T where
  paired := by
    rw [hp]
    exact h.paired
  subLt := by
    rw [hp,hn]
    exact h.subLt
  liveLt := by
    rw [hl,hn]
    exact h.liveLt
  consumerLt := by
    rw [hp]
    exact fun c hcon => (h.consumerLt c hcon).trans_le hx
  offline := by
    rw [hc,hl]
    exact h.offline
  running := by
    rw [hp,ha]
    exact h.running
  attached := by
    rw [hp,ha]
    exact h.attached
  stopping := by
    rw [ha]
    exact fun m c next hm => ⟨(h.stopping m c next hm).1,(h.stopping m c next hm).2.trans_le hx⟩
  unsubscribing := by
    rw [hp,ha,hn]
    exact h.unsubscribing
  owner := by
    unfold Owner
    rw [hp,hl]
    exact h.owner
  held := by
    unfold Held
    rw [hp,hl]
    exact h.held

/-- An idle or missing thread owes nothing and is owed nothing. -/
theorem Inv.idle (h : Inv s T) (ho : ∀ x ∈ o, x.Idle) (hn : ∀ c ∈ s.push.consumer, s.attached c = true → c ≠ n) :
    Inv s (withThread T n o) := by
  have old : ∀ {m x}, withThread T n o m x → ¬ x.Idle → T m x := by
    rintro m x (hx | ⟨_,hx⟩) hi
    · exact hx
    · exact absurd (ho x hx) hi
  exact {
    paired := h.paired
    subLt := h.subLt
    liveLt := h.liveLt
    consumerLt := h.consumerLt
    offline := h.offline
    running := fun m k hm => h.running m k (old hm id)
    attached := fun c hc ha x hx => by
      rcases hx with hx | ⟨he,_⟩
      · exact h.attached c hc ha x hx
      · exact absurd he (hn c hc ha)
    stopping := fun m c next hm => h.stopping m c next (old hm id)
    unsubscribing := fun m k next hm => h.unsubscribing m k next (old hm id)
    owner := fun k hk => (h.owner k hk).imp id (fun ⟨m,next,hm⟩ => ⟨m,next,Or.inl hm⟩)
    held := fun k hk hs => by
      obtain ⟨c,hc,hh⟩ := h.held k hk hs
      refine ⟨c,hc,hh.imp Or.inl (Or.imp ?_ ?_)⟩
      · exact fun ⟨m,next,hm⟩ => ⟨m,next,Or.inl hm⟩
      · exact fun ⟨m,next,hm⟩ => ⟨m,next,Or.inl hm⟩ }

end Threads

/-- The segment of task `n` ended in `p` with the invariant. -/
def Lands (n : ℕ) (p : Source × Option Thread) : Prop := Inv p.1 (withThread (p.1.others n) n p.2)

section Segments
variable {s : Source} {T : ℕ → Thread → Prop} {n : ℕ} {next : Next} {elapsed : Bool}

theorem Lands.place {p : Source × Option Thread} (h : Lands n p) (hn : ∃ x, p.1.tasks.get n = some x) :
    Inv (Source.place n p) (Source.place n p).suspended := by
  obtain ⟨x,hx⟩ := hn
  have ht : Inv (Source.place n p) (withThread (p.1.others n) n p.2) := h.transfer rfl rfl rfl rfl rfl le_rfl
  refine ht.congr (fun m y => ?_)
  have hg : (Source.place n p).tasks.get m = if m = n then p.2 else p.1.tasks.get m := TaskTable.get_set hx p.2 m
  unfold Source.suspended withThread Source.others
  rw [hg]
  by_cases hm : m = n <;> simp [hm]

theorem Lands.placeNew {p : Source × Option Thread} (h : Lands p.1.tasks.next p) :
    Inv (Source.placeNew p) (Source.placeNew p).suspended := by
  obtain ⟨t,o⟩ := p
  have hfresh : t.tasks.get t.tasks.next = none := t.tasks.fresh _ le_rfl
  cases o with
  | none =>
    refine Inv.congr h (fun m y => ?_)
    have hne : t.tasks.get m = some y → m ≠ t.tasks.next := by
      rintro hm rfl
      simp [hfresh] at hm
    simp only [Source.placeNew,Source.suspended,withThread,Source.others,reduceCtorEq,and_false,or_false]
    exact ⟨fun hm => ⟨hne hm,hm⟩,fun hm => hm.2⟩
  | some thread =>
    have ht : Inv (Source.placeNew (t,some thread)) (withThread (t.others t.tasks.next) t.tasks.next (some thread)) :=
      Inv.transfer h rfl rfl rfl rfl rfl (Nat.le_succ _)
    refine ht.congr (fun m y => ?_)
    simp only [Source.placeNew,Source.suspended,withThread,Source.others,TaskTable.get_spawn]
    by_cases hm : m = t.tasks.next <;> simp [hm]

theorem trySubscribe_lands (h : Inv s (s.others n)) (hn : ∀ c ∈ s.push.consumer, s.attached c = true → c ≠ n)
    (event : Topic) (elapsed : Bool) : Lands n (s.trySubscribe event elapsed) := by
  unfold Source.trySubscribe
  split
  · exact h.idle (by simp) hn
  split
  · exact h.idle (by simp) hn
  · exact (h.idle (by simp [Thread.Idle]) hn).transfer rfl rfl rfl rfl rfl le_rfl

/-- Every live subscription is about to be unsubscribed, and no drain task goes on. -/
structure Clearable (s : Source) (T : ℕ → Thread → Prop) : Prop extends Base s T where
  owners : ∀ k ∈ s.live, ∃ m next, T m (.unsubscribing k next)
  idle : ∀ m k, ¬ T m (.draining k false)

theorem Clearable.clear (h : Clearable s T) : Inv s.clear T where
  paired := by simp [Source.clear]
  subLt := by simp [Source.clear]
  liveLt := h.liveLt
  consumerLt := by simp [Source.clear]
  offline := h.offline
  running m k hm := absurd hm (h.idle m k)
  attached := by simp [Source.clear]
  stopping := h.stopping
  unsubscribing m k next hm := ⟨(h.unsubscribing m k next hm).1,by simp [Source.clear]⟩
  owner k hk := Or.inr (h.owners k hk)
  held k hk hs := by simp [Source.clear] at hs

theorem Clearable.goOn (h : Clearable s (s.others n)) : Lands n (s.clear.goOn elapsed next) := by
  have hc : Inv s.clear (s.clear.others n) := h.clear
  cases next with
  | finish => exact hc.idle (o := none) (by simp) (by simp [Source.clear])
  | subscribe event => exact trySubscribe_lands hc (by simp [Source.clear]) event elapsed

theorem Base.unsubscribing_lands (h : Base s (s.others n)) (ho : Owner s (s.others n))
    (hq : ∀ c ∈ s.push.consumer, s.attached c = false) {sub : SubId} (hs : s.push.subId = some sub) :
    Lands n (s,some (.unsubscribing sub next)) where
  paired := h.paired
  subLt := h.subLt
  liveLt := h.liveLt
  consumerLt := h.consumerLt
  offline := h.offline
  running m k hm := by
    rcases hm with hm | ⟨_,hm⟩
    · exact h.running m k hm
    · cases hm
  attached c hc ha := by simp [hq c hc] at ha
  stopping m c next' hm := by
    rcases hm with hm | ⟨_,hm⟩
    · exact h.stopping m c next' hm
    · cases hm
  unsubscribing m k next' hm := by
    rcases hm with hm | ⟨_,hm⟩
    · exact h.unsubscribing m k next' hm
    · cases hm
      exact ⟨h.subLt sub hs,fun _ => hq⟩
  owner k hk := (ho k hk).imp id (fun ⟨m,next',hm⟩ => ⟨m,next',Or.inl hm⟩)
  held k _ hsk := by
    obtain ⟨c,hc⟩ := Option.ne_none_iff_exists'.mp (mt h.paired.mpr (by simp [hs]))
    obtain rfl : sub = k := Option.some.inj (hs.symm.trans hsk)
    exact ⟨c,hc,Or.inr (Or.inr ⟨n,next,Or.inr ⟨rfl,rfl⟩⟩)⟩

theorem unsubscribe_lands (h : Base s (s.others n)) (ho : Owner s (s.others n))
    (hq : ∀ c ∈ s.push.consumer, s.attached c = false) : Lands n (s.unsubscribe next elapsed) := by
  have idle : ∀ m k, ¬ s.others n m (.draining k false) := by
    intro m k hm
    obtain ⟨_,hc,ha⟩ := h.running m k hm
    simp [hq m hc] at ha
  unfold Source.unsubscribe
  split
  · rename_i hs
    exact Clearable.goOn ⟨h,fun k hk => (ho k hk).resolve_left (by simp [hs]),idle⟩
  · rename_i sub hs
    split
    · exact h.unsubscribing_lands ho hq hs
    · rename_i hc
      have hlive : s.live = [] := h.offline (Bool.eq_false_iff.mpr hc)
      exact Clearable.goOn ⟨h,by simp [hlive],idle⟩

/-- Forgetting the task of the held consumer, whose thread is not suspended. -/
theorem Base.detach (h : Base s T) {c : ℕ} (hc : s.push.consumer = some c) (hr : ∀ k, ¬ T c (.draining k false)) :
    Base (s.detach c) T where
  paired := h.paired
  subLt := h.subLt
  liveLt := h.liveLt
  consumerLt := h.consumerLt
  offline := h.offline
  running m k hm := by
    obtain ⟨_,hcon,_⟩ := h.running m k hm
    obtain rfl : c = m := Option.some.inj (hc.symm.trans hcon)
    exact absurd hm (hr k)
  attached c' hc' ha := by
    obtain rfl : c = c' := Option.some.inj (hc.symm.trans hc')
    simp [Source.detach] at ha
  stopping m c' next hm := by
    refine ⟨?_,(h.stopping m c' next hm).2⟩
    by_cases he : c' = c <;> simp [Source.detach,he,(h.stopping m c' next hm).1]
  unsubscribing m k next hm := by
    refine ⟨(h.unsubscribing m k next hm).1,fun _ c' hc' => ?_⟩
    obtain rfl : c = c' := Option.some.inj (hc.symm.trans hc')
    simp [Source.detach]

theorem Base.stopping_lands (h : Base s (s.others n)) (ho : Owner s (s.others n)) {c : ℕ} {sub : SubId}
    (hc : s.push.consumer = some c) (hn : c ≠ n) (hd : s.tasks.get c = some (.draining sub false)) :
    Lands n ((s.detach c).cancel c,some (.stopping c next)) := by
  have hcancel : (s.detach c).cancel c = (s.detach c).setTask c (some (.draining sub true)) := by
    simp [Source.cancel,Source.detach,hd]
  have only : ∀ {c'}, s.push.consumer = some c' → c' = c := fun hc' => Option.some.inj (hc'.symm.trans hc)
  have quiet : ∀ c', s.push.consumer = some c' → (s.detach c).attached c' = false := by
    intro c' hc'
    simp [Source.detach,only hc']
  have hget : ∀ m, ((s.detach c).setTask c (some (.draining sub true))).tasks.get m =
      if m = c then some (.draining sub true) else s.tasks.get m := TaskTable.get_set hd _
  rw [hcancel]
  -- the cancelled task is the only thread that changed
  have old : ∀ {m x}, ((s.detach c).setTask c (some (.draining sub true))).others n m x →
      x ≠ .draining sub true → m ≠ c ∧ s.others n m x := by
    rintro m x ⟨hm,hx⟩ hne
    rw [hget] at hx
    by_cases hmc : m = c
    · simp only [hmc,if_true,Option.some.injEq] at hx
      exact absurd hx.symm hne
    · rw [if_neg hmc] at hx
      exact ⟨hmc,hm,hx⟩
  have keep : ∀ {m k next'}, s.others n m (.unsubscribing k next') →
      ((s.detach c).setTask c (some (.draining sub true))).others n m (.unsubscribing k next') := by
    rintro m k next' ⟨hm,hx⟩
    refine ⟨hm,?_⟩
    rw [hget,if_neg]
    · exact hx
    · rintro rfl
      simp [hd] at hx
  have detached : ∀ {c'}, s.attached c' = false → (s.detach c).attached c' = false := by
    intro c' ha
    by_cases he : c' = c <;> simp [Source.detach,he,ha]
  exact {
    paired := h.paired
    subLt := h.subLt
    liveLt := h.liveLt
    consumerLt := h.consumerLt
    offline := h.offline
    running := fun m k hm => by
      rcases hm with hm | ⟨_,hm⟩
      · obtain ⟨hmc,hm⟩ := old hm (by simp)
        exact absurd (only (h.running m k hm).2.1) hmc
      · cases hm
    attached := fun c' hc' ha => by
      have := quiet c' hc'
      simp [Source.setTask,this] at ha
    stopping := fun m c' next' hm => by
      rcases hm with hm | ⟨_,hm⟩
      · obtain ⟨ha,hlt⟩ := h.stopping m c' next' (old hm (by simp)).2
        exact ⟨detached ha,hlt⟩
      · cases hm
        exact ⟨quiet c hc,h.consumerLt c hc⟩
    unsubscribing := fun m k next' hm => by
      rcases hm with hm | ⟨_,hm⟩
      · exact ⟨(h.unsubscribing m k next' (old hm (by simp)).2).1,fun _ => quiet⟩
      · cases hm
    owner := fun k hk => (ho k hk).imp id (fun ⟨m,next',hm⟩ => ⟨m,next',Or.inl (keep hm)⟩)
    held := fun k _ _ => ⟨c,hc,Or.inr (Or.inl ⟨n,next,Or.inr ⟨rfl,rfl⟩⟩)⟩ }

theorem stop_lands (h : Base s (s.others n)) (ho : Owner s (s.others n))
    (hh : s.push.consumer ≠ some n → Held s (s.others n)) : Lands n (s.stop n next elapsed) := by
  unfold Source.stop
  split
  · rename_i hc
    exact unsubscribe_lands h ho (by simp [hc])
  rename_i c hc
  have only : ∀ {c'}, s.push.consumer = some c' → c' = c := fun hc' => Option.some.inj (hc'.symm.trans hc)
  have quiet : ∀ c', s.push.consumer = some c' → (s.detach c).attached c' = false := by
    intro c' hc'
    simp [Source.detach,only hc']
  split
  · rename_i ha
    refine unsubscribe_lands h ho (fun c' hc' => ?_)
    rw [only hc']
    exact Bool.not_eq_true' _ ▸ ha
  rename_i ha
  replace ha : s.attached c = true := by simpa using ha
  split
  · rename_i hn
    subst hn
    exact unsubscribe_lands (h.detach hc (fun k hk => hk.1 rfl)) ho quiet
  rename_i hn
  split
  · rename_i hsome
    obtain ⟨x,hx⟩ := Option.isSome_iff_exists.mp hsome
    obtain ⟨sub,rfl⟩ := h.attached c hc ha x ⟨hn,hx⟩
    exact h.stopping_lands ho hc hn hx
  rename_i hnone
  have gone : ∀ x, ¬ s.others n c x := by
    rintro x ⟨_,hx⟩
    exact hnone (by simp [Source.detach,hx])
  have hd : Base (s.detach c) ((s.detach c).others n) := h.detach hc (fun k => gone _)
  split
  · -- the failed task raises where it is awaited; its subscription was not live
    refine Inv.idle (o := none) ⟨hd,ho,fun k hk hs => ?_⟩ (by simp) (fun c' hc' ha' => ?_)
    · obtain ⟨c',hc',hr | ⟨m,next',hm⟩ | ⟨m,next',hm⟩⟩ := hh (by rw [hc]; simpa using hn) k hk hs
      · rw [only hc'] at hr
        exact absurd hr (gone _)
      · rw [only hc'] at hm
        exact absurd (h.stopping m c next' hm).1 (by simp [ha])
      · exact absurd ((h.unsubscribing m k next' hm).2 hs c hc) (by simp [ha])
    · simp [quiet c' hc'] at ha'
  · exact unsubscribe_lands hd ho quiet

theorem Inv.lands_none (h : Inv s (s.others n)) : Lands n (s,none) :=
  h.congr (fun m x => by simp [withThread])

theorem checkTopic_lands (h : Inv s (s.others n)) (hn : ∀ c ∈ s.push.consumer, s.attached c = true → c ≠ n)
    (event : Topic) : Lands n (s.checkTopic n event elapsed) := by
  unfold Source.checkTopic
  split
  · exact stop_lands h.toBase h.owner (fun _ => h.held)
  · exact trySubscribe_lands h hn event elapsed

theorem ensure_lands (h : Inv s (s.others n)) (hn : ∀ c ∈ s.push.consumer, s.attached c = true → c ≠ n)
    (event : Topic) : Lands n (s.ensure event elapsed) := by
  unfold Source.ensure
  split
  · exact h.lands_none
  split
  · exact h.idle (by simp [Thread.Idle]) hn
  · exact trySubscribe_lands h hn event elapsed

end Segments

section Tasks
variable (s : Source) (n : ℕ) (event : Topic) (next : Next) (elapsed : Bool)

@[simp] theorem Source.clear_tasks : s.clear.tasks = s.tasks := rfl
@[simp] theorem Source.detach_tasks (c : ℕ) : (s.detach c).tasks = s.tasks := rfl

@[simp] theorem Source.trySubscribe_tasks : (s.trySubscribe event elapsed).1.tasks = s.tasks := by
  unfold Source.trySubscribe
  split
  · rfl
  · split <;> rfl

@[simp] theorem Source.goOn_tasks : (s.goOn elapsed next).1.tasks = s.tasks := by
  cases next with
  | finish => rfl
  | subscribe event => exact s.trySubscribe_tasks event elapsed

@[simp] theorem Source.unsubscribe_tasks : (s.unsubscribe next elapsed).1.tasks = s.tasks := by
  unfold Source.unsubscribe
  split
  · simp
  · split <;> simp

theorem Source.stop_tasks : (s.stop n next elapsed).1.tasks = s.tasks ∨
    ∃ c x, c ≠ n ∧ (s.stop n next elapsed).1.tasks = s.tasks.set c x := by
  refine s.stop_cases (P := fun p => p.1.tasks = s.tasks ∨ ∃ c x, c ≠ n ∧ p.1.tasks = s.tasks.set c x) n next elapsed
    (Or.inl (by simp)) (fun c => Or.inl (by simp)) (fun c hn => ?_) (fun c _ => Or.inl rfl)
  unfold Source.cancel
  split
  · exact Or.inr ⟨c,_,hn,rfl⟩
  · exact Or.inl rfl

theorem Source.stop_next : (s.stop n next elapsed).1.tasks.next = s.tasks.next := by
  rcases s.stop_tasks n next elapsed with h | ⟨c,x,_,h⟩ <;> simp [h]

theorem Source.stop_get : (s.stop n next elapsed).1.tasks.get n = s.tasks.get n := by
  rcases s.stop_tasks n next elapsed with h | ⟨c,x,hc,h⟩
  · rw [h]
  · rw [h]
    simp [TaskTable.set,hc.symm]

theorem Source.checkTopic_get : (s.checkTopic n event elapsed).1.tasks.get n = s.tasks.get n := by
  unfold Source.checkTopic
  split
  · exact s.stop_get n _ elapsed
  · simp

theorem Source.ensure_next : (s.ensure event elapsed).1.tasks.next = s.tasks.next := by
  unfold Source.ensure
  split
  · rfl
  · split <;> simp

end Tasks

section Steps
variable {s t : Source} {n : ℕ}

/-- What the running task owes nothing to and is owed nothing by. -/
theorem Inv.without (h : Inv s s.suspended)
    (ho : ∀ k next, s.tasks.get n = some (.unsubscribing k next) → k ∉ s.live)
    (hh : ∀ k c next, s.tasks.get n ≠ some (.draining k false) ∧ s.tasks.get n ≠ some (.stopping c next)) :
    Inv s (s.others n) where
  toBase := h.mono (fun _ _ hx => hx.2)
  owner k hk := (h.owner k hk).imp id (fun ⟨m,next,hm⟩ =>
    ⟨m,next,fun he => ho k next (he ▸ hm) hk,hm⟩)
  held k hk hs := by
    obtain ⟨c,hc,hr | ⟨m,next,hm⟩ | ⟨m,next,hm⟩⟩ := h.held k hk hs
    · exact ⟨c,hc,Or.inl ⟨fun he => (hh k c .finish).1 (he ▸ hr),hr⟩⟩
    · exact ⟨c,hc,Or.inr (Or.inl ⟨m,next,fun he => (hh k c next).2 (he ▸ hm),hm⟩)⟩
    · exact ⟨c,hc,Or.inr (Or.inr ⟨m,next,fun he => ho k next (he ▸ hm) hk,hm⟩)⟩

theorem Inv.beside_new (h : Inv s s.suspended) : Inv s (s.others s.tasks.next) := by
  have hfresh : s.tasks.get s.tasks.next = none := s.tasks.fresh _ le_rfl
  exact h.without (by simp [hfresh]) (by simp [hfresh])

theorem Base.consumer_ne_next {T : ℕ → Thread → Prop} (h : Base s T) :
    ∀ c ∈ s.push.consumer, s.attached c = true → c ≠ s.tasks.next :=
  fun c hc _ => (h.consumerLt c hc).ne

theorem Inv.not_attached (h : Inv s s.suspended) {x : Thread} (hx : s.tasks.get n = some x)
    (hne : ∀ k, x ≠ .draining k false) : ∀ c ∈ s.push.consumer, s.attached c = true → c ≠ n := by
  rintro c hc ha rfl
  obtain ⟨k,hk⟩ := h.attached c hc ha x hx
  exact hne k hk

theorem Inv.ensure (h : Inv s s.suspended) (event : Topic) (elapsed : Bool) :
    Inv (Source.placeNew (s.ensure event elapsed)) (Source.placeNew (s.ensure event elapsed)).suspended := by
  apply Lands.placeNew
  rw [s.ensure_next event elapsed]
  exact ensure_lands h.beside_new h.consumer_ne_next event

theorem Inv.unload (h : Inv s s.suspended) (next : Next) (elapsed : Bool) :
    Inv (Source.placeNew (s.stop s.tasks.next next elapsed))
      (Source.placeNew (s.stop s.tasks.next next elapsed)).suspended := by
  apply Lands.placeNew
  rw [s.stop_next]
  exact stop_lands h.beside_new.toBase h.beside_new.owner (fun _ => h.beside_new.held)

theorem Inv.checked (h : Inv s s.suspended) {event : Topic} {sub : SubId}
    (hn : s.tasks.get n = some (.checking event sub)) (answer elapsed : Bool) :
    Inv (Source.place n (if answer then s.checkTopic n event elapsed else s.stop n (.subscribe event) elapsed))
      (Source.place n (if answer then s.checkTopic n event elapsed
        else s.stop n (.subscribe event) elapsed)).suspended := by
  have hw : Inv s (s.others n) := h.without (by simp [hn]) (by simp [hn])
  cases answer with
  | true =>
    refine Lands.place (checkTopic_lands hw (h.not_attached hn (by simp)) event) ?_
    exact ⟨_,(s.checkTopic_get n event elapsed).trans hn⟩
  | false =>
    refine Lands.place (stop_lands hw.toBase hw.owner (fun _ => hw.held)) ?_
    exact ⟨_,(s.stop_get n _ elapsed).trans hn⟩

theorem Inv.stopped (h : Inv s s.suspended) {consumer : ℕ} {next : Next}
    (hn : s.tasks.get n = some (.stopping consumer next)) (hu : (Thread.stopping consumer next).Undisturbed s)
    (elapsed : Bool) :
    Inv (Source.place n (s.unsubscribe next elapsed)) (Source.place n (s.unsubscribe next elapsed)).suspended := by
  refine Lands.place (unsubscribe_lands (h.mono (fun _ _ hx => hx.2)) (fun k hk => ?_) (fun c hc => ?_)) ?_
  · refine (h.owner k hk).imp id (fun ⟨m,next',hm⟩ => ⟨m,next',?_,hm⟩)
    rintro rfl
    cases hn.symm.trans hm
  · rcases hu with hu | hu
    · obtain rfl : consumer = c := Option.some.inj (hu.symm.trans hc)
      exact (h.stopping n consumer next hn).1
    · rw [h.paired.mp hu] at hc
      cases hc
  · exact ⟨_,(congrArg (fun tasks => tasks.get n) (s.unsubscribe_tasks next elapsed)).trans hn⟩

theorem Base.shrink {T : ℕ → Thread → Prop} (h : Base s T) {live : List SubId} (hl : ∀ k ∈ live, k ∈ s.live) :
    Base { s with live := live } T where
  paired := h.paired
  subLt := h.subLt
  liveLt k hk := h.liveLt k (hl k hk)
  consumerLt := h.consumerLt
  offline hc := by
    have hs : s.live = [] := h.offline hc
    exact List.eq_nil_iff_forall_not_mem.mpr (fun k hk => by simpa [hs] using hl k hk)
  running := h.running
  attached := h.attached
  stopping := h.stopping
  unsubscribing := h.unsubscribing

theorem Inv.unsubscribed (h : Inv s s.suspended) {sub : SubId} {next : Next}
    (hn : s.tasks.get n = some (.unsubscribing sub next)) (hu : (Thread.unsubscribing sub next).Undisturbed s)
    {live : List SubId} (hl : ∀ k ∈ live, k ∈ s.live ∧ k ≠ sub) (elapsed : Bool) :
    Inv (Source.place n ({ s with live := live }.clear.goOn elapsed next))
      (Source.place n ({ s with live := live }.clear.goOn elapsed next)).suspended := by
  have hc : Clearable { s with live := live } ({ s with live := live }.others n) := by
    refine ⟨(h.mono (fun _ _ hx => hx.2)).shrink (fun k hk => (hl k hk).1),fun k hk => ?_,?_⟩
    · obtain ⟨hk,hne⟩ := hl k hk
      rcases h.owner k hk with hs | ⟨m,next',hm⟩
      · rcases hu with hu | hu
        · exact absurd (Option.some.inj (hs.symm.trans hu)) hne
        · cases hs.symm.trans hu
      · refine ⟨m,next',?_,hm⟩
        rintro rfl
        cases hn.symm.trans hm
        exact hne rfl
    · rintro m k ⟨_,hm⟩
      obtain ⟨hs,hcon,ha⟩ := h.running m k hm
      rcases hu with hu | hu
      · have hf := (h.unsubscribing n sub next hn).2 hu m hcon
        simp [hf] at ha
      · cases hs.symm.trans hu
  refine Lands.place hc.goOn ⟨.unsubscribing sub next,?_⟩
  rw [Source.goOn_tasks]
  exact hn

/-- The answer to `subscribe_events` is stored in a cleared push state. -/
theorem Inv.subscribed (h : Inv s s.suspended) {event : Topic} (hn : s.tasks.get n = some (.subscribing event))
    (hc : s.connected = true) (hs : s.push.subId = none) : Inv (s.store n event) (s.store n event).suspended := by
  have hlt : n < s.tasks.next := TaskTable.lt_next hn
  have old : ∀ {m x}, (s.store n event).tasks.get m = some x →
      (m = s.tasks.next ∧ x = .draining s.nextSub false) ∨ (m ≠ s.tasks.next ∧ s.tasks.get m = some x) := by
    intro m x hx
    rcases TaskTable.get_set_cases hx with ⟨_,hx⟩ | ⟨_,hx⟩
    · cases hx
    rw [TaskTable.get_spawn] at hx
    split at hx
    · exact Or.inl ⟨‹_›,(Option.some.inj hx).symm⟩
    · exact Or.inr ⟨‹_›,hx⟩
  have keep : ∀ {m x}, s.tasks.get m = some x → m ≠ n → (s.store n event).tasks.get m = some x := by
    intro m x hx hm
    have hne : m ≠ s.tasks.next := (TaskTable.lt_next hx).ne
    simp [Source.store,TaskTable.set,TaskTable.get_spawn,hm,hne,hx]
  have fresh : (s.store n event).tasks.get s.tasks.next = some (.draining s.nextSub false) := by
    simp [Source.store,TaskTable.set,TaskTable.get_spawn,hlt.ne']
  exact {
    paired := by simp [Source.store]
    subLt := by simp [Source.store]
    liveLt := fun k hk => by
      rcases List.mem_cons.mp hk with rfl | hk
      · exact Nat.lt_succ_self _
      · exact Nat.lt_succ_of_lt (h.liveLt k hk)
    consumerLt := by simp [Source.store]
    offline := fun ho => by
      rw [show (s.store n event).connected = s.connected from rfl,hc] at ho
      cases ho
    running := fun m k hm => by
      rcases old hm with ⟨rfl,hx⟩ | ⟨_,hm⟩
      · cases hx
        simp [Source.store]
      · cases (h.running m k hm).1.symm.trans hs
    attached := fun c hcon _ x hx => by
      obtain rfl : s.tasks.next = c := Option.some.inj hcon
      exact ⟨s.nextSub,Option.some.inj (hx.symm.trans fresh)⟩
    stopping := fun m c next hm => by
      rcases old hm with ⟨_,hx⟩ | ⟨_,hm⟩
      · cases hx
      obtain ⟨ha,hlt'⟩ := h.stopping m c next hm
      have ha' : (s.store n event).attached c = false := by simp [Source.store,hlt'.ne,ha]
      exact ⟨ha',Nat.lt_succ_of_lt hlt'⟩
    unsubscribing := fun m k next hm => by
      rcases old hm with ⟨_,hx⟩ | ⟨_,hm⟩
      · cases hx
      have hk : k < s.nextSub := (h.unsubscribing m k next hm).1
      refine ⟨Nat.lt_succ_of_lt hk,fun he => ?_⟩
      exact absurd (Option.some.inj he) hk.ne'
    owner := fun k hk => by
      rcases List.mem_cons.mp hk with rfl | hk
      · exact Or.inl rfl
      · obtain ⟨m,next,hm⟩ := (h.owner k hk).resolve_left (by simp [hs])
        refine Or.inr ⟨m,next,keep hm ?_⟩
        rintro rfl
        cases hn.symm.trans hm
    held := fun k hk he => by
      obtain rfl : s.nextSub = k := Option.some.inj he
      exact ⟨s.tasks.next,rfl,Or.inl fresh⟩ }

theorem Inv.setTask_none (h : Inv s (s.others n)) {x : Thread} (hn : s.tasks.get n = some x) :
    Inv (s.setTask n none) (s.setTask n none).suspended := Lands.place h.lands_none ⟨x,hn⟩

theorem Inv.died (h : Inv s s.suspended) {sub : SubId} (hn : s.tasks.get n = some (.draining sub false))
    (hl : sub ∉ s.live) : Inv s (s.others n) where
  toBase := h.mono (fun _ _ hx => hx.2)
  owner k hk := by
    refine (h.owner k hk).imp id (fun ⟨m,next,hm⟩ => ⟨m,next,?_,hm⟩)
    rintro rfl
    cases hn.symm.trans hm
  held k hk hs := by
    obtain rfl : sub = k := Option.some.inj ((h.running n sub hn).1.symm.trans hs)
    exact absurd hk hl

theorem Inv.trip (h : Inv s s.suspended) {sub : SubId} (hn : s.tasks.get n = some (.draining sub false))
    (tripped elapsed : Bool) :
    Inv (Source.place n ({ s with tripped := tripped }.stop n .finish elapsed))
      (Source.place n ({ s with tripped := tripped }.stop n .finish elapsed)).suspended := by
  have ht : Inv { s with tripped := tripped } s.suspended := h.transfer rfl rfl rfl rfl rfl le_rfl
  refine Lands.place (stop_lands (ht.mono (fun _ _ hx => hx.2)) (fun k hk => ?_) (fun hc => ?_)) ?_
  · refine (h.owner k hk).imp id (fun ⟨m,next,hm⟩ => ⟨m,next,?_,hm⟩)
    rintro rfl
    cases hn.symm.trans hm
  · exact absurd (h.running n sub hn).2.1 hc
  · exact ⟨_,(Source.stop_get _ n .finish elapsed).trans hn⟩

theorem Inv.connectionLost (h : Inv s s.suspended) : Inv { s with connected := false, live := [] } s.suspended where
  paired := h.paired
  subLt := h.subLt
  liveLt := by simp
  consumerLt := h.consumerLt
  offline _ := rfl
  running := h.running
  attached := h.attached
  stopping := h.stopping
  unsubscribing := h.unsubscribing
  owner := by simp [Owner]
  held := by simp [Held]

theorem Inv.connectionRestored (h : Inv s s.suspended) : Inv { s with connected := true } s.suspended where
  paired := h.paired
  subLt := h.subLt
  liveLt := h.liveLt
  consumerLt := h.consumerLt
  offline hc := by cases hc
  running := h.running
  attached := h.attached
  stopping := h.stopping
  unsubscribing := h.unsubscribing
  owner := h.owner
  held := h.held

theorem Inv.step {a : Action} (h : Inv s s.suspended) (hg : OneAtATime s a) (hst : s.step a = some t) :
    Inv t t.suspended := by
  cases Source.steps_of_step hst with
  | ensure event elapsed => exact h.ensure event elapsed
  | unload elapsed => exact h.unload .finish elapsed
  | checked hn answer elapsed => exact h.checked hn answer elapsed
  | stopped hn hended elapsed => exact h.stopped hn (hg _ hn) elapsed
  | unsubscribed hn ok elapsed =>
    obtain ⟨hu,hok⟩ := hg _ hn
    refine h.unsubscribed hn hu (fun k hk => ?_) elapsed
    cases ok with
    | true => simpa using hk
    | false =>
      refine ⟨hk,?_⟩
      rintro rfl
      simp [Thread.Live] at hok
      exact hok hk
  | subscribed hn hc => exact h.subscribed hn hc hg
  | subscribeFailed hn made =>
    have he : s.abandon made = s := by
      unfold Source.abandon
      rcases hg with hm | hc
      · rw [hm]
        rfl
      · simp [hc]
    rw [he]
    exact (h.without (by simp [hn]) (by simp [hn])).setTask_none hn
  | trip hn breach elapsed => exact h.trip hn _ elapsed
  | cancelled hn => exact (h.without (by simp [hn]) (by simp [hn])).setTask_none hn
  | died hn failed =>
    have ho : Inv s (s.others _) := h.died hn (hg _ hn)
    exact (ho.setTask_none hn).transfer rfl rfl rfl rfl rfl le_rfl
  | connectionLost => exact h.connectionLost
  | connectionRestored => exact h.connectionRestored

end Steps

theorem Inv.initial : Inv Source.initial Source.initial.suspended := by
  constructor
  · constructor <;> simp [Source.initial,Source.suspended]
  · simp [Owner,Source.initial]
  · simp [Held,Source.initial]

/-- Nothing but drain tasks is suspended: the invariant reads as exclusivity. -/
theorem Inv.exclusive {s : Source} (h : Inv s s.suspended) (hq : Quiescent s) : Exclusive s := by
  have drains : ∀ {n x}, s.tasks.get n = some x → s.push.consumer = some n := by
    intro n x hx
    obtain ⟨sub,rfl⟩ := hq n x hx
    exact (h.running n sub hx).2.1
  have none_else : ∀ {n x}, s.suspended n x → (∀ k, x ≠ .draining k false) → False := by
    intro n x hx hne
    obtain ⟨sub,he⟩ := hq n x hx
    exact hne sub he
  have held : ∀ k ∈ s.live, s.push.subId = some k := by
    intro k hk
    rcases h.owner k hk with hs | ⟨m,next,hm⟩
    · exact hs
    · exact (none_else hm (by simp)).elim
  constructor
  · intro n m x y hx hy
    exact Option.some.inj ((drains hx).symm.trans (drains hy))
  · intro a ha b hb
    exact Option.some.inj ((held a ha).symm.trans (held b hb))
  · intro k hk
    obtain ⟨c,hc,hr | ⟨m,next,hm⟩ | ⟨m,next,hm⟩⟩ := h.held k hk (held k hk)
    · exact ⟨held k hk,c,hc,hr⟩
    · exact (none_else hm (by simp)).elim
    · exact (none_else hm (by simp)).elim

/-- In every run whose steps meet `OneAtATime`, each state at rest has at most one consumer
and at most one live subscription, held by the push state with its consumer. -/
theorem exclusive_of_reach {s : Source} (h : system.Reach OneAtATime s) (hq : Quiescent s) : Exclusive s := by
  have hinv : Inv s s.suspended := h.invariant (I := fun s => Inv s s.suspended)
    (fun s hs => by
      cases hs
      exact Inv.initial)
    (fun hi hg hs => hi.step hg hs)
  exact hinv.exclusive hq

/-- Across a resubscription to another topic: the stop unsubscribes what it finds. -/
theorem exclusive_of_reach_topicChange : ∃ s, (system.Reach OneAtATime s ∧ Quiescent s ∧ s.live = [1]) ∧
    Exclusive s := by
  obtain ⟨s,hr,hq,hl⟩ := system.exists_reach_of_run OneAtATime rfl
    ([.ensure "container.query" false,.subscribed 0,.ensure "virt.instance.query" false,.checked 2 true false,
      .cancelled 1,.stopped 2 false,.unsubscribed 2 true false,.subscribed 2])
    (fun s => Quiescent s ∧ s.live = [1]) (by decide)
  exact ⟨s,⟨hr,hq,hl⟩,exclusive_of_reach hr hq⟩

/-- Two refreshes pass the check before either subscription is stored. -/
theorem not_exclusive_of_overlap : ¬ ∀ s, system.Reachable s → Quiescent s → Exclusive s := by
  intro hall
  obtain ⟨s,hr,hq,h0,h1⟩ := system.exists_reach_of_run (fun _ _ => True) rfl
    ([.ensure "pool.query" false,.ensure "pool.query" false,.subscribed 0,.subscribed 1])
    (fun s => Quiescent s ∧ 0 ∈ s.live ∧ 1 ∈ s.live) (by decide)
  exact absurd ((hall s hr hq).live 0 h0 1 h1) (by decide)
end TruenasCE.Push
