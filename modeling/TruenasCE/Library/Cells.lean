import TruenasCE.Library.TaskTable

/-! # Cells refreshed by request and answer

Jobs run straight-line programs, each against one cell: they may take the cell's lock,
send a request, land its answer in the cell or clear the cell. A failed request lands
the last answer received again. Answers landed in the order of their requests never
take a cell back, and programs that request under the lock land in that order.
-/
namespace TruenasCE.Library

inductive CellOp
  | acquire
  | release
  | request
  | land
  | clear
  | pause
  deriving DecidableEq, Repr

structure Job (ι : Type*) where
  cell : ι
  rest : List CellOp
  /-- The time of the last request. -/
  asked : Option ℕ
  deriving DecidableEq

/-- Contents are represented by the time their request was sent. -/
structure Cells (ι : Type*) where
  clock : ℕ
  holder : ι → Option ℕ
  published : ι → Option ℕ
  last : ι → Option ℕ
  jobs : TaskTable (Job ι)

/-- Every request is followed at once by the landing of its answer. -/
def prompt : List CellOp → Bool
  | [] => true
  | .request :: .land :: rest => prompt rest
  | .request :: _ => false
  | .land :: _ => false
  | _ :: rest => prompt rest

/-- Requests and landings stand between `acquire` and `release`; the flag tells whether
the lock is held. -/
def locked : Bool → List CellOp → Bool
  | held, [] => !held
  | false, .acquire :: rest => locked true rest
  | true, .release :: rest => locked false rest
  | true, .request :: rest => locked true rest
  | true, .land :: rest => locked true rest
  | held, .clear :: rest => locked held rest
  | held, .pause :: rest => locked held rest
  | _, _ => false

def Job.awaited {ι : Type*} (j : Job ι) : Option ℕ :=
  match j.rest with
  | .land :: _ => j.asked
  | _ => none

/-- A job of a prompt program is between a request and its answer, or elsewhere. -/
def Job.Prompt {ι : Type*} (j : Job ι) : Prop :=
  prompt j.rest = true ∨ ∃ rest, j.rest = .land :: rest ∧ prompt rest = true ∧ j.asked.isSome = true

/-- `new` is not the answer to an earlier request than `old`. -/
def NotOlder (old new : Option ℕ) : Prop := ∀ a ∈ old, ∀ b ∈ new, a ≤ b

theorem NotOlder.of_eq {old new : Option ℕ} (h : new = old) : NotOlder old new := by
  rintro a ha b hb
  rw [h] at hb
  exact (Option.some.inj (ha.symm.trans hb)).le

section Prompt
variable {ι : Type*} {c : ι} {rest : List CellOp} {asked : Option ℕ}

theorem Job.awaited_of_prompt (h : prompt rest = true) (asked : Option ℕ) :
    (⟨c,rest,asked⟩ : Job ι).awaited = none := by
  unfold Job.awaited
  split
  · rename_i he
    obtain rfl : rest = _ := he
    simp [prompt] at h
  · rfl

theorem Job.Prompt.tail {op : CellOp} (h : (⟨c,op :: rest,asked⟩ : Job ι).Prompt) (hr : op ≠ .request) :
    prompt rest = true := by
  rcases h with h | ⟨rest',he,h,_⟩
  · cases op with
    | request => exact absurd rfl hr
    | land => simp [prompt] at h
    | _ => exact h
  · cases he
    exact h

theorem Job.Prompt.request (h : (⟨c,.request :: rest,asked⟩ : Job ι).Prompt) (a : ℕ) :
    (⟨c,rest,some a⟩ : Job ι).Prompt := by
  rcases h with h | ⟨rest',he,_⟩
  · cases rest with
    | nil => simp [prompt] at h
    | cons op rest =>
      cases op with
      | land => exact Or.inr ⟨rest,rfl,h,rfl⟩
      | _ => simp [prompt] at h
  · cases he

end Prompt

namespace Cells
variable {ι : Type*}

def initial : Cells ι where
  clock := 0
  holder _ := none
  published _ := none
  last _ := none
  jobs := TaskTable.empty

def spawn (s : Cells ι) (c : ι) (program : List CellOp) : Cells ι :=
  { s with jobs := s.jobs.spawn ⟨c,program,none⟩ }

/-- A job is cancelled or fails; a lock it holds is released. -/
def abort (s : Cells ι) (n : ℕ) : Cells ι :=
  { s with
    holder := fun c => if s.holder c = some n then none else s.holder c
    jobs := s.jobs.set n none }

/-- Run the next operation of job `n`; `ok` tells whether an awaited request succeeded. -/
def advance [DecidableEq ι] (s : Cells ι) (n : ℕ) (ok : Bool) : Option (Cells ι) :=
  match s.jobs.get n with
  | none => none
  | some ⟨_,[],_⟩ => some { s with jobs := s.jobs.set n none }
  | some ⟨c,.acquire :: rest,_⟩ =>
    if s.holder c = none then
      some { s with
        holder := Function.update s.holder c (some n)
        jobs := s.jobs.set n (some ⟨c,rest,none⟩) }
    else none
  | some ⟨c,.release :: rest,asked⟩ =>
    some { s with
      holder := Function.update s.holder c none
      jobs := s.jobs.set n (some ⟨c,rest,asked⟩) }
  | some ⟨c,.request :: rest,_⟩ =>
    some { s with clock := s.clock + 1, jobs := s.jobs.set n (some ⟨c,rest,some s.clock⟩) }
  | some ⟨c,.land :: rest,asked⟩ =>
    let answer := if ok then asked else s.last c
    some { s with
      published := Function.update s.published c answer
      last := Function.update s.last c answer
      jobs := s.jobs.set n (some ⟨c,rest,asked⟩) }
  | some ⟨c,.clear :: rest,asked⟩ =>
    some { s with
      published := Function.update s.published c none
      jobs := s.jobs.set n (some ⟨c,rest,asked⟩) }
  | some ⟨c,.pause :: rest,asked⟩ => some { s with jobs := s.jobs.set n (some ⟨c,rest,asked⟩) }

/-- No job of the same cell waits for the answer to an earlier request than job `n`. -/
def InOrder (s : Cells ι) (n : ℕ) : Prop := ∀ j ∈ s.jobs.get n, ∀ a ∈ j.awaited,
  ∀ m < s.jobs.next, ∀ k ∈ s.jobs.get m, k.cell = j.cell → ∀ b ∈ k.awaited, a ≤ b

instance [DecidableEq ι] (s : Cells ι) (n : ℕ) : Decidable (s.InOrder n) :=
  inferInstanceAs (Decidable (∀ j ∈ s.jobs.get n, ∀ a ∈ j.awaited,
    ∀ m < s.jobs.next, ∀ k ∈ s.jobs.get m, k.cell = j.cell → ∀ b ∈ k.awaited, a ≤ b))

/-- What running the next operation of job `n` can do. -/
inductive Moves [DecidableEq ι] (s : Cells ι) (n : ℕ) (ok : Bool) : Cells ι → Prop
  | finish {c : ι} {asked : Option ℕ} (hj : s.jobs.get n = some ⟨c,[],asked⟩) :
    Moves s n ok { s with jobs := s.jobs.set n none }
  | acquire {c : ι} {rest : List CellOp} {asked : Option ℕ} (hj : s.jobs.get n = some ⟨c,.acquire :: rest,asked⟩)
      (hfree : s.holder c = none) :
    Moves s n ok { s with
      holder := Function.update s.holder c (some n)
      jobs := s.jobs.set n (some ⟨c,rest,none⟩) }
  | release {c : ι} {rest : List CellOp} {asked : Option ℕ} (hj : s.jobs.get n = some ⟨c,.release :: rest,asked⟩) :
    Moves s n ok { s with
      holder := Function.update s.holder c none
      jobs := s.jobs.set n (some ⟨c,rest,asked⟩) }
  | request {c : ι} {rest : List CellOp} {asked : Option ℕ} (hj : s.jobs.get n = some ⟨c,.request :: rest,asked⟩) :
    Moves s n ok { s with clock := s.clock + 1, jobs := s.jobs.set n (some ⟨c,rest,some s.clock⟩) }
  | land {c : ι} {rest : List CellOp} {asked : Option ℕ} (hj : s.jobs.get n = some ⟨c,.land :: rest,asked⟩) :
    Moves s n ok { s with
      published := Function.update s.published c (if ok then asked else s.last c)
      last := Function.update s.last c (if ok then asked else s.last c)
      jobs := s.jobs.set n (some ⟨c,rest,asked⟩) }
  | clear {c : ι} {rest : List CellOp} {asked : Option ℕ} (hj : s.jobs.get n = some ⟨c,.clear :: rest,asked⟩) :
    Moves s n ok { s with
      published := Function.update s.published c none
      jobs := s.jobs.set n (some ⟨c,rest,asked⟩) }
  | pause {c : ι} {rest : List CellOp} {asked : Option ℕ} (hj : s.jobs.get n = some ⟨c,.pause :: rest,asked⟩) :
    Moves s n ok { s with jobs := s.jobs.set n (some ⟨c,rest,asked⟩) }

theorem Moves.of_advance [DecidableEq ι] {s t : Cells ι} {n : ℕ} {ok : Bool} (h : s.advance n ok = some t) :
    Moves s n ok t := by
  unfold advance at h
  split at h
  · cases h
  · cases h
    exact .finish ‹_›
  · split at h
    · cases h
      exact .acquire ‹_› ‹_›
    · cases h
  · cases h
    exact .release ‹_›
  · cases h
    exact .request ‹_›
  · cases h
    exact .land ‹_›
  · cases h
    exact .clear ‹_›
  · cases h
    exact .pause ‹_›

/-- No awaited answer of cell `c` is older than the last one received. -/
structure Ordered (s : Cells ι) (c : ι) : Prop where
  prompt : ∀ n j, s.jobs.get n = some j → j.cell = c → j.Prompt
  askedLt : ∀ n j, s.jobs.get n = some j → j.cell = c → ∀ a ∈ j.asked, a < s.clock
  lastLt : ∀ b ∈ s.last c, b < s.clock
  published : ∀ b ∈ s.published c, ∃ k ∈ s.last c, b ≤ k
  behind : ∀ n j, s.jobs.get n = some j → j.cell = c → ∀ a ∈ j.awaited, ∀ b ∈ s.last c, b ≤ a

section Order
variable {s t : Cells ι} {c : ι} {n : ℕ} {ok : Bool}

theorem Ordered.initial (c : ι) : Ordered (initial : Cells ι) c := by
  constructor <;> simp [Cells.initial]

/-- A step that lands nothing in `c` and leaves its jobs alone but for those described. -/
theorem Ordered.move (h : Ordered s c) (hp : t.published c = none ∨ t.published c = s.published c)
    (hl : t.last c = s.last c) (hc : s.clock ≤ t.clock)
    (hj : ∀ m j, t.jobs.get m = some j → j.cell = c → s.jobs.get m = some j ∨
      (j.Prompt ∧ (∀ a ∈ j.asked, a < t.clock) ∧ ∀ a ∈ j.awaited, ∀ b ∈ s.last c, b ≤ a)) : Ordered t c where
  prompt m j hm hcell := by
    rcases hj m j hm hcell with hm | hnew
    · exact h.prompt m j hm hcell
    · exact hnew.1
  askedLt m j hm hcell a ha := by
    rcases hj m j hm hcell with hm | hnew
    · exact (h.askedLt m j hm hcell a ha).trans_le hc
    · exact hnew.2.1 a ha
  lastLt := by
    rw [hl]
    exact fun b hb => (h.lastLt b hb).trans_le hc
  published := by
    rw [hl]
    rcases hp with hp | hp
    · simp [hp]
    · rw [hp]
      exact h.published
  behind m j hm hcell := by
    rw [hl]
    rcases hj m j hm hcell with hm | hnew
    · exact h.behind m j hm hcell
    · exact hnew.2.2

theorem Ordered.spawn (h : Ordered s c) {d : ι} {program : List CellOp} (hp : Library.prompt program = true) :
    Ordered (s.spawn d program) c := by
  refine h.move (Or.inr rfl) rfl le_rfl (fun m j hm hcell => ?_)
  rcases TaskTable.get_spawn_cases hm with ⟨_,rfl⟩ | hm
  · refine Or.inr ⟨Or.inl hp,by simp,?_⟩
    simp [Job.awaited_of_prompt hp]
  · exact Or.inl hm

theorem Ordered.drop (h : Ordered s c) (hp : t.published = s.published) (hl : t.last = s.last) (hc : t.clock = s.clock)
    (ht : t.jobs = s.jobs.set n none) : Ordered t c := by
  refine h.move (Or.inr (congrFun hp c)) (congrFun hl c) hc.ge (fun m j hm _ => ?_)
  rw [ht] at hm
  rcases TaskTable.get_set_cases hm with ⟨_,hx⟩ | ⟨_,hm⟩
  · cases hx
  · exact Or.inl hm

/-- A job moves past an operation that is not a request; nothing lands in `c`. -/
theorem Ordered.pass (h : Ordered s c) {d : ι} {op : CellOp} {rest : List CellOp} {asked asked' : Option ℕ}
    (hj : s.jobs.get n = some ⟨d,op :: rest,asked⟩) (hr : op ≠ .request) (ha : ∀ a ∈ asked', a ∈ asked)
    (hp : t.published c = none ∨ t.published c = s.published c) (hl : t.last c = s.last c)
    (hc : t.clock = s.clock) (ht : t.jobs = s.jobs.set n (some ⟨d,rest,asked'⟩)) : Ordered t c := by
  refine h.move hp hl hc.ge (fun m j hm hcell => ?_)
  rw [ht] at hm
  rcases TaskTable.get_set_cases hm with ⟨rfl,hx⟩ | ⟨_,hm⟩
  · cases hx
    have hrest : Library.prompt rest = true := Job.Prompt.tail (h.prompt _ _ hj hcell) hr
    refine Or.inr ⟨Or.inl hrest,fun a haa => ?_,by simp [Job.awaited_of_prompt hrest]⟩
    rw [hc]
    exact h.askedLt _ _ hj hcell a (ha a haa)
  · exact Or.inl hm

/-- The awaited answer of job `n` is not older than what `c` shows. -/
theorem Ordered.notOlder_answer (h : Ordered s c) {rest : List CellOp} {asked : Option ℕ}
    (hj : s.jobs.get n = some ⟨c,.land :: rest,asked⟩) : NotOlder (s.published c) (if ok then asked else s.last c) := by
  intro a ha b hb
  obtain ⟨k,hk,hle⟩ := h.published a ha
  cases ok with
  | true => exact hle.trans (h.behind n _ hj rfl b hb k hk)
  | false => exact hle.trans (Option.some.inj (hk.symm.trans hb)).le

theorem Ordered.land [DecidableEq ι] (h : Ordered s c) (ho : s.InOrder n) {rest : List CellOp} {asked : Option ℕ}
    (hj : s.jobs.get n = some ⟨c,.land :: rest,asked⟩) :
    Ordered { s with
      published := Function.update s.published c (if ok then asked else s.last c)
      last := Function.update s.last c (if ok then asked else s.last c)
      jobs := s.jobs.set n (some ⟨c,rest,asked⟩) } c := by
  have hrest : Library.prompt rest = true := Job.Prompt.tail (h.prompt n _ hj rfl) (by simp)
  have jobs : ∀ m j, (s.jobs.set n (some ⟨c,rest,asked⟩)).get m = some j → j = ⟨c,rest,asked⟩ ∨
    s.jobs.get m = some j := by
    intro m j hm
    rcases TaskTable.get_set_cases hm with ⟨_,hx⟩ | ⟨_,hm⟩
    · exact Or.inl (Option.some.inj hx).symm
    · exact Or.inr hm
  constructor
  · rintro m j hm hcell
    rcases jobs m j hm with rfl | hm
    · exact Or.inl hrest
    · exact h.prompt m j hm hcell
  · rintro m j hm hcell
    rcases jobs m j hm with rfl | hm
    · exact h.askedLt n ⟨c,.land :: rest,asked⟩ hj rfl
    · exact h.askedLt m j hm hcell
  · simp only [Function.update_self]
    intro b hb
    cases ok with
    | true => exact h.askedLt n _ hj rfl b hb
    | false => exact h.lastLt b hb
  · simp only [Function.update_self]
    exact fun b hb => ⟨b,hb,le_rfl⟩
  · simp only [Function.update_self]
    rintro m j hm hcell a ha b hb
    rcases jobs m j hm with rfl | hm
    · simp [Job.awaited_of_prompt hrest] at ha
    cases ok with
    | true => exact ho _ hj b hb m (TaskTable.lt_next hm) j hm hcell a ha
    | false => exact h.behind m j hm hcell a ha b hb

/-- Landing answers in order keeps the cell ordered and never takes it back. -/
theorem Ordered.moves [DecidableEq ι] (h : Ordered s c) (ho : ∀ j ∈ s.jobs.get n, j.cell = c → s.InOrder n)
    (hm : Moves s n ok t) : Ordered t c ∧ NotOlder (s.published c) (t.published c) := by
  cases hm with
  | finish hj => exact ⟨h.drop rfl rfl rfl rfl,NotOlder.of_eq rfl⟩
  | acquire hj hfree =>
    exact ⟨h.pass hj (by simp) (by simp) (Or.inr rfl) rfl rfl rfl,NotOlder.of_eq rfl⟩
  | release hj => exact ⟨h.pass hj (by simp) (fun _ ha => ha) (Or.inr rfl) rfl rfl rfl,NotOlder.of_eq rfl⟩
  | pause hj => exact ⟨h.pass hj (by simp) (fun _ ha => ha) (Or.inr rfl) rfl rfl rfl,NotOlder.of_eq rfl⟩
  | @clear d rest asked hj =>
    by_cases hd : c = d
    · subst hd
      refine ⟨h.pass hj (by simp) (fun _ ha => ha) (Or.inl (by simp)) rfl rfl rfl,?_⟩
      simp [NotOlder]
    · have hp : Function.update s.published d none c = s.published c := Function.update_of_ne hd _ _
      exact ⟨h.pass hj (by simp) (fun _ ha => ha) (Or.inr hp) rfl rfl rfl,NotOlder.of_eq hp⟩
  | @request d rest asked hj =>
    refine ⟨h.move (Or.inr rfl) rfl (Nat.le_succ _) (fun m j hm hcell => ?_),NotOlder.of_eq rfl⟩
    rcases TaskTable.get_set_cases hm with ⟨rfl,hx⟩ | ⟨_,hm⟩
    · cases hx
      refine Or.inr ⟨Job.Prompt.request (h.prompt _ _ hj hcell) _,by simp,fun a ha b hb => ?_⟩
      have hb' : b < s.clock := h.lastLt b hb
      unfold Job.awaited at ha
      split at ha
      · obtain rfl : s.clock = a := Option.some.inj ha
        exact hb'.le
      · cases ha
    · exact Or.inl hm
  | @land d rest asked hj =>
    by_cases hd : c = d
    · subst hd
      refine ⟨h.land (ho _ hj rfl) hj,?_⟩
      simp only [Function.update_self]
      exact h.notOlder_answer hj
    · have hp : ∀ o, Function.update s.published d o c = s.published c := fun o => by simp [hd]
      have hl : ∀ o, Function.update s.last d o c = s.last c := fun o => by simp [hd]
      exact ⟨h.pass hj (by simp) (fun _ ha => ha) (Or.inr (hp _)) (hl _) rfl rfl,NotOlder.of_eq (hp _)⟩

end Order

/-- Only the holder of `c` is inside a locked section of `c`. -/
structure Guarded [DecidableEq ι] (s : Cells ι) (c : ι) : Prop where
  program : ∀ n j, s.jobs.get n = some j → j.cell = c → locked (decide (s.holder c = some n)) j.rest = true
  holder : ∀ n, s.holder c = some n → ∃ j, s.jobs.get n = some j ∧ j.cell = c

section Lock
variable [DecidableEq ι] {s t : Cells ι} {c : ι} {n : ℕ} {ok : Bool}

theorem Guarded.initial (c : ι) : Guarded (initial : Cells ι) c := by
  constructor <;> simp [Cells.initial]

theorem Guarded.holder_of_awaited (h : Guarded s c) {j : Job ι} (hj : s.jobs.get n = some j) (hc : j.cell = c) {a : ℕ}
    (ha : a ∈ j.awaited) : s.holder c = some n := by
  by_contra hn
  have hp : locked false j.rest = true := by
    have := h.program n j hj hc
    rwa [decide_eq_false hn] at this
  unfold Job.awaited at ha
  split at ha
  · rename_i he
    rw [he] at hp
    simp [locked] at hp
  · cases ha

/-- Under the lock no two jobs await an answer, so answers land in order. -/
theorem Guarded.inOrder (h : Guarded s c) {j : Job ι} (hj : s.jobs.get n = some j) (hc : j.cell = c) : s.InOrder n := by
  intro j' hj' a ha m _ k hk hkc b hb
  obtain rfl : j = j' := Option.some.inj (hj.symm.trans hj')
  have hn : s.holder c = some n := h.holder_of_awaited hj hc ha
  have hm : s.holder c = some m := h.holder_of_awaited hk (hkc.trans hc) hb
  obtain rfl : n = m := Option.some.inj (hn.symm.trans hm)
  obtain rfl : j = k := Option.some.inj (hj.symm.trans hk)
  exact (Option.some.inj (ha.symm.trans hb)).le

theorem Guarded.spawn (h : Guarded s c) {d : ι} {program : List CellOp} (hp : d = c → locked false program = true) :
    Guarded (s.spawn d program) c where
  program m j hm hcell := by
    rcases TaskTable.get_spawn_cases hm with ⟨rfl,rfl⟩ | hm
    · have hp : locked false program = true := hp hcell
      have hne : (s.spawn d program).holder c ≠ some s.jobs.next := by
        intro he
        obtain ⟨j,hj,_⟩ := h.holder _ he
        exact (TaskTable.lt_next hj).ne rfl
      rw [decide_eq_false hne]
      exact hp
    · exact h.program m j hm hcell
  holder m hm := by
    obtain ⟨j,hj,hcell⟩ := h.holder m hm
    refine ⟨j,?_,hcell⟩
    change (s.jobs.spawn _).get m = some j
    rw [TaskTable.get_spawn,if_neg (TaskTable.lt_next hj).ne]
    exact hj

theorem Guarded.drop (h : Guarded s c) (hh : t.holder c = s.holder c) (ht : t.jobs = s.jobs.set n none)
    (hn : s.holder c ≠ some n) : Guarded t c where
  program m j hm hcell := by
    rw [ht] at hm
    rcases TaskTable.get_set_cases hm with ⟨_,hx⟩ | ⟨_,hm⟩
    · cases hx
    · rw [hh]
      exact h.program m j hm hcell
  holder m hm := by
    rw [hh] at hm
    obtain ⟨j,hj,hcell⟩ := h.holder m hm
    refine ⟨j,?_,hcell⟩
    have hne : m ≠ n := by
      rintro rfl
      exact hn hm
    simp [ht,TaskTable.set,hne,hj]

theorem Guarded.abort (h : Guarded s c) (n : ℕ) : Guarded (s.abort n) c := by
  by_cases hn : s.holder c = some n
  · have hfree : (s.abort n).holder c = none := by simp [Cells.abort,hn]
    refine ⟨fun m j hm hcell => ?_,by simp [hfree]⟩
    rcases TaskTable.get_set_cases hm with ⟨_,hx⟩ | ⟨hne,hm⟩
    · cases hx
    · have hp := h.program m j hm hcell
      rw [hn,decide_eq_false (by simpa using Ne.symm hne)] at hp
      simpa [hfree] using hp
  · exact h.drop (by simp [Cells.abort,hn]) rfl hn

theorem Guarded.pass (h : Guarded s c) {d : ι} {op : CellOp} {rest : List CellOp} {asked asked' : Option ℕ}
    (hj : s.jobs.get n = some ⟨d,op :: rest,asked⟩) (hl : d = c → ∀ held, locked held (op :: rest) = true →
      locked held rest = true)
    (hh : t.holder c = s.holder c) (ht : t.jobs = s.jobs.set n (some ⟨d,rest,asked'⟩)) : Guarded t c where
  program m j hm hcell := by
    rw [ht] at hm
    rw [hh]
    rcases TaskTable.get_set_cases hm with ⟨rfl,hx⟩ | ⟨_,hm⟩
    · cases hx
      exact hl hcell _ (h.program _ _ hj hcell)
    · exact h.program m j hm hcell
  holder m hm := by
    rw [hh] at hm
    obtain ⟨j,hm,hcell⟩ := h.holder m hm
    rw [ht]
    by_cases hne : m = n
    · subst hne
      obtain rfl : _ = j := Option.some.inj (hj.symm.trans hm)
      exact ⟨⟨d,rest,asked'⟩,by simp [TaskTable.get_set hj],hcell⟩
    · exact ⟨j,by simp [TaskTable.set,hne,hm],hcell⟩

/-- The lock of `c` goes to job `n`, or is given back by it. -/
theorem Guarded.hand (h : Guarded s c) {op : CellOp} {rest : List CellOp} {asked asked' : Option ℕ} {o : Option ℕ}
    (hj : s.jobs.get n = some ⟨c,op :: rest,asked⟩) (hl : locked (decide (o = some n)) rest = true)
    (hs : ∀ m, s.holder c = some m → m = n) (ho : ∀ m, o = some m → m = n)
    (hh : t.holder c = o) (ht : t.jobs = s.jobs.set n (some ⟨c,rest,asked'⟩)) : Guarded t c where
  program m j hm hcell := by
    rw [ht] at hm
    rw [hh]
    rcases TaskTable.get_set_cases hm with ⟨rfl,hx⟩ | ⟨hne,hm⟩
    · cases hx
      exact hl
    · have hp := h.program m j hm hcell
      rw [decide_eq_false (fun he => hne (hs m he))] at hp
      rwa [decide_eq_false (fun he => hne (ho m he))]
  holder m hm := by
    rw [hh] at hm
    obtain rfl := ho m hm
    exact ⟨⟨c,rest,asked'⟩,by simp [ht,TaskTable.get_set hj],rfl⟩

theorem Guarded.moves (h : Guarded s c) (hm : Moves s n ok t) : Guarded t c := by
  have other : ∀ {d : ι} (o : Option ℕ), c ≠ d → Function.update s.holder d o c = s.holder c :=
    fun o hd => by simp [hd]
  cases hm with
  | @finish d asked hj =>
    refine h.drop rfl rfl (fun hn => ?_)
    obtain ⟨j,hj',hcell⟩ := h.holder n hn
    obtain rfl : _ = j := Option.some.inj (hj.symm.trans hj')
    have hp := h.program n _ hj hcell
    simp [hn,locked] at hp
  | @acquire d rest asked hj hfree =>
    by_cases hd : c = d
    · subst hd
      have hp := h.program n _ hj rfl
      refine h.hand hj ?_ (by simp [hfree]) (fun m hm => (Option.some.inj hm).symm) (Function.update_self _ _ _) rfl
      simpa [hfree,locked] using hp
    · exact h.pass hj (fun he => absurd he.symm hd) (other _ hd) rfl
  | @release d rest asked hj =>
    by_cases hd : c = d
    · subst hd
      have hp := h.program n _ hj rfl
      by_cases hn : s.holder c = some n
      · refine h.hand hj ?_ (fun m hm => Option.some.inj (hm.symm.trans hn)) (by simp) (Function.update_self _ _ _) rfl
        simpa [hn,locked] using hp
      · simp [hn,locked] at hp
    · exact h.pass hj (fun he => absurd he.symm hd) (other _ hd) rfl
  | request hj => exact h.pass hj (fun _ held hl => by cases held <;> simp_all [locked]) rfl rfl
  | land hj => exact h.pass hj (fun _ held hl => by cases held <;> simp_all [locked]) rfl rfl
  | clear hj => exact h.pass hj (fun _ held hl => by cases held <;> simp_all [locked]) rfl rfl
  | pause hj => exact h.pass hj (fun _ held hl => by cases held <;> simp_all [locked]) rfl rfl

end Lock
end Cells
end TruenasCE.Library
