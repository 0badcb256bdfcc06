import TruenasCE.Library.TaskTable
import TruenasCE.Library.Transition

/-! # Coroutines of cooperatively scheduled tasks

A coroutine has a state of its own and reads its surroundings. It runs without interruption to
its next request; until the reply everything but its own state may change. Postconditions are
proved about one coroutine alone and hold under every schedule.
-/
namespace TruenasCE.Library
variable {σ ε ι ξ α β κ δ : Type} {ρ : ι → Type}

inductive Coroutine (σ ε : Type) {ι : Type} (ρ : ι → Type) (ξ α : Type) : Type
  | done (a : α)
  | raise (x : ξ)
  | read (k : σ → ε → Coroutine σ ε ρ ξ α)
  | write (s : σ) (k : Coroutine σ ε ρ ξ α)
  | await (i : ι) (k : ρ i → Coroutine σ ε ρ ξ α)

namespace Coroutine

def bind : Coroutine σ ε ρ ξ α → (α → Coroutine σ ε ρ ξ β) → Coroutine σ ε ρ ξ β
  | done a, f => f a
  | raise x, _ => raise x
  | read k, f => read (fun s e => (k s e).bind f)
  | write s k, f => write s (k.bind f)
  | await i k, f => await i (fun r => (k r).bind f)

instance : Monad (Coroutine σ ε ρ ξ) where
  pure := done
  bind := bind

/-- Run to the next request or to the end. -/
def advance : Coroutine σ ε ρ ξ α → σ → ε → σ × Coroutine σ ε ρ ξ α
  | done a, s, _ => (s,done a)
  | raise x, s, _ => (s,raise x)
  | read k, s, e => (k s e).advance s e
  | write t k, _, e => k.advance t e
  | await i k, s, _ => (s,await i k)

/-- Whatever the replies, and however the surroundings change by `rely` between requests and replies, the coroutine
ends with `Q`, which is told the surroundings at the end, the own state, the replies and the result. -/
def Post (rely : ε → ε → Prop) (Q : ε → σ → List (Σ i, ρ i) → Except ξ α → Prop) :
    Coroutine σ ε ρ ξ α → ε → σ → List (Σ i, ρ i) → Prop
  | done a, e, s, w => Q e s w (.ok a)
  | raise x, e, s, w => Q e s w (.error x)
  | read k, e, s, w => (k s e).Post rely Q e s w
  | write t k, e, _, w => k.Post rely Q e t w
  | await i k, e, s, w => ∀ r e', rely e e' → (k r).Post rely Q e' s (w ++ [⟨i,r⟩])

/-- What the rest of a computation makes of the end of its first part. -/
def Next (rely : ε → ε → Prop) (Q : ε → σ → List (Σ i, ρ i) → Except ξ β → Prop) (f : α → Coroutine σ ε ρ ξ β)
    (e : ε) (s : σ) (w : List (Σ i, ρ i)) : Except ξ α → Prop
  | .ok a => (f a).Post rely Q e s w
  | .error x => Q e s w (.error x)

variable {rely : ε → ε → Prop} {e : ε} {s : σ} {w : List (Σ i, ρ i)}

theorem post_bind {Q : ε → σ → List (Σ i, ρ i) → Except ξ β → Prop} (p : Coroutine σ ε ρ ξ α)
    (f : α → Coroutine σ ε ρ ξ β) : (p >>= f).Post rely Q e s w ↔ p.Post rely (Next rely Q f) e s w := by
  change (p.bind f).Post rely Q e s w ↔ _
  induction p generalizing e s w with
  | done a => exact Iff.rfl
  | raise x => exact Iff.rfl
  | read k ih => exact ih s e
  | write t k ih => exact ih
  | await i k ih => exact forall_congr' (fun r => forall_congr' (fun e' => imp_congr_right (fun _ => ih r)))

theorem Post.mono {Q Q' : ε → σ → List (Σ i, ρ i) → Except ξ α → Prop} {p : Coroutine σ ε ρ ξ α}
    (h : p.Post rely Q e s w) (hQ : ∀ e s w x, Q e s w x → Q' e s w x) : p.Post rely Q' e s w := by
  induction p generalizing e s w with
  | done a => exact hQ _ _ _ _ h
  | raise x => exact hQ _ _ _ _ h
  | read k ih => exact ih s e h
  | write t k ih => exact ih h
  | await i k ih => exact fun r e' he => ih r (h r e' he)

theorem post_map {Q : ε → σ → List (Σ i, ρ i) → Except ξ β → Prop} {p : Coroutine σ ε ρ ξ α} {f : α → β} :
    (p >>= fun a => pure (f a)).Post rely Q e s w ↔ p.Post rely (fun e s w x => Q e s w (x.map f)) e s w := by
  rw [post_bind]
  constructor
  all_goals
    intro h
    apply h.mono
    rintro e s w (x | a) hQ
    · exact hQ
    · exact hQ

/-- Running to the next request loses nothing. -/
theorem post_advance {Q : ε → σ → List (Σ i, ρ i) → Except ξ α → Prop} {p : Coroutine σ ε ρ ξ α} :
    (p.advance s e).2.Post rely Q e (p.advance s e).1 w ↔ p.Post rely Q e s w := by
  induction p generalizing s with
  | done a => exact Iff.rfl
  | raise x => exact Iff.rfl
  | read k ih => exact ih s e
  | write t k ih => exact ih
  | await i k ih => exact Iff.rfl

/-- The coroutine is at a request. -/
def Waits : Coroutine σ ε ρ ξ α → Prop
  | await _ _ => True
  | _ => False

/-- A postcondition survives what happens while the coroutine waits. -/
theorem Waits.post_of_rely {Q : ε → σ → List (Σ i, ρ i) → Except ξ α → Prop} {p : Coroutine σ ε ρ ξ α} (h : p.Waits)
    (htrans : ∀ e₁ e₂ e₃, rely e₁ e₂ → rely e₂ e₃ → rely e₁ e₃) {e' : ε} (he : rely e e')
    (hp : p.Post rely Q e s w) : p.Post rely Q e' s w := by
  cases p with
  | await i k => exact fun r e'' he'' => hp r e'' (htrans _ _ _ he he'')
  | done a => exact h.elim
  | raise x => exact h.elim
  | read k => exact h.elim
  | write t k => exact h.elim

/-- How a stretch of running ended, if not at a request -/
def result : Coroutine σ ε ρ ξ α → Option (Except ξ α)
  | done a => some (.ok a)
  | raise x => some (.error x)
  | _ => none

theorem advance_cases (p : Coroutine σ ε ρ ξ α) (s : σ) (e : ε) :
    (∃ x, (p.advance s e).2.result = some x) ∨ (p.advance s e).2.result = none ∧ (p.advance s e).2.Waits := by
  induction p generalizing s with
  | done a => exact Or.inl ⟨_,rfl⟩
  | raise x => exact Or.inl ⟨_,rfl⟩
  | read k ih => exact ih s e s
  | write t k ih => exact ih t
  | await i k ih => exact Or.inr ⟨rfl,trivial⟩

theorem post_of_result {Q : ε → σ → List (Σ i, ρ i) → Except ξ α → Prop} {p : Coroutine σ ε ρ ξ α}
    {x : Except ξ α} (hx : p.result = some x) (h : p.Post rely Q e s w) : Q e s w x := by
  cases p with
  | done a =>
    cases hx
    exact h
  | raise y =>
    cases hx
    exact h
  | read k => cases hx
  | write t k => cases hx
  | await i k => cases hx

end Coroutine

/-- A call in progress, with what it started from, what was around it then, and the replies it got so far. -/
structure Running (σ ε : Type) {ι : Type} (ρ : ι → Type) (ξ α κ : Type) where
  call : κ
  started : σ
  since : ε
  replies : List (Σ i, ρ i)
  rest : Coroutine σ ε ρ ξ α

structure Task (σ ε : Type) {ι : Type} (ρ : ι → Type) (ξ α κ : Type) where
  own : σ
  running : Option (Running σ ε ρ ξ α κ) := none

inductive Entry (σ ε : Type) {ι : Type} (ρ : ι → Type) (ξ α κ δ : Type)
  | changed (d : δ)
  /-- A task was made, with this state. -/
  | created (n : ℕ) (own : σ)
  | called (n : ℕ) (call : κ)
  | replied (n : ℕ)
  /-- A call ended that had begun in these surroundings. -/
  | finished (n : ℕ) (call : κ) (since : ε) (replies : List (Σ i, ρ i)) (result : Except ξ α)

/-- The tasks, what is around them, and what happened so far, the latest first. -/
structure Tasks (σ ε : Type) {ι : Type} (ρ : ι → Type) (ξ α κ δ : Type) where
  table : TaskTable (Task σ ε ρ ξ α κ) := .empty
  around : ε
  log : List (Entry σ ε ρ ξ α κ δ) := []

/-- The calls of a program, and how its surroundings change. -/
structure Calls (σ ε : Type) {ι : Type} (ρ : ι → Type) (ξ α κ δ : Type) where
  body : κ → Coroutine σ ε ρ ξ α
  empty : σ
  around : ε
  effect : δ → ε → ε
  /-- A call that needs this may start. -/
  allowed : κ → ε → Bool
  /-- A call in progress keeps this from happening. -/
  prevents : κ → δ → Bool

namespace Calls

/-- What may happen: a task inherits the state of the one that makes it. -/
inductive Event {ι : Type} (ρ : ι → Type) (κ δ : Type)
  | change (d : δ)
  | create (creator : Option ℕ)
  | call (n : ℕ) (c : κ)
  | reply (n : ℕ) (r : ∀ i, ρ i)

variable (P : Calls σ ε ρ ξ α κ δ)

/-- Move task `n` on with its call: until it waits or until the call ends. -/
def moved (S : Tasks σ ε ρ ξ α κ δ) (n : ℕ) (s : σ) (r : Running σ ε ρ ξ α κ) (entry : Entry σ ε ρ ξ α κ δ) :
    Tasks σ ε ρ ξ α κ δ :=
  let (t,rest) := r.rest.advance s S.around
  match rest.result with
  | some x =>
    { S with
      table := S.table.set n (some { own := t })
      log := .finished n r.call r.since r.replies x :: entry :: S.log }
  | none =>
    { S with
      table := S.table.set n (some { own := t, running := some { r with rest := rest } })
      log := entry :: S.log }

def step (S : Tasks σ ε ρ ξ α κ δ) : Event ρ κ δ → Option (Tasks σ ε ρ ξ α κ δ)
  | .change d =>
    if S.table.count (fun t => t.running.any (fun r => P.prevents r.call d)) = 0 then
      some { S with around := P.effect d S.around, log := .changed d :: S.log }
    else none
  | .create none =>
    some { S with
      table := S.table.spawn { own := P.empty }
      log := .created S.table.next P.empty :: S.log }
  | .create (some m) => do
    let t ← S.table.get m
    return { S with
      table := S.table.spawn { own := t.own }
      log := .created S.table.next t.own :: S.log }
  | .call n c => do
    let t ← S.table.get n
    match t.running with
    | some _ => none
    | none =>
      if P.allowed c S.around then
        some (moved S n t.own ⟨c,t.own,S.around,[],P.body c⟩ (.called n c))
      else none
  | .reply n r => do
    let t ← S.table.get n
    let running ← t.running
    match running.rest with
    | .await i k =>
      some (moved S n t.own { running with replies := running.replies ++ [⟨i,r i⟩], rest := k (r i) } (.replied n))
    | _ => none

def system : System (Tasks σ ε ρ ξ α κ δ) (Event ρ κ δ) where
  init S := S = { around := P.around }
  step := P.step

/-- How task `t` moves on: with a new call, or with the reply it waits for. -/
inductive Moves (P : Calls σ ε ρ ξ α κ δ) (S : Tasks σ ε ρ ξ α κ δ) (n : ℕ) (t : Task σ ε ρ ξ α κ) :
    Running σ ε ρ ξ α κ → Entry σ ε ρ ξ α κ δ → Prop
  | called (c : κ) : t.running = none → P.allowed c S.around = true →
      Moves P S n t ⟨c,t.own,S.around,[],P.body c⟩ (.called n c)
  | replied (q : Running σ ε ρ ξ α κ) (i : ι) (k : ρ i → Coroutine σ ε ρ ξ α) (x : ρ i) : t.running = some q →
      q.rest = .await i k → Moves P S n t { q with replies := q.replies ++ [⟨i,x⟩], rest := k x } (.replied n)

inductive Steps (P : Calls σ ε ρ ξ α κ δ) (S : Tasks σ ε ρ ξ α κ δ) : Tasks σ ε ρ ξ α κ δ → Prop
  | changed (d : δ) : S.table.count (fun t => t.running.any (fun r => P.prevents r.call d)) = 0 →
      Steps P S { S with around := P.effect d S.around, log := .changed d :: S.log }
  | created (own : σ) : (own = P.empty ∨ ∃ m t, S.table.get m = some t ∧ own = t.own) →
      Steps P S { S with table := S.table.spawn { own := own }, log := .created S.table.next own :: S.log }
  | moved {n : ℕ} {t : Task σ ε ρ ξ α κ} {r : Running σ ε ρ ξ α κ} {entry : Entry σ ε ρ ξ α κ δ} :
      S.table.get n = some t → Moves P S n t r entry → Steps P S (Calls.moved S n t.own r entry)

variable {P}

theorem steps_of_step {S S' : Tasks σ ε ρ ξ α κ δ} {event : Event ρ κ δ} (h : P.step S event = some S') :
    Steps P S S' := by
  cases event with
  | change d =>
    simp only [step] at h
    split at h
    · cases h
      exact .changed d ‹_›
    · cases h
  | create creator =>
    cases creator with
    | none =>
      cases h
      exact .created P.empty (Or.inl rfl)
    | some m =>
      obtain ⟨t,ht,h⟩ := Option.bind_eq_some_iff.mp h
      cases h
      exact .created t.own (Or.inr ⟨m,t,ht,rfl⟩)
  | call n c =>
    obtain ⟨t,ht,h⟩ := Option.bind_eq_some_iff.mp h
    cases hr : t.running with
    | some q => simp [hr] at h
    | none =>
      simp only [hr] at h
      split at h
      · cases h
        exact .moved ht (.called c hr ‹_›)
      · cases h
  | reply n r =>
    obtain ⟨t,ht,h⟩ := Option.bind_eq_some_iff.mp h
    obtain ⟨q,hq,h⟩ := Option.bind_eq_some_iff.mp h
    cases hk : q.rest with
    | await i k =>
      simp only [hk] at h
      cases h
      exact .moved ht (.replied q i k (r i) hq hk)
    | done a => simp [hk] at h
    | raise x => simp [hk] at h
    | read k => simp [hk] at h
    | write s k => simp [hk] at h

theorem Moves.entry {S : Tasks σ ε ρ ξ α κ δ} {n : ℕ} {t : Task σ ε ρ ξ α κ} {r : Running σ ε ρ ξ α κ}
    {entry : Entry σ ε ρ ξ α κ δ} (h : Moves P S n t r entry) : (∃ c, entry = .called n c) ∨ entry = .replied n := by
  cases h with
  | called c _ _ => exact Or.inl ⟨c,rfl⟩
  | replied q i k x _ _ => exact Or.inr rfl

structure Relied (P : Calls σ ε ρ ξ α κ δ) (rely : ε → ε → Prop) : Prop where
  refl : ∀ e, rely e e
  trans : ∀ e₁ e₂ e₃, rely e₁ e₂ → rely e₂ e₃ → rely e₁ e₃
  effect : ∀ d e, rely e (P.effect d e)

/-- What is left of a call has every postcondition that the call has. -/
def Due (P : Calls σ ε ρ ξ α κ δ) (rely : ε → ε → Prop) (r : Running σ ε ρ ξ α κ) (own : σ) (e : ε) : Prop :=
  P.allowed r.call r.since = true ∧
    ∀ Q, (P.body r.call).Post rely Q r.since r.started [] → r.rest.Post rely Q e own r.replies

def Sound (P : Calls σ ε ρ ξ α κ δ) (rely : ε → ε → Prop) (S : Tasks σ ε ρ ξ α κ δ) : Prop :=
  ∀ n t r, S.table.get n = some t → t.running = some r → r.rest.Waits ∧ Due P rely r t.own S.around

variable {rely : ε → ε → Prop} {S : Tasks σ ε ρ ξ α κ δ}

theorem Sound.due (h : Sound P rely S) (hrely : Relied P rely) {n : ℕ} {t : Task σ ε ρ ξ α κ}
    {r : Running σ ε ρ ξ α κ} {entry : Entry σ ε ρ ξ α κ δ} (ht : S.table.get n = some t) (hm : Moves P S n t r entry) :
    Due P rely r t.own S.around := by
  cases hm with
  | called c _ hc => exact ⟨hc,fun Q hQ => hQ⟩
  | replied q i k x hq hk =>
    obtain ⟨_,hc,hd⟩ := h n t q ht hq
    refine ⟨hc,fun Q hQ => ?_⟩
    have hwait := hd Q hQ
    rw [hk] at hwait
    exact hwait x S.around (hrely.refl S.around)

theorem moved_cases (rely : ε → ε → Prop) (S : Tasks σ ε ρ ξ α κ δ) (n : ℕ) (s : σ) (r : Running σ ε ρ ξ α κ)
    (entry : Entry σ ε ρ ξ α κ δ) :
    (∃ x own, moved S n s r entry =
        { S with
          table := S.table.set n (some { own := own })
          log := .finished n r.call r.since r.replies x :: entry :: S.log } ∧
      ∀ Q, r.rest.Post rely Q S.around s r.replies → Q S.around own r.replies x) ∨
    (∃ own rest, moved S n s r entry =
        { S with
          table := S.table.set n (some { own := own, running := some { r with rest := rest } })
          log := entry :: S.log } ∧ rest.Waits ∧
      ∀ Q, r.rest.Post rely Q S.around s r.replies → rest.Post rely Q S.around own r.replies) := by
  rcases r.rest.advance_cases s S.around with ⟨x,hx⟩ | ⟨hx,hw⟩
  · refine Or.inl ⟨x,(r.rest.advance s S.around).1,?_,fun Q h => ?_⟩
    · simp [moved,hx]
    · exact Coroutine.post_of_result hx (Coroutine.post_advance.mpr h)
  · refine Or.inr ⟨(r.rest.advance s S.around).1,(r.rest.advance s S.around).2,?_,hw,fun Q h => ?_⟩
    · simp [moved,hx]
    · exact Coroutine.post_advance.mpr h

theorem sound_of_reachable (hrely : Relied P rely) (hr : P.system.Reachable S) : Sound P rely S := by
  refine hr.invariant ?_ ?_
  · rintro S rfl n t r ht
    simp at ht
  · intro S event S' ih _ hstep
    cases steps_of_step hstep with
    | changed d _ =>
      intro n t r ht hr
      obtain ⟨hw,hc,hd⟩ := ih n t r ht hr
      exact ⟨hw,hc,fun Q hQ => hw.post_of_rely hrely.trans (hrely.effect d S.around) (hd Q hQ)⟩
    | created own _ =>
      intro n t r ht hr
      rcases TaskTable.get_spawn_cases ht with ⟨-,rfl⟩ | ht
      · cases hr
      · exact ih n t r ht hr
    | @moved m u q entry hu hm =>
      rcases moved_cases rely S m u.own q entry with ⟨x,own,he,-⟩ | ⟨own,rest,he,hw,hpost⟩
      all_goals
        rw [he]
        intro n t r ht hr
        rcases TaskTable.get_set_cases ht with ⟨-,ht⟩ | ⟨-,ht⟩
      · cases ht
        cases hr
      · exact ih n t r ht hr
      · cases ht
        cases hr
        obtain ⟨hc,hd⟩ := ih.due hrely hu hm
        exact ⟨hw,hc,fun Q hQ => hpost Q (hd Q hQ)⟩
      · exact ih n t r ht hr

/-- What every call ensures holds of a call that has just ended. -/
theorem post_of_finished {Q : κ → ε → ε → σ → List (Σ i, ρ i) → Except ξ α → Prop} (hrely : Relied P rely)
    (hpost : ∀ c s e, P.allowed c e = true → (P.body c).Post rely (Q c e) e s []) (hr : P.system.Reachable S)
    {n : ℕ} {c : κ} {since : ε} {w : List (Σ i, ρ i)} {x : Except ξ α} {log : List (Entry σ ε ρ ξ α κ δ)}
    (hlog : S.log = .finished n c since w x :: log) :
    ∃ own, S.table.get n = some { own := own } ∧ Q c since S.around own w x := by
  cases hr with
  | init h => simp [show S = { around := P.around } from h] at hlog
  | @step S₀ _ event hr₀ _ hstep =>
    cases steps_of_step hstep with
    | changed d _ => cases hlog
    | created own _ => cases hlog
    | @moved m u q entry hu hm =>
      rcases moved_cases rely S₀ m u.own q entry with ⟨y,own,he,hp⟩ | ⟨own,rest,he,-⟩
      · rw [he] at hlog ⊢
        cases hlog
        obtain ⟨hc,hd⟩ := (sound_of_reachable hrely hr₀).due hrely hu hm
        exact ⟨own,by simp [TaskTable.get_set hu],hp (Q q.call q.since) (hd _ (hpost q.call q.started q.since hc))⟩
      · rw [he] at hlog
        cases hlog
        rcases hm.entry with ⟨c',hc⟩ | hc <;> cases hc

section Observed
variable (P) (obs : σ → β) (outcome : κ → List (Σ i, ρ i) → Except ξ α → β → β)

/-- What task `n` has come to by its own calls, from what its creator had -/
def expected : List (Entry σ ε ρ ξ α κ δ) → ℕ → β
  | [], _ => obs P.empty
  | .created m own :: log, n => if n = m then obs own else expected log n
  | .finished m c _ w x :: log, n => if n = m then outcome c w x (expected log n) else expected log n
  | .changed _ :: log, n => expected log n
  | .called _ _ :: log, n => expected log n
  | .replied _ :: log, n => expected log n

def settled (t : Task σ ε ρ ξ α κ) : σ := t.running.elim t.own (fun r => r.started)

variable {P obs outcome}

theorem Moves.expected_cons {n : ℕ} {t : Task σ ε ρ ξ α κ} {r : Running σ ε ρ ξ α κ} {entry : Entry σ ε ρ ξ α κ δ}
    (h : Moves P S n t r entry) (log : List (Entry σ ε ρ ξ α κ δ)) (m : ℕ) :
    expected P obs outcome (entry :: log) m = expected P obs outcome log m := by
  rcases h.entry with ⟨c,rfl⟩ | rfl <;> rfl

theorem Moves.settled {n : ℕ} {t : Task σ ε ρ ξ α κ} {r : Running σ ε ρ ξ α κ} {entry : Entry σ ε ρ ξ α κ δ}
    (h : Moves P S n t r entry) : settled t = r.started := by
  cases h with
  | called c hr _ => simp [Calls.settled,hr]
  | replied q i k x hr _ => simp [Calls.settled,hr]

/-- Whatever the other tasks do meanwhile, a task observes what its own calls have led to, as long as `ok` lasts. -/
theorem observed_eq_expected {ok : ε → Prop} (hrely : Relied P rely) (hok : ∀ {e e'}, rely e e' → ok e' → ok e)
    (hpost : ∀ c s e, P.allowed c e = true →
      (P.body c).Post rely (fun e' t w x => ok e' → obs t = outcome c w x (obs s)) e s [])
    (hr : P.system.Reachable S) (haround : ok S.around) {n : ℕ} {t : Task σ ε ρ ξ α κ} (ht : S.table.get n = some t) :
    obs (settled t) = expected P obs outcome S.log n := by
  revert haround n t
  refine hr.invariant_of (K := Sound P rely)
    (I := fun S => ok S.around → ∀ {n t}, S.table.get n = some t → obs (settled t) = expected P obs outcome S.log n)
    (sound_of_reachable hrely) ?_ ?_
  · rintro S rfl _ n t ht
    simp at ht
  · intro S event S' hsound _ ih _ hstep hok' n t ht
    cases steps_of_step hstep with
    | changed d _ => exact ih (hok (hrely.effect d S.around) hok') ht
    | created own _ =>
      rcases TaskTable.get_spawn_cases ht with ⟨rfl,rfl⟩ | hold
      · simp [expected,Calls.settled]
      · have hne : n ≠ S.table.next := (TaskTable.lt_next hold).ne
        simpa [expected,hne] using ih hok' hold
    | @moved m u q entry hu hm =>
      rcases moved_cases rely S m u.own q entry with ⟨y,own,he,hp⟩ | ⟨own,rest,he,-⟩
      all_goals
        rw [he] at hok' ht ⊢
        have hstarted : obs q.started = expected P obs outcome S.log m := by
          rw [← hm.settled]
          exact ih hok' hu
        rcases TaskTable.get_set_cases ht with ⟨rfl,hnew⟩ | ⟨hne,hold⟩
      · cases hnew
        obtain ⟨hc,hd⟩ := hsound.due hrely hu hm
        have hend := hp _ (hd _ (hpost q.call q.started q.since hc)) hok'
        simp [expected,Calls.settled,hm.expected_cons,hend,hstarted]
      · simpa [expected,hne,hm.expected_cons] using ih hok' hold
      · cases hnew
        rw [hm.expected_cons]
        exact hstarted
      · rw [hm.expected_cons]
        exact ih hok' hold

end Observed
end Calls
end TruenasCE.Library
