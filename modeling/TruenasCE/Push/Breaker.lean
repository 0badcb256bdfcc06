import TruenasCE.Push.Consumer

/-! # When a breaker trips

A closed breaker counts the batches over the threshold since the last one that was not. What it does is told
by the sizes of the batches since the last reset.
-/
namespace TruenasCE.Push

inductive BreakerUse
  | batch (now : ℤ) (messageCount : ℕ)
  | reset

namespace CircuitBreaker

def after (config : CircuitBreakerConfig) : List BreakerUse → CircuitBreaker
  | [] => { config := config }
  | .batch now messageCount :: past => ((after config past).recordBatch now messageCount).1
  | .reset :: past => (after config past).reset

def sinceReset : List BreakerUse → List ℕ
  | [] => []
  | .batch _ messageCount :: past => messageCount :: sinceReset past
  | .reset :: _ => []

def Exceeds (config : CircuitBreakerConfig) (messageCount : ℕ) : Prop := config.messageThreshold < messageCount

instance (config : CircuitBreakerConfig) (messageCount : ℕ) : Decidable (Exceeds config messageCount) :=
  inferInstanceAs (Decidable (_ < _))

/-- There are at least as many batches as the streak needs, and the last ones of them all exceed the threshold. -/
def Streak (config : CircuitBreakerConfig) (sizes : List ℕ) : Prop :=
  config.consecutiveBreachesToTrip ≤ sizes.length ∧
    ∀ messageCount ∈ sizes.take config.consecutiveBreachesToTrip.toNat, Exceeds config messageCount

section Counting
variable {α : Type*} {p : α → Bool} {xs : List α} {n : ℕ}

theorem le_length_takeWhile_iff : n ≤ (xs.takeWhile p).length ↔ n ≤ xs.length ∧ ∀ x ∈ xs.take n, p x = true := by
  induction xs generalizing n with
  | nil => simp
  | cons x rest ih =>
    cases n with
    | zero => simp
    | succ n =>
      rw [List.takeWhile_cons,List.take_succ_cons,List.forall_mem_cons,List.length_cons,Nat.succ_le_succ_iff]
      cases hp : p x with
      | true =>
        rw [if_pos rfl,List.length_cons,Nat.succ_le_succ_iff,ih]
        simp
      | false => simp

end Counting

section Law
variable {config : CircuitBreakerConfig} {past : List BreakerUse} {b : CircuitBreaker} {now : ℤ} {messageCount : ℕ}

/-- The batches over the threshold since the last one that was not. -/
def breaches (config : CircuitBreakerConfig) (sizes : List ℕ) : ℕ :=
  (sizes.takeWhile (fun messageCount => decide (Exceeds config messageCount))).length

theorem breaches_cons (config : CircuitBreakerConfig) (messageCount : ℕ) (sizes : List ℕ) :
    breaches config (messageCount :: sizes) = if Exceeds config messageCount then breaches config sizes + 1 else 0 := by
  unfold breaches
  rw [List.takeWhile_cons]
  by_cases h : Exceeds config messageCount
  · simp [h]
  · simp [h]

theorem streak_iff {sizes : List ℕ} : Streak config sizes ↔ config.consecutiveBreachesToTrip ≤ breaches config sizes := by
  unfold Streak breaches
  rw [← Int.toNat_le,← Int.toNat_le,le_length_takeWhile_iff]
  simp only [decide_eq_true_eq]

theorem recordBatch_of_tripped (h : b.tripped = true) : b.recordBatch now messageCount = (b,false) := by
  rw [recordBatch,if_pos h]

def counted (b : CircuitBreaker) (messageCount : ℕ) : ℕ :=
  if Exceeds b.config messageCount then b.consecutiveBreaches + 1 else 0

/-- A batch either stays below the streak or trips the breaker. -/
theorem recordBatch_of_closed (h : b.tripped = false) : b.recordBatch now messageCount =
    if (b.counted messageCount : ℤ) < b.config.consecutiveBreachesToTrip
      then ({ b with consecutiveBreaches := b.counted messageCount },false)
      else ({ b with consecutiveBreaches := b.counted messageCount, tripped := true, openedAt := some now },true) := by
  unfold recordBatch
  rw [h,if_neg Bool.false_ne_true]
  rfl

@[simp] theorem config_recordBatch : (b.recordBatch now messageCount).1.config = b.config := by
  cases h : b.tripped with
  | true => rw [recordBatch_of_tripped h]
  | false =>
    rw [recordBatch_of_closed h]
    split
    · rfl
    · rfl

theorem tripped_recordBatch (b : CircuitBreaker) (now : ℤ) (messageCount : ℕ) :
    (b.recordBatch now messageCount).1.tripped = (b.tripped || (b.recordBatch now messageCount).2) := by
  cases h : b.tripped with
  | true => rw [recordBatch_of_tripped h,h,Bool.true_or]
  | false =>
    rw [recordBatch_of_closed h]
    split
    · exact h
    · rfl

theorem openedAt_of_trips (h : (b.recordBatch now messageCount).2 = true) :
    (b.recordBatch now messageCount).1.openedAt = some now := by
  cases ht : b.tripped with
  | true =>
    rw [recordBatch_of_tripped ht] at h
    cases h
  | false =>
    rw [recordBatch_of_closed ht] at h ⊢
    split at h
    · cases h
    · rename_i hbelow
      rw [if_neg hbelow]

/-- A breaker counts the batches since its last reset as long as it is closed. -/
structure Counts (config : CircuitBreakerConfig) (past : List BreakerUse) (b : CircuitBreaker) : Prop where
  same : b.config = config
  closed : b.tripped = false → b.consecutiveBreaches = breaches config (sinceReset past)

theorem Counts.recordBatch (h : Counts config past b) (now : ℤ) (messageCount : ℕ) :
    Counts config (.batch now messageCount :: past) (b.recordBatch now messageCount).1 := by
  refine ⟨config_recordBatch.trans h.same,fun hclosed => ?_⟩
  cases ht : b.tripped with
  | true =>
    rw [recordBatch_of_tripped ht,ht] at hclosed
    cases hclosed
  | false =>
    rw [recordBatch_of_closed ht] at hclosed ⊢
    rw [sinceReset,breaches_cons,← h.closed ht,← h.same]
    split at hclosed
    · rename_i hbelow
      rw [if_pos hbelow]
      rfl
    · cases hclosed

theorem counts_after (config : CircuitBreakerConfig) (past : List BreakerUse) : Counts config past (after config past) := by
  induction past with
  | nil => exact ⟨rfl,fun _ => rfl⟩
  | cons use past ih =>
    cases use with
    | batch now messageCount => exact ih.recordBatch now messageCount
    | reset => exact ⟨ih.same,fun _ => rfl⟩

theorem trips_iff (h : (after config past).tripped = false) :
    ((after config past).recordBatch now messageCount).2 = true ↔ Streak config (messageCount :: sinceReset past) := by
  have hcounts := counts_after config past
  have hbreaches : breaches config (messageCount :: sinceReset past) = (after config past).counted messageCount := by
    rw [breaches_cons,← hcounts.closed h,counted,hcounts.same]
  rw [recordBatch_of_closed h,streak_iff,hbreaches,hcounts.same]
  split
  · rename_i hbelow
    exact ⟨fun heq => (nomatch heq),fun hle => absurd hbelow (Int.not_lt.mpr hle)⟩
  · rename_i hbelow
    exact ⟨fun _ => Int.not_lt.mp hbelow,fun _ => rfl⟩

end Law

end CircuitBreaker
end TruenasCE.Push
