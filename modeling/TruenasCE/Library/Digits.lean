import Mathlib.Data.Nat.Bitwise
import Mathlib.Tactic.Ring

/-! # Numbers in digits

A number as a list of digits of one base, the highest first, and its texts.
-/
namespace TruenasCE.Library

/-- The number that digits stand for behind those that have been read already. -/
def readDigits (b : ℕ) (read : ℕ) (digits : List ℕ) : ℕ := digits.foldl (fun n d => n * b + d) read

def fixedDigits (b : ℕ) : ℕ → ℕ → List ℕ
  | 0,_ => []
  | k + 1,n => (n / b ^ k % b) :: fixedDigits b k n

variable {b : ℕ}

@[simp]
theorem length_fixedDigits (k n : ℕ) : (fixedDigits b k n).length = k := by
  induction k with
  | zero => rfl
  | succ k ih => simp [fixedDigits,ih]

theorem lt_of_mem_fixedDigits (hb : 0 < b) {k n d : ℕ} (hd : d ∈ fixedDigits b k n) : d < b := by
  induction k with
  | zero => cases hd
  | succ k ih =>
    rcases List.mem_cons.mp hd with rfl | hd
    · exact Nat.mod_lt _ hb
    · exact ih hd

theorem readDigits_append (read : ℕ) (ds es : List ℕ) :
    readDigits b read (ds ++ es) = readDigits b (readDigits b read ds) es := List.foldl_append

/-- What has been read already is moved up. -/
theorem readDigits_eq (read : ℕ) (ds : List ℕ) : readDigits b read ds = read * b ^ ds.length + readDigits b 0 ds := by
  induction ds generalizing read with
  | nil => simp [readDigits]
  | cons d ds ih =>
    have hread : readDigits b read (d :: ds) = readDigits b (read * b + d) ds := rfl
    have hzero : readDigits b 0 (d :: ds) = readDigits b (0 * b + d) ds := rfl
    rw [hread,hzero,ih,ih (0 * b + d),List.length_cons,pow_succ]
    ring

theorem readDigits_replicate_zero (read k : ℕ) : readDigits b read (List.replicate k 0) = read * b ^ k := by
  induction k generalizing read with
  | zero => simp [readDigits]
  | succ k ih =>
    have hread : readDigits b read (List.replicate (k + 1) 0) = readDigits b (read * b + 0) (List.replicate k 0) := rfl
    rw [hread,ih,pow_succ]
    ring

theorem readDigits_lt {ds : List ℕ} (h : ∀ d ∈ ds, d < b) : readDigits b 0 ds < b ^ ds.length := by
  induction ds with
  | nil => simp [readDigits]
  | cons d ds ih =>
    have hcons : readDigits b 0 (d :: ds) = readDigits b d ds := by simp [readDigits]
    have hrest := ih (fun e he => h e (List.mem_cons_of_mem d he))
    have hd : (d + 1) * b ^ ds.length ≤ b * b ^ ds.length := Nat.mul_le_mul_right _ (h d List.mem_cons_self)
    rw [hcons,readDigits_eq,List.length_cons,pow_succ']
    have hadd : (d + 1) * b ^ ds.length = d * b ^ ds.length + b ^ ds.length := by ring
    omega

theorem readDigits_fixedDigits (k n : ℕ) : readDigits b 0 (fixedDigits b k n) = n % b ^ k := by
  induction k with
  | zero => simp [readDigits,fixedDigits,Nat.mod_one]
  | succ k ih =>
    have hcons : readDigits b 0 (fixedDigits b (k + 1) n) = readDigits b (n / b ^ k % b) (fixedDigits b k n) := by
      simp [readDigits,fixedDigits]
    rw [hcons,readDigits_eq,ih,length_fixedDigits,Nat.mod_pow_succ]
    ring

/-- Shifting and setting bits is reading a digit of a power of two. -/
theorem readDigits_eq_foldl_or {i : ℕ} {ds : List ℕ} (h : ∀ d ∈ ds, d < 2 ^ i) (read : ℕ) :
    ds.foldl (fun n d => n <<< i ||| d) read = readDigits (2 ^ i) read ds := by
  induction ds generalizing read with
  | nil => rfl
  | cons d ds ih =>
    have hor : read <<< i ||| d = read * 2 ^ i + d := by
      rw [← Nat.shiftLeft_add_eq_or_of_lt (h d List.mem_cons_self),Nat.shiftLeft_eq]
    have hrest := ih (fun e he => h e (List.mem_cons_of_mem d he)) (read * 2 ^ i + d)
    rw [List.foldl_cons,hor,hrest]
    rfl

/-- The number of a text, with the digits that characters stand for. -/
def readText (b : ℕ) (value : Char → ℕ) (s : List Char) : ℕ := s.foldl (fun n c => b * n + value c) 0

theorem readText_append (value : Char → ℕ) (s : List Char) (c : Char) :
    readText b value (s ++ [c]) = b * readText b value s + value c := by
  rw [readText,List.foldl_append]
  rfl

/-- What is written in a base is read again. -/
theorem readText_toDigits (hb : 1 < b) {value : Char → ℕ} (h : ∀ d, d < b → value d.digitChar = d) (n : ℕ) :
    readText b value (Nat.toDigits b n) = n := by
  induction n using Nat.strong_induction_on with
  | h n ih =>
    rw [Nat.toDigits_eq_if hb]
    split
    · rename_i hlt
      simp [readText,h n hlt]
    · rename_i hge
      have hdiv : n / b < n := Nat.div_lt_self (by omega) hb
      rw [readText_append,ih _ hdiv,h _ (Nat.mod_lt n (by omega)),Nat.div_add_mod]

theorem readText_eq (value : Char → ℕ) (s : List Char) : readText b value s = readDigits b 0 (s.map value) := by
  rw [readDigits,List.foldl_map,readText]
  simp only [Nat.mul_comm b]

theorem readText_lt {value : Char → ℕ} {s : List Char} (h : ∀ c ∈ s, value c < b) :
    readText b value s < b ^ s.length := by
  have hlt : ∀ d ∈ s.map value, d < b := by
    intro d hd
    obtain ⟨c,hc,rfl⟩ := List.mem_map.mp hd
    exact h c hc
  rw [readText_eq,← s.length_map value]
  exact readDigits_lt hlt

theorem mem_toDigits (hb : 1 < b) {n : ℕ} {c : Char} (hc : c ∈ Nat.toDigits b n) : ∃ d, d < b ∧ c = d.digitChar := by
  induction n using Nat.strong_induction_on with
  | h n ih =>
    rw [Nat.toDigits_eq_if hb] at hc
    split at hc
    · rename_i hlt
      exact ⟨n,hlt,List.mem_singleton.mp hc⟩
    · rename_i hge
      rcases List.mem_append.mp hc with hc | hc
      · exact ih _ (Nat.div_lt_self (by omega) hb) hc
      · exact ⟨n % b,Nat.mod_lt n (by omega),List.mem_singleton.mp hc⟩

/-- Only zero is written with a zero in front. -/
theorem head?_toDigits (hb : 1 < b) {n : ℕ} (hn : n ≠ 0) : (Nat.toDigits b n).head? ≠ some '0' := by
  induction n using Nat.strong_induction_on with
  | h n ih =>
    rw [Nat.toDigits_eq_if hb]
    split
    · simpa using hn
    · rename_i hge
      have hdiv : n / b ≠ 0 := by
        rw [Nat.div_ne_zero_iff]
        omega
      have hrest := ih _ (Nat.div_lt_self (by omega) hb) hdiv
      obtain ⟨c,s,hs⟩ := List.exists_cons_of_ne_nil (Nat.toDigits_ne_nil (n := n / b) (b := b))
      rw [hs] at hrest ⊢
      exact hrest

end TruenasCE.Library
