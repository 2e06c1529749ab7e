import LedgerWire.Positional
import Mathlib.Data.List.Basic
import Mathlib.Data.List.Induction

namespace LedgerWire.Positional

/-!
Powers of a base and lengths of numerals: a number has at most `places` decimal digits exactly when
it is below `10 ^ places`, and scaling it by a power of ten lengthens it by the exponent. The digits
of a number denote it, and are the only digits without a leading zero that do.
-/

@[simp] theorem weight_zero (base : Nat) : weight base 0 = 1 := rfl

theorem weight_succ (base place : Nat) : weight base (place + 1) = weight base place * base := rfl

theorem weight_pos {base : Nat} (positive : 0 < base) (place : Nat) : 0 < weight base place :=
  Nat.pow_pos positive

theorem weight_add (base left right : Nat) :
    weight base (left + right) = weight base left * weight base right :=
  Nat.pow_add base left right

theorem weight_mono {base left right : Nat} (positive : 0 < base) (ordered : left ≤ right) :
    weight base left ≤ weight base right :=
  Nat.pow_le_pow_right positive ordered

theorem decimalLength_zero : decimalLength 0 = 0 := by
  rw [decimalLength.eq_def]
  rfl

theorem decimalLength_of_pos {number : Nat} (positive : 0 < number) :
    decimalLength number = decimalLength (number / 10) + 1 := by
  rw [decimalLength.eq_def, if_pos positive]

theorem decimalLength_pos {number : Nat} (positive : 0 < number) : 0 < decimalLength number := by
  rw [decimalLength_of_pos positive]
  exact Nat.succ_pos _

theorem decimalLength_le_iff {number places : Nat} :
    decimalLength number ≤ places ↔ number < weight 10 places := by
  induction places generalizing number with
  | zero =>
      by_cases positive : 0 < number
      · rw [decimalLength_of_pos positive, weight_zero]
        omega
      · have zero : number = 0 := by omega
        rw [zero, decimalLength_zero]
        exact ⟨fun _ => Nat.one_pos, fun _ => Nat.le_refl 0⟩
  | succ places ih =>
      by_cases positive : 0 < number
      · rw [decimalLength_of_pos positive, Nat.add_le_add_iff_right, ih, weight_succ]
        omega
      · have zero : number = 0 := by omega
        rw [zero, decimalLength_zero]
        exact ⟨fun _ => weight_pos (by decide) _, fun _ => Nat.zero_le _⟩

theorem lt_weight_decimalLength (number : Nat) : number < weight 10 (decimalLength number) :=
  decimalLength_le_iff.mp (Nat.le_refl _)

theorem weight_le_of_lt_decimalLength {number places : Nat}
    (longer : places < decimalLength number) : weight 10 places ≤ number :=
  Nat.le_of_not_lt fun small => Nat.not_le.mpr longer (decimalLength_le_iff.mpr small)

theorem decimalLength_scaled {number : Nat} (positive : 0 < number) (places : Nat) :
    decimalLength (number * weight 10 places) = decimalLength number + places := by
  induction places with
  | zero => rw [weight_zero, Nat.mul_one, Nat.add_zero]
  | succ places ih =>
      have scaled : 0 < number * weight 10 places :=
        Nat.mul_pos positive (weight_pos (by decide) places)
      have shorter : number * weight 10 (places + 1) / 10 = number * weight 10 places := by
        rw [weight_succ, ← Nat.mul_assoc, Nat.mul_div_cancel _ (by decide)]
      rw [decimalLength_of_pos, shorter, ih, Nat.add_assoc]
      rw [weight_succ, ← Nat.mul_assoc]
      omega

/-- Every positive number is one without a trailing zero times a power of ten. -/
theorem exists_stripped {number : Nat} (positive : 0 < number) :
    ∃ stripped places, stripped % 10 ≠ 0 ∧ number = stripped * weight 10 places := by
  induction number using Nat.strongRecOn with
  | ind number ih =>
      by_cases trailing : number % 10 = 0
      · obtain ⟨stripped, places, last, tenth⟩ := ih (number / 10) (by omega) (by omega)
        refine ⟨stripped, places + 1, last, ?_⟩
        rw [weight_succ, ← Nat.mul_assoc, ← tenth]
        omega
      · exact ⟨number, 0, trailing, (Nat.mul_one number).symm⟩

section Digits

variable {base number : Nat}

theorem digits_zero (base : Nat) : digits base 0 = [] := by
  rw [digits]
  simp

theorem digits_of_pos (wide : 2 ≤ base) (positive : 0 < number) :
    digits base number = digits base (number / base) ++ [number % base] := by
  rw [digits, if_pos ⟨wide, positive⟩]

@[simp] theorem value_nil (base : Nat) : value base [] = 0 := rfl

theorem value_append_singleton (base : Nat) (front : List Nat) (digit : Nat) :
    value base (front ++ [digit]) = value base front * base + digit := by
  simp [value, List.foldl_append]

theorem value_digits (wide : 2 ≤ base) (number : Nat) : value base (digits base number) = number := by
  induction number using Nat.strongRecOn with
  | ind number ih =>
      by_cases positive : 0 < number
      · rw [digits_of_pos wide positive, value_append_singleton,
          ih (number / base) (Nat.div_lt_self positive wide)]
        exact Nat.div_add_mod' number base
      · have zero : number = 0 := by omega
        rw [zero, digits_zero, value_nil]

theorem digits_lt (wide : 2 ≤ base) (number : Nat) : ∀ digit ∈ digits base number, digit < base := by
  induction number using Nat.strongRecOn with
  | ind number ih =>
      intro digit member
      by_cases positive : 0 < number
      · rw [digits_of_pos wide positive] at member
        rcases List.mem_append.mp member with earlier | last
        · exact ih (number / base) (Nat.div_lt_self positive wide) digit earlier
        · rw [List.mem_singleton.mp last]
          exact Nat.mod_lt _ (by omega)
      · have zero : number = 0 := by omega
        rw [zero, digits_zero] at member
        cases member

theorem digits_ne_nil (wide : 2 ≤ base) (positive : 0 < number) : digits base number ≠ [] := by
  rw [digits_of_pos wide positive]
  simp

/-- No zero leads the digits of a number. -/
theorem head?_digits (wide : 2 ≤ base) (number : Nat) : (digits base number).head? ≠ some 0 := by
  induction number using Nat.strongRecOn with
  | ind number ih =>
      by_cases positive : 0 < number
      · rw [digits_of_pos wide positive]
        by_cases small : number < base
        · rw [Nat.div_eq_of_lt small, digits_zero, Nat.mod_eq_of_lt small]
          simp only [List.nil_append, List.head?_cons, ne_eq, Option.some.injEq]
          omega
        · have shorter : 0 < number / base := Nat.div_pos (by omega) (by omega)
          rw [List.head?_append_of_ne_nil _ (digits_ne_nil wide shorter)]
          exact ih (number / base) (Nat.div_lt_self positive wide)
      · have zero : number = 0 := by omega
        rw [zero, digits_zero]
        simp

theorem value_pos (wide : 2 ≤ base) {list : List Nat} (nonempty : list ≠ [])
    (leads : list.head? ≠ some 0) : 0 < value base list := by
  induction list using List.reverseRecOn with
  | nil => exact absurd rfl nonempty
  | append_singleton front digit ih =>
      rw [value_append_singleton]
      by_cases alone : front = []
      · subst alone
        simp only [List.nil_append, List.head?_cons, ne_eq, Option.some.injEq] at leads
        simp
        omega
      · rw [List.head?_append_of_ne_nil _ alone] at leads
        have positive := Nat.mul_pos (ih alone leads) (by omega : 0 < base)
        omega

/-- Digits that no zero leads are the digits of their value. -/
theorem digits_value (wide : 2 ≤ base) {list : List Nat} (small : ∀ digit ∈ list, digit < base)
    (leads : list.head? ≠ some 0) : digits base (value base list) = list := by
  induction list using List.reverseRecOn with
  | nil => exact digits_zero base
  | append_singleton front digit ih =>
      have last : digit < base := small digit (by simp)
      have positive := value_pos wide (by simp) leads
      have leadsFront : front.head? ≠ some 0 := by
        intro zero
        exact leads (by rw [List.head?_append, zero]; rfl)
      have others := ih (fun earlier member => small earlier (by simp [member])) leadsFront
      rw [value_append_singleton] at positive
      have quotient : (value base front * base + digit) / base = value base front := by
        rw [Nat.mul_comm, Nat.mul_add_div (by omega), Nat.div_eq_of_lt last, Nat.add_zero]
      have remainder : (value base front * base + digit) % base = digit := by
        rw [Nat.mul_comm, Nat.mul_add_mod, Nat.mod_eq_of_lt last]
      rw [value_append_singleton, digits_of_pos wide positive, quotient, remainder, others]

theorem value_zeros_append (base count : Nat) (list : List Nat) :
    value base (List.replicate count 0 ++ list) = value base list := by
  induction count with
  | zero => rfl
  | succ count ih =>
      rw [List.replicate_succ, List.cons_append]
      simpa [value] using ih

theorem value_zeros (base count : Nat) : value base (List.replicate count 0) = 0 := by
  have zeros := value_zeros_append base count []
  rwa [List.append_nil] at zeros

theorem value_append (base : Nat) (front back : List Nat) :
    value base (front ++ back) = value base front * weight base back.length + value base back := by
  induction back using List.reverseRecOn with
  | nil => rw [List.append_nil, List.length_nil, weight_zero, Nat.mul_one, value_nil, Nat.add_zero]
  | append_singleton others digit ih =>
      rw [← List.append_assoc, value_append_singleton, ih, value_append_singleton, List.length_append,
        List.length_singleton, weight_succ, Nat.add_mul, ← Nat.mul_assoc, Nat.add_assoc]

theorem length_digits (number : Nat) : (digits 10 number).length = decimalLength number := by
  induction number using Nat.strongRecOn with
  | ind number ih =>
      by_cases positive : 0 < number
      · rw [digits_of_pos (by decide) positive, decimalLength_of_pos positive, List.length_append,
          ih (number / 10) (by omega), List.length_singleton]
      · have zero : number = 0 := by omega
        rw [zero, digits_zero, decimalLength_zero, List.length_nil]

end Digits

end LedgerWire.Positional
