import Agenda.Text.Decimal
import Mathlib.Data.List.TakeWhile
import Mathlib.Tactic.Common

/-!
# Decimal digits stand for the number that they were written for

`digits 10 n` is read back by `value` (`value_digits`).  It consists of decimal digits, of which
there is at least one, and it begins with a zero only for the number 0, so a reader that refuses
leading zeros takes it.
-/

namespace Agenda.Text

theorem digitValue?_digit {d : Nat} (h : d < 10) : digitValue? (digit d) = some d := by
  revert d
  decide

theorem hexValue?_digit {d : Nat} (h : d < 16) : hexValue? (digit d) = some d := by
  revert d
  decide

theorem isDigit_digit {d : Nat} (h : d < 10) : isDigit (digit d) = true := by
  rw [isDigit, digitValue?_digit h]
  rfl

theorem digits_of_lt {n : Nat} (h : n < 10) : digits 10 n = [digit n] := by
  rw [digits, if_pos (Or.inl h)]

theorem digits_of_le {n : Nat} (h : 10 ≤ n) :
    digits 10 n = digits 10 (n / 10) ++ [digit (n % 10)] := by
  rw [digits, if_neg (by omega)]

theorem value_concat (cs : List Char) (c : Char) :
    value (cs ++ [c]) = 10 * value cs + (digitValue? c).getD 0 := by
  rw [value, List.foldl_append]
  rfl

/-- **The digits of a number stand for it.** -/
theorem value_digits (n : Nat) : value (digits 10 n) = n := by
  induction n using Nat.strongRecOn with
  | ind n ih =>
    by_cases hn : n < 10
    · rw [digits_of_lt hn, ← List.nil_append [digit n], value_concat, digitValue?_digit hn]
      exact Nat.zero_add n
    · rw [digits_of_le (by omega), value_concat, ih (n / 10) (by omega),
        digitValue?_digit (Nat.mod_lt n (by omega)), Option.getD_some]
      omega

theorem isDigit_of_mem_digits {n : Nat} {c : Char} (hc : c ∈ digits 10 n) : isDigit c = true := by
  induction n using Nat.strongRecOn with
  | ind n ih =>
    by_cases hn : n < 10
    · rw [digits_of_lt hn, List.mem_singleton] at hc
      exact hc ▸ isDigit_digit hn
    · rw [digits_of_le (by omega), List.mem_append, List.mem_singleton] at hc
      rcases hc with hc | rfl
      · exact ih (n / 10) (by omega) hc
      · exact isDigit_digit (Nat.mod_lt n (by omega))

theorem digits_ne_nil (n : Nat) : digits 10 n ≠ [] := by
  by_cases hn : n < 10
  · rw [digits_of_lt hn]
    exact List.cons_ne_nil _ _
  · rw [digits_of_le (by omega)]
    simp

/-- The first digit. -/
theorem digits_eq_cons (n : Nat) : ∃ c cs, isDigit c = true ∧ digits 10 n = c :: cs := by
  cases hds : digits 10 n with
  | nil => exact absurd hds (digits_ne_nil n)
  | cons c cs => exact ⟨c, cs, isDigit_of_mem_digits (hds ▸ List.mem_cons_self), rfl⟩

/-- Only the number 0 begins with a zero. -/
theorem head?_digits {n : Nat} (h : n ≠ 0) : (digits 10 n).head? ≠ some '0' := by
  induction n using Nat.strongRecOn with
  | ind n ih =>
    by_cases hn : n < 10
    · rw [digits_of_lt hn, List.head?_cons]
      have hall : ∀ d < 10, d ≠ 0 → some (digit d) ≠ some '0' := by decide
      exact hall n hn h
    · rw [digits_of_le (by omega), List.head?_append, Option.or_of_isSome]
      · exact ih (n / 10) (by omega) (by omega)
      · simpa using digits_ne_nil (n / 10)

end Agenda.Text
