/-
  Decimal digits.

  * `Digits`: nothing but digits, as in the text of a number;
  * `exists_toDigits`: that text begins with a digit, which is a zero only if it is
    all;
  * `sign_of_isDigit`: what begins with a digit has no sign.
-/
import Mathlib.Data.Nat.Digits.Lemmas
import Reactor.Text.Digits

namespace Reactor.Text

/-- Nothing but digits. -/
def Digits (cs : List Char) : Prop := ∀ c ∈ cs, c.isDigit

theorem digits_toDigits (n : Nat) : Digits (Nat.toDigits 10 n) := fun _ hc =>
  Nat.isDigit_of_mem_toDigits (by decide) (by decide) hc

/-- A number begins with a digit, which is a zero only if it is all. -/
theorem exists_toDigits (n : Nat) :
    ∃ c cs, Nat.toDigits 10 n = c :: cs ∧ c.isDigit ∧ Digits cs ∧ (c = '0' → cs = []) := by
  have hdigits := digits_toDigits n
  have hzero : ∀ n cs, Nat.toDigits 10 n = '0' :: cs → cs = [] := by
    intro n
    induction n using Nat.strongRecOn with
    | ind n ih =>
      intro cs h
      by_cases hlt : n < 10
      · rw [Nat.toDigits_of_lt_base hlt] at h
        exact (List.cons.inj h).2.symm
      · rw [Nat.toDigits_of_base_le (by decide) (by omega)] at h
        cases hq : Nat.toDigits 10 (n / 10) with
        | nil => exact absurd hq Nat.toDigits_ne_nil
        | cons c cs' =>
          rw [hq, List.cons_append] at h
          obtain ⟨rfl, -⟩ := List.cons.inj h
          rw [ih (n / 10) (by omega) cs' hq] at hq
          have hvalue : Nat.ofDigitChars 10 (Nat.toDigits 10 (n / 10)) 0 = n / 10 :=
            Nat.ofDigitChars_toDigits (by decide) (by decide)
          rw [hq, show Nat.ofDigitChars 10 ['0'] 0 = 0 by decide] at hvalue
          omega
  cases h : Nat.toDigits 10 n with
  | nil => exact absurd h Nat.toDigits_ne_nil
  | cons c cs =>
    rw [h] at hdigits
    refine ⟨c, cs, rfl, hdigits c List.mem_cons_self,
      fun d hd => hdigits d (List.mem_cons_of_mem _ hd), ?_⟩
    rintro rfl
    exact hzero n cs h

/-! ## Signs -/

/-- Two characters of which one has a property begin no text both. -/
theorem cons_ne_cons {p : Char → Bool} {c d : Char} (hc : p c) (hd : p d = false)
    {cs ds : List Char} : c :: cs ≠ d :: ds := by
  intro heq
  obtain ⟨rfl, -⟩ := List.cons.inj heq
  rw [hc] at hd
  cases hd

/-- What begins with a digit has no sign. -/
theorem sign_of_isDigit {c : Char} (h : c.isDigit) (cs : List Char) :
    sign (c :: cs) = (false, c :: cs) := by
  unfold sign
  split
  · rename_i heq
    exact absurd heq (cons_ne_cons h (by decide))
  · rename_i heq
    exact absurd heq (cons_ne_cons h (by decide))
  · rfl

end Reactor.Text
