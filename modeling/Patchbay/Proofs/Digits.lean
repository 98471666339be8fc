import Patchbay.Double.Layout
import Patchbay.Double.Reading

/-!
# Digits and their value

* `Double.digitsValue_natDigits`: the digits of a natural number have its value;
* `Double.natDigits_cons`: they begin with a zero only if that is all there is;
* `Double.digitsValue_append`: digits behind others.
-/

namespace Patchbay.Double

theorem digitsValue_eq (ds : List Char) : digitsValue ds = Nat.ofDigitChars 10 ds 0 := rfl

@[simp] theorem digitsValue_natDigits (n : Nat) : digitsValue (natDigits n) = n :=
  Nat.ofDigitChars_ten_toDigits

@[simp] theorem natDigits_ne_nil (n : Nat) : natDigits n ≠ [] := Nat.toDigits_ne_nil

theorem isDigit_of_mem_natDigits {n : Nat} {c : Char} (h : c ∈ natDigits n) : c.isDigit = true :=
  Nat.isDigit_of_mem_toDigits (by decide) (by decide) h

@[simp] theorem all_natDigits (n : Nat) : (natDigits n).all Char.isDigit = true :=
  List.all_eq_true.2 fun _ hc => isDigit_of_mem_natDigits hc

theorem natDigits_zero : natDigits 0 = ['0'] := Nat.toDigits_zero 10

/-- The digits of a positive number begin with one that is not zero. -/
theorem natDigits_cons {n : Nat} (h : 0 < n) : ∃ d ds, natDigits n = d :: ds ∧ d ≠ '0' := by
  induction n using Nat.strongRecOn with
  | ind n ih =>
    rw [natDigits, Nat.toDigits_eq_if (by decide)]
    split
    · exact ⟨_, [], rfl, fun h0 => absurd (Nat.digitChar_eq_zero.1 h0) (by omega)⟩
    · obtain ⟨d, ds, hds, hd⟩ := ih (n / 10) (by omega) (by omega)
      rw [natDigits] at hds
      rw [hds]
      exact ⟨d, _, rfl, hd⟩

theorem digitsValue_append (ds es : List Char) :
    digitsValue (ds ++ es) = digitsValue ds * 10 ^ es.length + digitsValue es := by
  rw [digitsValue_eq, Nat.ofDigitChars_append, Nat.ofDigitChars_eq_ofDigitChars_zero, Nat.mul_comm]
  rfl

@[simp] theorem digitsValue_zero : digitsValue ['0'] = 0 := rfl

@[simp] theorem digitsValue_replicate (k : Nat) : digitsValue (List.replicate k '0') = 0 :=
  Nat.ofDigitChars_replicate_zero.trans (Nat.mul_zero _)

end Patchbay.Double
