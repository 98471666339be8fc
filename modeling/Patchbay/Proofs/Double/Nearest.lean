import Patchbay.Proofs.Double.Bits

/-!
# Rounding to the nearest magnitude

A quotient rounds to a magnitude when it is no further away than half of a unit of the last place,
and only a quarter below a power of two, where the next double is nearer; at the ends the
coefficient must be even (`RoundsTo`). `Magnitude.nearest` finds exactly that magnitude, up to the
carry of a coefficient that rounds up to `2 ^ 53`: the bit pattern is the same
(`toBits_nearest`).
-/

namespace Patchbay.Double

/-- How far below a magnitude the decimals that round to it begin, in quarters of a unit of the
last place: below a power of two the neighbour is nearer than above it. -/
def Magnitude.reach (m : Magnitude) : Nat := if m.coefficient = 2 ^ 52 ∧ m.scale ≠ 0 then 1 else 2

theorem Magnitude.reach_cases (m : Magnitude) : m.reach = 1 ∨ m.reach = 2 := by
  rw [reach]
  split
  · exact Or.inl rfl
  · exact Or.inr rfl

/-- `num / den` lies in the interval of the quotients that round to a magnitude. -/
structure RoundsTo (num den : Nat) (m : Magnitude) : Prop where
  lower : 4 * (m.coefficient * (2 ^ m.scale * den)) ≤ 4 * num + m.reach * (2 ^ m.scale * den)
  upper : 4 * num ≤ 4 * (m.coefficient * (2 ^ m.scale * den)) + 2 * (2 ^ m.scale * den)
  lower_odd : m.coefficient % 2 = 1 →
    4 * (m.coefficient * (2 ^ m.scale * den)) < 4 * num + m.reach * (2 ^ m.scale * den)
  upper_odd : m.coefficient % 2 = 1 →
    4 * num < 4 * (m.coefficient * (2 ^ m.scale * den)) + 2 * (2 ^ m.scale * den)

/-- The scale of a quotient with `53 + s` binary digits, or with at most 53 for the scale 0. -/
theorem log2_sub_eq {num den s : Nat} (hden : 0 < den) (hu : num < 2 ^ 53 * (2 ^ s * den))
    (hl : s ≠ 0 → 2 ^ 52 * (2 ^ s * den) ≤ num) : (num / den).log2 - 52 = s := by
  have hlt : num / den < 2 ^ (53 + s) := by
    rw [Nat.div_lt_iff_lt_mul hden, Nat.pow_add, Nat.mul_assoc]
    exact hu
  rcases Nat.eq_zero_or_pos s with rfl | hs
  · rcases Nat.eq_zero_or_pos (num / den) with h | h
    · rw [h]
      rfl
    · have := (Nat.log2_lt (by omega)).2 hlt
      omega
  · have hle : 2 ^ (52 + s) ≤ num / den := by
      rw [Nat.le_div_iff_mul_le hden, Nat.pow_add, Nat.mul_assoc]
      exact hl (by omega)
    have hne : num / den ≠ 0 := fun h => by
      rw [h] at hle
      exact absurd hle (Nat.not_le.2 (Nat.two_pow_pos _))
    have h1 := (Nat.log2_lt hne).2 hlt
    have h2 := (Nat.le_log2 hne).2 hle
    omega

/-- `Magnitude.nearest` at the scale of the quotient: `low` whole steps and a rest. -/
theorem nearest_eq {num den s : Nat} (hs : (num / den).log2 - 52 = s) :
    Magnitude.nearest num den =
      ⟨if den * 2 ^ s < 2 * (num % (den * 2 ^ s)) ∨
          2 * (num % (den * 2 ^ s)) = den * 2 ^ s ∧ num / (den * 2 ^ s) % 2 = 1
        then num / (den * 2 ^ s) + 1 else num / (den * 2 ^ s), s⟩ := by
  simp [Magnitude.nearest, hs]

theorem Magnitude.reach_le (m : Magnitude) : m.reach ≤ 2 := by
  rcases m.reach_cases with h | h
  · omega
  · omega

/-- The whole steps of a quotient in the interval of a magnitude are the coefficient, or one
less. -/
theorem RoundsTo.div_eq {num den : Nat} {m : Magnitude} (h : RoundsTo num den m)
    (hden : 0 < den) :
    num / (2 ^ m.scale * den) = m.coefficient ∨ num / (2 ^ m.scale * den) + 1 = m.coefficient := by
  have lo := h.lower
  have up := h.upper
  have hpos : 0 < 2 ^ m.scale * den := Nat.mul_pos (Nat.two_pow_pos m.scale) hden
  have hreach := Nat.mul_le_mul_right (2 ^ m.scale * den) m.reach_le
  generalize 2 ^ m.scale * den = D at *
  have hdm := Nat.div_add_mod num D
  have hr := Nat.mod_lt num hpos
  rw [Nat.mul_comm] at hdm
  have hle : num / D ≤ m.coefficient := by
    refine Nat.le_of_not_lt fun hlt => ?_
    have := Nat.mul_le_mul_right D (Nat.succ_le_of_lt hlt)
    rw [Nat.succ_mul] at this
    omega
  have hge : m.coefficient ≤ num / D + 1 := by
    refine Nat.le_of_not_lt fun hlt => ?_
    have := Nat.mul_le_mul_right D (Nat.succ_le_of_lt hlt)
    rw [Nat.succ_mul, Nat.add_mul, Nat.one_mul] at this
    omega
  omega

/-- A quotient in the interval of a magnitude and not below the power of two at its scale rounds to
the magnitude at that scale. -/
theorem nearest_of_same_scale {num den : Nat} {m : Magnitude} (hden : 0 < den) (hm : m.Normal)
    (h : RoundsTo num den m)
    (hl : m.scale ≠ 0 → 2 ^ 52 * (2 ^ m.scale * den) ≤ num) :
    Magnitude.nearest num den = m := by
  have hdiv := h.div_eq hden
  obtain ⟨c, s⟩ := m
  obtain ⟨lo, up, lo', up'⟩ := h
  have hc := hm.coefficient_lt
  simp only at lo up lo' up' hl hc hdiv
  have hpos : 0 < 2 ^ s * den := Nat.mul_pos (Nat.two_pow_pos s) hden
  have hu : num < 2 ^ 53 * (2 ^ s * den) := by
    have := Nat.mul_le_mul_right (2 ^ s * den) (show c + 1 ≤ 2 ^ 53 by omega)
    rw [Nat.add_mul, Nat.one_mul] at this
    omega
  rw [nearest_eq (log2_sub_eq hden hu hl), Nat.mul_comm den]
  generalize 2 ^ s * den = D at *
  have hdm := Nat.div_add_mod num D
  have hr := Nat.mod_lt num hpos
  generalize num / D = q at *
  generalize num % D = r at *
  congr 1
  rcases hdiv with rfl | rfl
  · -- the whole steps are the coefficient, so the rest must not round up
    rw [Nat.mul_comm q D] at up up'
    rw [if_neg]
    rintro (h | ⟨h, hodd⟩)
    · omega
    · have := up' hodd
      omega
  · -- one step is missing, so the rest must round up
    have hedge : Magnitude.reach ⟨q + 1, s⟩ = 2 := by
      rw [Magnitude.reach, if_neg]
      rintro ⟨he, hs⟩
      have he : q + 1 = 2 ^ 52 := he
      have := hl hs
      rw [← he, Nat.add_mul, Nat.mul_comm q D] at this
      omega
    rw [hedge, Nat.add_mul, Nat.one_mul, Nat.mul_comm q D] at lo lo'
    rw [if_pos]
    rcases Nat.lt_or_ge D (2 * r) with h | h
    · exact Or.inl h
    · refine Or.inr ⟨by omega, ?_⟩
      refine Nat.mod_two_ne_zero.1 fun hev => ?_
      have := lo' (by omega)
      omega

/-- Below a power of two the quotient has the next smaller scale, where it rounds up to the
carry. -/
theorem nearest_of_edge {num den : Nat} {m : Magnitude} (hden : 0 < den)
    (h : RoundsTo num den m) (hs : m.scale ≠ 0) (hn : 2 ^ 52 ≤ m.coefficient)
    (hl : num < 2 ^ 52 * (2 ^ m.scale * den)) :
    m.coefficient = 2 ^ 52 ∧ Magnitude.nearest num den = ⟨2 ^ 53, m.scale - 1⟩ := by
  obtain ⟨c, s⟩ := m
  obtain ⟨lo, -, -, -⟩ := h
  simp only at lo hl hs hn
  obtain ⟨s, rfl⟩ : ∃ t, s = t + 1 := ⟨s - 1, by omega⟩
  have hD : 2 ^ (s + 1) * den = 2 * (2 ^ s * den) := by
    rw [Nat.pow_succ, Nat.mul_comm (2 ^ s) 2, Nat.mul_assoc]
  have hpos : 0 < 2 ^ s * den := Nat.mul_pos (Nat.two_pow_pos s) hden
  rw [hD] at lo hl
  have hc : c = 2 ^ 52 := by
    refine Nat.le_antisymm (Nat.le_of_not_lt fun hlt => ?_) hn
    have hne : Magnitude.reach ⟨c, s + 1⟩ = 2 := if_neg fun h => by
      have : c = 2 ^ 52 := h.1
      omega
    have := Nat.mul_le_mul_right (2 * (2 ^ s * den)) (show 2 ^ 52 + 1 ≤ c by omega)
    rw [Nat.add_mul, Nat.one_mul] at this
    rw [hne] at lo
    omega
  subst hc
  have hreach : Magnitude.reach ⟨2 ^ 52, s + 1⟩ = 1 := if_pos ⟨rfl, Nat.succ_ne_zero s⟩
  rw [hreach] at lo
  refine ⟨rfl, ?_⟩
  rw [nearest_eq (log2_sub_eq (s := s) hden (by omega) (fun _ => by omega)),
    Nat.mul_comm den (2 ^ s)]
  generalize 2 ^ s * den = D at *
  have hdm := Nat.div_add_mod num D
  have hr := Nat.mod_lt num hpos
  have hq : num / D = 2 ^ 53 - 1 := by
    refine Nat.div_eq_of_lt_le ?_ ?_
    · omega
    · omega
  rw [hq] at hdm ⊢
  generalize num % D = r at *
  rw [if_pos]
  · rfl
  · rcases Nat.lt_or_ge D (2 * r) with h | h
    · exact Or.inl h
    · exact Or.inr ⟨by omega, by decide⟩

/-- A quotient in the interval of a magnitude rounds to its bit pattern. -/
theorem toBits_nearest {num den : Nat} {m : Magnitude} (hden : 0 < den) (hm : m.Normal)
    (h : RoundsTo num den m) : (Magnitude.nearest num den).toBits = m.toBits := by
  by_cases hs : m.scale = 0
  · rw [nearest_of_same_scale hden hm h fun hne => absurd hs hne]
  · rcases Nat.lt_or_ge num (2 ^ 52 * (2 ^ m.scale * den)) with hl | hl
    · obtain ⟨hc, hn⟩ := nearest_of_edge hden h hs (hm.le_coefficient hs) hl
      rw [hn, Magnitude.toBits, Magnitude.toBits, hc]
      simp only
      omega
    · rw [nearest_of_same_scale hden hm h fun _ => hl]

end Patchbay.Double
