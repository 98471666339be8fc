import Patchbay.Double.Reading
import Patchbay.Proofs.Double.Nearest

/-!
# The shortest decimal reads back

The search for the shortest decimal stays inside the interval of the magnitude (`coarsest_mem`),
and every decimal in that interval, however its digits and its exponent are split, is read as the
bit pattern of the magnitude (`nearestBits_of_mem`). The shortest decimal is one of them
(`shortest_mem`).
-/

namespace Patchbay.Double

/-! ## The interval -/

/-- A quarter of the units that make up the smallest double. -/
def quarterUnits : Nat := 25 * 5 ^ 1074

theorem fineUnits_eq : fineUnits = 4 * quarterUnits := by
  unfold fineUnits quarterUnits
  generalize 5 ^ 1074 = k
  omega

theorem quarterUnits_pos : 0 < quarterUnits :=
  Nat.mul_pos (by decide) (Nat.pow_pos (by decide))

theorem two_pow_mul_five_pow {k n : Nat} (h : n = k + 2) : 2 ^ k * (100 * 5 ^ k) = 10 ^ n := by
  rw [Nat.mul_left_comm, ← Nat.mul_pow, h, Nat.pow_add, Nat.mul_comm]

theorem two_pow_mul_fineUnits : 2 ^ 1074 * fineUnits = 10 ^ 1076 := by
  unfold fineUnits
  exact two_pow_mul_five_pow (by decide)

theorem units_mul_fineUnits (m : Magnitude) :
    m.units * fineUnits = 4 * m.coefficient * (2 ^ m.scale * quarterUnits) := by
  rw [fineUnits_eq, Magnitude.units]
  generalize quarterUnits = k
  ac_rfl

/-- The interval in quarters of a unit of the last place. -/
theorem interval_eq (m : Magnitude) :
    interval m = ⟨m.units * fineUnits - m.reach * (2 ^ m.scale * quarterUnits), m.units * fineUnits,
      m.units * fineUnits + 2 * (2 ^ m.scale * quarterUnits), m.coefficient % 2 = 0⟩ := by
  have hhalf : 2 ^ m.scale * (fineUnits / 2) = 2 * (2 ^ m.scale * quarterUnits) := by
    rw [fineUnits_eq, show 4 * quarterUnits / 2 = 2 * quarterUnits by omega, Nat.mul_left_comm]
  rw [interval, hhalf, Magnitude.reach]
  split
  · simp
  · rfl

/-- What lies in the interval is at most as far away as the magnitude reaches, and less far if its
coefficient is odd. -/
theorem le_of_mem {m : Magnitude} {n : Nat} (h : (interval m).mem n = true) :
    m.units * fineUnits ≤ n + m.reach * (2 ^ m.scale * quarterUnits) ∧
      n ≤ m.units * fineUnits + 2 * (2 ^ m.scale * quarterUnits) ∧
      (m.coefficient % 2 = 1 →
        m.units * fineUnits < n + m.reach * (2 ^ m.scale * quarterUnits) ∧
          n < m.units * fineUnits + 2 * (2 ^ m.scale * quarterUnits)) := by
  rw [interval_eq] at h
  simp only [Interval.mem] at h
  split at h <;> rename_i hc <;> simp only [decide_eq_true_eq] at h hc
  · refine ⟨by omega, h.2, fun hodd => by omega⟩
  · refine ⟨by omega, by omega, fun _ => ⟨by omega, h.2⟩⟩

/-- The magnitude itself lies in its interval. -/
theorem mem_middle {m : Magnitude} (hm : m.coefficient ≠ 0) :
    (interval m).mem (interval m).middle = true := by
  have hquarter : 0 < 2 ^ m.scale * quarterUnits := Nat.mul_pos (Nat.two_pow_pos _) quarterUnits_pos
  have hreach : 0 < m.reach * (2 ^ m.scale * quarterUnits) := by
    refine Nat.mul_pos ?_ hquarter
    rcases m.reach_cases with h | h <;> omega
  have hmiddle : 0 < m.units * fineUnits := by
    have hquarters := quarterUnits_pos
    rw [fineUnits_eq]
    exact Nat.mul_pos (Nat.mul_pos (by omega) (Nat.two_pow_pos _)) (by omega)
  rw [interval_eq]
  simp only [Interval.mem]
  split
  · simp
  · simp only [decide_eq_true_eq]
    omega

/-! ## The search -/

theorem nearer_cases (tie : Tie) (n step low : Nat) :
    nearer tie n step low = low ∨ nearer tie n step low = low + 1 := by
  unfold nearer
  split
  · exact Or.inl rfl
  · exact Or.inr rfl
  · exact Or.inr rfl
  · split
    · exact Or.inl rfl
    · exact Or.inr rfl

/-- The search finds a multiple in the interval. -/
theorem coarsest_mem (tie : Tie) {i : Interval} (h : i.mem i.middle = true) (power : Nat) :
    i.mem ((coarsest tie i power).1 * 10 ^ (coarsest tie i power).2) = true := by
  induction power with
  | zero => simpa [coarsest] using h
  | succ power ih =>
    unfold coarsest
    simp only
    split
    · rename_i hlow hhigh
      rcases nearer_cases tie i.middle (10 ^ (power + 1)) (i.middle / 10 ^ (power + 1)) with hn | hn
      · rw [hn]
        exact hlow
      · rw [hn]
        exact hhigh
    · assumption
    · assumption
    · exact ih

/-! ## Reading the search's result -/

/-- A quotient that, in units of `10 ^ -1076`, lies in the interval of a magnitude. -/
theorem roundsTo_of_mem {m : Magnitude} {num den n : Nat} (hden : 0 < den)
    (hmem : (interval m).mem n = true) (h : num * fineUnits = n * den) : RoundsTo num den m := by
  obtain ⟨lo, up, odd⟩ := le_of_mem hmem
  have hQ := quarterUnits_pos
  rw [units_mul_fineUnits] at lo up odd
  rw [fineUnits_eq] at h
  generalize quarterUnits = Q at *
  have hcoefficient : 4 * m.coefficient * (2 ^ m.scale * Q) * den =
      4 * (m.coefficient * (2 ^ m.scale * den)) * Q := by ac_rfl
  have hnum : n * den = 4 * num * Q := by
    rw [← h]
    ac_rfl
  have hunit (k : Nat) : k * (2 ^ m.scale * Q) * den = k * (2 ^ m.scale * den) * Q := by ac_rfl
  have scaled {a b : Nat} (k : Nat) (hle : a ≤ b + k * (2 ^ m.scale * Q)) :
      a * den ≤ b * den + k * (2 ^ m.scale * den) * Q := by
    rw [← hunit, ← Nat.add_mul]
    exact Nat.mul_le_mul_right den hle
  have scaled_lt {a b : Nat} (k : Nat) (hlt : a < b + k * (2 ^ m.scale * Q)) :
      a * den < b * den + k * (2 ^ m.scale * den) * Q := by
    rw [← hunit, ← Nat.add_mul]
    exact Nat.mul_lt_mul_of_pos_right hlt hden
  refine ⟨Nat.le_of_mul_le_mul_right ?_ hQ, Nat.le_of_mul_le_mul_right ?_ hQ, fun hodd =>
    Nat.lt_of_mul_lt_mul_right (a := Q) ?_, fun hodd => Nat.lt_of_mul_lt_mul_right (a := Q) ?_⟩
  · rw [Nat.add_mul, ← hcoefficient, ← hnum]
    exact scaled _ lo
  · rw [Nat.add_mul, ← hcoefficient, ← hnum]
    exact scaled _ up
  · rw [Nat.add_mul, ← hcoefficient, ← hnum]
    exact scaled_lt _ (odd hodd).1
  · rw [Nat.add_mul, ← hcoefficient, ← hnum]
    exact scaled_lt _ (odd hodd).2

theorem lt_two_pow_of_lt_ten_pow {c d : Nat} (h : c < 10 ^ d) : c < 2 ^ (10 * (d / 3 + 1)) := by
  calc
    c < 10 ^ d := h
    _ ≤ 10 ^ (3 * (d / 3 + 1)) := Nat.pow_le_pow_right (by decide) (by omega)
    _ = (10 ^ 3) ^ (d / 3 + 1) := Nat.pow_mul ..
    _ ≤ (2 ^ 10) ^ (d / 3 + 1) := Nat.pow_le_pow_left (by decide) _
    _ = 2 ^ (10 * (d / 3 + 1)) := (Nat.pow_mul ..).symm

theorem lt_ten_pow_of_lt_two_pow {c n : Nat} (h : c < 2 ^ n) : c < 10 ^ (4 * (n / 13 + 1)) := by
  calc
    c < 2 ^ n := h
    _ ≤ 2 ^ (13 * (n / 13 + 1)) := Nat.pow_le_pow_right (by decide) (by omega)
    _ = (2 ^ 13) ^ (n / 13 + 1) := Nat.pow_mul ..
    _ ≤ (10 ^ 4) ^ (n / 13 + 1) := Nat.pow_le_pow_left (by decide) _
    _ = 10 ^ (4 * (n / 13 + 1)) := (Nat.pow_mul ..).symm

theorem ten_pow_le_quarterUnits : 10 ^ 750 ≤ quarterUnits := by
  unfold quarterUnits
  decide +kernel

theorem quarterUnits_lt_ten_pow : 2 ^ 2100 * quarterUnits < 10 ^ 1385 := by
  unfold quarterUnits
  decide +kernel

/-- What lies in the interval of a magnitude is far from both thresholds of `nearestBits`. -/
theorem bounds_of_mem {m : Magnitude} (hm : m.Normal) (h0 : m.coefficient ≠ 0) {n : Nat}
    (hmem : (interval m).mem n = true) : 10 ^ 750 ≤ n ∧ n < 10 ^ 1385 := by
  obtain ⟨lo, up, -⟩ := le_of_mem hmem
  rw [units_mul_fineUnits] at lo up
  have hreach : m.reach ≤ 2 := by
    rcases m.reach_cases with h | h <;> omega
  constructor
  · refine Nat.le_trans ten_pow_le_quarterUnits ?_
    have h1 := Nat.le_mul_of_pos_left quarterUnits (Nat.two_pow_pos m.scale)
    have h2 := Nat.mul_le_mul_right (2 ^ m.scale * quarterUnits)
      (show m.reach + 2 ≤ 4 * m.coefficient by omega)
    rw [Nat.add_mul] at h2
    omega
  · refine Nat.lt_of_le_of_lt ?_ quarterUnits_lt_ten_pow
    have hc := hm.coefficient_lt
    have h1 : 2 ^ m.scale * quarterUnits ≤ 2 ^ 2045 * quarterUnits :=
      Nat.mul_le_mul_right _ (Nat.pow_le_pow_right (by decide) hm.scale_le)
    calc
      n ≤ (4 * m.coefficient + 2) * (2 ^ m.scale * quarterUnits) := by
        rw [Nat.add_mul]
        exact up
      _ ≤ 2 ^ 55 * (2 ^ 2045 * quarterUnits) := Nat.mul_le_mul (by omega) h1
      _ = 2 ^ 2100 * quarterUnits := by rw [← Nat.mul_assoc, ← Nat.pow_add]

/-- A decimal that is neither tiny nor huge does not cross the thresholds of `nearestBits`. -/
theorem order_bounds {c : Nat} {e : Int} (he : -1076 ≤ e)
    (hl : 10 ^ 750 ≤ c * 10 ^ (e + 1076).toNat) (hu : c * 10 ^ (e + 1076).toNat < 10 ^ 1385) :
    c ≠ 0 ∧ -400 ≤ e + nearestBits.natWidth c ∧ e + nearestBits.natWidth c ≤ 400 := by
  have hc : c ≠ 0 := by
    rintro rfl
    rw [Nat.zero_mul] at hl
    exact absurd hl (Nat.not_le.2 (Nat.pow_pos (by decide)))
  obtain ⟨k, hk⟩ : ∃ k : Nat, e = (k : Int) - 1076 := ⟨(e + 1076).toNat, by omega⟩
  rw [show (e + 1076).toNat = k by omega] at hl hu
  have hk' : k < 1385 := by
    refine (Nat.pow_lt_pow_iff_right (show 1 < 10 by decide)).1 (Nat.lt_of_le_of_lt ?_ hu)
    exact Nat.le_mul_of_pos_left _ (by omega)
  have hlt : c < 10 ^ (1385 - k) := by
    refine Nat.lt_of_mul_lt_mul_right (a := 10 ^ k) ?_
    rw [← Nat.pow_add, Nat.sub_add_cancel (by omega)]
    exact hu
  have hlog := (Nat.log2_lt hc).2 (lt_two_pow_of_lt_ten_pow hlt)
  have hgt : 750 < 4 * ((c.log2 + 1) / 13 + 1) + k := by
    refine (Nat.pow_lt_pow_iff_right (show 1 < 10 by decide)).1 (Nat.lt_of_le_of_lt hl ?_)
    rw [Nat.pow_add]
    exact Nat.mul_lt_mul_of_pos_right (lt_ten_pow_of_lt_two_pow Nat.lt_log2_self)
      (Nat.pow_pos (by decide))
  refine ⟨hc, ?_, ?_⟩ <;> simp only [nearestBits.natWidth] <;> omega

/-- Every decimal in the interval of a magnitude is read as that magnitude. -/
theorem nearestBits_of_mem {m : Magnitude} (hm : m.Normal) (h0 : m.coefficient ≠ 0) {c : Nat}
    {e : Int} (he : -1076 ≤ e) (hmem : (interval m).mem (c * 10 ^ (e + 1076).toNat) = true) :
    nearestBits c e = m.toBits := by
  obtain ⟨hl, hu⟩ := bounds_of_mem hm h0 hmem
  obtain ⟨hc, ho, ho'⟩ := order_bounds he hl hu
  have hmin : min m.toBits infinityBits = m.toBits := Nat.min_eq_left (Nat.le_of_lt hm.toBits_lt)
  unfold nearestBits
  simp only
  rw [if_neg hc, if_neg (by omega), if_neg (by omega)]
  cases e with
  | ofNat k =>
    have hround : RoundsTo (c * 10 ^ k * 2 ^ 1074) 1 m := by
      refine roundsTo_of_mem Nat.one_pos hmem ?_
      rw [Nat.mul_assoc, two_pow_mul_fineUnits, Nat.mul_one, Nat.mul_assoc, ← Nat.pow_add]
      rfl
    simp only
    rw [toBits_nearest Nat.one_pos hm hround, hmin]
  | negSucc k =>
    have hpos : 0 < 10 ^ (k + 1) := Nat.pow_pos (by decide)
    have hround : RoundsTo (c * 2 ^ 1074) (10 ^ (k + 1)) m := by
      refine roundsTo_of_mem hpos hmem ?_
      rw [Nat.mul_assoc, two_pow_mul_fineUnits, Nat.mul_assoc, ← Nat.pow_add]
      congr 2
      omega
    simp only
    rw [toBits_nearest hpos hm hround, hmin]

theorem shortest_eq (tie : Tie) (m : Magnitude) :
    shortest tie m = ⟨(coarsest tie (interval m) (powerBound (interval m).high)).1,
      ((coarsest tie (interval m) (powerBound (interval m).high)).2 : Int) - 1076⟩ := rfl

/-- The shortest decimal is a whole number of units of `10 ^ -1076` in the interval. -/
theorem shortest_mem (tie : Tie) {m : Magnitude} (h0 : m.coefficient ≠ 0) :
    ∃ c p : Nat, shortest tie m = ⟨c, (p : Int) - 1076⟩ ∧ (interval m).mem (c * 10 ^ p) = true :=
  ⟨_, _, shortest_eq tie m, coarsest_mem tie (mem_middle h0) _⟩

end Patchbay.Double
