import Patchbay.Json.Printer
import Patchbay.Proofs.Double.Written
import Patchbay.Proofs.Json.Scan

/-!
# Written numbers read back

A number is taken apart into its sign and its `Parts` (`scan_number_parts`), from which its value
follows: an integer of 64 bits (`scan_number_int`), or a double, which always shows a fraction or an
exponent. Whether this is the double that was written depends on the way to read numbers
(`Numerals.ReadsBack`): it is whenever they are rounded once (`Numerals.readsBack_exact`), but not
always if they are scaled after they have been rounded.
-/

namespace Patchbay

/-- The double that a text names, if it is a number that is no integer, and nothing else. -/
def Json.double? (numerals : Numerals) (cs : List Char) : Option Float :=
  match scan (number numerals false) cs with
  | some (float x, []) => some x
  | _ => none

/-- What is written for the double is read as the double. -/
def Numerals.ReadsBack (numerals : Numerals) (x : Float) : Prop :=
  Json.double? numerals (Json.floatChars x) = some x

instance (numerals : Numerals) (x : Float) : Decidable (numerals.ReadsBack x) :=
  inferInstanceAs (Decidable (_ = _))

namespace Json

open Double (Parts natDigits signed)

variable {numerals : Numerals}

/-- What a reader of a part that may be missing gives, without the bound on what is left. -/
def scanPart {α : Type} {n : Nat} (result : Option (α × { rest : List Char // rest.length ≤ n })) :
    Option (α × List Char) :=
  result.map fun (a, rest) => (a, rest.1)

theorem not_isDigit_of_ends {rest : List Char} (h : Ends rest) :
    ∀ c ∈ rest.head?, c.isDigit = false := by
  intro c hc
  have hnumber := h c hc
  simp only [isNumberChar, Bool.or_eq_false_iff] at hnumber
  exact hnumber.1.1.1

/-! ## Digits -/

theorem scan_digits {ds rest : List Char} (hne : ds ≠ []) (hds : ∀ c ∈ ds, c.isDigit = true)
    (hrest : ∀ c ∈ rest.head?, c.isDigit = false) : scan digits (ds ++ rest) = some (ds, rest) := by
  obtain ⟨d, ds, rfl⟩ := List.exists_cons_of_ne_nil hne
  obtain ⟨htake, hdrop⟩ :=
    Double.takeWhile_append_of_head (fun c hc => hds c (List.mem_cons_of_mem d hc)) hrest
  rw [scan, List.cons_append, digits]
  simp only [hds d List.mem_cons_self, if_true, htake, hdrop, Option.map_some]

theorem scan_wholeDigits {p : Parts} (hp : p.WellFormed) {rest : List Char}
    (hrest : ∀ c ∈ rest.head?, c.isDigit = false) :
    scan wholeDigits (p.whole ++ rest) = some (p.whole, rest) := by
  obtain ⟨hlt, hdigits⟩ := eq_of_scan (scan_digits hp.whole_ne_nil hp.whole_digits hrest)
  rw [scan, wholeDigits, hdigits]
  split
  · rename_i c ds _ heq
    obtain ⟨heq, -⟩ := Prod.mk.inj (Option.some.inj heq)
    exact absurd heq (hp.whole_leading c ds)
  · rfl

/-! ## Fraction and exponent -/

theorem scanPart_fraction {fraction : Option (List Char)} (hne : ∀ ds ∈ fraction, ds ≠ [])
    (hdigits : ∀ ds ∈ fraction, ∀ c ∈ ds, c.isDigit = true) {rest : List Char}
    (hrest : ∀ c ∈ rest.head?, c.isDigit = false ∧ c ≠ '.') :
    scanPart (fractionPart (Parts.fractionChars fraction ++ rest)) = some (fraction, rest) := by
  cases fraction with
  | none =>
    show scanPart (fractionPart rest) = _
    unfold fractionPart
    split
    · exact absurd rfl (hrest '.' rfl).2
    · rfl
  | some ds =>
    obtain ⟨hlt, hscan⟩ :=
      eq_of_scan (scan_digits (hne ds rfl) (hdigits ds rfl) fun c hc => (hrest c hc).1)
    show scanPart (fractionPart ('.' :: (ds ++ rest))) = _
    rw [fractionPart, hscan]
    rfl

/-- The digits of an exponent behind its sign. -/
theorem scanPart_exponentDigits {c : Char} (hc : c = 'e' ∨ c = 'E') (negative : Bool) (n : Nat)
    {sign rest : List Char} (hrest : ∀ c ∈ rest.head?, c.isDigit = false)
    (hsign : ∃ h, exponentSign (sign ++ (natDigits n ++ rest)) =
      (negative, ⟨natDigits n ++ rest, h⟩)) :
    scanPart (exponentPart (c :: (sign ++ (natDigits n ++ rest)))) =
      some (some (if negative then -(n : Int) else n), rest) := by
  obtain ⟨h, hsign⟩ := hsign
  obtain ⟨hlt, hdigits⟩ := eq_of_scan
    (scan_digits (Double.natDigits_ne_nil n) (fun _ => Double.isDigit_of_mem_natDigits) hrest)
  rw [exponentPart, if_pos hc, hsign]
  simp only [hdigits, Double.digitsValue_natDigits]
  rfl

theorem exponentSign_natDigits (n : Nat) (rest : List Char) :
    ∃ h, exponentSign (natDigits n ++ rest) = (false, ⟨natDigits n ++ rest, h⟩) := by
  obtain ⟨d, ds, hds⟩ := List.exists_cons_of_ne_nil (Double.natDigits_ne_nil n)
  have hd : d.isDigit = true := Double.isDigit_of_mem_natDigits (hds ▸ List.mem_cons_self)
  rw [hds, List.cons_append]
  refine ⟨Nat.le_refl _, ?_⟩
  rw [exponentSign]
  · rintro cs heq
    cases heq
    exact absurd hd (by decide)
  · rintro cs heq
    cases heq
    exact absurd hd (by decide)

theorem scanPart_exponent {plus : List Char} (hplus : plus = [] ∨ plus = ['+'])
    (exponent : Option Int) {rest : List Char} (hrest : Ends rest) :
    scanPart (exponentPart (Parts.exponentChars plus exponent ++ rest)) =
      some (exponent, rest) := by
  have hdigit := not_isDigit_of_ends hrest
  rcases exponent with _ | n | n
  · show scanPart (exponentPart rest) = _
    cases rest with
    | nil => rfl
    | cons c rest =>
      have hc : ¬ (c = 'e' ∨ c = 'E') := by
        rintro (rfl | rfl)
        · exact absurd (hrest 'e' rfl) (by decide)
        · exact absurd (hrest 'E' rfl) (by decide)
      rw [exponentPart, if_neg hc]
      rfl
  · show scanPart (exponentPart ('e' :: (plus ++ natDigits n ++ rest))) = _
    rw [List.append_assoc, scanPart_exponentDigits (Or.inl rfl) false n hdigit]
    · rfl
    · rcases hplus with rfl | rfl
      · exact exponentSign_natDigits n rest
      · exact ⟨Nat.le_succ _, rfl⟩
  · show scanPart (exponentPart ('e' :: (['-'] ++ (natDigits (n + 1) ++ rest)))) = _
    rw [scanPart_exponentDigits (Or.inl rfl) true (n + 1) hdigit]
    · rfl
    · exact ⟨Nat.le_succ _, rfl⟩

/-! ## Numbers -/

theorem scan_unsigned (lenient negative : Bool) (cs : List Char) :
    scan (unsigned numerals lenient negative) cs = (scan wholeDigits cs).bind fun (whole, r1) =>
      (scanPart (fractionPart r1)).bind fun (fraction, r2) =>
        (scanPart (exponentPart r2)).bind fun (exponent, r3) =>
          (numberValue numerals lenient negative whole fraction exponent).map
            fun j => (j, r3) := by
  unfold scan scanPart
  rw [unsigned]
  rcases wholeDigits cs with _ | ⟨whole, r1, h1⟩
  · rfl
  · simp only [Option.map_some, Option.bind_some]
    rcases fractionPart r1 with _ | ⟨fraction, r2, h2⟩
    · rfl
    · simp only [Option.map_some, Option.bind_some]
      rcases exponentPart r2 with _ | ⟨exponent, r3, h3⟩
      · rfl
      · simp only [Option.map_some, Option.bind_some]
        cases numberValue numerals lenient negative whole fraction exponent with
        | none => rfl
        | some j => rfl

theorem head?_exponentChars {plus : List Char} {exponent : Option Int} {rest : List Char}
    (hrest : Ends rest) {c : Char} (hc : c ∈ (Parts.exponentChars plus exponent ++ rest).head?) :
    c.isDigit = false ∧ c ≠ '.' := by
  rcases exponent with _ | n | n
  · have hnumber := hrest c hc
    simp only [isNumberChar, Bool.or_eq_false_iff, beq_eq_false_iff_ne] at hnumber
    exact ⟨hnumber.1.1.1, hnumber.1.1.2⟩
  · cases hc
    decide
  · cases hc
    decide

theorem scan_unsigned_parts (numerals : Numerals) {p : Parts} (hp : p.WellFormed) {plus : List Char}
    (hplus : plus = [] ∨ plus = ['+']) (negative : Bool) {rest : List Char} (hrest : Ends rest) :
    scan (unsigned numerals false negative) (p.chars plus ++ rest) =
      (numberValue numerals false negative p.whole p.fraction p.exponent).map
        fun j => (j, rest) := by
  have htail (c : Char) (hc : c ∈ (Parts.fractionChars p.fraction ++
      (Parts.exponentChars plus p.exponent ++ rest)).head?) : c.isDigit = false := by
    cases hfraction : p.fraction with
    | none =>
      rw [hfraction] at hc
      exact (head?_exponentChars hrest hc).1
    | some ds =>
      rw [hfraction] at hc
      cases hc
      rfl
  rw [Parts.chars, List.append_assoc, List.append_assoc, scan_unsigned, scan_wholeDigits hp htail]
  simp only [Option.bind_some]
  rw [scanPart_fraction hp.fraction_ne_nil hp.fraction_digits fun c => head?_exponentChars hrest]
  simp only [Option.bind_some]
  rw [scanPart_exponent hplus p.exponent hrest]
  rfl

/-- A number is told apart into its sign and parts, whatever its value is then. -/
theorem scan_number_parts (numerals : Numerals) {p : Parts} (hp : p.WellFormed) {plus : List Char}
    (hplus : plus = [] ∨ plus = ['+']) (negative : Bool) {rest : List Char} (hrest : Ends rest) :
    scan (number numerals false) (signed negative (p.chars plus) ++ rest) =
      (numberValue numerals false negative p.whole p.fraction p.exponent).map
        fun j => (j, rest) := by
  have hunsigned := scan_unsigned_parts numerals hp hplus negative hrest
  obtain ⟨d, ds, hds⟩ := List.exists_cons_of_ne_nil hp.whole_ne_nil
  have hd : d.isDigit = true := hp.whole_digits d (hds ▸ List.mem_cons_self)
  have hchars : ∃ cs, p.chars plus ++ rest = d :: cs := by
    rw [Parts.chars, hds]
    exact ⟨_, rfl⟩
  obtain ⟨cs, hcs⟩ := hchars
  have hminus : d ≠ '-' := by
    rintro rfl
    exact absurd hd (by decide)
  rw [number, scan_orElse, scan_map]
  cases negative with
  | false =>
    rw [signed, if_neg Bool.false_ne_true, hunsigned, hcs, scan_andThen_char_of_ne hminus]
    rfl
  | true =>
    have hrefused :
        scan (unsigned numerals false false) ('-' :: (p.chars plus ++ rest)) = none := by
      rw [scan_unsigned]
      rfl
    rw [signed, if_pos rfl, List.cons_append, scan_andThen_char_self, hunsigned, hrefused]
    cases numberValue numerals false true p.whole p.fraction p.exponent with
    | none => rfl
    | some j => rfl

/-- An integer of 64 bits, with or without sign. -/
def InRange (i : Int) : Prop := -2 ^ 63 ≤ i ∧ i < 2 ^ 64

theorem scan_number_int {i : Int} (hi : InRange i) {rest : List Char} (hrest : Ends rest) :
    scan (number numerals false) (intChars i ++ rest) = some (int i, rest) := by
  have hwell (n : Nat) : (Parts.mk (natDigits n) none none).WellFormed := by
    refine Double.Parts.wellFormed_of ?_ nofun
    by_cases hn : n = 0
    · rw [hn, Double.natDigits_zero]
      exact Or.inr rfl
    · exact Or.inl (Double.leading_natDigits hn)
  have hchars (n : Nat) : natDigits n = (Parts.mk (natDigits n) none none).chars [] := by
    rw [Parts.chars, Parts.fractionChars, Parts.exponentChars, List.append_nil, List.append_nil]
  obtain ⟨hlow, hhigh⟩ := hi
  cases i with
  | ofNat n =>
    have hn : n < 2 ^ 64 := by
      have : (n : Int) < 2 ^ 64 := hhigh
      omega
    have hscan := scan_number_parts numerals (hwell n) (Or.inl rfl) false hrest
    rw [← hchars] at hscan
    refine hscan.trans ?_
    simp only [numberValue, integral, Double.digitsValue_natDigits, hn, if_true]
    rfl
  | negSucc n =>
    have hn : 0 < n + 1 ∧ n + 1 ≤ 2 ^ 63 := by omega
    have hscan := scan_number_parts numerals (hwell (n + 1)) (Or.inl rfl) true hrest
    rw [← hchars] at hscan
    refine hscan.trans ?_
    simp only [numberValue, integral, Double.digitsValue_natDigits, if_true, if_pos hn]
    rfl

theorem regular_json : Double.Layout.json.Regular := ⟨Or.inr rfl, Or.inr rfl⟩

/-- The value of the number that is written for a double follows from its parts. -/
theorem scan_floatChars {x : Float} (hx : Double.isFinite x = true) :
    ∃ value : Numerals → Option Json, (∀ numerals rest, Ends rest →
        scan (number numerals false) (floatChars x ++ rest) =
          (value numerals).map fun j => (j, rest)) ∧
      value .exact = some (float x) := by
  obtain ⟨negative, p, hwell, hdouble, hchars, hshown, -⟩ := Double.chars_eq_parts regular_json hx
  refine ⟨fun numerals => numberValue numerals false negative p.whole p.fraction p.exponent,
    fun numerals rest hrest => ?_, ?_⟩
  · rw [floatChars, if_pos hx, hchars]
    exact scan_number_parts numerals hwell regular_json.plus negative hrest
  · obtain ⟨whole, fraction, exponent⟩ := p
    have hpart := hshown (List.cons_ne_nil _ _)
    have hexact : Numerals.exact.double negative whole (fraction.getD []) (exponent.getD 0) = x :=
      hdouble
    simp only [numberValue, hexact, hx, Bool.true_or, if_true]
    split
    · exact absurd rfl (hpart.resolve_left (not_not_intro rfl))
    · rfl

theorem double?_eq_some {cs : List Char} {x : Float} :
    double? numerals cs = some x ↔ scan (number numerals false) cs = some (float x, []) := by
  unfold double?
  split
  · rename_i y hscan
    rw [hscan]
    simp
  · rename_i hnone
    exact iff_of_false nofun (hnone x)

end Json

variable {numerals : Numerals} {x : Float}

open Json (floatChars number scan ends_nil)

/-- Only finite doubles are written as numbers. -/
theorem Numerals.ReadsBack.isFinite (h : numerals.ReadsBack x) : Double.isFinite x = true := by
  cases hx : Double.isFinite x with
  | true => rfl
  | false =>
    rw [ReadsBack, floatChars, hx] at h
    cases h

/-- A written double is read back, whatever follows it that is no part of a number. -/
theorem Numerals.ReadsBack.scan (h : numerals.ReadsBack x) {rest : List Char}
    (hrest : Json.Ends rest) :
    Json.scan (number numerals false) (floatChars x ++ rest) = some (.float x, rest) := by
  obtain ⟨value, hscan, -⟩ := Json.scan_floatChars h.isFinite
  have halone := Json.double?_eq_some.1 h
  rw [← List.append_nil (floatChars x), hscan numerals [] ends_nil] at halone
  obtain ⟨j, hj, heq⟩ := Option.map_eq_some_iff.1 halone
  cases heq
  rw [hscan numerals rest hrest, hj]
  rfl

/-- Every finite double is read back if numbers are rounded once. -/
theorem Numerals.readsBack_exact (hx : Double.isFinite x = true) : exact.ReadsBack x := by
  obtain ⟨value, hscan, hexact⟩ := Json.scan_floatChars hx
  have halone := hscan .exact [] ends_nil
  rw [List.append_nil, hexact] at halone
  exact Json.double?_eq_some.2 halone

end Patchbay
