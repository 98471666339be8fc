import Patchbay.Double.Layout
import Patchbay.Proofs.Digits
import Patchbay.Proofs.Double.ReadBack

/-!
# Written doubles read back

A written double consists of a sign, whole digits, and perhaps a fraction and an exponent
(`Parts`). Whatever the layout, the parts name the double that was written
(`chars_eq_parts`); how they are told apart is up to the reader:

* `read?_toPlain`: the plain form is read back, so that different doubles have different plain
  forms (`toPlain_inj`);
* `plainChar_of_mem_toPlain`: it consists of digits, the point and the minus sign.
-/

namespace Patchbay.Double

/-! ## Parts -/

/-- The parts of a written decimal, without its sign. -/
structure Parts where
  whole : List Char
  fraction : Option (List Char)
  exponent : Option Int

namespace Parts

/-- The point and the digits behind it. -/
def fractionChars : Option (List Char) → List Char
  | none => []
  | some ds => '.' :: ds

/-- The letter, the sign and the digits of an exponent, `plus` standing before a positive one. -/
def exponentChars (plus : List Char) : Option Int → List Char
  | none => []
  | some (.ofNat n) => 'e' :: (plus ++ natDigits n)
  | some (.negSucc n) => 'e' :: '-' :: natDigits (n + 1)

/-- The written form. -/
def chars (plus : List Char) (p : Parts) : List Char :=
  p.whole ++ (fractionChars p.fraction ++ exponentChars plus p.exponent)

/-- The decimal that the parts name. -/
def literal (negative : Bool) (p : Parts) : Literal :=
  .ofDigits negative p.whole (p.fraction.getD []) (p.exponent.getD 0)

/-- The parts are digits, one at least in each place, and no zero stands before other digits. -/
structure WellFormed (p : Parts) : Prop where
  whole_ne_nil : p.whole ≠ []
  whole_digits : ∀ c ∈ p.whole, c.isDigit = true
  whole_leading : ∀ c ds, p.whole ≠ '0' :: c :: ds
  fraction_ne_nil : ∀ ds ∈ p.fraction, ds ≠ []
  fraction_digits : ∀ ds ∈ p.fraction, ∀ c ∈ ds, c.isDigit = true

/-- The decimal that the parts name is the one of a magnitude. -/
def Names (p : Parts) (m : Magnitude) : Prop :=
  nearestBits (digitsValue (p.whole ++ p.fraction.getD []))
    (p.exponent.getD 0 - (p.fraction.getD []).length) = m.toBits

theorem Names.double {p : Parts} {m : Magnitude} (h : p.Names m) (negative : Bool) :
    (p.literal negative).double = ofMagnitude negative m := by
  rw [Literal.double, literal, Literal.ofDigits, ofMagnitude]
  exact congrArg (ofSignBits negative) h

end Parts

/-! ## The parts of a layout -/

theorem isDigit_zero : ('0').isDigit = true := by decide

theorem isDigit_of_mem_zero : ∀ c ∈ ['0'], c.isDigit = true := by
  intro c hc
  rw [List.mem_singleton.1 hc]
  exact isDigit_zero

theorem isDigit_of_mem_replicate {k : Nat} {c : Char} (h : c ∈ List.replicate k '0') :
    c.isDigit = true := by
  rw [List.eq_of_mem_replicate h]
  exact isDigit_zero

/-- Digits that begin with one that is not zero. -/
structure Leading (ds : List Char) : Prop where
  digits : ∀ c ∈ ds, c.isDigit = true
  head : ∃ d es, ds = d :: es ∧ d ≠ '0'

theorem leading_natDigits {n : Nat} (h : n ≠ 0) : Leading (natDigits n) :=
  ⟨fun _ hc => isDigit_of_mem_natDigits hc, natDigits_cons (Nat.pos_of_ne_zero h)⟩

theorem Leading.append {ds es : List Char} (h : Leading ds) (hes : ∀ c ∈ es, c.isDigit = true) :
    Leading (ds ++ es) := by
  obtain ⟨d, ds', rfl, hd⟩ := h.head
  refine ⟨fun c hc => ?_, d, ds' ++ es, rfl, hd⟩
  rcases List.mem_append.1 hc with hc | hc
  · exact h.digits c hc
  · exact hes c hc

theorem Leading.take {ds : List Char} (h : Leading ds) {k : Nat} (hk : 0 < k) :
    Leading (ds.take k) := by
  obtain ⟨d, es, rfl, hd⟩ := h.head
  obtain ⟨k, rfl⟩ := Nat.exists_eq_succ_of_ne_zero (Nat.ne_of_gt hk)
  exact ⟨fun c hc => h.digits c (List.mem_of_mem_take hc), d, es.take k, rfl, hd⟩

/-- Parts whose whole digits begin with one that is not zero, or are just a zero. -/
theorem Parts.wellFormed_of {whole : List Char} {fraction : Option (List Char)}
    {exponent : Option Int} (hwhole : Leading whole ∨ whole = ['0'])
    (hfraction : ∀ ds ∈ fraction, ds ≠ [] ∧ ∀ c ∈ ds, c.isDigit = true) :
    (Parts.mk whole fraction exponent).WellFormed := by
  refine ⟨?_, ?_, fun c ds heq => ?_, fun ds hds => (hfraction ds hds).1,
    fun ds hds => (hfraction ds hds).2⟩
  · rcases hwhole with h | rfl
    · obtain ⟨d, es, rfl, -⟩ := h.head
      exact List.cons_ne_nil d es
    · exact List.cons_ne_nil _ _
  · rcases hwhole with h | rfl
    · exact h.digits
    · exact isDigit_of_mem_zero
  · rcases hwhole with h | rfl
    · obtain ⟨d, es, hds, hd⟩ := h.head
      rw [hds] at heq
      cases heq
      exact hd rfl
    · cases heq

/-- Layouts whose numbers are read back: a whole number shows an empty fraction or none, and a
positive exponent a plus or none. -/
structure Layout.Regular (l : Layout) : Prop where
  whole : l.whole = [] ∨ l.whole = ['.', '0']
  plus : l.plus = [] ∨ l.plus = ['+']

/-- What the layout puts behind a whole number. -/
theorem Layout.Regular.fraction {l : Layout} (h : l.Regular) :
    ∃ fraction, l.whole = Parts.fractionChars fraction ∧
      (fraction = none ∨ fraction = some ['0']) := by
  rcases h.whole with hw | hw
  · exact ⟨none, hw, Or.inl rfl⟩
  · exact ⟨some ['0'], hw, Or.inr rfl⟩

/-- The parts name the magnitude if they are another way to split the same decimal. -/
theorem Parts.names_of {parts : Parts} {m : Magnitude} (hm : m.Normal) (h0 : m.coefficient ≠ 0)
    {n c : Nat} {e : Int} (hmem : (interval m).mem n = true)
    (hvalue : digitsValue (parts.whole ++ parts.fraction.getD []) = c)
    (hexponent : parts.exponent.getD 0 - (parts.fraction.getD []).length = e) (he : -1076 ≤ e)
    (hn : c * 10 ^ (e + 1076).toNat = n) : parts.Names m := by
  rw [Names, hvalue, hexponent]
  exact nearestBits_of_mem hm h0 he (hn ▸ hmem)

theorem digits_of_mem_drop {c k : Nat} {d : Char} (h : d ∈ (natDigits c).drop k) :
    d.isDigit = true := isDigit_of_mem_natDigits (List.mem_of_mem_drop h)

variable {l : Layout} {m : Magnitude} {c p : Nat}

/-- A whole number, given by its digits: the layout may put an empty fraction behind them. -/
theorem parts_natural (h : l.Regular) {ds : List Char} (hds : Leading ds ∨ ds = ['0'])
    (hnames : ∀ fraction : Option (List Char), fraction = none ∨ fraction = some ['0'] →
      (Parts.mk ds fraction none).Names m) :
    ∃ parts : Parts, parts.WellFormed ∧ parts.Names m ∧ parts.exponent = none ∧
      parts.chars l.plus = ds ++ l.whole ∧ (l.whole ≠ [] → parts.fraction ≠ none) := by
  obtain ⟨fraction, hw, hfraction⟩ := h.fraction
  refine ⟨⟨ds, fraction, none⟩, Parts.wellFormed_of hds fun es hes => ?_,
    hnames fraction hfraction, rfl, ?_, ?_⟩
  · rcases hfraction with rfl | rfl
    · cases hes
    · cases hes
      exact ⟨List.cons_ne_nil _ _, isDigit_of_mem_zero⟩
  · rw [hw]
    show ds ++ (Parts.fractionChars fraction ++ []) = _
    rw [List.append_nil]
  · rintro hne rfl
    exact hne hw

/-- Zero. -/
theorem parts_zero (h : l.Regular) (hm : m.Normal) (h0 : m.coefficient = 0) :
    ∃ parts : Parts, parts.WellFormed ∧ parts.Names m ∧ parts.exponent = none ∧
      parts.chars l.plus = '0' :: l.whole ∧ (l.whole ≠ [] → parts.fraction ≠ none) := by
  have hscale : m.scale = 0 := by
    refine Nat.eq_zero_of_not_pos fun hpos => ?_
    have := hm.le_coefficient (Nat.ne_of_gt hpos)
    omega
  have hbits : m.toBits = 0 := by rw [Magnitude.toBits, hscale, h0, Nat.zero_mul]
  refine parts_natural h (Or.inr rfl) ?_
  rintro fraction (rfl | rfl)
  · rw [Parts.Names, hbits]
    rfl
  · rw [Parts.Names, hbits]
    rfl

/-- A whole number, `zeros` zeros behind its digits. -/
theorem parts_whole (h : l.Regular) (hc : c ≠ 0) (hm : m.Normal) (h0 : m.coefficient ≠ 0)
    {zeros : Nat} (hp : p = zeros + 1076) (hmem : (interval m).mem (c * 10 ^ p) = true) :
    ∃ parts : Parts, parts.WellFormed ∧ parts.Names m ∧ parts.exponent = none ∧
      parts.chars l.plus = natDigits c ++ List.replicate zeros '0' ++ l.whole ∧
      (l.whole ≠ [] → parts.fraction ≠ none) := by
  have hleading := (leading_natDigits hc).append fun _ => isDigit_of_mem_replicate (k := zeros)
  have hvalue : digitsValue (natDigits c ++ List.replicate zeros '0') = c * 10 ^ zeros := by
    rw [digitsValue_append, digitsValue_natDigits, digitsValue_replicate, List.length_replicate,
      Nat.add_zero]
  refine parts_natural h (Or.inl hleading) ?_
  rintro fraction (rfl | rfl)
  · refine Parts.names_of hm h0 hmem (e := 0) (c := c * 10 ^ zeros) ?_ rfl (by decide) ?_
    · rw [Option.getD_none, List.append_nil, hvalue]
    · rw [Nat.mul_assoc, ← Nat.pow_add, hp]
      rfl
  · refine Parts.names_of hm h0 hmem (e := -1) (c := c * 10 ^ zeros * 10) ?_ rfl (by decide) ?_
    · rw [Option.getD_some, digitsValue_append, hvalue]
      rfl
    · rw [Nat.mul_assoc, Nat.mul_assoc, ← Nat.pow_succ', ← Nat.pow_add, hp]
      rfl

/-- A number with a point among its digits, or before them. -/
theorem parts_point (hc : c ≠ 0) (hm : m.Normal) (h0 : m.coefficient ≠ 0) {less : Nat}
    (hp : p + (less + 1) = 1076) (hmem : (interval m).mem (c * 10 ^ p) = true) (whole : List Char) :
    ∃ parts : Parts, parts.WellFormed ∧ parts.Names m ∧ parts.exponent = none ∧
      parts.chars l.plus = placePoint whole (natDigits c) (.negSucc less) ∧
      parts.fraction ≠ none := by
  have hexponent : (0 : Int) - ((less + 1 : Nat) : Int) = (p : Int) - 1076 := by omega
  unfold placePoint
  simp only
  split
  · rename_i hplaces
    refine ⟨⟨(natDigits c).take ((natDigits c).length - (less + 1)),
      some ((natDigits c).drop ((natDigits c).length - (less + 1))), none⟩,
      Parts.wellFormed_of (Or.inl ((leading_natDigits hc).take (by omega))) fun ds hds => ?_, ?_,
      rfl, ?_, nofun⟩
    · cases hds
      refine ⟨fun hnil => ?_, fun d => digits_of_mem_drop⟩
      have := List.drop_eq_nil_iff.1 hnil
      omega
    · refine Parts.names_of hm h0 hmem (e := (p : Int) - 1076) (c := c) ?_ ?_ (by omega) ?_
      · rw [Option.getD_some, List.take_append_drop, digitsValue_natDigits]
      · rw [Option.getD_some, Option.getD_none, List.length_drop,
          Nat.sub_sub_self (Nat.le_of_lt hplaces), hexponent]
      · rw [Int.sub_add_cancel, Int.toNat_natCast]
    · simp [Parts.chars, Parts.fractionChars, Parts.exponentChars]
  · rename_i hplaces
    refine ⟨⟨['0'], some (List.replicate (less + 1 - (natDigits c).length) '0' ++ natDigits c),
      none⟩, Parts.wellFormed_of (Or.inr rfl) fun ds hds => ?_, ?_, rfl, ?_, nofun⟩
    · cases hds
      refine ⟨fun hnil => natDigits_ne_nil c (List.append_eq_nil_iff.1 hnil).2, fun d hd => ?_⟩
      rcases List.mem_append.1 hd with hd | hd
      · exact isDigit_of_mem_replicate hd
      · exact isDigit_of_mem_natDigits hd
    · refine Parts.names_of hm h0 hmem (e := (p : Int) - 1076) (c := c) ?_ ?_ (by omega) ?_
      · rw [Option.getD_some, digitsValue_append, digitsValue_append, digitsValue_zero,
          digitsValue_replicate, digitsValue_natDigits, Nat.zero_mul, Nat.zero_mul, Nat.zero_add,
          Nat.zero_add]
      · rw [Option.getD_some, Option.getD_none, List.length_append, List.length_replicate,
          Nat.sub_add_cancel (Nat.le_of_not_lt hplaces), hexponent]
      · rw [Int.sub_add_cancel, Int.toNat_natCast]
    · simp [Parts.chars, Parts.fractionChars, Parts.exponentChars]

/-- A number with an exponent. -/
theorem parts_exponent (hc : c ≠ 0) (hm : m.Normal) (h0 : m.coefficient ≠ 0)
    (hmem : (interval m).mem (c * 10 ^ p) = true) (plus : List Char) :
    ∃ parts : Parts, parts.WellFormed ∧ parts.Names m ∧ parts.exponent ≠ none ∧
      parts.chars plus = withExponent plus (natDigits c)
        ((p : Int) - 1076 + (natDigits c).length - 1) := by
  obtain ⟨d, ds, hds, hd⟩ := natDigits_cons (Nat.pos_of_ne_zero hc)
  have hdigits : ∀ e ∈ d :: ds, e.isDigit = true := fun e he =>
    isDigit_of_mem_natDigits (hds ▸ he)
  have hvalue : digitsValue ([d] ++ ds) = c := by
    rw [List.singleton_append, ← hds, digitsValue_natDigits]
  have hlength : (natDigits c).length = ds.length + 1 := by rw [hds, List.length_cons]
  have hwhole : Leading [d] :=
    ⟨fun e he => hdigits e (List.mem_singleton.1 he ▸ List.mem_cons_self), d, [], rfl, hd⟩
  rw [hlength, hds]
  generalize hpower : (p : Int) - 1076 + ((ds.length + 1 : Nat) : Int) - 1 = power
  have hexponent : power - (ds.length : Int) = (p : Int) - 1076 := by omega
  cases ds with
  | nil =>
    refine ⟨⟨[d], none, some power⟩, Parts.wellFormed_of (Or.inl hwhole) nofun, ?_, nofun, ?_⟩
    · refine Parts.names_of hm h0 hmem hvalue hexponent (by omega) ?_
      rw [Int.sub_add_cancel, Int.toNat_natCast]
    · cases power with
      | ofNat n => rfl
      | negSucc n => rfl
  | cons e ds =>
    refine ⟨⟨[d], some (e :: ds), some power⟩, Parts.wellFormed_of (Or.inl hwhole) fun es hes => ?_,
      ?_, nofun, ?_⟩
    · cases hes
      exact ⟨List.cons_ne_nil e ds, fun x hx => hdigits x (List.mem_cons_of_mem d hx)⟩
    · refine Parts.names_of hm h0 hmem hvalue hexponent (by omega) ?_
      rw [Int.sub_add_cancel, Int.toNat_natCast]
    · cases power with
      | ofNat n => rfl
      | negSucc n => rfl

theorem coefficient_ne_zero (hm : m.Normal) (h0 : m.coefficient ≠ 0)
    (hmem : (interval m).mem (c * 10 ^ p) = true) : c ≠ 0 := by
  rintro rfl
  rw [Nat.zero_mul] at hmem
  exact absurd (bounds_of_mem hm h0 hmem).1 (Nat.not_le.2 (Nat.pow_pos (by decide)))

/-- The written form of a magnitude, in any regular layout, consists of parts that name it. It shows
a fraction or an exponent if whole numbers do. -/
theorem magnitude_eq_parts (h : l.Regular) (hm : m.Normal) :
    ∃ parts : Parts, parts.WellFormed ∧ parts.Names m ∧ l.magnitude m = parts.chars l.plus ∧
      (l.whole ≠ [] → parts.fraction ≠ none ∨ parts.exponent ≠ none) ∧
      ((∀ e, l.positional e = true) → parts.exponent = none) := by
  rw [Layout.magnitude]
  split
  · rename_i h0
    obtain ⟨parts, hwell, hnames, hnone, hchars, hfraction⟩ := parts_zero h hm h0
    exact ⟨parts, hwell, hnames, hchars.symm, fun hne => Or.inl (hfraction hne), fun _ => hnone⟩
  · rename_i h0
    obtain ⟨c, p, hshortest, hmem⟩ := shortest_mem l.tie h0
    have hc := coefficient_ne_zero hm h0 hmem
    rw [hshortest, Layout.decimal]
    simp only
    split
    · cases hexponent : (p : Int) - 1076 with
      | ofNat zeros =>
        have hp : p = zeros + 1076 := by
          have : (p : Int) - 1076 = (zeros : Int) := hexponent
          omega
        obtain ⟨parts, hwell, hnames, hnone, hchars, hfraction⟩ :=
          parts_whole h hc hm h0 hp hmem
        exact ⟨parts, hwell, hnames, hchars.symm, fun hne => Or.inl (hfraction hne), fun _ => hnone⟩
      | negSucc less =>
        have hp : p + (less + 1) = 1076 := by omega
        obtain ⟨parts, hwell, hnames, hnone, hchars, hfraction⟩ :=
          parts_point (l := l) hc hm h0 hp hmem l.whole
        exact ⟨parts, hwell, hnames, hchars.symm, fun _ => Or.inl hfraction, fun _ => hnone⟩
    · rename_i hpositional
      obtain ⟨parts, hwell, hnames, hexponent, hchars⟩ := parts_exponent hc hm h0 hmem l.plus
      exact ⟨parts, hwell, hnames, hchars.symm, fun _ => Or.inr hexponent,
        fun hall => absurd (hall _) hpositional⟩

/-- The written form of a finite double, in any regular layout, consists of a sign and parts that
name the double. -/
theorem chars_eq_parts (h : l.Regular) {x : Float} (hx : isFinite x = true) :
    ∃ (negative : Bool) (parts : Parts), parts.WellFormed ∧
      (parts.literal negative).double = x ∧ l.chars x = signed negative (parts.chars l.plus) ∧
      (l.whole ≠ [] → parts.fraction ≠ none ∨ parts.exponent ≠ none) ∧
      ((∀ e, l.positional e = true) → parts.exponent = none) := by
  obtain ⟨negative, m, hview⟩ := isFinite_iff.1 hx
  obtain ⟨hm, hxm⟩ := ofMagnitude_of_view hview
  obtain ⟨parts, hwell, hnames, hchars, hshown, hplain⟩ := magnitude_eq_parts h hm
  refine ⟨negative, parts, hwell, (hnames.double negative).trans hxm, ?_, hshown, hplain⟩
  rw [Layout.chars, hview]
  simp only
  rw [hchars]

/-! ## The plain form -/

theorem regular_plain : Layout.plain.Regular := ⟨Or.inl rfl, Or.inl rfl⟩

theorem toLower_of_isDigit {d : Char} (h : d.isDigit = true) : d.toLower = d := by
  simp only [Char.isDigit, Bool.and_eq_true, decide_eq_true_eq, ge_iff_le] at h
  unfold Char.toLower
  rw [dif_neg]
  rintro ⟨hle, -⟩
  exact absurd (UInt32.le_trans hle h.2) (by decide)

/-- What begins with a digit is no word. -/
theorem map_toLower_ne {ds : List Char} {d : Char} (h : d.isDigit = true) {word : String}
    (hword : word.toList.head?.any Char.isDigit = false) :
    String.ofList ((d :: ds).map Char.toLower) ≠ word := by
  rintro rfl
  rw [String.toList_ofList, List.map_cons, toLower_of_isDigit h] at hword
  exact absurd h (Bool.eq_false_iff.1 hword)

theorem takeWhile_append_of_head {p : Char → Bool} {cs rest : List Char}
    (hcs : ∀ c ∈ cs, p c = true) (hrest : ∀ c ∈ rest.head?, p c = false) :
    (cs ++ rest).takeWhile p = cs ∧ (cs ++ rest).dropWhile p = rest := by
  rw [List.takeWhile_append_of_pos hcs, List.dropWhile_append_of_pos hcs]
  cases rest with
  | nil => exact ⟨List.append_nil cs, rfl⟩
  | cons c rest =>
    have hc := hrest c rfl
    rw [List.takeWhile_cons, List.dropWhile_cons, hc]
    exact ⟨List.append_nil cs, rfl⟩

theorem head?_fractionChars {fraction : Option (List Char)} {c : Char}
    (h : c ∈ (Parts.fractionChars fraction).head?) : c.isDigit = false := by
  cases fraction with
  | none => cases h
  | some ds =>
    cases h
    rfl

theorem splitSign_signed (negative : Bool) {cs : List Char}
    (h : ∀ c ∈ cs.head?, c.isDigit = true) : splitSign (signed negative cs) = (negative, cs) := by
  cases negative with
  | true => rfl
  | false =>
    show splitSign cs = (false, cs)
    unfold splitSign
    split
    · exact absurd (h '-' rfl) (by decide)
    · exact absurd (h '+' rfl) (by decide)
    · rfl

/-- The plain form of a finite double: a sign, digits, and perhaps a point and more digits. -/
theorem plain_eq_parts {x : Float} (hx : isFinite x = true) :
    ∃ (negative : Bool) (parts : Parts), parts.WellFormed ∧ parts.exponent = none ∧
      (parts.literal negative).double = x ∧
      Layout.plain.chars x =
        signed negative (parts.whole ++ Parts.fractionChars parts.fraction) := by
  obtain ⟨negative, parts, hwell, hdouble, hchars, -, hplain⟩ := chars_eq_parts regular_plain hx
  have hexponent := hplain fun _ => rfl
  refine ⟨negative, parts, hwell, hexponent, hdouble, ?_⟩
  rw [hchars, Parts.chars, hexponent, Parts.exponentChars, List.append_nil]

/-- The plain form of a finite double is read back. -/
theorem read?_toPlain {x : Float} (hx : isFinite x = true) : read? (toPlain x) = some x := by
  obtain ⟨negative, ⟨whole, fraction, exponent⟩, hwell, rfl, hdouble, hcs⟩ := plain_eq_parts hx
  obtain ⟨d, ds, rfl⟩ := List.exists_cons_of_ne_nil hwell.whole_ne_nil
  have hd : d.isDigit = true := hwell.whole_digits d List.mem_cons_self
  obtain ⟨htake, hdrop⟩ := takeWhile_append_of_head hwell.whole_digits
    fun c (hc : c ∈ (Parts.fractionChars fraction).head?) => head?_fractionChars hc
  have hword {word : String} (hword : word.toList.head?.any Char.isDigit = false) :
      String.ofList ((d :: ds ++ Parts.fractionChars fraction).map Char.toLower) ≠ word :=
    map_toLower_ne hd hword
  rw [read?, toPlain, Layout.text, String.toList_ofList, hcs, splitSign_signed]
  · simp only
    rw [if_neg, if_neg (hword (by decide +kernel)), htake, hdrop]
    · cases fraction with
      | none =>
        show some ((Parts.mk (d :: ds) none none).literal negative).double = some x
        rw [hdouble]
      | some es =>
        have hend : ∀ c ∈ ([] : List Char).head?, c.isDigit = false := nofun
        obtain ⟨htake', hdrop'⟩ := takeWhile_append_of_head (hwell.fraction_digits es rfl) hend
        rw [List.append_nil] at htake' hdrop'
        simp only [Parts.fractionChars, htake', hdrop', List.isEmpty_cons, Bool.false_and]
        show some ((Parts.mk (d :: ds) (some es) none).literal negative).double = some x
        rw [hdouble]
    · rw [Bool.or_eq_true, decide_eq_true_eq, decide_eq_true_eq, not_or]
      exact ⟨hword (by decide +kernel), hword (by decide +kernel)⟩
  · intro c hc
    cases hc
    exact hd

/-- Different finite doubles have different plain forms. -/
theorem toPlain_inj {x y : Float} (hx : isFinite x = true) (hy : isFinite y = true)
    (h : toPlain x = toPlain y) : x = y := by
  have hread := read?_toPlain hx
  rw [h, read?_toPlain hy] at hread
  exact (Option.some.inj hread).symm

/-- A character of plain forms. -/
def isPlainChar (c : Char) : Bool := c.isDigit || c == '.' || c == '-'

theorem isPlainChar_of_isDigit {c : Char} (h : c.isDigit = true) : isPlainChar c = true := by
  rw [isPlainChar, h]
  rfl

theorem plain_ne_nil {x : Float} (hx : isFinite x = true) : Layout.plain.chars x ≠ [] := by
  obtain ⟨negative, ⟨whole, fraction, exponent⟩, hwell, -, -, hcs⟩ := plain_eq_parts hx
  rw [hcs]
  cases negative with
  | false => exact List.append_ne_nil_of_left_ne_nil hwell.whole_ne_nil _
  | true => exact List.cons_ne_nil _ _

theorem plainChar_of_mem_toPlain {x : Float} (hx : isFinite x = true) {c : Char}
    (hc : c ∈ Layout.plain.chars x) : isPlainChar c = true := by
  obtain ⟨negative, ⟨whole, fraction, exponent⟩, hwell, -, -, hcs⟩ := plain_eq_parts hx
  have hparts : ∀ c ∈ whole ++ Parts.fractionChars fraction, isPlainChar c = true := by
    intro c hc
    rcases List.mem_append.1 hc with hc | hc
    · exact isPlainChar_of_isDigit (hwell.whole_digits c hc)
    · cases fraction with
      | none => cases hc
      | some ds =>
        rcases List.mem_cons.1 hc with rfl | hc
        · rfl
        · exact isPlainChar_of_isDigit (hwell.fraction_digits ds rfl c hc)
  rw [hcs] at hc
  cases negative with
  | false => exact hparts c hc
  | true =>
    rcases List.mem_cons.1 hc with rfl | hc
    · rfl
    · exact hparts c hc

end Patchbay.Double
