import Patchbay.Proofs.Json.Number
import Patchbay.Proofs.Json.Text

/-!
# Written values read back

The reader takes a written value whole if its arrays and objects nest no deeper than the reader has
levels (`Json.fits`), and refuses it otherwise (`Json.scan_value`), whatever follows the value that
is no part of a number. All that is asked of the value is that its integers are of 64 bits and that
its doubles are read back each by itself (`Json.Exact`).
-/

namespace Patchbay.Json

/-- Whether arrays and objects nest so many levels deep at most. -/
def fits : (levels : Nat) → Json → Bool
  | 0, array _ | 0, object _ => false
  | levels + 1, array items => items.all (fits levels)
  | levels + 1, object members => members.all fun m => fits levels m.2
  | _, _ => true

@[simp] theorem fits_null (levels : Nat) : null.fits levels = true := by
  cases levels <;> rfl

@[simp] theorem fits_bool (b : Bool) (levels : Nat) : (bool b).fits levels = true := by
  cases levels <;> rfl

@[simp] theorem fits_int (i : Int) (levels : Nat) : (int i).fits levels = true := by
  cases levels <;> rfl

@[simp] theorem fits_float (x : Float) (levels : Nat) : (float x).fits levels = true := by
  cases levels <;> rfl

@[simp] theorem fits_string (s : String) (levels : Nat) : (string s).fits levels = true := by
  cases levels <;> rfl

/-- All integers in the value are of 64 bits, and all doubles have the property. -/
inductive Exact (P : Float → Prop) : Json → Prop
  | null : Exact P null
  | bool (b : Bool) : Exact P (bool b)
  | int {i : Int} (h : InRange i) : Exact P (int i)
  | float {x : Float} (h : P x) : Exact P (float x)
  | string (s : String) : Exact P (string s)
  | array {items : List Json} (h : ∀ j ∈ items, Exact P j) : Exact P (array items)
  | object {members : List (String × Json)} (h : ∀ m ∈ members, Exact P m.2) :
    Exact P (object members)

variable {numerals : Numerals}

/-- A written member of an object. -/
def memberText (m : String × Json) : List Char := stringChars m.1 ++ ':' :: m.2.chars

theorem itemChars_eq (items : List Json) :
    itemChars items = [','].intercalate (items.map chars) := by
  induction items with
  | nil => rfl
  | cons j js ih =>
    cases js with
    | nil => rw [itemChars, List.map_singleton, List.intercalate_singleton]
    | cons k ks =>
      rw [itemChars, ih]
      · simp only [List.map_cons, List.intercalate_cons_cons, List.append_assoc,
          List.singleton_append]
      · exact List.cons_ne_nil k ks

theorem memberChars_eq (members : List (String × Json)) :
    memberChars members = [','].intercalate (members.map memberText) := by
  induction members with
  | nil => rfl
  | cons m ms ih =>
    obtain ⟨key, j⟩ := m
    cases ms with
    | nil =>
      rw [memberChars, List.map_singleton, List.intercalate_singleton]
      rfl
    | cons n ns =>
      rw [memberChars, ih]
      · simp only [List.map_cons, List.intercalate_cons_cons, memberText, List.append_assoc,
          List.cons_append, List.nil_append]
      · exact List.cons_ne_nil n ns

/-! ## How values begin -/

/-- Whether a character begins a number. -/
def isNumberStart (c : Char) : Bool := c.isDigit || c == '-'

theorem signed_parts_cons {p : Double.Parts} (hp : p.WellFormed) (plus : List Char)
    (negative : Bool) :
    ∃ c cs, Double.signed negative (p.chars plus) = c :: cs ∧ isNumberStart c = true := by
  cases negative with
  | true => exact ⟨'-', _, rfl, rfl⟩
  | false =>
    obtain ⟨d, ds, hds⟩ := List.exists_cons_of_ne_nil hp.whole_ne_nil
    have hchars : Double.signed false (p.chars plus) = d :: (ds ++
        (Double.Parts.fractionChars p.fraction ++ Double.Parts.exponentChars plus p.exponent)) := by
      rw [Double.signed, if_neg Bool.false_ne_true, Double.Parts.chars, hds]
      rfl
    refine ⟨d, _, hchars, ?_⟩
    rw [isNumberStart, hp.whole_digits d (hds ▸ List.mem_cons_self)]
    rfl

theorem intChars_cons (i : Int) : ∃ c cs, intChars i = c :: cs ∧ isNumberStart c = true := by
  cases i with
  | ofNat n =>
    obtain ⟨d, ds, hds⟩ := List.exists_cons_of_ne_nil (Double.natDigits_ne_nil n)
    refine ⟨d, ds, hds, ?_⟩
    rw [isNumberStart, Double.isDigit_of_mem_natDigits (hds ▸ List.mem_cons_self)]
    rfl
  | negSucc n => exact ⟨'-', _, rfl, rfl⟩

theorem floatChars_cons {x : Float} (hx : Double.isFinite x = true) :
    ∃ c cs, floatChars x = c :: cs ∧ isNumberStart c = true := by
  obtain ⟨negative, p, hwell, -, hchars, -⟩ := Double.chars_eq_parts regular_json hx
  rw [floatChars, if_pos hx, hchars]
  exact signed_parts_cons hwell _ negative

theorem ne_of_isNumberStart {c d : Char} (hc : isNumberStart c = true)
    (hd : isNumberStart d = false) : c ≠ d := by
  rintro rfl
  rw [hc] at hd
  cases hd

theorem not_isBlank_of_isNumberStart {c : Char} (hc : isNumberStart c = true) :
    isBlank c = false := by
  have h (d : Char) (hd : isNumberStart d = false) : (c == d) = false :=
    beq_false_of_ne (ne_of_isNumberStart hc hd)
  rw [isBlank, h ' ' (by decide), h '\t' (by decide), h '\n' (by decide), h '\r' (by decide)]
  rfl

/-- No written value begins with a blank, or with the end of an array or object. -/
theorem Exact.chars_cons {j : Json} (h : j.Exact numerals.ReadsBack) :
    ∃ c cs, j.chars = c :: cs ∧ isBlank c = false ∧ c ≠ ']' ∧ c ≠ '\x7d' := by
  have hnumber {cs : List Char} (hcs : ∃ c cs', cs = c :: cs' ∧ isNumberStart c = true) :
      ∃ c cs', cs = c :: cs' ∧ isBlank c = false ∧ c ≠ ']' ∧ c ≠ '\x7d' := by
    obtain ⟨c, cs', hcs, hc⟩ := hcs
    exact ⟨c, cs', hcs, not_isBlank_of_isNumberStart hc, ne_of_isNumberStart hc (by decide),
      ne_of_isNumberStart hc (by decide)⟩
  cases h with
  | null => exact ⟨'n', _, rfl, by decide⟩
  | bool b => cases b <;> exact ⟨_, _, rfl, by decide⟩
  | @int i _ => exact hnumber (intChars_cons i)
  | float hx => exact hnumber (floatChars_cons hx.isFinite)
  | string s => exact ⟨'"', _, rfl, by decide⟩
  | array _ => exact ⟨'[', _, rfl, by decide⟩
  | object _ => exact ⟨'\x7b', _, rfl, by decide⟩

/-! ## Atoms -/

/-- What begins as no word does is a text or a number. -/
theorem scan_atom {c : Char} (hn : c ≠ 'n') (ht : c ≠ 't') (hf : c ≠ 'f') (cs : List Char) :
    scan (atom numerals false) (c :: cs) =
      ((scan (text false) (c :: cs)).map fun (s, rest) => (string s, rest)).or
        (scan (number numerals false) (c :: cs)) := by
  rw [atom]
  simp only [scan_orElse, scan_map, scan_word_of_ne hn, scan_word_of_ne ht, scan_word_of_ne hf,
    Option.map_none, Option.none_or]

theorem scan_atom_number {c : Char} (hc : isNumberStart c = true) (cs : List Char) :
    scan (atom numerals false) (c :: cs) = scan (number numerals false) (c :: cs) := by
  have hne (d : Char) (hd : isNumberStart d = false) : c ≠ d := ne_of_isNumberStart hc hd
  rw [scan_atom (hne 'n' (by decide)) (hne 't' (by decide)) (hne 'f' (by decide)), text, scan_map,
    scan_andThen_char_of_ne (hne '"' (by decide))]
  rfl

theorem scan_atom_text (s : String) (rest : List Char) :
    scan (atom numerals false) (stringChars s ++ rest) = some (string s, rest) := by
  obtain ⟨cs, hcs⟩ : ∃ cs, stringChars s ++ rest = '"' :: cs := ⟨_, rfl⟩
  have hscan := scan_text s rest
  rw [hcs] at hscan
  rw [hcs, scan_atom (by decide) (by decide) (by decide), hscan]
  rfl

/-- No value that holds no other begins as an array or an object does. -/
theorem scan_atom_opening {c : Char} (hc : c = '[' ∨ c = '\x7b') (cs : List Char) :
    scan (atom numerals false) (c :: cs) = none := by
  rcases hc with rfl | rfl <;> rfl

/-- A value that holds no other is taken at any number of levels. -/
theorem scan_value_atom {c : Char} {cs : List Char} (hblank : isBlank c = false) (harray : c ≠ '[')
    (hobject : c ≠ '\x7b') (levels : Nat) :
    scan (value numerals false levels) (c :: cs) = scan (atom numerals false) (c :: cs) := by
  cases levels with
  | zero => rw [value, scan_afterBlanks_cons _ hblank]
  | succ levels =>
    rw [value, scan_afterBlanks_cons _ hblank, scan_orElse, scan_orElse, scan_map, scan_map,
      arrayOf, objectOf, commaList, commaList, scan_map, scan_map, scan_andThen_char_of_ne harray,
      scan_andThen_char_of_ne hobject]
    rfl

theorem scan_value_number {text : List Char} {j : Json} (levels : Nat) {rest : List Char}
    (htext : ∃ c cs, text = c :: cs ∧ isNumberStart c = true)
    (h : scan (number numerals false) (text ++ rest) = some (j, rest)) :
    scan (value numerals false levels) (text ++ rest) = some (j, rest) := by
  obtain ⟨c, cs, rfl, hc⟩ := htext
  rw [List.cons_append] at h ⊢
  rw [scan_value_atom (not_isBlank_of_isNumberStart hc) (ne_of_isNumberStart hc (by decide))
    (ne_of_isNumberStart hc (by decide)), scan_atom_number hc, h]

/-! ## Arrays and objects -/

/-- No array or object is taken without a level. -/
theorem scan_value_zero {c : Char} (hc : c = '[' ∨ c = '\x7b') (cs : List Char) :
    scan (value numerals false 0) (c :: cs) = none := by
  have hblank : isBlank c = false := by rcases hc with rfl | rfl <;> decide
  rw [value, scan_afterBlanks_cons _ hblank, scan_atom_opening hc]

theorem scan_value_array (levels : Nat) (cs : List Char) :
    scan (value numerals false (levels + 1)) ('[' :: cs) =
      (scan (arrayOf (value numerals false levels)) ('[' :: cs)).map fun (items, rest) =>
        (array items, rest) := by
  rw [value, scan_afterBlanks_cons _ (by decide), scan_orElse, scan_orElse, scan_map, scan_map,
    scan_atom_opening (Or.inl rfl), objectOf, commaList, scan_map,
    scan_andThen_char_of_ne (show '[' ≠ '\x7b' by decide)]
  exact Option.or_none

theorem scan_value_object (levels : Nat) (cs : List Char) :
    scan (value numerals false (levels + 1)) ('\x7b' :: cs) =
      (scan (objectOf (text false) (value numerals false levels)) ('\x7b' :: cs)).map
        fun (members, rest) => (object members, rest) := by
  rw [value, scan_afterBlanks_cons _ (by decide), scan_orElse, scan_orElse, scan_map, scan_map,
    scan_atom_opening (Or.inr rfl), arrayOf, commaList, scan_map,
    scan_andThen_char_of_ne (show '\x7b' ≠ '[' by decide), Option.or_none]
  rfl

/-- The reader of members takes a member if the reader of values takes the value. -/
theorem scan_member (item : Reader Json) (m : String × Json) (rest : List Char) :
    scan ((andThen (andThen (afterBlanks (text false)) (afterBlanks (char ':'))) item).map
        fun ((k, ()), j) => (k, j)) (memberText m ++ rest) =
      (scan item (m.2.chars ++ rest)).map fun (j, rest') => ((m.1, j), rest') := by
  have hkey : scan (afterBlanks (text false)) (memberText m ++ rest) =
      some (m.1, ':' :: (m.2.chars ++ rest)) := by
    have htext := scan_text m.1 (':' :: (m.2.chars ++ rest))
    obtain ⟨cs, hcs⟩ : ∃ cs, stringChars m.1 ++ ':' :: (m.2.chars ++ rest) = '"' :: cs := ⟨_, rfl⟩
    rw [memberText, List.append_assoc, List.cons_append]
    rw [hcs] at htext ⊢
    rw [scan_afterBlanks_cons _ (by decide), htext]
  rw [scan_map, scan_andThen, scan_andThen, hkey]
  simp only [Option.bind_some]
  rw [scan_afterBlanks_cons _ (by decide), scan_char_self]
  simp only [Option.map_some, Option.bind_some]
  rcases scan item (m.2.chars ++ rest) with _ | ⟨j, rest'⟩
  · rfl
  · rfl

/-- A value is an array, an object, or one that is read back at any number of levels. -/
theorem Exact.leaf_or {j : Json} (h : j.Exact numerals.ReadsBack) :
    (∀ levels, j.fits levels = true ∧ ∀ rest, Ends rest →
      scan (value numerals false levels) (j.chars ++ rest) = some (j, rest)) ∨
    (∃ items, j = .array items ∧ ∀ k ∈ items, k.Exact numerals.ReadsBack) ∨
    ∃ members, j = .object members ∧ ∀ m ∈ members, m.2.Exact numerals.ReadsBack := by
  cases h with
  | null =>
    refine Or.inl fun levels => ⟨by simp, fun rest _ => ?_⟩
    exact scan_value_atom (by decide) (by decide) (by decide) levels
  | bool b =>
    refine Or.inl fun levels => ⟨by simp, fun rest _ => ?_⟩
    cases b with
    | true => exact scan_value_atom (by decide) (by decide) (by decide) levels
    | false => exact scan_value_atom (by decide) (by decide) (by decide) levels
  | @int i hi =>
    exact Or.inl fun levels => ⟨by simp, fun rest hrest =>
      scan_value_number levels (intChars_cons i) (scan_number_int hi hrest)⟩
  | float hx =>
    exact Or.inl fun levels => ⟨by simp, fun rest hrest =>
      scan_value_number levels (floatChars_cons hx.isFinite) (hx.scan hrest)⟩
  | string s =>
    refine Or.inl fun levels => ⟨by simp, fun rest _ => ?_⟩
    exact (scan_value_atom (by decide) (by decide) (by decide) levels).trans (scan_atom_text s rest)
  | @array items hitems => exact Or.inr (Or.inl ⟨items, rfl, hitems⟩)
  | @object members hmembers => exact Or.inr (Or.inr ⟨members, rfl, hmembers⟩)

/-- A written value is read back if it nests no deeper than the reader has levels, and refused
otherwise. -/
theorem scan_value {j : Json} (h : j.Exact numerals.ReadsBack) (levels : Nat) {rest : List Char}
    (hrest : Ends rest) :
    scan (value numerals false levels) (j.chars ++ rest) =
      if j.fits levels then some (j, rest) else none := by
  induction levels generalizing j rest with
  | zero =>
    rcases h.leaf_or with hleaf | ⟨items, rfl, -⟩ | ⟨members, rfl, -⟩
    · rw [(hleaf 0).2 rest hrest, if_pos (hleaf 0).1]
    · exact scan_value_zero (Or.inl rfl) _
    · exact scan_value_zero (Or.inr rfl) _
  | succ levels ih =>
    rcases h.leaf_or with hleaf | ⟨items, rfl, hitems⟩ | ⟨members, rfl, hmembers⟩
    · rw [(hleaf (levels + 1)).2 rest hrest, if_pos (hleaf (levels + 1)).1]
    · have hlisted : ∀ k ∈ items,
          Listed chars (fits levels) ']' (value numerals false levels) k := by
        intro k hk
        obtain ⟨c, cs, hchars, hblank, hclose, -⟩ := (hitems k hk).chars_cons
        exact ⟨⟨c, cs, hchars, hblank, hclose⟩, fun rest hrest => ih (hitems k hk) hrest⟩
      have hlist := scan_commaList (by decide) (by decide) (by decide) '[' hlisted rest
      rw [← itemChars_eq] at hlist
      rw [chars, List.cons_append, List.append_assoc, List.singleton_append, scan_value_array,
        arrayOf, hlist, fits]
      split
      · rfl
      · rfl
    · have hlisted : ∀ m ∈ members, Listed memberText (fun m => fits levels m.2) '\x7d'
          ((andThen (andThen (afterBlanks (text false)) (afterBlanks (char ':')))
            (value numerals false levels)).map fun ((k, ()), j) => (k, j)) m := by
        intro m hm
        refine ⟨⟨'"', _, rfl, by decide, by decide⟩, fun rest hrest => ?_⟩
        rw [scan_member, ih (hmembers m hm) hrest]
        split
        · rfl
        · rfl
      have hlist := scan_commaList (by decide) (by decide) (by decide) '\x7b' hlisted rest
      rw [← memberChars_eq] at hlist
      rw [chars, List.cons_append, List.append_assoc, List.singleton_append, scan_value_object,
        objectOf, hlist, fits]
      split
      · rfl
      · rfl

/-- The value at the front of a written text is the one written, if it nests no deeper than any
text may. -/
theorem front?_print {j : Json} (h : j.Exact numerals.ReadsBack) :
    front? numerals j.print = if j.fits maxLevels then some (j, []) else none := by
  have hscan := scan_value h maxLevels ends_nil
  rw [List.append_nil] at hscan
  show scan (value numerals false maxLevels) j.print.toList = _
  rw [print, String.toList_ofList, hscan]

end Patchbay.Json
