import Patchbay.Proofs.Json.Value

/-!
# What a reader takes

Whatever the text is, the strict reader of values takes nothing from it but values that can be
written, and that nest no deeper than it has levels (`gives_value`). What a reader gives is lifted
over each way to put readers together (`Gives`), without regard to the characters that it takes.
-/

namespace Patchbay.Json

variable {α β : Type} {P : α → Prop} {Q : β → Prop} {r : Reader α} {next : Reader β}

/-- All that the reader gives has the property. -/
def Gives (P : α → Prop) (r : Reader α) : Prop :=
  ∀ cs a rest, scan r cs = some (a, rest) → P a

theorem gives_map {f : β → α} (h : Gives (fun b => P (f b)) next) : Gives P (next.map f) := by
  intro cs a rest hscan
  rw [scan_map] at hscan
  obtain ⟨⟨b, rest'⟩, hb, heq⟩ := Option.map_eq_some_iff.1 hscan
  cases heq
  exact h cs b rest hb

theorem gives_afterBlanks (h : Gives P r) : Gives P (afterBlanks r) := by
  intro cs a rest hscan
  rw [scan_afterBlanks] at hscan
  exact h (skipBlanks cs) a rest hscan

theorem gives_orElse {r' : Reader α} (h : Gives P r) (h' : Gives P r') : Gives P (orElse r r') := by
  intro cs a rest hscan
  rw [scan_orElse] at hscan
  rcases Option.or_eq_some_iff.1 hscan with hr | ⟨-, hr'⟩
  · exact h cs a rest hr
  · exact h' cs a rest hr'

/-- What the second of two readers gives. -/
theorem gives_andThen (r : Reader α) (h : Gives Q next) :
    Gives (fun p => Q p.2) (andThen r next) := by
  intro cs p rest hscan
  rw [scan_andThen] at hscan
  obtain ⟨⟨a, rest₁⟩, -, hscan⟩ := Option.bind_eq_some_iff.1 hscan
  obtain ⟨⟨b, rest₂⟩, hb, heq⟩ := Option.map_eq_some_iff.1 hscan
  cases heq
  exact h rest₁ b rest hb

/-! ## Comma lists -/

theorem gives_itemsRest (close : Char) (h : Gives P r) :
    Gives (fun as => ∀ a ∈ as, P a) (itemsRest close r) := by
  intro cs as rest hscan
  induction hlength : cs.length using Nat.strong_induction_on generalizing cs as rest with
  | _ n ih =>
    rw [scan_itemsRest] at hscan
    obtain ⟨⟨a, rest₁⟩, ha, hscan⟩ := Option.bind_eq_some_iff.1 hscan
    have hPa := h cs a rest₁ ha
    simp only at hscan
    split at hscan
    · cases hscan
      exact List.forall_mem_singleton.2 hPa
    · obtain ⟨⟨⟨⟩, rest₂⟩, hcomma, hscan⟩ := Option.bind_eq_some_iff.1 hscan
      obtain ⟨⟨as', rest₃⟩, has', heq⟩ := Option.map_eq_some_iff.1 hscan
      cases heq
      obtain ⟨hlt₁, -⟩ := eq_of_scan ha
      obtain ⟨hlt₂, -⟩ := eq_of_scan hcomma
      exact List.forall_mem_cons.2
        ⟨hPa, ih _ (hlength ▸ Nat.lt_trans hlt₂ hlt₁) rest₂ as' rest₃ has' rfl⟩

theorem gives_commaList (opening close : Char) (h : Gives P r) :
    Gives (fun as => ∀ a ∈ as, P a) (commaList opening close r) := by
  refine gives_map (gives_andThen _ (gives_orElse (gives_map ?_) (gives_itemsRest close h)))
  intro cs _ rest _ a ha
  exact absurd ha List.not_mem_nil

theorem gives_objectOf (key : Reader String) (h : Gives P r) :
    Gives (fun members => ∀ m ∈ members, P m.2) (objectOf key r) :=
  gives_commaList _ _ (gives_map (gives_andThen _ h))

/-! ## Values -/

/-- All integers in the value are of 64 bits, and all doubles are finite. -/
def Finite (j : Json) : Prop := j.Exact fun x => Double.isFinite x = true

/-- A value that can be written at any depth. -/
def Shallow (j : Json) : Prop := j.Finite ∧ ∀ levels, j.fits levels = true

variable {numerals : Numerals}

theorem shallow_int {i : Int} (h : InRange i) : (int i).Shallow := ⟨.int h, fits_int i⟩

theorem shallow_float {x : Float} (h : Double.isFinite x = true) : (float x).Shallow :=
  ⟨.float h, fits_float x⟩

theorem inRange_of_integral {negative : Bool} {n : Nat} {i : Int}
    (h : integral negative n = some i) : InRange i := by
  unfold integral at h
  unfold InRange
  split at h
  · split at h
    · cases h
      omega
    · cases h
  · split at h
    · cases h
      omega
    · cases h

/-- A number that the strict reader accepts is an integer of 64 bits or finite. -/
theorem shallow_of_numberValue {negative : Bool} {whole : List Char} {fraction : Option (List Char)}
    {exponent : Option Int} {j : Json}
    (h : numberValue numerals false negative whole fraction exponent = some j) : j.Shallow := by
  have hdouble {x : Float}
      (hx : (if Double.isFinite x || false then some (float x) else none) = some j) :
      j.Shallow := by
    split at hx
    · rename_i hfinite
      cases hx
      rw [Bool.or_false] at hfinite
      exact shallow_float hfinite
    · cases hx
  unfold numberValue at h
  simp only at h
  split at h
  · split at h
    · rename_i i hi
      cases h
      exact shallow_int (inRange_of_integral hi)
    · exact hdouble h
  · exact hdouble h

theorem gives_unsigned (negative : Bool) : Gives Shallow (unsigned numerals false negative) := by
  intro cs j rest hscan
  rw [scan_unsigned] at hscan
  obtain ⟨⟨whole, r₁⟩, -, hscan⟩ := Option.bind_eq_some_iff.1 hscan
  obtain ⟨⟨fraction, r₂⟩, -, hscan⟩ := Option.bind_eq_some_iff.1 hscan
  obtain ⟨⟨exponent, r₃⟩, -, hscan⟩ := Option.bind_eq_some_iff.1 hscan
  obtain ⟨j', hj', heq⟩ := Option.map_eq_some_iff.1 hscan
  cases heq
  exact shallow_of_numberValue hj'

theorem gives_atom : Gives Shallow (atom numerals false) :=
  gives_orElse (gives_map fun _ _ _ _ => ⟨.null, fits_null⟩) <|
    gives_orElse (gives_map fun _ _ _ _ => ⟨.bool true, fits_bool true⟩) <|
    gives_orElse (gives_map fun _ _ _ _ => ⟨.bool false, fits_bool false⟩) <|
    gives_orElse (gives_map fun _ s _ _ => ⟨.string s, fits_string s⟩) <|
    gives_orElse (gives_map (gives_andThen _ (gives_unsigned true))) (gives_unsigned false)

/-- All that the strict reader takes can be written, and nests no deeper than it has levels. -/
theorem gives_value (levels : Nat) :
    Gives (fun j => j.Finite ∧ j.fits levels = true) (value numerals false levels) := by
  have hatom (levels : Nat) :
      Gives (fun j => j.Finite ∧ j.fits levels = true) (atom numerals false) :=
    fun cs j rest hscan => (gives_atom cs j rest hscan).imp_right fun h => h levels
  induction levels with
  | zero => exact gives_afterBlanks (hatom 0)
  | succ levels ih =>
    refine gives_afterBlanks (gives_orElse (gives_map ?_) (gives_orElse (gives_map ?_)
      (hatom (levels + 1))))
    · intro cs items rest hscan
      have hitems := gives_commaList _ _ ih cs items rest hscan
      exact ⟨.array fun j hj => (hitems j hj).1, List.all_eq_true.2 fun j hj => (hitems j hj).2⟩
    · intro cs members rest hscan
      have hmembers := gives_objectOf _ ih cs members rest hscan
      exact ⟨.object fun m hm => (hmembers m hm).1,
        List.all_eq_true.2 fun m hm => (hmembers m hm).2⟩

/-- The value at the front of a text can be written, and nests no deeper than any text may. -/
theorem finite_of_front? {s : String} {j : Json} {rest : List Char}
    (h : front? numerals s = some (j, rest)) : j.Finite ∧ j.fits maxLevels = true :=
  gives_value maxLevels s.toList j rest h

end Patchbay.Json
