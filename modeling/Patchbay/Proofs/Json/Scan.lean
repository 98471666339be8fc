import Patchbay.Json.Reader

/-!
# Running readers

What a reader takes and what it leaves (`scan`), without the bound on what is left that its type
carries, and what `scan` makes of each way to put readers together. Later proofs run readers by
these equations alone.
-/

namespace Patchbay.Json

variable {α β : Type}

/-- What a reader takes off the front of the characters, and the characters left. -/
def scan (r : Reader α) (cs : List Char) : Option (α × List Char) :=
  (r cs).map fun (a, rest) => (a, rest.1)

theorem eq_of_scan {r : Reader α} {cs rest : List Char} {a : α} (h : scan r cs = some (a, rest)) :
    ∃ hlt, r cs = some (a, ⟨rest, hlt⟩) := by
  unfold scan at h
  rcases hr : r cs with _ | ⟨b, rest', hlt⟩
  · rw [hr] at h
    cases h
  · rw [hr, Option.map_some, Option.some.injEq, Prod.mk.injEq] at h
    obtain ⟨rfl, rfl⟩ := h
    exact ⟨hlt, rfl⟩

theorem scan_map (f : α → β) (r : Reader α) (cs : List Char) :
    scan (r.map f) cs = (scan r cs).map fun (a, rest) => (f a, rest) := by
  unfold scan Reader.map
  rcases r cs with _ | ⟨a, rest, h⟩
  · rfl
  · rfl

theorem scan_char_self (c : Char) (cs : List Char) : scan (char c) (c :: cs) = some ((), cs) := by
  rw [scan, char, if_pos rfl]
  rfl

theorem scan_char_of_ne {c expected : Char} (h : c ≠ expected) (cs : List Char) :
    scan (char expected) (c :: cs) = none := by
  rw [scan, char, if_neg h]
  rfl

theorem scan_afterBlanks (r : Reader α) (cs : List Char) :
    scan (afterBlanks r) cs = scan r (skipBlanks cs) := by
  unfold scan afterBlanks
  rcases r (skipBlanks cs) with _ | ⟨a, rest, h⟩
  · rfl
  · rfl

theorem scan_andThen (r : Reader α) (next : Reader β) (cs : List Char) :
    scan (andThen r next) cs =
      (scan r cs).bind fun (a, rest) => (scan next rest).map fun (b, rest') => ((a, b), rest') := by
  unfold scan andThen
  rcases r cs with _ | ⟨a, rest, h⟩
  · rfl
  · simp only [Option.map_some, Option.bind_some]
    rcases next rest with _ | ⟨b, rest', h'⟩
    · rfl
    · rfl

theorem scan_orElse (r next : Reader α) (cs : List Char) :
    scan (orElse r next) cs = (scan r cs).or (scan next cs) := by
  unfold scan orElse
  rcases r cs with _ | ⟨a, rest, h⟩
  · rfl
  · rfl

/-! ## The first character -/

theorem skipBlanks_cons {c : Char} (h : isBlank c = false) (cs : List Char) :
    skipBlanks (c :: cs) = c :: cs := by
  rw [skipBlanks, List.dropWhile_cons, h]
  rfl

theorem scan_afterBlanks_cons (r : Reader α) {c : Char} (h : isBlank c = false) (cs : List Char) :
    scan (afterBlanks r) (c :: cs) = scan r (c :: cs) := by
  rw [scan_afterBlanks, skipBlanks_cons h]

theorem scan_andThen_char_self (c : Char) (next : Reader β) (cs : List Char) :
    scan (andThen (char c) next) (c :: cs) =
      (scan next cs).map fun (b, rest) => (((), b), rest) := by
  rw [scan_andThen, scan_char_self]
  rfl

theorem scan_andThen_char_of_ne {c expected : Char} (h : c ≠ expected) (next : Reader β)
    (cs : List Char) : scan (andThen (char expected) next) (c :: cs) = none := by
  rw [scan_andThen, scan_char_of_ne h]
  rfl

/-- A reader of words refuses what begins with another character. -/
theorem scan_word_of_ne {c d : Char} (h : c ≠ d) (more cs : List Char) :
    scan (word (d :: more)) (c :: cs) = none := by
  cases more with
  | nil => exact scan_char_of_ne h cs
  | cons e more =>
    rw [word, scan_map, scan_andThen_char_of_ne h]
    · rfl
    · exact List.cons_ne_nil e more

/-! ## Comma lists -/

/-- The rest of a comma list, without the bound on what is left. -/
theorem scan_itemsRest (close : Char) (item : Reader α) (cs : List Char) :
    scan (itemsRest close item) cs = (scan item cs).bind fun (a, rest) =>
      match scan (afterBlanks (char close)) rest with
      | some ((), rest') => some ([a], rest')
      | none => (scan (afterBlanks (char ',')) rest).bind fun (_, rest') =>
        (scan (itemsRest close item) rest').map fun (as, rest'') => (a :: as, rest'') := by
  unfold scan
  rw [itemsRest]
  rcases item cs with _ | ⟨a, rest, h⟩
  · rfl
  · simp only [Option.map_some, Option.bind_some]
    rcases afterBlanks (char close) rest with _ | ⟨⟨⟩, rest', h'⟩
    · simp only [Option.map_none]
      rcases afterBlanks (char ',') rest with _ | ⟨⟨⟩, rest', h'⟩
      · rfl
      · simp only [Option.map_some, Option.bind_some]
        rcases itemsRest close item rest' with _ | ⟨as, rest'', h''⟩
        · rfl
        · rfl
    · rfl

/-- A character that a number can go on with. -/
def isNumberChar (c : Char) : Bool := c.isDigit || c == '.' || c == 'e' || c == 'E'

/-- What a number cannot go on with. -/
def Ends (cs : List Char) : Prop := ∀ c ∈ cs.head?, isNumberChar c = false

theorem ends_cons {c : Char} (h : isNumberChar c = false) (cs : List Char) : Ends (c :: cs) := by
  intro d hd
  cases hd
  exact h

theorem ends_nil : Ends [] := nofun

/-- Items that a reader takes as they are written, if they fit, between two characters. -/
structure Listed (write : α → List Char) (fits : α → Bool) (close : Char) (item : Reader α)
    (a : α) : Prop where
  /-- the first character, which is not taken for the end of the list -/
  head : ∃ c cs, write a = c :: cs ∧ isBlank c = false ∧ c ≠ close
  taken : ∀ rest, Ends rest →
    scan item (write a ++ rest) = if fits a then some (a, rest) else none

variable {write : α → List Char} {fits : α → Bool} {close : Char} {item : Reader α}

theorem scan_itemsRest_written (hblank : isBlank close = false)
    (hnumber : isNumberChar close = false)
    (hcomma : ',' ≠ close) {a : α} {as : List α}
    (h : ∀ b ∈ a :: as, Listed write fits close item b) (rest : List Char) :
    scan (itemsRest close item) ([','].intercalate ((a :: as).map write) ++ close :: rest) =
      if (a :: as).all fits then some (a :: as, rest) else none := by
  induction as generalizing a with
  | nil =>
    rw [List.map_singleton, List.intercalate_singleton, scan_itemsRest,
      (h a List.mem_cons_self).taken _ (ends_cons hnumber rest), List.all_cons, List.all_nil,
      Bool.and_true]
    split
    · simp only [Option.bind_some, scan_afterBlanks_cons _ hblank, scan_char_self]
    · rfl
  | cons b bs ih =>
    have htail := ih fun c hc => h c (List.mem_cons_of_mem a hc)
    rw [List.map_cons] at htail
    rw [List.map_cons, List.map_cons, List.intercalate_cons_cons, scan_itemsRest,
      List.append_assoc, List.append_assoc, List.singleton_append,
      (h a List.mem_cons_self).taken _ (ends_cons (by decide) _), List.all_cons]
    cases fits a with
    | false => rfl
    | true =>
      have hblankComma : isBlank ',' = false := by decide
      simp only [if_true, Option.bind_some, scan_afterBlanks_cons _ hblankComma,
        scan_char_of_ne hcomma, scan_char_self, htail, Bool.true_and]
      split
      · rfl
      · rfl

/-- A comma list of written items is taken if all of them fit, and refused otherwise. -/
theorem scan_commaList (hblank : isBlank close = false) (hnumber : isNumberChar close = false)
    (hcomma : ',' ≠ close) (opening : Char) {as : List α}
    (h : ∀ a ∈ as, Listed write fits close item a) (rest : List Char) :
    scan (commaList opening close item)
        (opening :: ([','].intercalate (as.map write) ++ close :: rest)) =
      if as.all fits then some (as, rest) else none := by
  rw [commaList, scan_map, scan_andThen_char_self, scan_orElse, scan_map, scan_afterBlanks]
  cases as with
  | nil =>
    rw [List.map_nil, List.intercalate_nil, List.nil_append, skipBlanks_cons hblank, scan_char_self]
    rfl
  | cons a as =>
    obtain ⟨c, cs, hwrite, hc, hclose⟩ := (h a List.mem_cons_self).head
    have hhead : ∃ more, [','].intercalate ((a :: as).map write) ++ close :: rest = c :: more := by
      cases as with
      | nil =>
        rw [List.map_singleton, List.intercalate_singleton, hwrite]
        exact ⟨_, rfl⟩
      | cons b bs =>
        rw [List.map_cons, List.map_cons, List.intercalate_cons_cons, hwrite]
        exact ⟨_, rfl⟩
    obtain ⟨more, hmore⟩ := hhead
    have hitems := scan_itemsRest_written hblank hnumber hcomma h rest
    rw [hmore] at hitems
    rw [hmore, skipBlanks_cons hc, scan_char_of_ne hclose, hitems]
    split
    · rfl
    · rfl

end Patchbay.Json
