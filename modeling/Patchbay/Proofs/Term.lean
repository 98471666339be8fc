import Patchbay.Proofs.Double.Written
import Patchbay.Proofs.Kind

/-!
# Terms

What an expression says, as a tree: numbers, and kinds of nodes over the terms of their properties.
A term is written (`Term.chars`) as nodes are in expressions, and has a value (`Term.value`).

The text of a term tells its value and where it ends (`Term.readable`), although it does
not tell the whole term: an operator of one operand shows no symbol, and makes no difference.
-/

namespace Patchbay

namespace Kind

/-- The body of a new node of the kind. -/
def body : Kind → Body
  | chain op => .chain op
  | function f => .function f
  | map => .map 0.0
  | sequence => .sequence .start

/-- The first output of a new node of the kind. -/
def output (k : Kind) (inputs : List Float) : Float :=
  ((Node.fresh k.body .empty).process inputs).1

/-- The word before the parenthesis, of which an operator has none. -/
def word : Kind → String
  | chain _ => ""
  | k => k.name

/-- What is written before the properties of a node. -/
def opening : Kind → List Char
  | chain _ => ['(', ' ']
  | k => k.word.toList ++ ['(']

/-- What is written between them. -/
def separator : Kind → List Char
  | chain op => ' ' :: (op.symbol.toList ++ [' '])
  | _ => [',', ' ']

/-- What is written after them. -/
def closing : Kind → List Char
  | chain _ => [' ', ')']
  | _ => [')']

end Kind

/-- What an expression says. -/
inductive Term where
  | number (x : Float) (finite : Double.isFinite x = true)
  /-- a node with the terms of its properties, of which there is one at least -/
  | node (kind : Kind) (first : Term) (rest : List Term)

namespace Term

/-- What holds of all numbers, and of a node if it does of its properties, holds of all terms. -/
@[induction_eliminator]
theorem induct {P : Term → Prop} (number : ∀ x finite, P (.number x finite))
    (node : ∀ kind first rest, P first → (∀ t ∈ rest, P t) → P (.node kind first rest)) :
    ∀ t, P t
  | .number x finite => number x finite
  | .node kind first rest =>
    node kind first rest (induct number node first) fun t _ => induct number node t

mutual

/-- The value of a term. -/
def value : Term → Float
  | number x _ => x
  | node kind first rest => kind.output (value first :: values rest)

/-- The values of terms, in order. -/
def values : List Term → List Float
  | [] => []
  | t :: ts => value t :: values ts

end

mutual

/-- The written form of a term. -/
def chars : Term → List Char
  | number x _ => Double.Layout.plain.chars x
  | node kind first rest =>
    kind.opening ++ (chars first ++ (charsAfter kind.separator rest ++ kind.closing))

/-- The written form of terms, each after a separator. -/
def charsAfter (separator : List Char) : List Term → List Char
  | [] => []
  | t :: ts => separator ++ (chars t ++ charsAfter separator ts)

end

theorem values_eq_map (ts : List Term) : values ts = ts.map value := by
  induction ts with
  | nil => rfl
  | cons t ts ih => rw [values, ih, List.map_cons]

/-- Terms with a separator between them. -/
theorem intercalate_chars (separator : List Char) (first : Term) (rest : List Term) :
    separator.intercalate ((first :: rest).map chars) =
      first.chars ++ charsAfter separator rest := by
  induction rest generalizing first with
  | nil =>
    rw [charsAfter, List.append_nil]
    exact List.intercalate_singleton
  | cons t ts ih =>
    rw [List.map_cons, List.map_cons, List.intercalate_cons_cons, ← List.map_cons, ih, charsAfter,
      List.append_assoc]

/-! ## Where a term ends -/

/-- What a number cannot go on with. -/
def Delimited (cs : List Char) : Prop := ∀ c ∈ cs.head?, Double.isPlainChar c = false

theorem Delimited.cons {c : Char} (h : Double.isPlainChar c = false) (cs : List Char) :
    Delimited (c :: cs) := by
  intro d hd
  cases hd
  exact h

theorem delimited_nil : Delimited [] := nofun

theorem delimited_closing (k : Kind) (cs : List Char) : Delimited (k.closing ++ cs) := by
  cases k <;> exact .cons (by decide) _

theorem delimited_separator (k : Kind) (cs : List Char) : Delimited (k.separator ++ cs) := by
  cases k <;> exact .cons (by decide) _

theorem delimited_charsAfter (k : Kind) (ts : List Term) (cs : List Char) :
    Delimited (charsAfter k.separator ts ++ (k.closing ++ cs)) := by
  cases ts with
  | nil => exact delimited_closing k cs
  | cons t ts =>
    rw [charsAfter, List.append_assoc]
    exact delimited_separator k _

theorem delimited_opening (k : Kind) (cs : List Char) : Delimited (k.opening ++ cs) := by
  rcases k with op | f | _ | _
  · exact .cons (by decide) _
  · cases f <;> exact .cons (by decide) _
  · exact .cons (by decide) _
  · exact .cons (by decide) _

theorem separator_ne_closing (k : Kind) (cs ds : List Char) :
    k.separator ++ cs ≠ k.closing ++ ds := by
  rcases k with op | f | _ | _
  · intro h
    cases op <;> cases h
  · nofun
  · nofun
  · nofun

/-- The word ends at the first parenthesis. -/
theorem takeWhile_opening (k : Kind) (cs : List Char) :
    (k.opening ++ cs).takeWhile (· ≠ '(') = k.word.toList := by
  rcases k with op | f | _ | _
  · rfl
  · cases f <;> rfl
  · rfl
  · rfl

/-- The word tells the kind, except which operator it is. -/
theorem eq_of_word {k k' : Kind} (h : k.word = k'.word) :
    k = k' ∨ ∃ op op', k = .chain op ∧ k' = .chain op' := by
  rcases k with op | (_ | _ | _ | _) | _ | _ <;> rcases k' with op' | (_ | _ | _ | _) | _ | _
  all_goals first
    | exact Or.inl rfl
    | exact Or.inr ⟨op, op', rfl, rfl⟩
    | exact absurd h (by simp [Kind.word, Kind.name, Function.name])

/-- The opening tells the kind, except which operator it is. -/
theorem eq_of_opening {k k' : Kind} {cs ds : List Char}
    (h : k.opening ++ cs = k'.opening ++ ds) :
    (k = k' ∨ ∃ op op', k = .chain op ∧ k' = .chain op') ∧ cs = ds := by
  have hkind : k = k' ∨ ∃ op op', k = .chain op ∧ k' = .chain op' := by
    refine eq_of_word (String.toList_inj.1 ?_)
    rw [← takeWhile_opening k cs, h, takeWhile_opening]
  refine ⟨hkind, ?_⟩
  rcases hkind with rfl | ⟨op, op', rfl, rfl⟩
  · exact List.append_cancel_left h
  · exact List.append_cancel_left (show ['(', ' '] ++ cs = ['(', ' '] ++ ds from h)

/-- The separator tells which operator it is. -/
theorem eq_of_separator {op op' : Arith} {cs ds : List Char}
    (h : (Kind.chain op).separator ++ cs = (Kind.chain op').separator ++ ds) : op = op' := by
  cases op <;> cases op' <;> first | rfl | cases h

/-! ## Unique readability -/

/-- The text of the term tells its value and where it ends. -/
def Readable (t : Term) : Prop :=
  ∀ (t' : Term) (cs ds : List Char), Delimited cs → Delimited ds → t.chars ++ cs = t'.chars ++ ds →
    t.value = t'.value ∧ cs = ds

theorem delimited_node {k : Kind} {first : Term} {rest : List Term} {cs : List Char} :
    Delimited ((node k first rest).chars ++ cs) := by
  rw [chars, List.append_assoc]
  exact delimited_opening k _

/-- A number is not delimited from what is before it. -/
theorem not_delimited_number {x : Float} (hx : Double.isFinite x = true) {cs : List Char} :
    ¬ Delimited ((number x hx).chars ++ cs) := by
  intro h
  obtain ⟨c, ds, hc⟩ := List.exists_cons_of_ne_nil (Double.plain_ne_nil hx)
  have hplain := Double.plainChar_of_mem_toPlain hx (hc ▸ List.mem_cons_self)
  rw [chars, hc] at h
  rw [h c rfl] at hplain
  cases hplain

theorem readable_number {x : Float} (hx : Double.isFinite x = true) : (number x hx).Readable := by
  intro t' cs ds hcs hds h
  cases t' with
  | node k first rest => exact absurd (h ▸ delimited_node) (not_delimited_number hx)
  | number y hy =>
    obtain ⟨htake, hdrop⟩ :=
      Double.takeWhile_append_of_head (fun c => Double.plainChar_of_mem_toPlain hx) hcs
    obtain ⟨htake', hdrop'⟩ :=
      Double.takeWhile_append_of_head (fun c => Double.plainChar_of_mem_toPlain hy) hds
    rw [chars, chars] at h
    rw [h] at htake hdrop
    refine ⟨Double.toPlain_inj hx hy (congrArg String.ofList ?_), hdrop.symm.trans hdrop'⟩
    exact htake.symm.trans htake'

/-- So does the text of the properties behind the first. -/
theorem values_of_charsAfter {k : Kind} {ts : List Term} (hts : ∀ t ∈ ts, t.Readable)
    {ts' : List Term} {cs ds : List Char}
    (h : charsAfter k.separator ts ++ (k.closing ++ cs) =
      charsAfter k.separator ts' ++ (k.closing ++ ds)) :
    values ts = values ts' ∧ cs = ds := by
  induction ts generalizing ts' with
  | nil =>
    cases ts' with
    | nil => exact ⟨rfl, List.append_cancel_left h⟩
    | cons t' ts' =>
      rw [charsAfter, charsAfter, List.append_assoc] at h
      exact absurd h.symm (separator_ne_closing k _ _)
  | cons t ts ih =>
    cases ts' with
    | nil =>
      rw [charsAfter, charsAfter, List.append_assoc] at h
      exact absurd h (separator_ne_closing k _ _)
    | cons t' ts' =>
      simp only [charsAfter, List.append_assoc] at h
      obtain ⟨hvalue, hrest⟩ := hts t List.mem_cons_self t' _ _ (delimited_charsAfter k ts cs)
        (delimited_charsAfter k ts' ds) (List.append_cancel_left h)
      obtain ⟨hvalues, htail⟩ := ih (fun u hu => hts u (List.mem_cons_of_mem t hu)) hrest
      exact ⟨by rw [values, values, hvalue, hvalues], htail⟩

theorem readable_node {k : Kind} {first : Term} {rest : List Term} (hfirst : first.Readable)
    (hrest : ∀ t ∈ rest, t.Readable) : (node k first rest).Readable := by
  intro t' cs ds hcs hds h
  cases t' with
  | number y hy => exact absurd (h ▸ delimited_node) (not_delimited_number hy)
  | node k' first' rest' =>
    simp only [chars, List.append_assoc] at h
    obtain ⟨hkind, h⟩ := eq_of_opening h
    obtain ⟨hvalue, h⟩ := hfirst first' _ _ (delimited_charsAfter k rest cs)
      (delimited_charsAfter k' rest' ds) h
    rw [value, value, hvalue]
    have hsame (heq : k' = k) : k.output (first'.value :: values rest) =
        k'.output (first'.value :: values rest') ∧ cs = ds := by
      subst heq
      obtain ⟨hvalues, hend⟩ := values_of_charsAfter hrest h
      rw [hvalues]
      exact ⟨rfl, hend⟩
    rcases hkind with heq | ⟨op, op', rfl, rfl⟩
    · exact hsame heq.symm
    · cases rest with
      | nil =>
        cases rest' with
        | nil => exact ⟨rfl, List.append_cancel_left h⟩
        | cons t' ts' =>
          rw [charsAfter, charsAfter, List.append_assoc] at h
          exact absurd h.symm (separator_ne_closing (.chain op') _ _)
      | cons t ts =>
        cases rest' with
        | nil =>
          rw [charsAfter, charsAfter, List.append_assoc] at h
          exact absurd h (separator_ne_closing (.chain op) _ _)
        | cons t' ts' =>
          refine hsame ?_
          simp only [charsAfter, List.append_assoc] at h
          rw [eq_of_separator h]

/-- Every text of a term tells its value and where it ends. -/
theorem readable (t : Term) : t.Readable := by
  induction t with
  | number x hx => exact readable_number hx
  | node k first rest hfirst hrest => exact readable_node hfirst hrest

/-- Terms that are written alike have the same value. -/
theorem value_eq_of_chars {t t' : Term} (h : t.chars = t'.chars) : t.value = t'.value :=
  (readable t t' [] [] delimited_nil delimited_nil (by rw [h])).1

end Term

end Patchbay
