import Patchbay.Double.Numerals
import Patchbay.Json.Basic

/-!
# Reading JSON

Readers take the characters left to read and give a value with the characters after it, which are
strictly fewer. So repetition ends, and nesting is bounded by the levels that a reader of values is
given.

* `value`: a value, `levels` deep at most;
* `front?`: the value at the front of a text;
* `whole?`: the value that a text holds, with blanks around it and nothing else, and with each
  number rounded once;
* `objectOf`, `arrayOf`: an object or array whose parts are read by readers of the caller's choice.

A reader of values is given the way to make a double of a number. It is strict or lenient. A strict
one refuses a number beyond the largest double, and half of a surrogate pair without the other half;
a lenient one, which is for what nobody looks at, reads an infinity and a replacement character.
-/

namespace Patchbay.Json

/-- Takes a value off the front of the characters, and at least one character with it. -/
abbrev Reader (α : Type) :=
  (cs : List Char) → Option (α × { rest : List Char // rest.length < cs.length })

/-- The blanks of JSON. -/
def isBlank (c : Char) : Bool := c == ' ' || c == '\t' || c == '\n' || c == '\r'

/-- The characters from the first that is not a blank. -/
def skipBlanks (cs : List Char) : List Char := cs.dropWhile isBlank

theorem length_dropWhile_le {α : Type} (p : α → Bool) (cs : List α) :
    (cs.dropWhile p).length ≤ cs.length := by
  induction cs with
  | nil => simp
  | cons c cs ih =>
    simp only [List.dropWhile_cons, List.length_cons]
    split
    · omega
    · simp

theorem length_skipBlanks_le (cs : List Char) : (skipBlanks cs).length ≤ cs.length :=
  length_dropWhile_le isBlank cs

/-- Applies a function to what a reader gives. -/
def Reader.map {α β : Type} (f : α → β) (r : Reader α) : Reader β := fun cs =>
  (r cs).map fun (a, rest) => (f a, rest)

/-- The expected character. -/
def char (expected : Char) : Reader Unit
  | [] => none
  | c :: rest => if c = expected then some ((), ⟨rest, by simp⟩) else none

/-- Blanks, and then what a reader takes. -/
def afterBlanks {α : Type} (r : Reader α) : Reader α := fun cs =>
  match r (skipBlanks cs) with
  | none => none
  | some (a, ⟨rest, h⟩) => some (a, ⟨rest, Nat.lt_of_lt_of_le h (length_skipBlanks_le cs)⟩)

/-- What one reader takes, and then another. -/
def andThen {α β : Type} (r : Reader α) (next : Reader β) : Reader (α × β) := fun cs =>
  match r cs with
  | none => none
  | some (a, ⟨rest, h⟩) =>
    match next rest with
    | none => none
    | some (b, ⟨rest', h'⟩) => some ((a, b), ⟨rest', Nat.lt_trans h' h⟩)

/-- The first of two readers that takes something. -/
def orElse {α : Type} (r next : Reader α) : Reader α := fun cs =>
  match r cs with
  | none => next cs
  | some result => some result

/-! ## Texts -/

/-- The value of a hexadecimal digit. -/
def hexDigit? (c : Char) : Option Nat :=
  if '0' ≤ c ∧ c ≤ '9' then some (c.toNat - '0'.toNat)
  else if 'a' ≤ c ∧ c ≤ 'f' then some (c.toNat - 'a'.toNat + 10)
  else if 'A' ≤ c ∧ c ≤ 'F' then some (c.toNat - 'A'.toNat + 10)
  else none

/-- The number that four hexadecimal digits write. -/
def hexUnit : Reader Nat
  | a :: b :: c :: d :: rest =>
    match hexDigit? a, hexDigit? b, hexDigit? c, hexDigit? d with
    | some a, some b, some c, some d =>
      some (((a * 16 + b) * 16 + c) * 16 + d, ⟨rest, by simp only [List.length_cons]; omega⟩)
    | _, _, _, _ => none
  | _ => none

/-- Whether a number is the first half of a surrogate pair. -/
def isHighHalf (n : Nat) : Bool := 0xD800 ≤ n && n < 0xDC00

/-- Whether a number is the second half of a surrogate pair. -/
def isLowHalf (n : Nat) : Bool := 0xDC00 ≤ n && n < 0xE000

/-- The character that the two halves of a surrogate pair write. -/
def joinHalves (high low : Nat) : Char :=
  Char.ofNat (0x10000 + (high - 0xD800) * 0x400 + (low - 0xDC00))

/-- Half of a surrogate pair written as an escape. -/
def escapedUnit : Reader Nat :=
  (andThen (andThen (char '\\') (char 'u')) hexUnit).map Prod.snd

/-- What stands for half of a surrogate pair without the other half. -/
def loneHalf (lenient : Bool) : Option Char := if lenient then some '\ufffd' else none

/-- A character written by its number, after the `u`; one beyond four digits is written as a
surrogate pair. -/
def numbered (lenient : Bool) : Reader Char := fun cs =>
  match hexUnit cs with
  | none => none
  | some (n, ⟨rest, h⟩) =>
    if isHighHalf n then
      match escapedUnit rest with
      | some (low, ⟨rest', h'⟩) =>
        if isLowHalf low then some (joinHalves n low, ⟨rest', Nat.lt_trans h' h⟩)
        else (loneHalf lenient).map fun c => (c, ⟨rest, h⟩)
      | none => (loneHalf lenient).map fun c => (c, ⟨rest, h⟩)
    else if isLowHalf n then (loneHalf lenient).map fun c => (c, ⟨rest, h⟩)
    else some (Char.ofNat n, ⟨rest, h⟩)

/-- The character that an escape of one letter writes. -/
def letterEscape? : Char → Option Char
  | '"' => some '"'
  | '\\' => some '\\'
  | '/' => some '/'
  | 'b' => some '\x08'
  | 'f' => some '\x0c'
  | 'n' => some '\n'
  | 'r' => some '\r'
  | 't' => some '\t'
  | _ => none

/-- An escape, after the backslash. -/
def escape (lenient : Bool) : Reader Char
  | [] => none
  | c :: rest =>
    if c = 'u' then
      match numbered lenient rest with
      | none => none
      | some (d, ⟨rest', h⟩) => some (d, ⟨rest', Nat.lt_succ_of_lt h⟩)
    else (letterEscape? c).map fun d => (d, ⟨rest, by simp⟩)

/-- A character of a text: an escape, or any other character from the space on except the quote
that ends the text. -/
def textChar (lenient : Bool) : Reader Char
  | [] => none
  | c :: rest =>
    if c = '\\' then
      match escape lenient rest with
      | none => none
      | some (d, ⟨rest', h⟩) => some (d, ⟨rest', Nat.lt_succ_of_lt h⟩)
    else if c = '"' ∨ c.toNat < 0x20 then none
    else some (c, ⟨rest, by simp⟩)

/-- The rest of a text, with the quote that ends it. -/
def textRest (lenient : Bool) (cs : List Char) :
    Option (List Char × { rest : List Char // rest.length < cs.length }) :=
  match char '"' cs with
  | some ((), rest) => some ([], rest)
  | none =>
    match textChar lenient cs with
    | none => none
    | some (c, ⟨rest, h⟩) =>
      match textRest lenient rest with
      | none => none
      | some (text, ⟨rest', h'⟩) => some (c :: text, ⟨rest', Nat.lt_trans h' h⟩)
termination_by cs.length

/-- A text in quotes. -/
def text (lenient : Bool) : Reader String :=
  (andThen (char '"') (textRest lenient)).map fun ((), cs) => String.ofList cs

/-! ## Numbers -/

/-- The digits in front of a text, one at least. -/
def digits : Reader (List Char) := fun cs =>
  match cs with
  | [] => none
  | c :: rest =>
    if c.isDigit then
      some (c :: rest.takeWhile Char.isDigit,
        ⟨rest.dropWhile Char.isDigit, Nat.lt_succ_of_le (length_dropWhile_le _ _)⟩)
    else none

/-- The part of a number before the point: no zero stands before another digit. -/
def wholeDigits : Reader (List Char) := fun cs =>
  match digits cs with
  | some ('0' :: _ :: _, _) => none
  | result => result

/-- The sign of an exponent, if there is one. -/
def exponentSign (cs : List Char) : Bool × { rest : List Char // rest.length ≤ cs.length } :=
  match cs with
  | '-' :: rest => (true, ⟨rest, by simp⟩)
  | '+' :: rest => (false, ⟨rest, by simp⟩)
  | cs => (false, ⟨cs, Nat.le_refl _⟩)

/-- The part of a number from the point on, if the point is there. -/
def fractionPart (cs : List Char) :
    Option (Option (List Char) × { rest : List Char // rest.length ≤ cs.length }) :=
  match cs with
  | '.' :: rest =>
    match digits rest with
    | none => none
    | some (ds, ⟨rest', h⟩) => some (some ds, ⟨rest', Nat.le_succ_of_le (Nat.le_of_lt h)⟩)
  | cs => some (none, ⟨cs, Nat.le_refl _⟩)

/-- The part of a number from the letter of the exponent on, if the letter is there. -/
def exponentPart (cs : List Char) :
    Option (Option Int × { rest : List Char // rest.length ≤ cs.length }) :=
  match cs with
  | c :: rest =>
    if c = 'e' ∨ c = 'E' then
      let (negative, ⟨unsigned, h⟩) := exponentSign rest
      match digits unsigned with
      | none => none
      | some (ds, ⟨rest', h'⟩) =>
        let n : Int := Double.digitsValue ds
        some (some (if negative then -n else n), ⟨rest', by simp only [List.length_cons]; omega⟩)
    else some (none, ⟨c :: rest, Nat.le_refl _⟩)
  | [] => some (none, ⟨[], Nat.le_refl _⟩)

/-- The value of a number without point and exponent: an integer if it is in the range of 64 bits,
with or without sign, and a double if it is not, or if it is zero with a sign. -/
def integral (negative : Bool) (n : Nat) : Option Int :=
  if negative then if 0 < n ∧ n ≤ 2 ^ 63 then some (-(n : Int)) else none
  else if n < 2 ^ 64 then some n else none

/-- The value of a number from its parts. -/
def numberValue (numerals : Numerals) (lenient negative : Bool) (whole : List Char)
    (fraction : Option (List Char)) (exponent : Option Int) : Option Json :=
  let x := numerals.double negative whole (fraction.getD []) (exponent.getD 0)
  let double := if Double.isFinite x || lenient then some (float x) else none
  match fraction, exponent with
  | none, none =>
    match integral negative (Double.digitsValue whole) with
    | some i => some (int i)
    | none => double
  | _, _ => double

/-- A number without its sign. -/
def unsigned (numerals : Numerals) (lenient negative : Bool) : Reader Json := fun cs =>
  match wholeDigits cs with
  | none => none
  | some (whole, ⟨r1, h1⟩) =>
    match fractionPart r1 with
    | none => none
    | some (fraction, ⟨r2, h2⟩) =>
      match exponentPart r2 with
      | none => none
      | some (exponent, ⟨r3, h3⟩) =>
        (numberValue numerals lenient negative whole fraction exponent).map fun j =>
          (j, ⟨r3, Nat.lt_of_le_of_lt (Nat.le_trans h3 h2) h1⟩)

/-- A number. -/
def number (numerals : Numerals) (lenient : Bool) : Reader Json :=
  orElse ((andThen (char '-') (unsigned numerals lenient true)).map Prod.snd)
    (unsigned numerals lenient false)

/-! ## Words, arrays and objects -/

/-- The expected characters, one at least. -/
def word : (expected : List Char) → Reader Unit
  | [] => fun _ => none
  | [c] => char c
  | c :: more => (andThen (char c) (word more)).map fun _ => ()

/-- The rest of a comma list up to the character that ends it, the next item first. -/
def itemsRest {α : Type} (close : Char) (item : Reader α) (cs : List Char) :
    Option (List α × { rest : List Char // rest.length < cs.length }) :=
  match item cs with
  | none => none
  | some (a, ⟨rest, h⟩) =>
    match afterBlanks (char close) rest with
    | some ((), ⟨rest', h'⟩) => some ([a], ⟨rest', Nat.lt_trans h' h⟩)
    | none =>
      match afterBlanks (char ',') rest with
      | none => none
      | some ((), ⟨rest', h'⟩) =>
        match itemsRest close item rest' with
        | none => none
        | some (as, ⟨rest'', h''⟩) =>
          some (a :: as, ⟨rest'', Nat.lt_trans h'' (Nat.lt_trans h' h)⟩)
termination_by cs.length
decreasing_by exact Nat.lt_trans h' h

/-- A comma list between two characters, which may be empty. -/
def commaList {α : Type} (opening close : Char) (item : Reader α) : Reader (List α) :=
  (andThen (char opening)
    (orElse ((afterBlanks (char close)).map fun () => []) (itemsRest close item))).map Prod.snd

/-- An array of what a reader takes. -/
def arrayOf {α : Type} (item : Reader α) : Reader (List α) := commaList '[' ']' item

/-- An object of the members that readers of keys and values take. -/
def objectOf {α : Type} (key : Reader String) (item : Reader α) : Reader (List (String × α)) :=
  commaList '\x7b' '\x7d' <|
    (andThen (andThen (afterBlanks key) (afterBlanks (char ':'))) item).map
      fun ((k, ()), a) => (k, a)

/-- A value that holds no other. -/
def atom (numerals : Numerals) (lenient : Bool) : Reader Json :=
  orElse ((word ['n', 'u', 'l', 'l']).map fun () => null) <|
  orElse ((word ['t', 'r', 'u', 'e']).map fun () => bool true) <|
  orElse ((word ['f', 'a', 'l', 's', 'e']).map fun () => bool false) <|
  orElse ((text lenient).map string) (number numerals lenient)

/-- A value after blanks, with arrays and objects nested `levels` deep at most. -/
def value (numerals : Numerals) (lenient : Bool) : (levels : Nat) → Reader Json
  | 0 => afterBlanks (atom numerals lenient)
  | levels + 1 =>
    afterBlanks <|
      orElse ((arrayOf (value numerals lenient levels)).map array) <|
      orElse ((objectOf (text lenient) (value numerals lenient levels)).map object)
        (atom numerals lenient)

/-- How deep the arrays and objects of a text may nest. -/
def maxLevels : Nat := 127

/-- The value at the front of a text, and what follows it. -/
def front? (numerals : Numerals) (s : String) : Option (Json × List Char) :=
  (value numerals false maxLevels s.toList).map fun (j, rest) => (j, rest.1)

/-- Whether only blanks are left. -/
def isDone (cs : List Char) : Bool := (skipBlanks cs).isEmpty

/-- The value that a text holds, with the doubles nearest to its numbers. -/
def whole? (s : String) : Option Json :=
  match front? .exact s with
  | some (j, rest) => if isDone rest then some j else none
  | none => none

end Patchbay.Json
