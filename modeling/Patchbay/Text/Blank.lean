/-!
# Blank characters

* `isBlank`: the white space of any script;
* `trim`: a text without the blanks at its ends;
* `lines`: the lines of a text, without their line ends.
-/

namespace Patchbay.Text

/-- White space: the ASCII blanks and line breaks, and those of other scripts. -/
def isBlank (c : Char) : Bool :=
  let n := c.toNat
  (0x09 ≤ n && n ≤ 0x0D) || n == 0x20 || n == 0x85 || n == 0xA0 || n == 0x1680 ||
    (0x2000 ≤ n && n ≤ 0x200A) || n == 0x2028 || n == 0x2029 || n == 0x202F || n == 0x205F ||
    n == 0x3000

/-- A text without the blanks at its ends. -/
def trim (cs : List Char) : List Char :=
  ((cs.dropWhile isBlank).reverse.dropWhile isBlank).reverse

/-- A line without the carriage return that belongs to its end. -/
def dropReturn (line : List Char) : List Char :=
  match line.reverse with
  | '\r' :: rest => rest.reverse
  | _ => line

/-- The lines of a text: what stands before each line feed, and what stands after the last one if
that is not empty. A carriage return before a line feed belongs to the line end. -/
def lines (cs : List Char) : List (List Char) :=
  match go cs with
  | (complete, []) => complete.map dropReturn
  | (complete, last) => complete.map dropReturn ++ [last]
where
  /-- The complete lines, and what follows the last line feed. -/
  go : List Char → List (List Char) × List Char
    | [] => ([], [])
    | '\n' :: rest =>
      let (complete, last) := go rest
      ([] :: complete, last)
    | c :: rest =>
      match go rest with
      | ([], last) => ([], c :: last)
      | (line :: complete, last) => ((c :: line) :: complete, last)

end Patchbay.Text
