import Patchbay.Text.Escaped

/-!
# Quoted text

A text in double quotes as it stands in messages to people: the quote and the backslash after a
backslash, the common controls by their letter, other characters that would not be seen by their
number. A single quote stays as it is.
-/

namespace Patchbay.Text

/-- The digits of a number in base 16, in small letters. -/
def hexDigits (n : Nat) : List Char := Nat.toDigits 16 n

/-- A character inside double quotes. -/
def quoteChar (c : Char) : List Char :=
  match c with
  | '\x00' => ['\\', '0']
  | '\t' => ['\\', 't']
  | '\r' => ['\\', 'r']
  | '\n' => ['\\', 'n']
  | '"' => ['\\', '"']
  | '\\' => ['\\', '\\']
  | c => if isEscaped c then ['\\', 'u', '\x7b'] ++ hexDigits c.toNat ++ ['\x7d'] else [c]

/-- A text in double quotes. -/
def quote (text : String) : String :=
  String.ofList ('"' :: text.toList.flatMap quoteChar ++ ['"'])

end Patchbay.Text
