import Patchbay.Double.Layout
import Patchbay.Json.Basic
import Patchbay.Text.Quoted

/-!
# Writing JSON

Without blanks, members in their order. In a text only the double quote, the backslash and the
control characters below the space are escaped. A number that is not finite is written `null`.
-/

namespace Patchbay.Json

/-- A character inside a JSON text. -/
def escapeChar (c : Char) : List Char :=
  match c with
  | '"' => ['\\', '"']
  | '\\' => ['\\', '\\']
  | '\x08' => ['\\', 'b']
  | '\x0c' => ['\\', 'f']
  | '\n' => ['\\', 'n']
  | '\r' => ['\\', 'r']
  | '\t' => ['\\', 't']
  | c =>
    if c.toNat < 0x20 then
      ['\\', 'u', '0', '0', if c.toNat < 0x10 then '0' else '1'] ++ Text.hexDigits (c.toNat % 16)
    else [c]

/-- A JSON text. -/
def stringChars (s : String) : List Char := '"' :: s.toList.flatMap escapeChar ++ ['"']

/-- A JSON integer. -/
def intChars : Int → List Char
  | .ofNat n => Double.natDigits n
  | .negSucc n => '-' :: Double.natDigits (n + 1)

/-- A JSON number from a double. -/
def floatChars (x : Float) : List Char :=
  if Double.isFinite x then Double.Layout.json.chars x else ['n', 'u', 'l', 'l']

mutual

/-- A value as text. -/
def chars : Json → List Char
  | null => ['n', 'u', 'l', 'l']
  | bool true => ['t', 'r', 'u', 'e']
  | bool false => ['f', 'a', 'l', 's', 'e']
  | int i => intChars i
  | float x => floatChars x
  | string s => stringChars s
  | array items => '[' :: (itemChars items ++ [']'])
  | object members => '\x7b' :: (memberChars members ++ ['\x7d'])

/-- The items of an array with commas between them. -/
def itemChars : List Json → List Char
  | [] => []
  | [item] => chars item
  | item :: rest => chars item ++ ',' :: itemChars rest

/-- The members of an object with commas between them. -/
def memberChars : List (String × Json) → List Char
  | [] => []
  | [(key, value)] => stringChars key ++ ':' :: chars value
  | (key, value) :: rest => stringChars key ++ ':' :: (chars value ++ ',' :: memberChars rest)

end

/-- A value as text. -/
def print (j : Json) : String := String.ofList j.chars

end Patchbay.Json
