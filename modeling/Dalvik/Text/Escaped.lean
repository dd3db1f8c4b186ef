import Dalvik.Text.GraphemeExtend
import Dalvik.Text.Numeral
import Dalvik.Text.Printable

/-!
# Escaped text

Text as it stands between quotes in listings and messages. Control characters, quotes and the
backslash have backslash escapes; a character that would not show is written by its code point, as
is one that would combine with the opening quote.
-/

namespace Dalvik.Text

/-- The code point of a character in hexadecimal, as a backslash escape. -/
def codePointEscape (c : Char) : List Char :=
  ['\\', 'u', '\x7b'] ++ Nat.toDigits 16 c.toNat ++ ['\x7d']

/-- The written form of a character; `leading` says that it opens the text. -/
def escapeChar (leading : Bool) (c : Char) : List Char :=
  match c with
  | '\x00' => ['\\', '0']
  | '\t' => ['\\', 't']
  | '\r' => ['\\', 'r']
  | '\n' => ['\\', 'n']
  | '\'' => ['\\', '\'']
  | '"' => ['\\', '"']
  | '\\' => ['\\', '\\']
  | c =>
    if (leading && extendsGrapheme c) || !isPrintable c then codePointEscape c
    else [c]

def escapeChars : List Char → List Char
  | [] => []
  | c :: cs => escapeChar true c ++ cs.flatMap (escapeChar false)

/-- The written form of a text, without the quotes around it. -/
def escaped (text : String) : String :=
  String.ofList (escapeChars text.toList)

end Dalvik.Text
