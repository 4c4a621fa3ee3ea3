import StatementEngine.Text.Shown

/-!
# Quoted text

**A string between double quotes**, written so that every character can be told apart: the quote,
the backslash and the usual controls have a short escape, and a character that has no form of its
own is written by its code point in hexadecimal, between the two braces of `Text.codeEscape`.
-/

namespace StatementEngine

namespace Text

/-- The escape of a character by its code point: lower-case hexadecimal without leading zeros. -/
def codeEscape (c : Char) : String :=
  "\\u\x7b" ++ String.ofList (Nat.toDigits 16 c.toNat) ++ "\x7d"

/-- One character inside quotes. -/
def escape (c : Char) : String :=
  match c with
  | '\x00' => "\\0"
  | '\t' => "\\t"
  | '\n' => "\\n"
  | '\r' => "\\r"
  | '"' => "\\\""
  | '\\' => "\\\\"
  | c => if isShown c then String.singleton c else codeEscape c

/-- A string with its quotes. -/
def quote (s : String) : String :=
  "\"" ++ String.join (s.toList.map escape) ++ "\""

end Text

end StatementEngine
