import ChainArchive.Text.Shapeless

/-!
# Quoted text in messages

Messages show a text that was given by a caller in double quotes. Quotes,
backslashes and the usual control characters have short escapes; any other
character that has no shape of its own is shown by its code point.
-/

namespace ChainArchive.Quoted
set_option autoImplicit false

/-- One character between the quotes. -/
def escape (c : Char) : List Char :=
  match c with
  | '\x00' => ['\\', '0']
  | '\t' => ['\\', 't']
  | '\n' => ['\\', 'n']
  | '\r' => ['\\', 'r']
  | '"' => ['\\', '"']
  | '\'' => ['\\', '\'']
  | '\\' => ['\\', '\\']
  | c => if Shapeless.isShapeless c then "\\u\x7b".toList ++ Nat.toDigits 16 c.toNat ++ ['}'] else [c]

/-- The text in quotes. -/
def display (text : String) : String := String.ofList ('"' :: text.toList.flatMap escape ++ ['"'])

example : display "a\"b\t" = "\"a\\\"b\\t\"" := by decide +kernel

end ChainArchive.Quoted
