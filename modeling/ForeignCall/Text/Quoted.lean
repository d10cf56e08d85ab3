import ForeignCall.Text.Printable

/-! # Quoted text

How listings quote a text: quotes and backslashes get a backslash before them, three controls and
NUL have escapes of one letter or digit, and every other character that is not shown as it is is
written as its code point in hexadecimal.
-/

namespace ForeignCall.Text

def quoteChar (c : Char) : List Char :=
  match c with
  | '\x00' => ['\\', '0']
  | '\t' => ['\\', 't']
  | '\n' => ['\\', 'n']
  | '\r' => ['\\', 'r']
  | '"' => ['\\', '"']
  | '\\' => ['\\', '\\']
  | c => if isPrintable c then [c] else '\\' :: 'u' :: '{' :: (Nat.toDigits 16 c.toNat ++ ['}'])

def quote (text : String) : String :=
  String.ofList ('"' :: (text.toList.flatMap quoteChar ++ ['"']))

end ForeignCall.Text
