import PolicyLevers.Text.Printable

/-!
# Quoted texts

How a message shows a text that it is about: in double quotes, with escapes for quotes, backslashes and
all characters that are not printable.
-/

namespace PolicyLevers.Text

set_option autoImplicit false

def quoteChar (c : Char) : List Char :=
  match c with
  | '\x00' => ['\\', '0']
  | '\t' => ['\\', 't']
  | '\n' => ['\\', 'n']
  | '\r' => ['\\', 'r']
  | '"' => ['\\', '"']
  | '\\' => ['\\', '\\']
  | c =>
    if isPrintable c then [c]
    else ['\\', 'u', '\x7b'] ++ Nat.toDigits 16 c.toNat ++ ['\x7d']

def quoted (text : String) : String :=
  String.ofList ('"' :: (text.toList.flatMap quoteChar ++ ['"']))

end PolicyLevers.Text
