import CodeSessions.Text.Visible

/-!
# Quoted text — a text between double quotes

A quoted text shows visible characters as themselves.  The quote and the backslash follow a
backslash, tab, carriage return, line feed and NUL have letters of their own, and all other
characters are written as `\u`, an opening brace, the code point in hexadecimal, a closing brace.
-/

namespace CodeSessions
namespace Text

def quoteChar (c : Char) : List Char :=
  match c with
  | '\x00' => ['\\', '0']
  | '\t' => ['\\', 't']
  | '\r' => ['\\', 'r']
  | '\n' => ['\\', 'n']
  | '\\' => ['\\', '\\']
  | '"' => ['\\', '"']
  | c =>
      if isVisible c then [c]
      else ['\\', 'u', '\x7b'] ++ Nat.toDigits 16 c.toNat ++ ['\x7d']

def quoted (s : String) : String :=
  String.ofList ('"' :: s.toList.flatMap quoteChar ++ ['"'])

end Text
end CodeSessions
