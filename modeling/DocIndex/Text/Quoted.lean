import DocIndex.Unicode.Classes

/-!
Quoting a string within a message: quotes and backslashes are escaped, line feed, carriage return,
tab and NUL have short escapes, and characters that would not be seen are shown as `\u{…}` with
their code point in hexadecimal.
-/

namespace DocIndex.Text

/-- A character as it stands within quotes. -/
def quotedChar (ch : Char) : List Char :=
  if ch = '"' then ['\\', '"']
  else if ch = '\\' then ['\\', '\\']
  else if ch = '\n' then ['\\', 'n']
  else if ch = '\r' then ['\\', 'r']
  else if ch = '\t' then ['\\', 't']
  else if ch.toNat = 0 then ['\\', '0']
  else if Unicode.isVisible ch then [ch]
  else '\\' :: 'u' :: '{' :: Nat.toDigits 16 ch.toNat ++ ['}']

def quoted (s : String) : String :=
  String.ofList ('"' :: s.toList.flatMap quotedChar ++ ['"'])

end DocIndex.Text
