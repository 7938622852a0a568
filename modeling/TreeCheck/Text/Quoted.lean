import TreeCheck.Text.Printable

/-!
# Quoted text

Text in double quotes, as messages show it: quotes and backslashes are escaped, common control
characters have short escapes, and any other character that cannot be shown as it is becomes its
code point in hexadecimal.
-/

set_option autoImplicit false

namespace TreeCheck.Text

def codePointEscape (char : Char) : List Char :=
  '\\' :: 'u' :: '{' :: (Nat.toDigits 16 char.toNat ++ ['}'])

def quoteChar (char : Char) : List Char :=
  if char = '\x00' then ['\\', '0']
  else if char = '\t' then ['\\', 't']
  else if char = '\r' then ['\\', 'r']
  else if char = '\n' then ['\\', 'n']
  else if char = '"' then ['\\', '"']
  else if char = '\\' then ['\\', '\\']
  else if isPrintable char then [char]
  else codePointEscape char

def quote (text : String) : String :=
  String.ofList ('"' :: (text.toList.flatMap quoteChar ++ ['"']))

end TreeCheck.Text
