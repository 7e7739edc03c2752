import LockService.Bytes.Hex
import LockService.Text.Printable

/-!
# Quoted text

A text between double quotes, with a backslash before quotes and backslashes, short escapes for the common controls
and the number in braces for every other character that is not printable.
-/

namespace LockService.Text

/-- The characters that stand for one character inside quotes. -/
def quotedChar (c : Char) : String :=
  if c = '\x00' then "\\0"
  else if c = '\t' then "\\t"
  else if c = '\r' then "\\r"
  else if c = '\n' then "\\n"
  else if c = '"' then "\\\""
  else if c = '\\' then "\\\\"
  else if isPrintable c then c.toString
  else "\\u\x7b" ++ Hex.ofNat c.toNat ++ "\x7d"

def quoted (s : String) : String := "\"" ++ String.join (s.toList.map quotedChar) ++ "\""

end LockService.Text
