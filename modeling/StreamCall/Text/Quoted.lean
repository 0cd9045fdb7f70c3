import StreamCall.Text.Escaped

/-!
# Quoted text

A text between double quotes, as messages and diagnostic output show it: quotes and
backslashes carry a backslash, the usual control characters have short names, and every
other character that would not show is written by its code point.
-/

namespace StreamCall.Text

/-- The hexadecimal digits of a number, in lower case. -/
def hexDigits (n : Nat) : String :=
  String.ofList (Nat.toDigits 16 n)

/-- A character by its code point, as in `\u{1b}`. -/
def codePoint (c : Char) : String :=
  "\\u\x7b" ++ hexDigits c.toNat ++ "\x7d"

/-- One character as a quoted text shows it. -/
def quotedChar (c : Char) : String :=
  if c = '"' then "\\\""
  else if c = '\\' then "\\\\"
  else if c = '\n' then "\\n"
  else if c = '\r' then "\\r"
  else if c = '\t' then "\\t"
  else if c.toNat = 0 then "\\0"
  else if c.toNat < 0x20 then codePoint c
  else if c.toNat < 0x7F then c.toString
  else if isEscaped c then codePoint c
  else c.toString

/-- A text between double quotes. -/
def quoted (s : String) : String :=
  "\"" ++ String.join (s.toList.map quotedChar) ++ "\""

end StreamCall.Text
