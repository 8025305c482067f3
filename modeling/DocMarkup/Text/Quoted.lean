import DocMarkup.Text.Alphabet
import DocMarkup.Text.VisibilityTables

namespace DocMarkup.Text

def isVisible (char : Char) : Bool :=
  if isAscii char then 0x20 ≤ char.toNat && char.toNat < 0x7F
  else !inRanges unprintableRanges char.toNat && !inRanges extenderRanges char.toNat

/-- The code point in lower-case hexadecimal between braces. -/
def codeEscape (char : Char) : List Char :=
  "\\u\x7b".toList ++ Nat.toDigits 16 char.toNat ++ ['}']

def quotedChar (char : Char) : List Char :=
  if char = '"' then "\\\"".toList
  else if char = '\\' then "\\\\".toList
  else if char = '\n' then "\\n".toList
  else if char = '\r' then "\\r".toList
  else if char = '\t' then "\\t".toList
  else if char.toNat = 0 then "\\0".toList
  else if isVisible char then [char]
  else codeEscape char

def quoted (text : String) : String :=
  String.ofList ('"' :: text.toList.flatMap quotedChar ++ ['"'])

end DocMarkup.Text
