/-!
Escaping for the page markup.

An ampersand that already starts a character or entity reference is kept, so text that is
escaped twice reads the same as text escaped once.
-/

namespace DocMarkup.Text

def isHexDigit (char : Char) : Bool :=
  char.isDigit || ('a' ≤ char && char ≤ 'f') || ('A' ≤ char && char ≤ 'F')

/-- What may stand between the ampersand and the semicolon of a reference. -/
def isReferenceBody : List Char → Bool
  | '#' :: 'x' :: digits => !digits.isEmpty && digits.all isHexDigit
  | '#' :: 'X' :: digits => !digits.isEmpty && digits.all isHexDigit
  | '#' :: digits => !digits.isEmpty && digits.all Char.isDigit
  | first :: rest => first.isAlpha && rest.all Char.isAlphanum
  | [] => false

/-- The body of the reference that the text after an ampersand completes, with the text
after its semicolon. -/
def reference? (chars : List Char) : Option (List Char × List Char) :=
  match chars.dropWhile (· != ';') with
  | ';' :: rest =>
      let body := chars.takeWhile (· != ';')
      if isReferenceBody body then some (body, rest) else none
  | _ => none

def startsReference (chars : List Char) : Bool :=
  (reference? chars).isSome

def escapeChars : List Char → List Char
  | [] => []
  | char :: rest =>
      if char = '&' then
        if startsReference rest then '&' :: escapeChars rest
        else "&amp;".toList ++ escapeChars rest
      else if char = '<' then "&lt;".toList ++ escapeChars rest
      else if char = '>' then "&gt;".toList ++ escapeChars rest
      else char :: escapeChars rest

def quoteChars (chars : List Char) : List Char :=
  chars.flatMap fun char => if char = '"' then "&quot;".toList else [char]

def escape (text : String) : String :=
  String.ofList (escapeChars text.toList)

/-- An attribute value stands between double quotes, so those are escaped too. -/
def escapeValue (value : String) : String :=
  String.ofList (quoteChars (escapeChars value.toList))

@[simp] theorem toList_escape (text : String) :
    (escape text).toList = escapeChars text.toList := by
  simp [escape]

@[simp] theorem toList_escapeValue (value : String) :
    (escapeValue value).toList = quoteChars (escapeChars value.toList) := by
  simp [escapeValue]

end DocMarkup.Text
