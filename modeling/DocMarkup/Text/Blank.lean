/-!
Blank characters: the Unicode property `White_Space`, and trimming by it.
-/

namespace DocMarkup.Text

def isBlank (char : Char) : Bool :=
  let code := char.toNat
  (0x09 ≤ code && code ≤ 0x0D) || code == 0x20 || code == 0x85 || code == 0xA0 ||
    code == 0x1680 || (0x2000 ≤ code && code ≤ 0x200A) || code == 0x2028 ||
    code == 0x2029 || code == 0x202F || code == 0x205F || code == 0x3000

def trimChars (chars : List Char) : List Char :=
  ((chars.dropWhile isBlank).reverse.dropWhile isBlank).reverse

def trim (text : String) : String :=
  String.ofList (trimChars text.toList)

/-- Nothing, or nothing but blanks. -/
def onlyBlank (text : Option String) : Bool :=
  match text with
  | none => true
  | some text => text.toList.all isBlank

@[simp] theorem onlyBlank_none : onlyBlank none = true := rfl

@[simp] theorem onlyBlank_some (text : String) :
    onlyBlank (some text) = text.toList.all isBlank := rfl

end DocMarkup.Text
