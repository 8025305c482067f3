/-!
Words of plain text.

Text is cut at spaces and parentheses only: `foo_bar(x)` has the words `foo_bar` and `x`,
while the full stop of `end.` stays with its word.
-/

namespace DocMarkup.Text

inductive Fragment
  | space
  | opening
  | closing
  | word
  deriving DecidableEq, Repr

namespace Fragment

/-- The kind of fragment that a character makes on its own; `none` inside a word. -/
def separator? : Char → Option Fragment
  | ' ' => some .space
  | '(' => some .opening
  | ')' => some .closing
  | _ => none

def splitChars : List Char → List (Fragment × List Char)
  | [] => []
  | char :: rest =>
      match separator? char, splitChars rest with
      | some fragment, fragments => (fragment, [char]) :: fragments
      | none, (.word, chars) :: fragments => (.word, char :: chars) :: fragments
      | none, fragments => (.word, [char]) :: fragments

def split (text : String) : List (Fragment × String) :=
  (splitChars text.toList).map fun (fragment, chars) => (fragment, String.ofList chars)

end Fragment

end DocMarkup.Text
