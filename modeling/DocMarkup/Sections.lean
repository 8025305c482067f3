namespace DocMarkup

structure Section where
  title : String
  symbols : List String := []
  deriving DecidableEq, Repr

abbrev Sections := List Section

namespace Sections

/-- The place of the last section of that title. -/
def place? (sections : Sections) (title : String) : Option Nat :=
  (List.range sections.length).findRev? fun place =>
    (sections[place]?).any (·.title == title)

def find? (sections : Sections) (title : String) : Option Section :=
  (sections.place? title).bind fun place => sections[place]?

/-- Where a symbol occurs last: the symbols of its section, and its place among them. -/
def symbolPlace? (sections : Sections) (symbol : String) : Option (List String × Nat) :=
  match sections with
  | [] => none
  | first :: rest =>
      (symbolPlace? rest symbol).or
        (((List.range first.symbols.length).findRev? fun place =>
          first.symbols[place]? == some symbol).map (first.symbols, ·))

def after? (sections : Sections) (title : String) : Option Section :=
  (sections.place? title).bind fun place => sections[place + 1]?

def before? (sections : Sections) (title : String) : Option Section :=
  (sections.place? title).bind fun
    | 0 => none
    | place + 1 => sections[place]?

def symbolAfter? (sections : Sections) (symbol : String) : Option String :=
  (sections.symbolPlace? symbol).bind fun (symbols, place) => symbols[place + 1]?

def symbolBefore? (sections : Sections) (symbol : String) : Option String :=
  (sections.symbolPlace? symbol).bind fun
    | (_, 0) => none
    | (symbols, place + 1) => symbols[place]?

end Sections

end DocMarkup
