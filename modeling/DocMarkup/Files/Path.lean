import DocMarkup.Text.Case
import DocMarkup.Text.Split

namespace DocMarkup

abbrev Path := String

namespace Path

def isAbsolute (path : Path) : Bool :=
  path.toList.head? == some '/'

/-- The path of a name in a directory; an absolute name is its own path. -/
def join (directory name : Path) : Path :=
  if isAbsolute name then name
  else if directory.toList.getLast?.all (· == '/') then directory ++ name
  else directory ++ "/" ++ name

/-- What tells paths apart: repeated and trailing slashes do not, nor do dots for the
directory itself except in first place. -/
def components (path : Path) : List String :=
  let parts := Text.split '/' path
  let start :=
    if isAbsolute path then ["/"]
    else if parts.head? == some "." then ["."]
    else []
  start ++ parts.filter fun part => part ≠ "" ∧ part ≠ "."

/-- The last component, unless the path ends in one that leads up. -/
def fileName? (path : Path) : Option String :=
  match (components path).getLast? with
  | none => none
  | some name => if name = ".." ∨ name = "/" ∨ name = "." then none else some name

/-- What follows the last dot of the file name, if something precedes it. -/
def extension? (path : Path) : Option String :=
  (fileName? path).bind fun name =>
    let parts := Text.splitChars '.' name.toList
    match parts.reverse with
    | extension :: before :: more =>
        if before.isEmpty && more.isEmpty then none else some (String.ofList extension)
    | _ => none

def hasExtension (path : Path) (extension : String) : Bool :=
  (extension? path).any fun found =>
    Text.sameIgnoringAsciiCase found.toList extension.toList

end Path

end DocMarkup
