import DocMarkup.Files.FileSystem
import DocMarkup.Text.Alphabet

/-!
Installed gtk-doc references.

Every package has a directory with an index, which gives the address of the online copy and
the page of each anchor:

    <ONLINE href="https://developer.gnome.org/gtk3/stable/">
    <ANCHOR id="GtkWidget" href="gtk3/GtkWidget.html">
-/

namespace DocMarkup

structure GtkDoc.Index where
  directory : Path
  online : Option String := none
  /-- The page of each anchor; an anchor is listed once. -/
  anchors : List (String × String) := []
  deriving DecidableEq, Repr

namespace GtkDoc.Index

/-- The lines of a text: each without its line break, and without the carriage return before
it. What follows the last line break is a line unless it is empty. -/
def lines (text : List Char) : List (List Char) :=
  let dropReturn (line : List Char) : List Char :=
    if line.getLast? = some '\r' then line.dropLast else line
  match (Text.splitChars '\n' text).reverse with
  | [] => []
  | last :: ended =>
      let ended := ended.reverse.map dropReturn
      if last.isEmpty then ended else ended ++ [last]

/-- Keys are listed once; a new value replaces the old one in its place. -/
def insert (key value : String) : List (String × String) → List (String × String)
  | [] => [(key, value)]
  | (other, old) :: rest =>
      if other = key then (key, value) :: rest else (other, old) :: insert key value rest

def startsWith (start line : List Char) : Bool :=
  start.isPrefixOf line

def addLine (index : GtkDoc.Index) (line : List Char) : GtkDoc.Index :=
  let fields := (Text.splitChars '"' line).map String.ofList
  if startsWith "<ONLINE".toList line then
    match fields[1]? with
    | some address => { index with online := some address }
    | none => index
  else if startsWith "<ANCHOR".toList line then
    match fields[1]?, fields[3]? with
    | some id, some page => { index with anchors := insert id page index.anchors }
    | _, _ => index
  else index

def parse? (directory : Path) (bytes : Text.Utf8.Bytes) : Option GtkDoc.Index :=
  (Text.Utf8.decode? bytes).map fun text =>
    (lines text.toList).foldl addLine { directory }

def page? (index : GtkDoc.Index) (anchor : String) : Option String :=
  index.anchors.lookup anchor

end GtkDoc.Index

structure GtkDoc.Library where
  packages : List (String × GtkDoc.Index) := []
  deriving DecidableEq, Repr

structure GtkDoc.Finding where
  package : String
  index : GtkDoc.Index
  /-- False if the version had to be dropped from the package's name. -/
  exact : Bool
  deriving DecidableEq, Repr

namespace GtkDoc.Library

def isEmpty (library : GtkDoc.Library) : Bool :=
  library.packages.isEmpty

def insert (library : GtkDoc.Library) (package : String) (index : GtkDoc.Index) :
    GtkDoc.Library :=
  ⟨(package, index) ::
    library.packages.filter fun (other, _) => other ≠ package⟩

def get? (library : GtkDoc.Library) (package : String) : Option GtkDoc.Index :=
  library.packages.lookup package

/-- Two numbers with a full stop between them. -/
def isVersion (chars : List Char) : Bool :=
  let major := chars.takeWhile Text.isDecimal
  match chars.dropWhile Text.isDecimal with
  | '.' :: minor => !major.isEmpty && !minor.isEmpty && minor.all Text.isDecimal
  | _ => false

def withoutVersion : List Char → List Char
  | [] => []
  | char :: rest =>
      if char = '-' ∧ isVersion rest then [] else char :: withoutVersion rest

/-- The reference of a package, by its own name or else by that without the version. -/
def findPackage? (library : GtkDoc.Library) (package : String) : Option GtkDoc.Finding :=
  match library.get? package with
  | some index => some ⟨package, index, true⟩
  | none =>
      (library.get? (String.ofList (withoutVersion package.toList))).map
        (⟨package, ·, false⟩)

def find? (library : GtkDoc.Library) (packages : List String) : Option GtkDoc.Finding :=
  packages.findSome? library.findPackage?

/-- The references of all directories below a root that hold a readable index. -/
def load (system : FileSystem) (root : Path) : GtkDoc.Library :=
  (system.names root).foldl
    (fun library package =>
      let directory := Path.join root package
      match (system.read? (Path.join directory "index.sgml")).bind
          (GtkDoc.Index.parse? directory) with
      | some index => library.insert package index
      | none => library)
    {}

end GtkDoc.Library

end DocMarkup
