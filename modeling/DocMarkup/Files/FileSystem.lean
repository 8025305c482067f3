import DocMarkup.Files.Path
import DocMarkup.Text.Utf8

namespace DocMarkup

abbrev Location := List String

inductive ReadError
  | notFound
  | notDirectory
  | isDirectory
  | notUtf8
  deriving DecidableEq, Repr

namespace ReadError

def message : ReadError → String
  | notFound => "No such file or directory (os error 2)"
  | notDirectory => "Not a directory (os error 20)"
  | isDirectory => "Is a directory (os error 21)"
  | notUtf8 => "stream did not contain valid UTF-8"

end ReadError

structure FileSystem where
  workingDirectory : Location := []
  files : List (Location × Text.Utf8.Bytes) := []
  /-- Directories besides those that the files are in. -/
  directories : List Location := []

namespace FileSystem

def startOf (system : FileSystem) (path : Path) : Location :=
  if Path.isAbsolute path then [] else system.workingDirectory

/-- The location after one component of a path. The root is its own parent. -/
def follow (location : Location) (component : String) : Location :=
  if component = "" ∨ component = "." then location
  else if component = ".." then location.dropLast
  else location ++ [component]

def locationOf (system : FileSystem) (path : Path) : Location :=
  (Text.split '/' path).foldl follow (system.startOf path)

def addFile (system : FileSystem) (path : Path) (bytes : Text.Utf8.Bytes) : FileSystem :=
  { system with files := system.files ++ [(system.locationOf path, bytes)] }

def addDirectory (system : FileSystem) (path : Path) : FileSystem :=
  { system with directories := system.directories ++ [system.locationOf path] }

def file? (system : FileSystem) (location : Location) : Option Text.Utf8.Bytes :=
  system.files.lookup location

def isDirectory (system : FileSystem) (location : Location) : Bool :=
  location.isPrefixOf system.workingDirectory ||
    system.files.any (fun (file, _) => location.isPrefixOf file && file ≠ location) ||
    system.directories.any (location.isPrefixOf ·)

/-- Follows one component of a path from a location, which has to be a directory. -/
def step (system : FileSystem) (location : Location) (component : String) :
    Except ReadError Location :=
  let target := follow location component
  if !system.isDirectory location then .error .notDirectory
  else if (system.file? target).isSome || system.isDirectory target then .ok target
  else .error .notFound

def locate (system : FileSystem) (path : Path) : Except ReadError Location :=
  if path = "" then .error .notFound
  else (Text.split '/' path).foldlM system.step (system.startOf path)

def read (system : FileSystem) (path : Path) : Except ReadError Text.Utf8.Bytes := do
  let location ← system.locate path
  match system.file? location with
  | some bytes => return bytes
  | none => throw .isDirectory

def read? (system : FileSystem) (path : Path) : Option Text.Utf8.Bytes :=
  (system.read path).toOption

theorem mem_files_of_read? {system : FileSystem} {path : Path} {bytes : Text.Utf8.Bytes}
    (h : system.read? path = some bytes) : ∃ location, (location, bytes) ∈ system.files := by
  unfold read? read at h
  cases hlocate : system.locate path with
  | error => simp [hlocate, bind, Except.bind, Except.toOption] at h
  | ok location =>
      cases hfile : system.file? location with
      | none => simp [hlocate, hfile, bind, Except.bind, Except.toOption, throw, throwThe,
          MonadExceptOf.throw] at h
      | some found =>
          simp only [hlocate, hfile, bind, Except.bind, Except.toOption, pure, Except.pure,
            Option.some.injEq] at h
          subst h
          obtain ⟨before, after, hsplit, -⟩ := List.lookup_eq_some_iff.mp hfile
          exact ⟨location, by simp [hsplit]⟩

def readText (system : FileSystem) (path : Path) : Except ReadError String := do
  match Text.Utf8.decode? (← system.read path) with
  | some text => return text
  | none => throw .notUtf8

def names (system : FileSystem) (path : Path) : List String :=
  match system.locate path with
  | .error _ => []
  | .ok location =>
      let below (other : Location) : Option String :=
        if location.isPrefixOf other then other[location.length]? else none
      ((system.files.map Prod.fst ++ system.directories).filterMap below).eraseDups

end FileSystem

end DocMarkup
