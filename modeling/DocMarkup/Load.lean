import DocMarkup.Data.Json
import DocMarkup.Data.Repository
import DocMarkup.Data.Settings
import DocMarkup.Data.Yaml
import DocMarkup.Error

namespace DocMarkup

open Data

namespace FileSystem

def load (system : FileSystem) (path : Path) (decode : Dialect → Value → Option α) :
    Except Error α :=
  match system.readText path with
  | .error cause => .error (.unreadable path cause)
  | .ok text =>
      if Path.hasExtension path "json" then
        ((Json.read? text).bind (decode .json)).elim (.error (.invalidJson path)) .ok
      else
        ((Yaml.read? text).bind (decode .yaml)).elim (.error (.invalidYaml path)) .ok

end FileSystem

def Settings.load (system : FileSystem) (path : Path) : Except Error Settings :=
  system.load path Settings.ofValue?

def Repository.load (system : FileSystem) (path : Path) : Except Error Repository :=
  (system.load path RepositoryDeclaration.ofValue?).map Repository.ofDecl

def Sections.load (system : FileSystem) (path : Path) : Except Error Sections :=
  system.load path Sections.ofValue?

end DocMarkup
