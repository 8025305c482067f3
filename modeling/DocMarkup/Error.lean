import DocMarkup.Comment
import DocMarkup.Files.FileSystem

namespace DocMarkup

inductive Error
  | grammar (cause : GrammarError)
  | unsupportedLanguage (name : String)
  | unreadable (path : Path) (cause : ReadError)
  | invalidYaml (path : Path)
  | invalidJson (path : Path)
  | unknownEntity (name : String)
  deriving DecidableEq, Repr

namespace Error

def message : Error → String
  | grammar cause => cause.message
  | unsupportedLanguage name => "Unsupported language: " ++ name
  | unreadable path cause => "could not read " ++ path ++ ": " ++ cause.message
  | invalidYaml path => "invalid YAML in " ++ path
  | invalidJson path => "invalid JSON in " ++ path
  | unknownEntity name => "unknown entity: " ++ name

end Error

end DocMarkup
