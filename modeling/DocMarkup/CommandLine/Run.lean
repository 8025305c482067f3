import DocMarkup.CommandLine.Request
import DocMarkup.Data.Construct
import DocMarkup.Render.Document
import DocMarkup.Render.Navigation
import DocMarkup.Load
import DocMarkup.Text.Quoted

namespace DocMarkup.CommandLine

structure Answer where
  output : String
  notices : List Notice := []

def printedValue : Data.Value → String
  | .text text => Text.quoted text
  | .natural value => toString value
  | _ => ""

def printedConstruct (construct : Construct) : String :=
  match construct.fields with
  | [] => construct.name
  | fields =>
      let printed := fields.map fun (name, value) => name ++ ": " ++ printedValue value
      construct.name ++ " \x7b " ++ String.intercalate ", " printed ++ " \x7d"

def printedToken (token : Comment.Token) : String :=
  printedConstruct token.construct ++ " " ++ Text.quoted token.text ++ "\n"

def readDocument (files : FileSystem) (path : Path) : Except Error String :=
  (files.readText path).mapError (.unreadable path)

def settingsFrom (files : FileSystem) : Option Path → Except Error Settings
  | some path => Settings.load files path
  | none => .ok {}

def lookupEntity (repo : Repository) (name : String) : Except Error repo.Ref :=
  ((repo.lookup? name).map Except.ok).getD (.error (.unknownEntity name))

def printed (output : Output) : Answer :=
  ⟨output.markup ++ "\n", (Notice.report [] output.notices).1⟩

def render (files : FileSystem) (repository document : Path) (config sections : Option Path)
    (owner : Option String) : Except Error Answer := do
  let repo ← Repository.load files repository
  let settings ← settingsFrom files config
  let text ← readDocument files document
  let renderer : Renderer repo ← Renderer.create settings files
  let renderer ←
    match sections with
    | some path => pure (renderer.orderedBy (← Sections.load files path))
    | none => pure renderer
  let owner ← owner.mapM (lookupEntity repo)
  return printed (renderer.comment owner (some text))

def tokens (files : FileSystem) (document : Path) : Except Error Answer := do
  let text ← readDocument files document
  let grammar ← Comment.compiled.mapError .grammar
  return ⟨String.join ((Comment.tokens grammar text).map printedToken), []⟩

def hierarchy (files : FileSystem) (repository : Path) (typeName : String)
    (config : Option Path) : Except Error Answer := do
  let repo ← Repository.load files repository
  let settings ← settingsFrom files config
  let ref ← lookupEntity repo typeName
  let renderer : Renderer repo ← Renderer.create settings files
  return printed (renderer.hierarchyTree ref)

def versionText : String := "girdoc 0.1.0\n"

def helpText : String :=
  "Render documentation comment markup\n\n" ++
  "Usage:\n" ++
  "  girdoc render --repository FILE [--config FILE] [--sections FILE] [--owner NAME] PATH\n" ++
  "  girdoc tokens PATH\n" ++
  "  girdoc hierarchy --repository FILE [--config FILE] TYPE\n"

namespace Request

def answer (files : FileSystem) : Request → Except Error Answer
  | render repository document config sections owner =>
      CommandLine.render files repository document config sections owner
  | tokens document => CommandLine.tokens files document
  | hierarchy repository typeName config =>
      CommandLine.hierarchy files repository typeName config
  | version => .ok ⟨versionText, []⟩
  | help => .ok ⟨helpText, []⟩

end Request

structure Outcome where
  code : Nat
  output : String := ""
  notices : List Notice := []
  error : Option String := none

/-- Runs the program; whatever it reads is among `files`. -/
def run (files : FileSystem) (arguments : List String) : Outcome :=
  match Request.ofArguments arguments with
  | .error cause => { code := 2, error := some ("error: " ++ cause.message) }
  | .ok request =>
      match request.answer files with
      | .error cause => { code := 1, error := some ("Error: " ++ cause.message) }
      | .ok answer => { code := 0, output := answer.output, notices := answer.notices }

end DocMarkup.CommandLine
