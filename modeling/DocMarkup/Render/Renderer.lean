import DocMarkup.Settings
import DocMarkup.Error
import DocMarkup.Render.Output
import DocMarkup.Repository.Resolution
import DocMarkup.Sections
import DocMarkup.Text.Fragment

namespace DocMarkup

structure Renderer (repo : Repository) where
  grammar : Grammar
  style : LinkStyle repo
  /-- The files that comments include, and the directories where they are looked for. -/
  files : FileSystem := {}
  includePaths : List Path := []
  implicitLinks : Bool := false
  sections : Option Sections := none

namespace Renderer

variable {repo : Repository}

def linkStyleFor (language : Language) (settings : Settings) (files : FileSystem) :
    LinkStyle repo where
  language := language
  gtkDoc :=
    if settings.linkToGtkDoc then
      some ⟨.load files settings.referenceRoot, settings.online⟩
    else none

def create (settings : Settings) (files : FileSystem) : Except Error (Renderer repo) := do
  match Language.ofName? settings.language, Comment.compiled with
  | none, _ => throw (.unsupportedLanguage settings.language)
  | some _, .error cause => throw (.grammar cause)
  | some language, .ok grammar =>
      return {
        grammar
        style := linkStyleFor language settings files
        files
        includePaths := settings.includePaths
        implicitLinks := settings.implicitLinks }

def orderedBy (renderer : Renderer repo) (sections : Sections) : Renderer repo :=
  { renderer with sections := some sections }

def language (renderer : Renderer repo) : Language :=
  renderer.style.language

def link (renderer : Renderer repo) (ref : Option repo.Ref) (text : Option String)
    (plural : Bool) : Output where
  chunks := renderer.style.rendered ref text plural
  notices := (ref.bind renderer.style.renderedNotice?).toList.map .reference

def word (renderer : Renderer repo) : Text.Fragment × String → Output
  | (.word, word) =>
      match repo.entityOfWord? word with
      | some ref => renderer.link (some ref) (some word) false
      | none => .ofMarkup word
  | (_, piece) => .ofMarkup piece

/-- Plain text, in which words are links if the renderer makes implicit links. -/
def plainText (renderer : Renderer repo) (text : String) : Output :=
  if renderer.implicitLinks then
    .join ((Text.Fragment.split (Text.escape text)).map renderer.word)
  else .ofText text

def propertyLink? (renderer : Renderer repo) (typeName propertyName : String) :
    Option Output := do
  let owner ← repo.entityOfType? typeName
  let property ← owner.property? propertyName
  return renderer.link (some property) (some propertyName) false

def signalLink? (renderer : Renderer repo) (typeName signalName : String) :
    Option Output := do
  let owner ← repo.entityOfType? typeName
  let signal ← owner.signal? signalName
  return renderer.link (some signal) none false

def dropPluralChars? : List Char → Option (List Char)
  | [] => none
  | ['s'] => some []
  | char :: rest => (dropPluralChars? rest).map (char :: ·)

/-- The name without the `s` that it ends in. -/
def dropPlural? (name : String) : Option String :=
  (dropPluralChars? name.toList).map String.ofList

/-- The name of a type, or else the plural of one. -/
def typeLink? (renderer : Renderer repo) (typeName : String) : Option Output :=
  match repo.entityOfType? typeName with
  | some ref => some (renderer.link (some ref) none false)
  | none => do
      let ref ← repo.entityOfType? (← dropPlural? typeName)
      return renderer.link (some ref) none true

def inCodeTags (content : Output) : Output :=
  .ofChunks [.openTag "code" []] ++ content ++ .ofChunks [.closeTag "code"]

/-- A literal of the language, or a symbol. -/
def enumValue? (renderer : Renderer repo) (member : String) : Option Output :=
  match renderer.language.literal? member with
  | some literal => some (inCodeTags (.ofMarkup literal))
  | none => (repo.entityOfSymbol? member).map (renderer.link · none false)

def parameter? (renderer : Renderer repo) (owner : Option repo.Ref) (name : String) :
    Option Output := do
  let kind := (← owner).kind
  let parameter ← (← kind.callable?).parameter? name
  return inCodeTags (.ofText (renderer.language.spelledParameter kind parameter))

def callLink? (renderer : Renderer repo) (symbol call : String) : Option Output :=
  (repo.entityOfSymbol? symbol).map (renderer.link · (some call) false)

end Renderer

end DocMarkup
