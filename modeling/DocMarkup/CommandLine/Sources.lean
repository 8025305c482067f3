import DocMarkup.CommandLine.Run

/-!
The files that answering a request may read.

Files name further files: a configuration has directories for included files, and documents
include files. So what may be read is known as far as the files are that were read before.
-/

namespace DocMarkup.CommandLine.Request

def named : Request → List Path
  | render repository document config sections _ =>
      repository :: document :: (config.toList ++ sections.toList)
  | tokens document => [document]
  | hierarchy repository _ config => repository :: config.toList
  | version => []
  | help => []

/-- The settings of a request that makes a renderer, if it can be loaded. -/
def settings? (files : FileSystem) : Request → Option Settings
  | render _ _ config _ _ => (settingsFrom files config).toOption
  | hierarchy _ _ config => (settingsFrom files config).toOption
  | _ => none

/-- Where the files may be that are included by those read before. -/
def included (files : FileSystem) (request : Request) : List Path :=
  match request.settings? files, Comment.compiled with
  | some settings, .ok grammar =>
      files.files.flatMap fun (_, bytes) =>
        (Comment.tokens grammar (Text.Utf8.decodeLossy bytes)).flatMap fun token =>
          match token.construct with
          | .inclusion name => name :: settings.includePaths.map (Path.join · name)
          | _ => []
  | _, _ => []

def referenceRoot? (files : FileSystem) (request : Request) : Option Path := do
  let settings ← request.settings? files
  if settings.linkToGtkDoc then some settings.referenceRoot else none

end DocMarkup.CommandLine.Request
