import DocMarkup.Settings
import DocMarkup.Data.Entity
import DocMarkup.Sections

namespace DocMarkup

open Data

namespace Settings

def fieldNames : List String :=
  ["language", "include_paths", "online", "link_to_gtk_doc", "resolve_implicit_links",
    "reference_root"]

def toValue (settings : Settings) : Value :=
  .ofFields [
    ("language", .text settings.language),
    ("include_paths", textsValue settings.includePaths),
    ("online", .flag settings.online),
    ("link_to_gtk_doc", .flag settings.linkToGtkDoc),
    ("resolve_implicit_links", .flag settings.implicitLinks),
    ("reference_root", .text settings.referenceRoot)]

/-- What is left out is as in the default settings. -/
def ofValue? (dialect : Dialect) (value : Value) : Option Settings := do
  let fields ← value.fieldsIn? dialect.positional fieldNames
  let base : Settings := {}
  return {
    language := ← fields.optional? "language" base.language Value.text?
    includePaths := ← fields.optional? "include_paths" base.includePaths Value.texts?
    online := ← fields.optional? "online" base.online Value.flag?
    linkToGtkDoc := ← fields.optional? "link_to_gtk_doc" base.linkToGtkDoc Value.flag?
    implicitLinks :=
      ← fields.optional? "resolve_implicit_links" base.implicitLinks Value.flag?
    referenceRoot := ← fields.optional? "reference_root" base.referenceRoot Value.text? }

end Settings

namespace Section

def toValue (part : Section) : Value :=
  .ofFields [("title", .text part.title), ("symbols", textsValue part.symbols)]

def ofValue? (dialect : Dialect) (value : Value) : Option Section := do
  let fields ← value.fieldsIn? dialect.positional ["title", "symbols"]
  return {
    title := ← fields.required? "title" Value.text?
    symbols := ← fields.optional? "symbols" [] Value.texts? }

end Section

namespace Sections

def ofValue? (dialect : Dialect) (value : Value) : Option Sections := do
  (← value.items?).mapM (Section.ofValue? dialect)

end Sections

end DocMarkup
