import DocMarkup.Files.Path

namespace DocMarkup

structure Settings where
  /-- Checked when a renderer is made of the settings. -/
  language : String := "c"
  includePaths : List Path := []
  online : Bool := false
  /-- Whether entities of other namespaces link into gtk-doc references. -/
  linkToGtkDoc : Bool := false
  implicitLinks : Bool := false
  referenceRoot : Path := "/usr/share/gtk-doc/html"
  deriving DecidableEq, Repr

namespace Settings

def addIncludePath (settings : Settings) (path : Path) : Settings :=
  { settings with includePaths := settings.includePaths ++ [path] }

end Settings

end DocMarkup
