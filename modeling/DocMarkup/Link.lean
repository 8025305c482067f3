import DocMarkup.Page.Element

namespace DocMarkup

/-- A link element: its address, and the text that is shown unless the page decides it. -/
structure Link where
  attributes : Page.Attributes
  text : Option String
  deriving DecidableEq, Repr

namespace Link

def chunks (link : Link) : List Page.Chunk :=
  Page.Chunk.tag "link" link.attributes link.text

def markup (link : Link) : String :=
  Page.write link.chunks

def element (link : Link) : Page.Element :=
  { name := "link", attributes := link.attributes, text := link.text }

def toPage (page : String) (text : Option String) : Link :=
  ⟨[("xref", page)], text⟩

def toAddress (address text : String) : Link :=
  ⟨[("href", address)], some text⟩

end Link

end DocMarkup
