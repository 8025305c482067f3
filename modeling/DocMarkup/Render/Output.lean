import DocMarkup.Link.Style

/-!
What rendering gives: page markup, and notices of what was wrong on the way.

A reference that is wrong is reported once for its namespace and not for every link into it.
-/

namespace DocMarkup

inductive Notice
  | reference (notice : ReferenceNotice)
  | missingFile (name : String)
  | recursiveInclude (path : Path)
  deriving DecidableEq, Repr

namespace Notice

def message : Notice → String
  | reference notice => notice.message
  | missingFile name => "Could not find file " ++ name
  | recursiveInclude path => "Recursive include of " ++ path

def space? : Notice → Option String
  | reference notice => some notice.space
  | _ => none

/-- Drops the notices on references of namespaces that were reported before. The second part
of the result are the namespaces that are reported by then. -/
def report (reported : List String) : List Notice → List Notice × List String
  | [] => ([], reported)
  | notice :: rest =>
      match notice.space? with
      | none =>
          let (issued, reported) := report reported rest
          (notice :: issued, reported)
      | some space =>
          if space ∈ reported then report reported rest
          else
            let (issued, reported) := report (space :: reported) rest
            (notice :: issued, reported)

end Notice

structure Output where
  chunks : List Page.Chunk := []
  notices : List Notice := []
  deriving DecidableEq, Repr

namespace Output

instance : Append Output where
  append first second :=
    ⟨first.chunks ++ second.chunks, first.notices ++ second.notices⟩

@[simp] theorem chunks_append (first second : Output) :
    (first ++ second).chunks = first.chunks ++ second.chunks := rfl

@[simp] theorem notices_append (first second : Output) :
    (first ++ second).notices = first.notices ++ second.notices := rfl

def join : List Output → Output
  | [] => {}
  | output :: rest => output ++ join rest

def ofChunks (chunks : List Page.Chunk) : Output :=
  { chunks }

/-- Text that is written as it is. -/
def ofMarkup (markup : String) : Output :=
  ofChunks [.text markup]

def ofText (text : String) : Output :=
  ofMarkup (Text.escape text)

def markup (output : Output) : String :=
  Page.write output.chunks

end Output

end DocMarkup
