import DocMarkup.Page.Chunk

namespace DocMarkup

structure RenderState where
  inCode : Bool := false
  /-- How many sections are open, one in the other. -/
  openSections : Nat := 0
  /-- What tells the files apart that are being included, innermost first. -/
  including : List (List String) := []
  deriving DecidableEq, Repr

namespace RenderState

open Page

def enterCode (state : RenderState) : RenderState :=
  { state with inCode := true }

def leaveCode (state : RenderState) : RenderState :=
  { state with inCode := false }

/-- The tags before a heading. Of the open sections those outside its level stay open; the
others are closed, and sections down to its level are opened. -/
def headingTags (state : RenderState) (level : Nat) : List Chunk :=
  let kept := min state.openSections (level - 1)
  List.replicate (state.openSections - kept) (.closeTag "section") ++
    List.replicate (max level 1 - kept) (.openTag "section" [])

/-- Headings have at least level one. -/
def atHeading (state : RenderState) (level : Nat) : RenderState :=
  { state with openSections := max level 1 }

def sectionEnds (state : RenderState) : List Chunk :=
  List.replicate state.openSections (.closeTag "section")

def leaveSections (state : RenderState) : RenderState :=
  { state with openSections := 0 }

def enterFile (state : RenderState) (file : List String) : RenderState :=
  { state with including := file :: state.including }

def leaveFile (state outside : RenderState) : RenderState :=
  { state with including := outside.including }

end RenderState

end DocMarkup
