import DocMarkup.Repository

/-!
Resolution: which entity an identifier of a comment means.

Candidates are tried in order and the first that names an entity wins.
-/

namespace DocMarkup

/-- No namespace can own the identifier. -/
structure UnmatchedIdentifier where
  identifier : String
  deriving DecidableEq, Repr

def UnmatchedIdentifier.message (error : UnmatchedIdentifier) : String :=
  "no namespace matches identifier `" ++ error.identifier ++ "`"

namespace Repository

variable (repo : Repository)

def orUnmatched (identifier : String) :
    List (repo.SpaceId × String) → Except UnmatchedIdentifier (List (repo.SpaceId × String))
  | [] => .error ⟨identifier⟩
  | candidates => .ok candidates

def splitType (identifier : String) :
    Except UnmatchedIdentifier (List (repo.SpaceId × String)) :=
  repo.orUnmatched identifier (repo.typeCandidates identifier)

def splitSymbol (symbol : String) :
    Except UnmatchedIdentifier (List (repo.SpaceId × String)) :=
  repo.orUnmatched symbol (repo.symbolCandidates symbol)

/-- The first candidate that names an entity. -/
def firstNamed? (candidates : List (repo.SpaceId × String)) : Option repo.Ref :=
  candidates.findSome? fun (space, name) => repo.get? space name

def entityOfType? (identifier : String) : Option repo.Ref :=
  repo.firstNamed? (repo.typeCandidates identifier)

/-- An entity that carries the symbol is preferred to one named by what follows a prefix,
whichever namespace it is in. -/
def entityOfSymbol? (symbol : String) : Option repo.Ref :=
  let candidates := repo.symbolCandidates symbol
  (candidates.findSome? fun (space, _) => repo.withSymbol? space symbol).or
    (repo.firstNamed? candidates)

def entityOfWord? (word : String) : Option repo.Ref :=
  (repo.entityOfType? word).or (repo.entityOfSymbol? word)

variable {repo}

def Ref.property? (owner : repo.Ref) (name : String) : Option repo.Ref :=
  owner.child? name (·.kind.isProperty)

def Ref.signal? (owner : repo.Ref) (name : String) : Option repo.Ref :=
  owner.child? name (·.kind.isSignal)

end Repository

end DocMarkup
