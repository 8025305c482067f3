import DocMarkup.Pattern.AutomatonSize

namespace DocMarkup

namespace Expression

def maxDepth : Nat := 250

def maxSize : Nat := 10 * 1024 * 1024

def withinLimits (expression : Expression) : Bool :=
  if expression.depth .none ≤ maxDepth then
    let outline := expression.outline
    AutomatonSize.total .forward outline ≤ maxSize &&
      AutomatonSize.total .backward outline ≤ maxSize
  else false

end Expression

end DocMarkup
