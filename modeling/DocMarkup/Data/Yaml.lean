import DocMarkup.Data.Yaml.Document
import DocMarkup.Data.Yaml.Tokens

namespace DocMarkup.Data.Yaml

def read? (text : String) : Option Value := do
  let chars := normalized text.toList
  if chars.all isAllowed then Document.read? (← tokens? chars) else none

end DocMarkup.Data.Yaml
