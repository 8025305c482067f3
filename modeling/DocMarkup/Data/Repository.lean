import DocMarkup.Data.Entity
import DocMarkup.Repository

namespace DocMarkup

open Data

namespace NamespaceDeclaration

def fieldNames : List String :=
  ["name", "version", "identifier_prefixes", "symbol_prefixes", "exported_packages",
    "entities"]

def toValue (decl : NamespaceDeclaration) : Value :=
  .ofFields [
    ("name", .text decl.name),
    ("version", .text decl.version),
    ("identifier_prefixes", textsValue decl.identifierPrefixes),
    ("symbol_prefixes", textsValue decl.symbolPrefixes),
    ("exported_packages", textsValue decl.exportedPackages),
    ("entities", .list (Declaration.toValues decl.entities))]

/-- The entities are nested two deep in the namespace. -/
def ofValue? (dialect : Dialect) (value : Value) : Option NamespaceDeclaration := do
  let fields ← value.fieldsIn? dialect.positional fieldNames
  return {
    name := ← fields.required? "name" Value.text?
    version := ← fields.required? "version" Value.text?
    identifierPrefixes := ← fields.optional? "identifier_prefixes" [] Value.texts?
    symbolPrefixes := ← fields.optional? "symbol_prefixes" [] Value.texts?
    exportedPackages := ← fields.optional? "exported_packages" [] Value.texts?
    entities :=
      ← fields.optional? "entities" [] fun value => do
        (← value.items?).mapM (Declaration.ofValue? (dialect.limit - 2)) }

end NamespaceDeclaration

namespace RepositoryDeclaration

def toValue (decl : RepositoryDeclaration) : Value :=
  .ofFields [
    ("namespace", decl.space.toValue),
    ("includes", .list (decl.includes.map NamespaceDeclaration.toValue))]

def ofValue? (dialect : Dialect) (value : Value) : Option RepositoryDeclaration := do
  let fields ← value.fieldsIn? dialect.positional ["namespace", "includes"]
  let nested (levels : Nat) : Dialect := { dialect with limit := dialect.limit - levels }
  return {
    space := ← fields.required? "namespace" (NamespaceDeclaration.ofValue? (nested 1))
    includes :=
      ← fields.optional? "includes" [] fun value => do
        (← value.items?).mapM (NamespaceDeclaration.ofValue? (nested 2)) }

end RepositoryDeclaration

end DocMarkup
