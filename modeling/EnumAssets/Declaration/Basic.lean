/-
# Declarations of enums

A declaration is all that is known about one enum: the file it goes to, the namespace and the class
around it, its own name and access, and its values in order.  An empty namespace or class name
means that there is none.  The type of the values is open, because checking and generating see
their names only.
-/
import EnumAssets.Access
import EnumAssets.Entry

namespace EnumAssets

/-- An enum with its surroundings. -/
structure Declaration (α : Type) where
  /-- The name of the generated file, without the extension. -/
  fileName : String
  /-- The namespace, with dots between its parts; empty for none. -/
  namespaceName : String := ""
  /-- The class around the enum; empty for none. -/
  className : String := ""
  /-- Whether other files may add to the class. -/
  isPartial : Bool := false
  classAccess : Access := .unspecified
  enumName : String
  enumAccess : Access := .unspecified
  /-- The values, in the order of declaration. -/
  values : List α := []
deriving Repr

namespace Declaration

variable {α β : Type}

/-- The declaration inside of a namespace. -/
def withNamespace (d : Declaration α) (namespaceName : String) : Declaration α :=
  { d with namespaceName }

/-- The declaration inside of a class. -/
def withClass (d : Declaration α) (className : String) (classAccess : Access) (isPartial : Bool) :
    Declaration α :=
  { d with className, classAccess, isPartial }

/-- The declaration with an access of the enum. -/
def withEnumAccess (d : Declaration α) (enumAccess : Access) : Declaration α :=
  { d with enumAccess }

/-- The declaration with other values. -/
def withValues (d : Declaration α) (values : List β) : Declaration β :=
  { d with values }

/-- The declaration with each value replaced, and all else kept. -/
def mapValues (f : α → β) (d : Declaration α) : Declaration β :=
  d.withValues (d.values.map f)

/-- Whether a namespace is around the enum. -/
def hasNamespace (d : Declaration α) : Bool :=
  d.namespaceName != ""

/-- Whether a class is around the enum. -/
def hasClass (d : Declaration α) : Bool :=
  d.className != ""

/-- The names of the values, in order. -/
def names [Named α] (d : Declaration α) : List String :=
  d.values.map name

@[simp] theorem withValues_values (d : Declaration α) (vs : List β) :
    (d.withValues vs).values = vs := rfl

theorem names_mapValues [Named α] [Named β] {f : α → β} (h : ∀ v, name (f v) = name v)
    (d : Declaration α) : (d.mapValues f).names = d.names := by
  simp [names, mapValues, Function.comp_def, h]

end Declaration
end EnumAssets
