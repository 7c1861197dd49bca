/-
# Defects of a declaration

`Declaration.defects` finds everything that is wrong with a declaration.  No defect hides another:
all checks are made, and they are reported in a fixed order, which is that of the constructors of
`Defect`; among the values the earlier position comes first.  A declaration without defects is
`Checked`, and only such a declaration is written to a file.
-/
import EnumAssets.Declaration.Basic
import EnumAssets.Identifier

namespace EnumAssets

/-! ## 1. Defects -/

/-- Something that is wrong with a declaration. -/
inductive Defect where
  | emptyFileName
  | invalidFileName (name : String)
  | invalidNamespace (name : String)
  | invalidClassName (name : String)
  | classAccess (access : Access)
  | invalidEnumName (name : String)
  | enumAccess (access : Access)
  | noValues
  | invalidValueName (index : Nat) (name : String)
  | duplicateValue (first second : Nat) (name : String)
deriving DecidableEq, Repr

/-- The text of a defect, as the user sees it. -/
def Defect.message : Defect → String
  | .emptyFileName => "File name is empty"
  | .invalidFileName n => "File name \"" ++ n ++ "\" is not a valid name"
  | .invalidNamespace n => "Namespace name \"" ++ n ++ "\" is not a valid name"
  | .invalidClassName n => "Class name \"" ++ n ++ "\" is not a valid name"
  | .classAccess _ => "Class can only be none, public, or internal access"
  | .invalidEnumName n => "Enumerator name \"" ++ n ++ "\" is not a valid name"
  | .enumAccess _ => "Enum not in a class can only be none, public, or internal access"
  | .noValues => "There are no value names"
  | .invalidValueName i n =>
    "Value name " ++ Nat.repr i ++ " \"" ++ n ++ "\" is not a valid name"
  | .duplicateValue i j n =>
    "Value names " ++ Nat.repr i ++ " and " ++ Nat.repr j ++ " both are " ++ n

/-! ## 2. The checks -/

/-- The characters that some system forbids in a file name, beside control characters. -/
def forbiddenInFileName : List Char :=
  ['<', '>', ':', '"', '/', '\\', '|', '?', '*']

/-- Whether a character may stand in a file name on every system. -/
def allowedInFileName (c : Char) : Bool :=
  !Unicode.control.has c && !forbiddenInFileName.contains c

namespace Declaration

variable {α : Type}

/-- A defect if a condition holds. -/
def report (condition : Bool) (d : Defect) : List Defect :=
  if condition then [d] else []

/-- The defects of the file name. -/
def fileNameDefects (d : Declaration α) : List Defect :=
  if d.fileName = "" then [.emptyFileName]
  else report (!d.fileName.toList.all allowedInFileName) (.invalidFileName d.fileName)

/-- The defects of the namespace. -/
def namespaceDefects (d : Declaration α) : List Defect :=
  report (d.hasNamespace && !Identifier.isNamespace d.namespaceName)
    (.invalidNamespace d.namespaceName)

/-- The defects of the class. -/
def classDefects (d : Declaration α) : List Defect :=
  report (d.hasClass && !Identifier.isIdentifier d.className) (.invalidClassName d.className) ++
    report (d.hasClass && !d.classAccess.isOpen) (.classAccess d.classAccess)

/-- The defects of the enum, its values apart. -/
def enumDefects (d : Declaration α) : List Defect :=
  report (!Identifier.isIdentifier d.enumName) (.invalidEnumName d.enumName) ++
    report (!d.hasClass && !d.enumAccess.isOpen) (.enumAccess d.enumAccess) ++
    report d.values.isEmpty .noValues

/-- The names that are none, in a list that begins at a position. -/
def invalidNames : Nat → List String → List Defect
  | _, [] => []
  | i, n :: rest =>
    report (!Identifier.isIdentifier n) (.invalidValueName i n) ++ invalidNames (i + 1) rest

/-- The positions of a name in a list that begins at a position, as defects of an earlier one. -/
def repeatsOf (first : Nat) (n : String) : Nat → List String → List Defect
  | _, [] => []
  | j, m :: rest => report (n == m) (.duplicateValue first j n) ++ repeatsOf first n (j + 1) rest

/-- The pairs of equal names, in a list that begins at a position. -/
def duplicates : Nat → List String → List Defect
  | _, [] => []
  | i, n :: rest => repeatsOf i n (i + 1) rest ++ duplicates (i + 1) rest

/-! ## 3. All defects -/

/-- Everything that is wrong with a declaration, in the order of the checks. -/
def defects [Named α] (d : Declaration α) : List Defect :=
  d.fileNameDefects ++ d.namespaceDefects ++ d.classDefects ++ d.enumDefects ++
    invalidNames 0 d.names ++ duplicates 0 d.names

/-- The texts of the defects. -/
def messages [Named α] (d : Declaration α) : List String :=
  d.defects.map Defect.message

/-- Whether nothing is wrong with a declaration. -/
def isValid [Named α] (d : Declaration α) : Bool :=
  d.defects.isEmpty

end Declaration

/-! ## 4. Checked declarations -/

/-- A declaration without defects. -/
structure Checked (α : Type) [Named α] where
  declaration : Declaration α
  sound : declaration.defects = []

/-- The declaration as a checked one, or else its defects. -/
def Declaration.check {α : Type} [Named α] (d : Declaration α) : Except (List Defect) (Checked α) :=
  if h : d.defects = [] then .ok ⟨d, h⟩ else .error d.defects

end EnumAssets
