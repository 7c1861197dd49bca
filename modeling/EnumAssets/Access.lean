/-
# Access of a declaration

An access is the modifier in front of a generated class or enum.  Outside of every class only three
of the seven are allowed.
-/
import EnumAssets.Text.Choice

namespace EnumAssets

/-- Who may use a declaration; `unspecified` leaves it to the language. -/
inductive Access where
  | unspecified
  | publicAccess
  | protectedAccess
  | internalAccess
  | protectedInternal
  | privateAccess
  | privateProtected
deriving DecidableEq, Repr

namespace Access

/-- Every access once. -/
def all : List Access :=
  [unspecified, publicAccess, protectedAccess, internalAccess, protectedInternal, privateAccess,
    privateProtected]

/-- The name of an access in an asset. -/
def name : Access → String
  | unspecified => "None"
  | publicAccess => "Public"
  | protectedAccess => "Protected"
  | internalAccess => "Internal"
  | protectedInternal => "ProtectedInternal"
  | privateAccess => "Private"
  | privateProtected => "PrivateProtected"

/-- The access of a name, which has to be spelled exactly. -/
def ofName? (s : String) : Option Access :=
  all.find? fun a => a.name == s

/-- The access of a name, or the answer to a name that is none. -/
def read (s : String) : Except String Access :=
  match ofName? s with
  | some a => .ok a
  | none => .error (unknownChoice s (all.map name))

/-- The modifier as it stands in front of a declaration, with the space behind it. -/
def modifier : Access → String
  | unspecified => ""
  | publicAccess => "public "
  | protectedAccess => "protected "
  | internalAccess => "internal "
  | protectedInternal => "protected internal "
  | privateAccess => "private "
  | privateProtected => "private protected "

/-- Whether a declaration outside of every class may have the access. -/
def isOpen : Access → Bool
  | unspecified | publicAccess | internalAccess => true
  | _ => false

theorem mem_all (a : Access) : a ∈ all := by
  cases a <;> decide

theorem ofName?_name (a : Access) : ofName? a.name = some a := by
  cases a <;> decide

end Access
end EnumAssets
