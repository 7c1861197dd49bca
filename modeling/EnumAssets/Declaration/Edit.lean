/-
# Building a declaration

A declaration begins with the name of its file and the name of the enum, and comes about by edits.
An edit sets a part of what stands around the values, or changes the values; two of them replace
each value by another one that is made from its name.
-/
import EnumAssets.Declaration.Basic

namespace EnumAssets

/-- A step in building a declaration. -/
inductive Edit where
  | withNamespace (namespaceName : String)
  | withClass (className : String) (classAccess : Access) (isPartial : Bool)
  | withEnumAccess (enumAccess : Access)
  | setFileName (fileName : String)
  | setEnumName (enumName : String)
  | withValues (values : List Entry)
  | push (v : Entry)
  | pop
  /-- Each value becomes a plain one with its name. -/
  | toPlain
  /-- Each value becomes a reference to a prefab whose path is its name. -/
  | toPrefab
deriving Repr

/-- A plain value with the name of a value. -/
def Entry.plainOf (v : Entry) : Entry :=
  .plain (name v)

/-- A reference to the prefab whose path is the name of a value. -/
def Entry.prefabOf (v : Entry) : Entry :=
  .reference ⟨.prefab, .ofText (name v)⟩

namespace Declaration

/-- The declaration that a builder begins with. -/
def start (fileName enumName : String) : Declaration Entry :=
  { fileName, enumName }

/-- The declaration after an edit. -/
def edit (d : Declaration Entry) : Edit → Declaration Entry
  | .withNamespace n => d.withNamespace n
  | .withClass n access isPartial => d.withClass n access isPartial
  | .withEnumAccess access => d.withEnumAccess access
  | .setFileName n => { d with fileName := n }
  | .setEnumName n => { d with enumName := n }
  | .withValues vs => d.withValues vs
  | .push v => d.withValues (d.values ++ [v])
  | .pop => d.withValues d.values.dropLast
  | .toPlain => d.mapValues Entry.plainOf
  | .toPrefab => d.mapValues Entry.prefabOf

/-- The declaration after edits, one after the other. -/
def edits (d : Declaration Entry) (steps : List Edit) : Declaration Entry :=
  steps.foldl edit d

end Declaration
end EnumAssets
