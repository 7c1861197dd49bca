/-
# Choices by name

Some settings take one of a few names.  A name that is none of them is answered with the whole
list, each name in accent marks.
-/
namespace EnumAssets

/-- The answer to a name that is none of those expected. -/
def unknownChoice (given : String) (expected : List String) : String :=
  "unknown variant `" ++ given ++ "`, expected one of " ++
    ", ".intercalate (expected.map fun s => "`" ++ s ++ "`")

end EnumAssets
