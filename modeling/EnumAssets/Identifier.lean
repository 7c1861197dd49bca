/-
# Names in the generated language

The generated text is C#.  A name begins with a letter or an underscore and goes on with letters,
decimal digits, connectors, marks and formatting characters.  Reserved words are no names, but a
reserved word behind an at sign is one; an at sign has no other use.  A namespace is one name or
several with dots between them.
-/
import EnumAssets.Unicode.Letter
import EnumAssets.Unicode.NamePart

namespace EnumAssets.Identifier

/-- The reserved words of the generated language. -/
def reserved : List String :=
  ["abstract", "as", "base", "bool", "break", "byte", "case", "catch", "char", "checked",
    "class", "const", "continue", "decimal", "default", "delegate", "do", "double", "else",
    "enum", "event", "explicit", "extern", "false", "finally", "fixed", "float", "for",
    "foreach", "goto", "if", "implicit", "in", "int", "interface", "internal", "is", "lock",
    "long", "namespace", "new", "null", "object", "operator", "out", "override", "params",
    "private", "protected", "public", "readonly", "ref", "return", "sbyte", "sealed", "short",
    "sizeof", "stackalloc", "static", "string", "struct", "switch", "this", "throw", "true",
    "try", "typeof", "uint", "ulong", "unchecked", "unsafe", "ushort", "using", "virtual",
    "void", "volatile", "while"]

/-- Whether a word is reserved. -/
def isReserved (s : String) : Bool :=
  reserved.contains s

/-- Whether a name may begin with the character. -/
def isStart (c : Char) : Bool :=
  c == '_' || Unicode.letter.has c

/-- Whether a name may hold the character behind its first one. -/
def isPart (c : Char) : Bool :=
  Unicode.letter.has c || Unicode.decimalDigit.has c || Unicode.connector.has c ||
    Unicode.nonspacingMark.has c || Unicode.spacingMark.has c || Unicode.formatting.has c

/-- Whether the characters have the form of a name: a start, then parts only. -/
def isWord : List Char → Bool
  | [] => false
  | c :: rest => isStart c && rest.all isPart

/-- Whether a text can be declared as a name. -/
def isIdentifier (s : String) : Bool :=
  match s.toList with
  | '@' :: word => isReserved (String.ofList word)
  | cs => isWord cs && !isReserved s

/-- Whether a text is a namespace: every stretch between its dots is a name. -/
def isNamespace (s : String) : Bool :=
  (s.toList.splitOn '.').all fun part => isIdentifier (String.ofList part)

end EnumAssets.Identifier
