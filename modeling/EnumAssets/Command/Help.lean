/-
# Help

The two forms of help on the command line, and the name and version of the program.
-/
namespace EnumAssets.Command

/-- The version of the program. -/
def version : String := "0.1.0"

/-- The answer to a request for the version. -/
def versionLine : String := "enum-gen " ++ version

/-- The help of one line per option. -/
def shortHelp : List String :=
  ["Generate C# enum declarations from editable enum assets",
    "",
    "Usage: enum-gen [OPTIONS] [ASSETS]...",
    "",
    "Arguments:",
    "  [ASSETS]...  Enum assets to process instead of the configured sources",
    "",
    "Options:",
    "  -c, --config <CONFIG>  Configuration file path [default: enum-gen.toml]",
    "      --check            Validate only, never write generated files",
    "      --report <REPORT>  How validation results are reported [default: text] " ++
      "[possible values: text, json]",
    "  -v, --verbose          Verbose output",
    "  -h, --help             Print help (see more with '--help')",
    "  -V, --version          Print version"]

/-- The help with a paragraph per option. -/
def longHelp : List String :=
  ["Generate C# enum declarations from editable enum assets",
    "",
    "Usage: enum-gen [OPTIONS] [ASSETS]...",
    "",
    "Arguments:",
    "  [ASSETS]...",
    "          Enum assets to process instead of the configured sources",
    "",
    "Options:",
    "  -c, --config <CONFIG>",
    "          Configuration file path",
    "          ",
    "          [default: enum-gen.toml]",
    "",
    "      --check",
    "          Validate only, never write generated files",
    "",
    "      --report <REPORT>",
    "          How validation results are reported",
    "",
    "          Possible values:",
    "          - text",
    "          - json: One JSON object per asset on stdout",
    "          ",
    "          [default: text]",
    "",
    "  -v, --verbose",
    "          Verbose output",
    "",
    "  -h, --help",
    "          Print help (see a summary with '-h')",
    "",
    "  -V, --version",
    "          Print version"]

end EnumAssets.Command
