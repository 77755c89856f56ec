import TypeClosure.Command.Arguments

/-! The help texts of the program. -/

namespace TypeClosure.Command

def versionText : String := "typedeps 0.1.0\n"

def programHelp : String :=
"Extract TypeScript type declarations together with the types they reference

Usage: typedeps [COMMAND]

Commands:
  closure  Collect every declaration the given types depend on within a file
  names    Print the referenced type names of every type declaration
  init     Initialize a new .typedepsrc.json configuration file
  help     Print this message or the help of the given subcommand(s)

Options:
  -h, --help     Print help
  -V, --version  Print version
"

def closureHelp : String :=
"Collect every declaration the given types depend on within a file

Usage: typedeps closure [OPTIONS] <FILE>

Arguments:
  <FILE>  TypeScript file to analyze

Options:
  -t, --type <NAME>       Root type names (default: all exported types) Can be specified multiple times: -t User -t Role
      --follow-reexports  Follow `export \x7b .. \x7d from \"./module\"` into sibling files (overrides config file)
      --json              Print machine-readable JSON instead of text
  -v, --verbose           Enable verbose output
  -h, --help              Print help
"

def namesHelp : String :=
"Print the referenced type names of every type declaration

Usage: typedeps names [OPTIONS] <PATTERN>...

Arguments:
  <PATTERN>...  Files or glob patterns (e.g. \"src/**/*.ts\")

Options:
      --json     Print machine-readable JSON instead of text
  -v, --verbose  Enable verbose output
  -h, --help     Print help
"

def initHelp : String :=
"Initialize a new .typedepsrc.json configuration file

Usage: typedeps init

Options:
  -h, --help  Print help
"

def helpHelp : String :=
"Print this message or the help of the given subcommand(s)

Usage: typedeps help [COMMAND]...

Arguments:
  [COMMAND]...  Print help for the subcommand(s)
"

def Topic.text : Topic → String
  | .program => programHelp
  | .closure => closureHelp
  | .names => namesHelp
  | .init => initHelp
  | .help => helpHelp

end TypeClosure.Command
