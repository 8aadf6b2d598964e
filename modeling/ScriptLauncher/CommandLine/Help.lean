import ScriptLauncher.CommandLine.Word

/-! What the command line says about itself. -/

namespace ScriptLauncher.CommandLine

def programName : String := "goscript"

def usage : String := "\n".intercalate [
  "usage: goscript [-h] [--showsource] [--noclean] [--src SRC] [--dry-run]",
  "                [--compiler COMPILER] [--helper-package HELPER_PACKAGE]",
  "                [--no-helper] [-v]",
  "                [script] ...",
  ""]

def help : String := usage ++ "\n".intercalate [
  "",
  "Run a Go script: boilerplate is added, then it is compiled and run.",
  "",
  "positional arguments:",
  "  script                Script file.",
  "  args                  Arguments passed to the script.",
  "",
  "options:",
  "  -h, --help            show this help message and exit",
  "  --showsource          Show generated source code.",
  "  --noclean             No cleaning of generated files.",
  "  --src SRC             Source code.",
  "  --dry-run             Print the compile and run commands instead of",
  "                        executing them.",
  "  --compiler COMPILER   Go toolchain executable.",
  "  --helper-package HELPER_PACKAGE",
  "                        Import path of the process helper package.",
  "  --no-helper           Do not import the process helper package.",
  "  -v, --verbose         Enable debug logging.",
  ""]

def UsageError.report (e : UsageError) : String :=
  usage ++ programName ++ ": error: " ++ e.message ++ "\n"

end ScriptLauncher.CommandLine
