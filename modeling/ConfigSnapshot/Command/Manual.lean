/-!
# Texts that describe the command

What the command prints about itself: its usage, its version, a manual page and its Markdown
form.
-/

namespace ConfigSnapshot
namespace Command

/-- The text of some lines. -/
def ofLines (ls : List String) : String :=
  String.join (ls.map (· ++ "\n"))

def helpText : String :=
  ofLines [
    "Rewrites the top-level `config = ...` of Nix modules to `config.snapshot.<name> = ...`",
    "",
    "Usage: nixops4-snapshot-convert [OPTIONS] [MODULES_DIRECTORY]",
    "",
    "Arguments:",
    "  [MODULES_DIRECTORY]  Directory containing the `*.nix` modules to convert (not" ++
      " recursive)",
    "",
    "Options:",
    "  -v, --verbose        ",
    "      --color <COLOR>  [default: auto] [possible values: auto, always, never]",
    "  -n, --dry-run        Report what would be converted, without writing any files",
    "  -h, --help           Print help",
    "  -V, --version        Print version"]

def versionText : String :=
  ofLines [
    "nixops4-snapshot-convert 0.1.0"]

def manualPage : String :=
  ofLines [
    ".ie \\n(.g .ds Aq \\(aq",
    ".el .ds Aq '",
    ".TH nixops4-snapshot-convert 1  \"nixops4-snapshot-convert 0.1.0\" ",
    ".SH NAME",
    "nixops4\\-snapshot\\-convert \\- Rewrites the top\\-level `config = ...` of Nix modules" ++
      " to `config.snapshot.<name> = ...`",
    ".SH SYNOPSIS",
    "\\fBnixops4\\-snapshot\\-convert\\fR [\\fB\\-v\\fR|\\fB\\-\\-verbose\\fR]" ++
      " [\\fB\\-\\-color\\fR] [\\fB\\-n\\fR|\\fB\\-\\-dry\\-run\\fR]" ++
      " [\\fB\\-h\\fR|\\fB\\-\\-help\\fR] [\\fB\\-V\\fR|\\fB\\-\\-version\\fR]" ++
      " [\\fIMODULES_DIRECTORY\\fR] ",
    ".SH DESCRIPTION",
    "Rewrites the top\\-level `config = ...` of Nix modules to `config.snapshot.<name> = ...`",
    ".SH OPTIONS",
    ".TP",
    "\\fB\\-v\\fR, \\fB\\-\\-verbose\\fR",
    "",
    ".TP",
    "\\fB\\-\\-color\\fR \\fI<COLOR>\\fR [default: auto]",
    "",
    ".br",
    "\\fIPossible values:\\fR",
    ".RS 14",
    ".IP \\(bu 2",
    "auto",
    ".IP \\(bu 2",
    "always",
    ".IP \\(bu 2",
    "never",
    ".RE",
    ".TP",
    "\\fB\\-n\\fR, \\fB\\-\\-dry\\-run\\fR",
    "Report what would be converted, without writing any files",
    ".TP",
    "\\fB\\-h\\fR, \\fB\\-\\-help\\fR",
    "Print help",
    ".TP",
    "\\fB\\-V\\fR, \\fB\\-\\-version\\fR",
    "Print version",
    ".TP",
    "[\\fIMODULES_DIRECTORY\\fR]",
    "Directory containing the `*.nix` modules to convert (not recursive)",
    ".SH VERSION",
    "v0.1.0",
    ""]

def markdownPage : String :=
  ofLines [
    "# Command-Line Help for `nixops4-snapshot-convert`",
    "",
    "This document contains the help content for the `nixops4-snapshot-convert` command-line" ++
      " program.",
    "",
    "**Command Overview:**",
    "",
    "* [`nixops4-snapshot-convert`↴](#nixops4-snapshot-convert)",
    "",
    "## `nixops4-snapshot-convert`",
    "",
    "Rewrites the top-level `config = ...` of Nix modules to `config.snapshot.<name> = ...`",
    "",
    "**Usage:** `nixops4-snapshot-convert [OPTIONS] [MODULES_DIRECTORY]`",
    "",
    "###### **Arguments:**",
    "",
    "* `<MODULES_DIRECTORY>` — Directory containing the `*.nix` modules to convert (not" ++
      " recursive)",
    "",
    "###### **Options:**",
    "",
    "* `-v`, `--verbose`",
    "",
    "  Default value: `false`",
    "* `--color <COLOR>`",
    "",
    "  Default value: `auto`",
    "",
    "  Possible values: `auto`, `always`, `never`",
    "",
    "* `-n`, `--dry-run` — Report what would be converted, without writing any files",
    "",
    "  Default value: `false`",
    "",
    "",
    "",
    ""]

end Command
end ConfigSnapshot
