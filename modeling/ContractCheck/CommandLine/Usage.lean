import ContractCheck.CommandLine.Arguments
import ContractCheck.Text.Lines

/-! # The commands and how they are used

Each command says what it is for, which options and operands it takes, and which commands stand
below it.  Its help text is made from that.
-/
namespace ContractCheck.CommandLine

/-- The name of the program. -/
def programName : Text := "solcheck".toList

/-- The version of the program. -/
def programVersion : Text := "0.1.0".toList

/-- A command as users see it. -/
structure Usage where
  /-- The words that lead to the command. -/
  words : List Text
  about : Text
  choices : List Choice := []
  operands : List Text := []
  /-- The commands below this one, with what they are for. -/
  below : List (Text × Text) := []

/-- The option that every command has. -/
def helpChoice : Choice :=
  { name := "--help".toList, about := "Show this message and exit.".toList }

namespace Usage

/-- All options of a command. -/
def allChoices (u : Usage) : List Choice := u.choices ++ [helpChoice]

/-- Whether commands stand below. -/
def isGroup (u : Usage) : Bool := !u.below.isEmpty

/-- The first line of the help text. -/
def line (u : Usage) : Text :=
  Text.join [' '] (["Usage:".toList, programName] ++ u.words ++ ["[OPTIONS]".toList] ++
    u.operands ++
    if u.isGroup then ["COMMAND [ARGS]...".toList] else [])

/-- Two columns of a help text. -/
def columns (rows : List (Text × Text)) : List Text :=
  let width := (rows.map fun r => r.1.length).foldl max 0
  rows.map fun r => "  ".toList ++ Text.padEnd width r.1 ++ "  ".toList ++ r.2

/-- An option with its value in a help text. -/
def choiceTitle (c : Choice) : Text :=
  match c.value with
  | some v => c.name ++ ' ' :: v
  | none => c.name

/-- The help text. -/
def help (u : Usage) : Text :=
  Text.join ['\n'] ([u.line, [], "  ".toList ++ u.about, [], "Options:".toList] ++
    columns (u.allChoices.map fun c => (choiceTitle c, c.about)) ++
    if u.isGroup then [[], "Commands:".toList] ++ columns u.below else []) ++ ['\n']

/-- What is said about arguments that cannot be used. -/
def complaint (u : Usage) (m : Misuse) : Text :=
  Text.join ['\n'] [u.line,
    "Try '".toList ++ Text.join [' '] (programName :: u.words ++ ["--help".toList]) ++
      "' for help.".toList,
    [], "Error: ".toList ++ m.message] ++ ['\n']

end Usage

/-- The words for the linters to choose from. -/
def linterWords : List Text := ["solhint".toList, "solium".toList, "none".toList]

/-- Checking one file. -/
def checkUsage : Usage where
  words := ["check".toList]
  about := "Lint and compile one contract file and print its diagnostics.".toList
  choices :=
    [{ name := "--root".toList, value := some "DIRECTORY".toList
       about := "Project root used to resolve imports.".toList },
     { name := "--no-compile".toList, about := "Only run the linter.".toList },
     { name := "--linter".toList, value := some ('[' :: Text.join ['|'] linterWords ++ [']'])
       about := "Override the configured linter.".toList }]
  operands := ["FILE".toList]

/-- Promoting the outputs of a file. -/
def promoteUsage : Usage where
  words := ["promote".toList]
  about := "Move compiled artifacts of FILE into the build directory.".toList
  operands := ["FILE".toList]

/-- Listing the settings. -/
def configListUsage : Usage where
  words := ["config".toList, "list".toList]
  about := "Show every option with its effective value.".toList

/-- Showing one setting. -/
def configGetUsage : Usage where
  words := ["config".toList, "get".toList]
  about := "Print the effective value of KEY (e.g. validation.linter).".toList
  operands := ["KEY".toList]

/-- Changing one setting. -/
def configSetUsage : Usage where
  words := ["config".toList, "set".toList]
  about := "Store VALUE for KEY in .solcheck/config.toml.".toList
  operands := ["KEY".toList, "VALUE".toList]

/-- A command as its group lists it. -/
def Usage.entry (u : Usage) : Text × Text := ((u.words.getLast?).getD [], u.about)

/-- The settings. -/
def configUsage : Usage where
  words := ["config".toList]
  about := "Show or change project settings.".toList
  below := [configListUsage, configGetUsage, configSetUsage].map Usage.entry

/-- Installing tools. -/
def installUsage : Usage where
  words := ["toolchain".toList, "install".toList]
  about := "Install every missing toolchain component.".toList

/-- Showing the tools. -/
def infoUsage : Usage where
  words := ["toolchain".toList, "info".toList]
  about := "Show where components live and which versions are installed.".toList

/-- The tools. -/
def toolchainUsage : Usage where
  words := ["toolchain".toList]
  about := "Manage the compiler, linker and standard library.".toList
  below := [installUsage, infoUsage].map Usage.entry

/-- The program. -/
def programUsage : Usage where
  words := []
  about := "As-you-type diagnostics for TON Solidity contracts.".toList
  choices := [{ name := "--version".toList, about := "Show the version and exit.".toList }]
  below := [checkUsage, configUsage, promoteUsage, toolchainUsage].map Usage.entry

end ContractCheck.CommandLine
