import Storyboard.CommandLine.Grammar

/-! # Help

    The texts that explain the command line: for the program as a whole, for
    each verb, and for the word that asks for help. -/

namespace Storyboard.CommandLine

/-- What help is about. -/
inductive Subject where
  | program
  | verb (v : Verb)
  /-- The word `help` itself. -/
  | help
  deriving DecidableEq, Repr

/-- What the word `help` does. -/
def helpAbout : String := "Print this message or the help of the given subcommand(s)"

/-- A text filled up with blanks. -/
def padded (width : Nat) (s : String) : String := s ++ "".pushn ' ' (width - s.length)

/-- The greatest length of some texts. -/
def widest (texts : List String) : Nat := (texts.map String.length).foldl max 0

/-- Lines in two columns, two blanks apart. -/
def columns (lines : List (String × String)) : String :=
  let width := widest (lines.map (·.1))
  String.join (lines.map fun l => padded (width + 2) l.1 ++ l.2 ++ "\n")

/-- What the help says about an option, with its usual value. -/
def Flag.explained (f : Flag) : String :=
  f.about ++ (match f.usual? with
    | some value => " [default: " ++ value ++ "]"
    | none => "")

/-- The line of an option; its long name stands clear of the short ones. -/
def Flag.line (f : Flag) : String × String := ("      " ++ f.usage, f.explained)

namespace Subject

/-- How to write it. -/
def usage : Subject → String
  | .program => programName ++ " [OPTIONS] <COMMAND>"
  | .verb v => " ".intercalate
      ([programName, v.name, "[OPTIONS]"] ++ v.required.map (·.usage))
  | .help => programName ++ " help [COMMAND]..."

/-- The line that says how to write it. -/
def usageLine (s : Subject) : String := "Usage: " ++ s.usage ++ "\n"

/-- The line of the option that asks for help. -/
def helpLine : String × String := ("  -h, --help", "Print help")

/-- The options of a subject. -/
def options : Subject → String
  | .program => "\nOptions:\n" ++
      columns [Flag.settings.line, helpLine, ("  -V, --version", "Print version")]
  | .verb v => "\nOptions:\n" ++ columns (v.flags.map (·.line) ++ [helpLine])
  | .help => "\nArguments:\n" ++ columns [("  [COMMAND]...", "Print help for the subcommand(s)")]

/-- The verbs of a subject. -/
def commands : Subject → String
  | .program => "\nCommands:\n" ++
      columns (Verb.all.map (fun v => ("  " ++ v.name, v.about)) ++ [("  help", helpAbout)])
  | _ => ""

/-- What a subject is about. -/
def lead : Subject → String
  | .program => ""
  | .verb v => v.about ++ "\n\n"
  | .help => helpAbout ++ "\n\n"

/-- The whole help. -/
def text (s : Subject) : String := s.lead ++ s.usageLine ++ s.commands ++ s.options

end Subject

end Storyboard.CommandLine
