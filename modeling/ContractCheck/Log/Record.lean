import ContractCheck.Log.Format
import ContractCheck.Settings.Sections

/-! # Log records

A record has a level, the name of who writes it, and a message with its context fields.  Where
records go is said by a sink: nowhere, into memory, or to the outputs that the log settings name,
which are opened only when the first record is written.
-/
namespace ContractCheck.Log

/-- The name that all names of writers begin with. -/
def rootName : Text := "solcheck".toList

/-- What is written to a log. -/
structure Record where
  level : LogLevel
  name : Text
  message : Text

/-- The record as a line. -/
def Record.line (time : Text) (r : Record) : Text :=
  time ++ " [".toList ++ r.level.tag ++ "] ".toList ++ r.name ++ ": ".toList ++ r.message ++ ['\n']

/-- The opened outputs: the standard error output, a file, both or none; records below the least
level are dropped. -/
structure Outputs where
  least : LogLevel
  console : Bool
  file : Option Text

/-- Where records go. -/
inductive Sink where
  | nowhere
  | memory (records : List Record)
  | planned (settings : LoggingSettings)
  | opened (outputs : Outputs)

/-- The full name of a writer. -/
def writerName (owner : Text) : Text := rootName ++ '.' :: owner

end ContractCheck.Log
