import ContractCheck.Text.Basic

/-! # Arguments

The arguments of a command are options and operands in any order.  An option begins with a dash; one
that takes a value has it behind an equals sign or as the next argument, whatever that looks like.
Two dashes alone end the options.  A command that has commands below it takes options only in front
of its first operand, and everything from there on belongs to the command below.
-/
namespace ContractCheck.CommandLine

/-- An option of a command. -/
structure Choice where
  name : Text
  /-- What its value is called in help texts, if it takes one. -/
  value : Option Text := none
  about : Text

/-- Why arguments cannot be used. -/
inductive Misuse where
  | unknownOption (name : Text)
  | valueMissing (name : Text)
  | valueNotTaken (name : Text)
  | operandMissing (name : Text)
  | surplus (argument : Text)
  | unknownCommand (name : Text)
  | badValue (name reason : Text)
deriving DecidableEq

/-- A misuse in words. -/
def Misuse.message : Misuse → Text
  | .unknownOption n => "No such option: ".toList ++ n
  | .valueMissing n => "Option '".toList ++ n ++ "' requires an argument.".toList
  | .valueNotTaken n => "Option '".toList ++ n ++ "' does not take a value.".toList
  | .operandMissing n => "Missing argument '".toList ++ n ++ "'.".toList
  | .surplus t => "Got unexpected extra argument (".toList ++ t ++ ")".toList
  | .unknownCommand n => "No such command '".toList ++ n ++ "'.".toList
  | .badValue n reason => "Invalid value for '".toList ++ n ++ "': ".toList ++ reason

/-- Options as they were given, each with its value, and operands. -/
structure Arguments where
  options : List (Text × Text) := []
  operands : List Text := []
deriving DecidableEq

namespace Arguments

/-- Whether an option was given. -/
def has (a : Arguments) (name : String) : Bool := (a.options.lookup name.toList).isSome

/-- The last value of an option. -/
def value? (a : Arguments) (name : String) : Option Text := a.options.reverse.lookup name.toList

/-- Whether an argument is written like an option. -/
def isOption : Text → Bool
  | '-' :: _ :: _ => true
  | _ => false

/-- The arguments with one more operand in front. -/
def withOperand (t : Text) (a : Arguments) : Arguments := { a with operands := t :: a.operands }

/-- The arguments with one more option in front. -/
def withOption (name value : Text) (a : Arguments) : Arguments :=
  { a with options := (name, value) :: a.options }

/-- Reads arguments.  When `stops` is set, the first operand and everything behind it are
operands. -/
def read (choices : List Choice) (stops : Bool) : List Text → Except Misuse Arguments
  | [] => .ok {}
  | t :: rest =>
    if t = "--".toList then .ok { operands := rest }
    else if !isOption t then
      if stops then .ok { operands := t :: rest } else (read choices stops rest).map (withOperand t)
    else
      let name := t.takeWhile (· != '=')
      match choices.find? fun c => c.name = name with
      | none => .error (.unknownOption name)
      | some c =>
        match c.value, t.drop name.length with
        | none, [] => (read choices stops rest).map (withOption name [])
        | none, _ :: _ => .error (.valueNotTaken name)
        | some _, _ :: value => (read choices stops rest).map (withOption name value)
        | some _, [] =>
          match rest with
          | [] => .error (.valueMissing name)
          | value :: rest => (read choices stops rest).map (withOption name value)

end Arguments
end ContractCheck.CommandLine
