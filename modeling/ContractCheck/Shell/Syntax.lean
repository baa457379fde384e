import ContractCheck.Text.Basic

/-! # Shell scripts

Small tools are written as shell scripts.  A script is a list of commands; a command is a simple
one, a combination of commands, or a compound command with redirections.  A word is a list of
pieces, which are expanded when the command runs.
-/
namespace ContractCheck.Shell

/-- How a redirection opens its target. -/
inductive RedirectKind where
  | read
  | write
  | append
  | duplicate
  | here
deriving DecidableEq

mutual
/-- A piece of a word. -/
inductive Piece where
  /-- Text that may be a pattern. -/
  | plain (t : Text)
  /-- Text that stands for itself. -/
  | quoted (t : Text)
  /-- The value of a parameter, changed by an operator and its argument. -/
  | parameter (quoted : Bool) (name operator : Text) (argument : List Piece)
  /-- What a script writes. -/
  | output (quoted : Bool) (script : List Command)

/-- A command. -/
inductive Command where
  /-- A simple command; `left` is the length of the script from here on. -/
  | simple (left : Nat) (assignments : List (Text × List Piece)) (words : List (List Piece))
      (redirects : List (Nat × RedirectKind × List Piece))
  | pipe (first second : Command)
  | both (first second : Command)
  | either (first second : Command)
  | negated (c : Command)
  | group (cs : List Command)
  | apart (cs : List Command)
  | cond (test yes no : List Command)
  | loop (until_ : Bool) (test body : List Command)
  | forEach (name : Text) (words : Option (List (List Piece))) (body : List Command)
  | choose (subject : List Piece) (arms : List (List (List Piece) × List Command))
  | redirected (c : Command) (redirects : List (Nat × RedirectKind × List Piece))
end

/-- A word. -/
abbrev Word := List Piece

/-- A redirection: the number of the stream, how it is opened, and what it leads to. -/
abbrev Redirect := Nat × RedirectKind × Word

instance : Inhabited Command := ⟨.group []⟩

end ContractCheck.Shell
