import ContractCheck.Host.Basic

/-! # Writing to the log

The outputs of the log are opened when the first record is written, whatever its level: the log file
and the directories above it are made then.  A log file that cannot be opened is reported once and
left out; but a path that begins with a home directory that is not known, or that holds a zero
character, is a fault of the first write.  Writing a record to opened outputs never fails.
-/
namespace ContractCheck.Log

/-- The log file when the settings name none. -/
def defaultFile (h : Host) : Text :=
  Path.Posix.child h.home ".solcheck/logs/server.log".toList

/-- The log file that the settings ask for, if any. -/
def fileFor? (h : Host) (settings : LoggingSettings) : Option (Option Text) :=
  if settings.file then
    match settings.filePath with
    | some (c :: cs) => (h.expandHome? (c :: cs)).map some
    | _ => some (some (defaultFile h))
  else some none

/-- Opens the outputs that the settings name. -/
def openOutputs (settings : LoggingSettings) : Action Outputs := do
  let h ← get
  let outputs : Outputs := { least := settings.level, console := settings.console, file := none }
  match fileFor? h settings with
  | none => throw .noHome
  | some none => pure outputs
  | some (some path) =>
    Action.orSystem
      (do
        Action.makeDirectories (Path.Posix.parent path)
        Action.change (fun fs cwd p => fs.append cwd p []) path
        pure { outputs with file := some (Path.Posix.absolute h.directory path) })
      fun e => do
        Action.complain ("solcheck: cannot open log file ".toList ++ path ++ ": ".toList ++
          e.message ++ ['\n'])
        pure outputs

/-- Makes the sink ready for a record. -/
def open_ : Action Unit := do
  match (← get).log with
  | .planned settings =>
    let outputs ← openOutputs settings
    modify fun h => { h with log := .opened outputs }
  | _ => pure ()

/-- Writes a record to opened outputs. -/
def writeTo (outputs : Outputs) (r : Record) (h : Host) : Host :=
  if r.level.rank < outputs.least.rank then h
  else
    let line := r.line h.clock
    let h := if outputs.console then { h with complaints := h.complaints ++ line } else h
    match outputs.file with
    | none => h
    | some path =>
      match h.files.append h.cwd path (Utf8.encode line) with
      | .ok fs => { h with files := fs }
      | .error _ => h

/-- A record below the least level is dropped.  Another one is shown on the standard error output or
not, and then its line is added to the file or not. -/
theorem writeTo_cases (outputs : Outputs) (r : Record) (h : Host) :
    ∃ h', (h' = h ∨ h' = { h with complaints := h.complaints ++ r.line h.clock }) ∧
      (writeTo outputs r h = h' ∨ ∃ path fs, outputs.file = some path ∧
        h'.files.append h'.cwd path (Utf8.encode (r.line h.clock)) = .ok fs ∧
        writeTo outputs r h = { h' with files := fs }) := by
  unfold writeTo
  split
  · exact ⟨h, .inl rfl, .inl rfl⟩
  · refine ⟨if outputs.console then { h with complaints := h.complaints ++ r.line h.clock } else h,
      ?_, ?_⟩
    · split
      · exact .inr rfl
      · exact .inl rfl
    · dsimp only
      split
      · exact .inl rfl
      · next path file =>
        split
        · next fs added => exact .inr ⟨path, fs, file, added, rfl⟩
        · exact .inl rfl

/-- The host after a record was written to its sink. -/
def record (r : Record) (h : Host) : Host :=
  match h.log with
  | .nowhere | .planned _ => h
  | .memory rs => { h with log := .memory (rs ++ [r]) }
  | .opened outputs => writeTo outputs r h

/-- A record is dropped, or kept in memory, or written to opened outputs. -/
theorem record_cases (r : Record) (h : Host) :
    record r h = h ∨
      (∃ rs, h.log = .memory rs ∧ record r h = { h with log := .memory (rs ++ [r]) }) ∨
      ∃ outputs, h.log = .opened outputs ∧ record r h = writeTo outputs r h := by
  unfold record
  split
  · exact .inl rfl
  · exact .inl rfl
  · next rs memory => exact .inr (.inl ⟨rs, memory, rfl⟩)
  · next outputs opened => exact .inr (.inr ⟨outputs, opened, rfl⟩)

/-- Writes a message with context fields in a writer's name. -/
def write (level : LogLevel) (owner : Text) (message : Text) (context : Fields) : Action Unit := do
  open_
  modify (record { level, name := writerName owner, message := message ++ renderContext context })

/-- Opens the outputs that the settings name, in place of any earlier ones. -/
def configure (settings : LoggingSettings) : Action Outputs := do
  let outputs ← openOutputs settings
  modify fun h => { h with log := .opened outputs }
  pure outputs

/-- The level with a name; an unknown name means the level of plain messages. -/
def levelOf (name : Text) : LogLevel := (LogLevel.ofLabel? name).getD .info

/-- Names that a context field cannot have, because the parts of a record have them. -/
def recordParts : List Text := ["self".toList, "level".toList, "message".toList]

/-- The mark that a record is about a fault; it is no context field. -/
def faultMark : Text := "exc_info".toList

/-- What a record about a fault ends with when there is no fault to show: a line that says so. -/
def withoutFault (message : Text) : Text :=
  (if Text.endsWith message ['\n'] then message else message ++ ['\n']) ++ "NoneType: None".toList

/-- The name of a writer below others. -/
def nameBelow (owners : List Text) : Text := Text.join ['.'] (rootName :: owners)

/-- Writes a format with its arguments and context fields, if there is a log at all.  A record that
cannot be rendered is dropped, and one whose fields hold an integer with too many digits is not
made. -/
def submit (level : LogLevel) (owners : List Text) (message : Text) (args : List Value)
    (context : Fields) : Action Unit := do
  open_
  if context.any fun f => recordParts.contains f.1 then
    throw (.wrongShape "a context field has the name of a part of the record".toList)
  let fields := context.filter fun f => f.1 != faultMark
  match (← get).log with
  | .nowhere => pure ()
  | _ =>
    if Value.anyField Value.isOversized fields then
      throw (.badValue "Exceeds the limit for integer string conversion".toList)
    match render? message args fields with
    | some t =>
      let marked := (context.get? faultMark).any Value.given
      modify (record
        { level, name := nameBelow owners, message := if marked then withoutFault t else t })
    | none => pure ()

/-- A message about the inner working. -/
def debug (owner : String) (message : Text) (context : Fields := []) : Action Unit :=
  write .debug owner.toList message context

/-- A message about what is done. -/
def info (owner : String) (message : Text) (context : Fields := []) : Action Unit :=
  write .info owner.toList message context

/-- A message about something that went wrong and was handled. -/
def warning (owner : String) (message : Text) (context : Fields := []) : Action Unit :=
  write .warning owner.toList message context

end ContractCheck.Log
