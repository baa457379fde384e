import ContractCheck.Shell.Parser
import ContractCheck.Shell.Utility

/-! # Running shell scripts

Commands run on the state of a script.  Words are expanded to fields: quoted parts stay whole,
values outside quotes are cut at blanks, and an open pattern becomes the names that fit it, if there
are any.  Every function spends one unit of a budget, so a script that would never end stops when
the budget is used up.
-/
namespace ContractCheck.Shell

/-- A part of an expanded word. -/
inductive Atom where
  /-- Stays whole and stands for itself. -/
  | fixed (t : Text)
  /-- Stays whole and may be a pattern. -/
  | loose (t : Text)
  /-- Is cut at blanks and may be a pattern. -/
  | split (t : Text)
  /-- Ends a field. -/
  | cut

/-- Fields that are being put together: those that are done, and the one that was begun. -/
structure Fielding where
  done : List Pattern := []
  begun : Option Pattern := none

namespace Fielding

/-- The begun field made longer. -/
def extend (f : Fielding) (p : Pattern) : Fielding :=
  { f with begun := some (f.begun.getD [] ++ p) }

/-- The begun field ended. -/
def finish (f : Fielding) : Fielding :=
  match f.begun with
  | some p => { done := f.done ++ [p], begun := none }
  | none => f

/-- The fields after one more atom. -/
def add (f : Fielding) : Atom → Fielding
  | .fixed t => f.extend (Pattern.literal t)
  | .loose t => f.extend (Pattern.loose t)
  | .split t =>
    t.foldl (fun f c =>
      if c == ' ' || c == '\t' || c == '\n' then f.finish else f.extend [(c, false)]) f
  | .cut => (f.extend []).finish

end Fielding

/-- The fields of atoms. -/
def fieldsOf (atoms : List Atom) : List Pattern := (atoms.foldl Fielding.add {}).finish.done

/-- The pattern of atoms that are not cut. -/
def patternOf (atoms : List Atom) : Pattern :=
  atoms.flatMap fun a =>
    match a with
    | .fixed t => Pattern.literal t
    | .loose t => Pattern.loose t
    | .split t => Pattern.loose t
    | .cut => [(' ', true)]

/-- Whether one text comes before another, by code points. -/
def comesBefore (a b : Text) : Bool := !(decide (b < a))

/-- A field, or the names that it fits if it is an open pattern. -/
def namesOf (m : Machine) (p : Pattern) : List Text :=
  if p.isOpen then
    let whole := p.text
    let directory := (Path.Posix.cutName whole).1
    let leaf := p.drop directory.length
    match m.files.resolve m.cwd (if directory.isEmpty then Path.here else directory) with
    | .ok place =>
      let hits := (m.files.names place).filter fun n =>
        Pattern.isMatch leaf n && (n.head? != some '.' || leaf.head?.map Prod.fst == some '.')
      if hits.isEmpty then [whole] else (hits.mergeSort comesBefore).map fun n => directory ++ n
    | .error _ => [whole]
  else [p.text]

/-- The output of a script as a value: without the line feeds at its end. -/
def outputValue (bytes : Bytes) : Text :=
  Text.dropEndWhile (· == '\n') ((Utf8.readLenient bytes).filter (· != '\x00'))

/-- The atoms of a parameter's values. -/
def valueAtoms (quoted : Bool) (name : Text) (values : List Text) : List Atom :=
  if quoted then
    if name = ['@'] then
      match values.reverse with
      | [] => []
      | last :: before => before.reverse.flatMap (fun v => [.fixed v, .cut]) ++ [.fixed last]
    else [.fixed (Text.join [' '] values)]
  else (values.map Atom.split).intersperse .cut

/-- The program that a shell finds under a name. -/
def findProgram? (m : Machine) (name : Text) : Option Text :=
  let runs (path : Text) : Bool :=
    match m.files.find m.cwd path with
    | .ok (_, .file _ mode) => mode.executable
    | _ => false
  if name.contains '/' then some name
  else
    ((Text.splitOn [':'] ((m.bindings.lookup "PATH".toList).getD [])).map fun d =>
      Path.Posix.join (if d.isEmpty then Path.here else d) name).find? runs

/-- The rest of a script after its first line, if that names a shell. -/
def shellScript? (content : Bytes) : Option (Text × Bool) :=
  let t := Utf8.readLenient content
  match t with
  | '#' :: '!' :: r =>
    let words := (Text.splitOn [' '] (r.takeWhile (· != '\n'))).filter fun w => !w.isEmpty
    let isShell (p : Text) : Bool :=
      Path.Posix.isAbsolute p &&
        ["sh".toList, "dash".toList, "bash".toList, "ash".toList].contains (Path.Posix.leaf p) &&
        ["/bin".toList, "/usr/bin".toList].contains (Path.Posix.parent p)
    match words with
    | p :: rest =>
      if isShell p then some (t, rest.any fun o => Text.startsWith o ['-'] && o.contains 'e')
      else if p = "/usr/bin/env".toList ∧ (rest.head?.map Path.Posix.leaf) = some "sh".toList then
        some (t, false)
      else none
    | [] => none
  | _ => none

/-- The state after a command that may have failed: a strict script ends, unless it was a test. -/
def stopIfStrict (m : Machine) : Machine :=
  if m.strict && !m.testing && m.status != 0 && m.flow = .on then { m with flow := .left m.status }
  else m

mutual
/-- The atoms of a word. -/
def expand (n : Nat) (w : Word) (m : Machine) : List Atom × Machine :=
  match n, w with
  | 0, _ => ([], m)
  | _, [] => ([], m)
  | n + 1, p :: r =>
    let (as, m) := expandPiece n p m
    let (bs, m) := expand n r m
    (as ++ bs, m)

/-- The text of a word that is not cut. -/
def expandText (n : Nat) (w : Word) (m : Machine) : Text × Machine :=
  match n with
  | 0 => ([], m)
  | n + 1 =>
    let (as, m) := expand n w m
    ((patternOf as).text, m)

/-- The atoms of a piece. -/
def expandPiece (n : Nat) (p : Piece) (m : Machine) : List Atom × Machine :=
  match n, p with
  | 0, _ => ([], m)
  | _ + 1, .plain t => ([.loose t], m)
  | _ + 1, .quoted t => ([.fixed t], m)
  | n + 1, .output quoted script =>
    let inner := runList n script
      { m with output := [], streams := (1, .output) :: m.streams.filter (·.1 != 1) }
    let value := outputValue inner.output
    let m := { inner.rejoin m with output := m.output }
    ([if quoted then .fixed value else .split value], m)
  | n + 1, .parameter quoted name operator argument =>
    let values := m.parameter name
    let isSet := !values.isEmpty
    let isFull := values.any fun v => !v.isEmpty
    let plain := valueAtoms quoted name values
    let value := Text.join [' '] values
    let changed (t : Text) : List Atom := [if quoted then .fixed t else .split t]
    match String.ofList operator with
    | "length" => (changed (Text.ofNat value.length), m)
    | "-" => if isSet then (plain, m) else expand n argument m
    | ":-" => if isFull then (plain, m) else expand n argument m
    | "+" => if isSet then expand n argument m else ([], m)
    | ":+" => if isFull then expand n argument m else ([], m)
    | "=" =>
      if isSet then (plain, m)
      else
        let (t, m) := expandText n argument m
        (changed t, m.assign name t)
    | ":=" =>
      if isFull then (plain, m)
      else
        let (t, m) := expandText n argument m
        (changed t, m.assign name t)
    | "?" =>
      if isSet then (plain, m)
      else
        let (t, m) := expandText n argument m
        ([], { m.complain 0 (name ++ ": ".toList ++ t) with flow := .left 2 })
    | ":?" =>
      if isFull then (plain, m)
      else
        let (t, m) := expandText n argument m
        ([], { m.complain 0 (name ++ ": ".toList ++ t) with flow := .left 2 })
    | "%" =>
      let (as, m) := expand n argument m
      (changed ((patternOf as).dropEnd false value), m)
    | "%%" =>
      let (as, m) := expand n argument m
      (changed ((patternOf as).dropEnd true value), m)
    | "#" =>
      let (as, m) := expand n argument m
      (changed ((patternOf as).dropStart false value), m)
    | "##" =>
      let (as, m) := expand n argument m
      (changed ((patternOf as).dropStart true value), m)
    | _ => (plain, m)

/-- The fields of words. -/
def expandWords (n : Nat) (ws : List Word) (m : Machine) : List Text × Machine :=
  match n, ws with
  | 0, _ => ([], m)
  | _, [] => ([], m)
  | n + 1, w :: r =>
    let (as, m) := expand n w m
    let fields := (fieldsOf as).flatMap (namesOf m)
    let (more, m) := expandWords n r m
    (fields ++ more, m)

/-- The targets of redirections. -/
def expandRedirects (n : Nat) (ds : List Redirect) (m : Machine) :
    List (Nat × RedirectKind × Text) × Machine :=
  match n, ds with
  | 0, _ => ([], m)
  | _, [] => ([], m)
  | n + 1, (stream, kind, w) :: r =>
    let (t, m) := expandText n w m
    let (more, m) := expandRedirects n r m
    ((stream, kind, t) :: more, m)

/-- The state after assignments. -/
def assignAll (n : Nat) (as : List (Text × Word)) (m : Machine) : Machine :=
  match n, as with
  | 0, _ => m
  | _, [] => m
  | n + 1, (name, w) :: r =>
    let (t, m) := expandText n w m
    assignAll n r (m.assign name t)

/-- Runs a script file in a state of its own. -/
def runScript (n : Nat) (content : Bytes) (path : Text) (args : List Text) (m : Machine) :
    Machine :=
  match n with
  | 0 => m
  | n + 1 =>
    match shellScript? content with
    | none => (m.say 2 (path ++ ": not found\n".toList)).withStatus 127
    | some (t, strict) =>
      let inner := runText n t
        { m with name := path, arguments := args, script := t, status := 0, strict, testing := false
                 bindings := m.bindings.filter fun v => m.exported.contains v.1 }
      let after := { inner.rejoin m with flow := m.flow }
      match inner.flow with
      | .left status =>
        after.withStatus (if status < 0 then (128 - status).toNat else (status % 256).toNat)
      | _ => after

/-- Runs a command by its fields. -/
def dispatch (n : Nat) (left : Nat) (name : Text) (args : List Text) (m : Machine) : Machine :=
  match n with
  | 0 => m
  | n + 1 =>
    let number (default : Nat) : Nat :=
      match args with
      | a :: _ => (Text.readNat? a).getD default
      | [] => default
    match String.ofList name with
    | "exit" =>
      match args with
      | a :: _ =>
        match Text.readNat? a with
        | some k => { m with flow := .left (k % 256 : Nat) }
        | none =>
          { m.complain left ("exit: Illegal number: ".toList ++ a) with flow := .left 2 }
      | [] => { m with flow := .left m.status }
    | "return" => { m with flow := .left (number m.status) }
    | "break" => { m.withStatus 0 with flow := .breaking (number 1) }
    | "continue" => { m.withStatus 0 with flow := .continuing (number 1) }
    | "shift" => { m.withStatus 0 with arguments := m.arguments.drop (number 1) }
    | "cd" =>
      let target := args.headD ((m.bindings.lookup "HOME".toList).getD [])
      match m.files.find m.cwd target with
      | .ok (p, .directory) => { m.withStatus 0 with cwd := p }
      | _ => (m.complain left ("cd: can't cd to ".toList ++ target)).withStatus 2
    | "set" =>
      match args with
      | ['-', 'e'] :: _ => { m.withStatus 0 with strict := true }
      | ['-', 'e', 'u'] :: _ => { m.withStatus 0 with strict := true }
      | ['+', 'e'] :: _ => { m.withStatus 0 with strict := false }
      | ['-', '-'] :: r => { m.withStatus 0 with arguments := r }
      | _ => m.withStatus 0
    | "export" =>
      args.foldl (fun m a =>
        match Text.cutFirst '=' a with
        | some (k, v) => { m.assign k v with exported := k :: m.exported }
        | none => { m with exported := a :: m.exported }) (m.withStatus 0)
    | "unset" =>
      { m.withStatus 0 with bindings := m.bindings.filter fun v => !args.contains v.1 }
    | "read" =>
      let names := args.filter fun a => a.head? != some '-'
      let line := m.input.takeWhile (· != 10)
      let rest := m.input.drop (line.length + 1)
      let words := (fieldsOf [.split (Utf8.readLenient line)]).map Pattern.text
      let m' := { m with input := rest }
      let m' := (List.range names.length).foldl (fun m k =>
        m.assign (names.getD k [])
          (if k + 1 = names.length then Text.join [' '] (words.drop k) else words.getD k [])) m'
      m'.withStatus (if m.input.isEmpty ∨ !(m.input.contains 10) then 1 else 0)
    | "eval" => runText n (Text.join [' '] args) (m.withStatus 0)
    | "exec" =>
      match args with
      | [] => m.withStatus 0
      | name :: args =>
        let m := dispatch n left name args m
        if m.flow = .on then { m with flow := .left m.status } else m
    | "command" =>
      match args with
      | ['-', 'v'] :: a :: _ =>
        match utility left a [] m with
        | some _ => m.withStatus 0
        | none =>
          match findProgram? m a with
          | some p => (m.say 1 (p ++ ['\n'])).withStatus 0
          | none => m.withStatus 127
      | name :: args => dispatch n left name args m
      | [] => m.withStatus 0
    | "kill" =>
      let signals : List (Text × Nat) :=
        [("HUP".toList, 1), ("INT".toList, 2), ("QUIT".toList, 3), ("ABRT".toList, 6),
         ("KILL".toList, 9), ("USR1".toList, 10), ("SEGV".toList, 11), ("USR2".toList, 12),
         ("PIPE".toList, 13), ("ALRM".toList, 14), ("TERM".toList, 15)]
      let signalOf (t : Text) : Option Nat :=
        if !t.isEmpty && t.all Char.isDigit then Text.readNat? t
        else signals.lookup (if Text.startsWith t "SIG" then t.drop 3 else t)
      let (signal, targets) : Option Nat × List Text := match args with
        | ['-', 's'] :: k :: r => (signalOf k, r)
        | ('-' :: k) :: r => (signalOf k, r)
        | r => (some 15, r)
      match signal with
      | some (k + 1) =>
        if targets.contains Machine.identity then { m with flow := .left (-(k + 1 : Nat)) }
        else m.withStatus 1
      | _ => m.withStatus (if signal.isSome then 0 else 2)
    | "sh" =>
      match args with
      | ['-', 'c'] :: t :: r =>
        let inner := runText n t
          { m with script := t, name := r.headD "sh".toList, arguments := r.drop 1 }
        inner.rejoin m
      | path :: r =>
        match m.files.read m.cwd path with
        | .ok content => runScript n ("#!/bin/sh\n".toUTF8.toList ++ content) path r m
        | .error _ =>
          (m.say 2 ("sh: 0: cannot open ".toList ++ path ++ ": No such file\n".toList)).withStatus 2
      | [] =>
        let t := Utf8.readLenient m.input
        (runText n t { m with script := t, input := [] }).rejoin m
    | _ =>
      match utility left name args m with
      | some m => m
      | none =>
        match findProgram? m name with
        | none => (m.complain left (name ++ ": not found".toList)).withStatus 127
        | some path =>
          match m.files.find m.cwd path with
          | .ok (_, .file content mode) =>
            if mode.executable then runScript n content path args m
            else (m.complain left (name ++ ": Permission denied".toList)).withStatus 126
          | .ok (_, .directory) =>
            (m.complain left (name ++ ": Permission denied".toList)).withStatus 126
          | .error _ => (m.complain left (name ++ ": not found".toList)).withStatus 127

/-- Runs a command. -/
def run (n : Nat) (c : Command) (m : Machine) : Machine :=
  match n, c with
  | 0, _ => m
  | n + 1, .simple left as ws ds =>
    let (fields, m) := expandWords n ws m
    if m.flow != .on then m
    else
      let (targets, m) := expandRedirects n ds m
      match Machine.openAll targets m with
      | .error what => stopIfStrict ((m.complain left what).withStatus 2)
      | .ok opened =>
        match fields with
        | [] =>
          let after := assignAll n as (opened.withStatus 0)
          after.closeTo m targets
        | name :: args =>
          let prepared := assignAll n as
            { opened with exported := as.map Prod.fst ++ opened.exported }
          let after := dispatch n left name args prepared
          let after := if as.isEmpty then after
            else { after with bindings := m.bindings, exported := m.exported }
          stopIfStrict (after.closeTo m targets)
  | n + 1, .pipe a b =>
    let first := run n a
      { m with output := [], streams := (1, .output) :: m.streams.filter (·.1 != 1) }
    let passed := first.output
    let m := { first.rejoin m with output := m.output, input := first.input }
    let second := run n b { m with input := passed }
    { second.rejoin m with input := m.input }
  | n + 1, .both a b =>
    let first := run n a { m with testing := true }
    let first := { first with testing := m.testing }
    if first.flow = .on ∧ first.status = 0 then run n b first else first
  | n + 1, .either a b =>
    let first := run n a { m with testing := true }
    let first := { first with testing := m.testing }
    if first.flow = .on ∧ first.status ≠ 0 then run n b first else first
  | n + 1, .negated a =>
    let after := run n a { m with testing := true }
    let after := { after with testing := m.testing }
    if after.flow = .on then after.withStatus (if after.status = 0 then 1 else 0) else after
  | n + 1, .group cs => runList n cs m
  | n + 1, .apart cs => stopIfStrict ((runList n cs m).rejoin m)
  | n + 1, .cond test yes no =>
    let tested := runList n test { m with testing := true }
    let tested := { tested with testing := m.testing }
    if tested.flow != .on then tested
    else if tested.status = 0 then runList n yes tested
    else runList n no (tested.withStatus 0)
  | n + 1, .loop until_ test body =>
    let tested := runList n test { m with testing := true }
    let tested := { tested with testing := m.testing }
    if tested.flow != .on then tested
    else if (tested.status = 0) = until_ then tested.withStatus 0
    else
      let after := runList n body tested
      match after.flow with
      | .on => run n (.loop until_ test body) after
      | .breaking k => { after with flow := if k ≤ 1 then .on else .breaking (k - 1) }
      | .continuing k =>
        if k ≤ 1 then run n (.loop until_ test body) { after with flow := .on }
        else { after with flow := .continuing (k - 1) }
      | .left _ => after
  | n + 1, .forEach name words body =>
    let (values, m) := match words with
      | some ws => expandWords n ws m
      | none => (m.arguments, m)
    runEach n name values body (m.withStatus 0)
  | n + 1, .choose subject arms =>
    let (t, m) := expandText n subject m
    runArms n t arms (m.withStatus 0)
  | n + 1, .redirected c ds =>
    let (targets, m) := expandRedirects n ds m
    match Machine.openAll targets m with
    | .error what => (m.complain 0 what).withStatus 2
    | .ok opened => (run n c opened).closeTo m targets

/-- Runs commands for one value after another. -/
def runEach (n : Nat) (name : Text) (values : List Text) (body : List Command) (m : Machine) :
    Machine :=
  match n, values with
  | 0, _ => m
  | _, [] => m
  | n + 1, v :: r =>
    let after := runList n body (m.assign name v)
    match after.flow with
    | .on => runEach n name r body after
    | .breaking k => { after with flow := if k ≤ 1 then .on else .breaking (k - 1) }
    | .continuing k =>
      if k ≤ 1 then runEach n name r body { after with flow := .on }
      else { after with flow := .continuing (k - 1) }
    | .left _ => after

/-- Runs the first arm with a pattern that fits. -/
def runArms (n : Nat) (t : Text) (arms : List (List Word × List Command)) (m : Machine) : Machine :=
  match n, arms with
  | 0, _ => m
  | _, [] => m
  | n + 1, (patterns, body) :: r =>
    let (fits, m) := anyFits n t patterns m
    if fits then runList n body m else runArms n t r m

/-- Whether any of several patterns fits. -/
def anyFits (n : Nat) (t : Text) (patterns : List Word) (m : Machine) : Bool × Machine :=
  match n, patterns with
  | 0, _ => (false, m)
  | _, [] => (false, m)
  | n + 1, p :: r =>
    let (as, m) := expand n p m
    if (patternOf as).isMatch t then (true, m) else anyFits n t r m

/-- Runs commands one after another. -/
def runList (n : Nat) (cs : List Command) (m : Machine) : Machine :=
  match n, cs with
  | 0, _ => m
  | _, [] => m
  | n + 1, c :: r =>
    let m := run n c m
    if m.flow = .on then runList n r m else m

/-- Reads and runs one command of a text after another. -/
def runText (n : Nat) (t : Text) (m : Machine) : Machine :=
  match n with
  | 0 => m
  | n + 1 =>
    match next t with
    | none =>
      { m.complain t.length "Syntax error".toList with flow := .left 2 }
    | some none => m
    | some (some (c, r)) =>
      let m := run n c m
      if m.flow = .on then runText n r m else m
end

end ContractCheck.Shell
