import ContractCheck.Proofs.FileSystem.Standing
import ContractCheck.Proofs.FileSystem.Contents
import ContractCheck.Proofs.Host.Performing
import ContractCheck.Proofs.Path.Names
import ContractCheck.Settings.Load

/-! # Looking for the configuration file

The search looks at configuration files and at project files on the way up, and may log what it
finds.  Whether a configuration file holds one thing or another makes no difference to it
(`find_agrees`).  So once settings have been written, the file that they were written to is the one
that is found.
-/
namespace ContractCheck

namespace FileSystem

variable {fs fs' : FileSystem} {cwd : Place} {path : Text} {P : Place → Prop}

/-- Whether file systems differ at most in the bytes of files at some places. -/
structure SameBut (P : Place → Prop) (fs fs' : FileSystem) : Prop where
  apart : ∀ q, ¬ P q → fs'.get? q = fs.get? q
  file : ∀ q, P q → ∃ content x content' x', fs.get? q = some (.file content x) ∧
    fs'.get? q = some (.file content' x')

theorem SameBut.refl (fs : FileSystem) : SameBut (fun _ => False) fs fs := ⟨fun _ _ => rfl, nofun⟩

theorem SameBut.walk (same : SameBut P fs fs') (dir : Place) (names : List Text) :
    fs'.walk dir names = fs.walk dir names := by
  induction names generalizing dir with
  | nil => rfl
  | cons name rest ih =>
    by_cases inside : P dir
    · obtain ⟨content, x, content', x', there, there'⟩ := same.file dir inside
      rw [FileSystem.walk, FileSystem.walk, there, there']
    · rw [FileSystem.walk, FileSystem.walk, same.apart dir inside]
      simp only [ih]

theorem SameBut.resolve (same : SameBut P fs fs') : fs'.resolve cwd path = fs.resolve cwd path := by
  unfold FileSystem.resolve
  rw [same.walk]

/-- A path leads to the same entry, or to a file here and there. -/
theorem SameBut.find (same : SameBut P fs fs') (cwd : Place) (path : Text) :
    fs'.find cwd path = fs.find cwd path ∨
    P (placeOf cwd path) ∧ ∃ p content x content' x', fs.find cwd path = .ok (p, .file content x) ∧
      fs'.find cwd path = .ok (p, .file content' x') := by
  unfold FileSystem.find
  rw [same.resolve]
  cases led : fs.resolve cwd path with
  | error e => exact .inl rfl
  | ok p =>
    dsimp only [bind, Except.bind]
    by_cases inside : P p
    · obtain ⟨content, x, content', x', there, there'⟩ := same.file p inside
      rw [there, there']
      exact .inr ⟨resolve_place led ▸ inside, p, content, x, content', x', rfl, rfl⟩
    · rw [same.apart p inside]
      exact .inl rfl

theorem SameBut.read (same : SameBut P fs fs') (apart : ¬ P (placeOf cwd path)) :
    fs'.read cwd path = fs.read cwd path := by
  unfold FileSystem.read
  rw [(same.find cwd path).resolve_right fun other => apart other.1]

end FileSystem

namespace Host

/-- Whether the log is kept in no file. -/
def Unfiled (h : Host) : Prop :=
  match h.log with
  | .planned _ => False
  | .opened outputs => outputs.file = none
  | _ => True

/-- A host after something that only looks at files, and logs. -/
structure Calm (h h' : Host) : Prop where
  files : h'.files = h.files
  cwd : h'.cwd = h.cwd
  environment : h'.environment = h.environment
  locale : h'.locale = h.locale
  unfiled : h'.Unfiled

variable {h h' h'' : Host}

theorem Calm.refl (unfiled : h.Unfiled) : h.Calm h := ⟨rfl, rfl, rfl, rfl, unfiled⟩

theorem Calm.trans (first : h.Calm h') (second : h'.Calm h'') : h.Calm h'' :=
  ⟨second.files.trans first.files, second.cwd.trans first.cwd,
    second.environment.trans first.environment, second.locale.trans first.locale, second.unfiled⟩

theorem Calm.directory (calm : h.Calm h') : h'.directory = h.directory := by
  rw [Host.directory, Host.directory, calm.cwd]

/-- Two hosts whose files differ at most in the bytes of some. -/
structure Twins (P : Place → Prop) (cwd : Place) (h g : Host) : Prop where
  left : h.Unfiled
  right : g.Unfiled
  leftCwd : h.cwd = cwd
  rightCwd : g.cwd = cwd
  files : h.files.SameBut P g.files

theorem Twins.calm {P : Place → Prop} {cwd : Place} {g g' : Host} (twins : Twins P cwd h g)
    (calm : h.Calm h')
    (calm' : g.Calm g') : Twins P cwd h' g' :=
  ⟨calm.unfiled, calm'.unfiled, calm.cwd.trans twins.leftCwd, calm'.cwd.trans twins.rightCwd,
    calm.files.symm ▸ calm'.files.symm ▸ twins.files⟩

end Host

namespace Log

variable {h : Host}

theorem record_calm (r : Record) (unfiled : h.Unfiled) : h.Calm (record r h) := by
  rcases record_cases r h with same | ⟨_, -, kept⟩ | ⟨outputs, opened, written⟩
  · rw [same]
    exact .refl unfiled
  · exact kept ▸ ⟨rfl, rfl, rfl, rfl, trivial⟩
  · have none : outputs.file = none := by
      rw [Host.Unfiled, opened] at unfiled
      exact unfiled
    rw [written]
    obtain ⟨h', shows, same | ⟨path, _, file, -⟩⟩ := writeTo_cases outputs r h
    · rw [same]
      rcases shows with rfl | rfl
      · exact .refl unfiled
      · exact ⟨rfl, rfl, rfl, rfl, unfiled⟩
    · cases none.symm.trans file

/-- A log that is kept in no file changes none. -/
theorem write_calm (level : LogLevel) (owner message : Text) (context : Fields)
    (unfiled : h.Unfiled) :
    ∃ h', (write level owner message context).perform h = (.ok ⟨⟩, h') ∧ h.Calm h' := by
  have ready (settings : LoggingSettings) : h.log ≠ .planned settings := fun planned => by
    rw [Host.Unfiled, planned] at unfiled
    exact unfiled
  unfold write
  rw [Action.perform_bind_ok (perform_open ready)]
  exact ⟨_, rfl, record_calm _ unfiled⟩

end Log

namespace Action

variable {α β : Type} {P : Place → Prop} {cwd : Place}

/-- An activity that only looks at files and logs, and sees no difference between two hosts. -/
def Agrees (P : Place → Prop) (cwd : Place) (act : Action α) : Prop :=
  ∀ h g : Host, h.Twins P cwd g → (act.perform g).1 = (act.perform h).1 ∧ h.Calm (act.perform h).2 ∧
    g.Calm (act.perform g).2

namespace Agrees

variable {act : Action α}

theorem pure (a : α) : Agrees P cwd (Pure.pure a : Action α) := fun _ _ twins =>
  ⟨rfl, .refl twins.left, .refl twins.right⟩

theorem throw (e : Fault) : Agrees P cwd (MonadExcept.throw e : Action α) := fun _ _ twins =>
  ⟨rfl, .refl twins.left, .refl twins.right⟩

theorem bind {f : α → Action β} (first : Agrees P cwd act) (rest : ∀ a, Agrees P cwd (f a)) :
    Agrees P cwd (act >>= f) := by
  intro h g twins
  obtain ⟨same, calm, calm'⟩ := first h g twins
  rw [perform_bind, perform_bind]
  rcases performed : act.perform h with ⟨outcome, h₁⟩
  rcases performed' : act.perform g with ⟨outcome', g₁⟩
  rw [performed] at same calm
  rw [performed'] at same calm'
  obtain rfl : outcome' = outcome := same
  cases outcome' with
  | error e => exact ⟨rfl, calm, calm'⟩
  | ok a =>
    obtain ⟨same', calm₁, calm₁'⟩ := rest a h₁ g₁ (twins.calm calm calm')
    exact ⟨same', calm.trans calm₁, calm'.trans calm₁'⟩

theorem orSystem {handle : Fault → Action α} (first : Agrees P cwd act)
    (rest : ∀ e, Agrees P cwd (handle e)) :
    Agrees P cwd (Action.orSystem act handle) := by
  intro h g twins
  obtain ⟨same, calm, calm'⟩ := first h g twins
  rw [perform_orSystem, perform_orSystem]
  rcases performed : act.perform h with ⟨outcome, h₁⟩
  rcases performed' : act.perform g with ⟨outcome', g₁⟩
  rw [performed] at same calm
  rw [performed'] at same calm'
  obtain rfl : outcome' = outcome := same
  cases outcome' with
  | ok a => exact ⟨rfl, calm, calm'⟩
  | error e =>
    have handled : Agrees P cwd (if e.fromSystem then handle e else MonadExcept.throw e) := by
      split
      · exact rest e
      · exact throw e
    obtain ⟨same', calm₁, calm₁'⟩ := handled h₁ g₁ (twins.calm calm calm')
    exact ⟨same', calm.trans calm₁, calm'.trans calm₁'⟩

theorem write (level : LogLevel) (owner message : Text) (context : Fields) :
    Agrees P cwd (Log.write level owner message context) := by
  intro h g twins
  obtain ⟨h₁, performed, calm⟩ := Log.write_calm level owner message context twins.left
  obtain ⟨g₁, performed', calm'⟩ := Log.write_calm level owner message context twins.right
  rw [performed, performed']
  exact ⟨rfl, calm, calm'⟩

theorem readFile {path : Text} (apart : ¬ P (FileSystem.placeOf cwd path)) :
    Agrees P cwd (Action.readFile path) := by
  intro h g twins
  unfold Action.readFile
  rw [perform_ask, perform_ask, twins.leftCwd, twins.rightCwd, twins.files.read apart]
  exact ⟨rfl, .refl twins.left, .refl twins.right⟩

end Agrees
end Action

namespace Settings

open ContractCheck.Action (Agrees)
open FileSystem (placeOf)

variable {P : Place → Prop} {cwd : Place} {path : Text}

theorem isThere_agrees (path : Text) : Agrees P cwd (isThere path) := by
  intro h g twins
  unfold isThere
  rw [Action.perform_bind_ok (Action.perform_get h), Action.perform_bind_ok (Action.perform_get g),
    twins.leftCwd,
    twins.rightCwd]
  rcases twins.files.find cwd path with same | ⟨-, p, content, x, content', x', found, found'⟩
  · rw [same]
    split
    · exact ⟨rfl, .refl twins.left, .refl twins.right⟩
    · split
      · exact ⟨rfl, .refl twins.left, .refl twins.right⟩
      · exact ⟨rfl, .refl twins.left, .refl twins.right⟩
  · rw [found, found']
    exact ⟨rfl, .refl twins.left, .refl twins.right⟩

theorem readToml_agrees (apart : ¬ P (placeOf cwd path)) : Agrees P cwd (readToml path) := by
  refine (Agrees.readFile apart).bind fun bytes => ?_
  split
  · exact .pure _
  · exact .pure _
  · exact .throw _
  · exact .throw _

theorem hasConfiguration_agrees (fs : Fields) : Agrees P cwd (hasConfiguration fs) := by
  unfold hasConfiguration
  split
  · exact .pure _
  · split
    · exact .pure _
    · exact .throw _

theorem isConfiguration_agrees (apart : ¬ P (placeOf cwd path)) :
    Agrees P cwd (isConfiguration path) := by
  refine (isThere_agrees path).bind fun there => ?_
  split
  · refine .orSystem ((readToml_agrees apart).bind fun fields => ?_) fun e => ?_
    · split
      · exact hasConfiguration_agrees _
      · exact (Agrees.write _ _ _ _).bind fun _ => .pure _
    · exact (Agrees.write _ _ _ _).bind fun _ => .pure _
  · exact .pure _

/-- A search sees no difference in files that are no project files. -/
theorem findIn_agrees {directories : List Text}
    (apart : ∀ directory ∈ directories,
      ¬ P (placeOf cwd (Path.Posix.child directory projectFileName))) :
    Agrees P cwd (findIn directories) := by
  induction directories with
  | nil => exact .pure none
  | cons directory rest ih =>
    obtain ⟨first, others⟩ := List.forall_mem_cons.mp apart
    refine (isThere_agrees _).bind fun there => ?_
    split
    · exact .pure _
    · refine (isConfiguration_agrees first).bind fun configured => ?_
      split
      · exact .pure _
      · exact ih others

theorem readLayer_agrees (apart : ¬ P (placeOf cwd path)) : Agrees P cwd (readLayer path) := by
  refine .orSystem ((readToml_agrees apart).bind fun fields => ?_) fun e =>
    (Agrees.write _ _ _ _).bind fun _ => .pure _
  split
  · exact (Agrees.write _ _ _ _).bind fun _ => .pure _
  · have part : ∀ fs, Agrees P cwd (configurationPart path fs) := by
      intro fs
      unfold configurationPart
      split
      · split
        · exact .pure _
        · exact .throw _
      · exact .pure _
    refine (part _).bind fun value => ?_
    split
    · exact .pure _
    · exact .throw _

end Settings
end ContractCheck
