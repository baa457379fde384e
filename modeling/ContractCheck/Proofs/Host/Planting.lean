import ContractCheck.Proofs.FileSystem.Rewriting
import ContractCheck.Proofs.Host.Onward
import ContractCheck.Proofs.Host.Touching

/-! # Hosts whose files are a tree

The files of a host are a tree, and its working directory stands in it (`Host.Planted`).  That stays
so when files change, when directories are made, and when a record is written to the log, which does
both (`Log.write_noted`).  What an activity does that only writes to the log is known even if the
log may not be ready: the log is all that changes, or the activity fails (`Action.Notes`).
-/
namespace ContractCheck

open ContractCheck.Action
open FileSystem (Rewrites placeOf)

variable {h h' h'' : Host} {σ : List Place}

namespace Host

/-- A host whose files are a tree in which its working directory stands. -/
structure Planted (h : Host) : Prop where
  tree : h.files.IsTree
  stands : h.files.get? h.cwd = some .directory

theorem Planted.rewrites (planted : h.Planted) {fs : FileSystem}
    (rewrites : Rewrites σ h.files fs) :
    { h with files := fs }.Planted :=
  ⟨planted.tree.rewrites rewrites, rewrites.directory planted.stands⟩

theorem Planted.makeDirectories (planted : h.Planted) (path : Text) :
    { h with files := (h.files.makeDirectories h.cwd path).1 }.Planted where
  tree := planted.tree.makeDirectories (FileSystem.startOf_directory planted.stands path)
  stands := (FileSystem.makeDirectories_grows h.files h.cwd path).directory _ planted.stands

/-- A host after a record was written to its log. -/
structure Noted (h h' : Host) : Prop where
  touches : h.Touches (fun _ => False) (fun _ => False) h'
  planted : h.Planted → h'.Planted

namespace Noted

theorem refl (h : Host) : h.Noted h := ⟨.refl .., id⟩

theorem trans (first : h.Noted h') (second : h'.Noted h'') : h.Noted h'' :=
  ⟨first.touches.trans second.touches, second.planted ∘ first.planted⟩

/-- Nothing is lost. -/
theorem grows (noted : h.Noted h') : h.files.Grows h'.files where
  directory q stands := by
    rcases noted.touches.entry q not_false with same | ⟨-, free, -⟩ | ⟨-, none, -⟩
    · rw [same, stands]
    · exact absurd stands free
    · cases none.symm.trans stands
  entry q there := by
    rcases noted.touches.entry q not_false with same | ⟨-, -, content, x, file⟩ | ⟨-, -, directory⟩
    · rwa [same]
    · rw [file]
      rfl
    · rw [directory]
      rfl

/-- What lies apart from the log is as it was. -/
theorem same (noted : h.Noted h') {q : Place} (aside : ¬ h.LogArea q) :
    h'.files.get? q = h.files.get? q := by
  rcases noted.touches.entry q not_false with same | ⟨inside, -⟩ | ⟨way | nowhere, -⟩
  · exact same
  · exact absurd (.inl inside) aside
  · exact absurd (.inr way) aside
  · exact nowhere.elim

end Noted

end Host

/-! ## Activities that only write to the log -/

/-- An activity that does no more than write to the log, or fails with a fault that is not the
system's, as it does if the log cannot be opened. -/
def Action.Notes {α : Type} (act : Action α) : Prop :=
  ∀ h : Host, h.Noted (act.perform h).2 ∨ ∃ e, (act.perform h).1 = .error e ∧ e.fromSystem = false

namespace Action.Notes

variable {α β : Type} {act : Action α}

/-- An activity that lets every host be. -/
theorem of_still (still : Within Eq act) : act.Notes := by
  intro h
  rw [← still h]
  exact .inl (.refl h)

theorem pure (a : α) : Notes (Pure.pure a : Action α) := fun h => .inl (.refl h)

theorem throw (e : Fault) : Notes (MonadExcept.throw e : Action α) := fun h => .inl (.refl h)

theorem after {a : α} (notes : act.Notes) (done : act.perform h = (.ok a, h')) : h.Noted h' := by
  rcases notes h with noted | ⟨e, failed, -⟩
  · rwa [done] at noted
  · rw [done] at failed
    cases failed

theorem bind {f : α → Action β} (first : act.Notes) (rest : ∀ a, (f a).Notes) :
    (act >>= f).Notes := by
  intro h
  rw [perform_bind]
  cases performed : act.perform h with
  | mk outcome h' =>
    cases outcome with
    | ok a => exact (rest a h').imp_left (first.after performed).trans
    | error e =>
      rcases first h with noted | ⟨e', failed, foreign⟩
      · rw [performed] at noted
        exact .inl noted
      · rw [performed] at failed
        obtain rfl := Except.error.inj failed
        exact .inr ⟨e, rfl, foreign⟩

/-- A fault that is not the system's is not handled. -/
theorem orSystem {handle : Fault → Action α} (first : act.Notes) (caught : ∀ e, (handle e).Notes) :
    (orSystem act handle).Notes := by
  intro h
  have here := first h
  rw [perform_orSystem]
  cases performed : act.perform h with
  | mk outcome h' =>
    rw [performed] at here
    cases outcome with
    | ok a => exact here
    | error e =>
      dsimp only [orElse]
      split
      · next system =>
        rcases here with noted | ⟨_, ⟨⟩, foreign⟩
        · exact (caught e h').imp_left noted.trans
        · cases system.symm.trans foreign
      · exact here

end Action.Notes

namespace Log

/-- Opening the log keeps the files a tree. -/
theorem openOutputs_planted (planted : h.Planted) (settings : LoggingSettings) :
    ((openOutputs settings).perform h).2.Planted := by
  unfold openOutputs
  rw [perform_bind_ok (perform_get h)]
  dsimp only
  split
  · exact planted
  · exact planted
  · next path _ =>
    have made := planted.makeDirectories (Path.Posix.parent path)
    rw [perform_orSystem, perform_bind, perform_makeDirectories]
    cases (h.files.makeDirectories h.cwd (Path.Posix.parent path)).2 with
    | some e =>
      dsimp only [andThen, orElse]
      split <;> exact ⟨made.tree, made.stands⟩
    | none =>
      dsimp only [andThen]
      rw [perform_bind, perform_change]
      dsimp only
      split
      · next fs added =>
          exact made.rewrites (FileSystem.update_rewrites made.tree made.stands added)
      · dsimp only [andThen, orElse]
        split <;> exact ⟨made.tree, made.stands⟩

theorem open_planted (planted : h.Planted) : (open_.perform h).2.Planted := by
  unfold open_
  rw [perform_bind_ok (perform_get h)]
  split
  · next settings _ =>
    have opened := openOutputs_planted planted settings
    rw [perform_bind]
    cases performed : (openOutputs settings).perform h with
    | mk outcome h' =>
      rw [performed] at opened
      cases outcome with
      | error e => exact opened
      | ok outputs => exact ⟨opened.tree, opened.stands⟩
  · exact planted

/-- Writing a record keeps the files a tree. -/
theorem record_planted (planted : h.Planted) (r : Record) : (record r h).Planted := by
  rcases record_cases r h with same | ⟨_, -, kept⟩ | ⟨outputs, -, written⟩
  · rw [same]
    exact planted
  · exact kept ▸ ⟨planted.tree, planted.stands⟩
  · rw [written]
    obtain ⟨h', shows, ends⟩ := writeTo_cases outputs r h
    have shown : h'.Planted := by
      rcases shows with rfl | rfl
      · exact planted
      · exact ⟨planted.tree, planted.stands⟩
    rcases ends with same | ⟨path, fs, -, added, filed⟩
    · exact same ▸ shown
    · exact filed ▸ shown.rewrites (FileSystem.update_rewrites shown.tree shown.stands added)

/-- All that writing a record changes is the log. -/
theorem noted_of_written {level : LogLevel} {owner message : Text} {context : Fields}
    (done : (write level owner message context).perform h = (.ok ⟨⟩, h')) : h.Noted h' := by
  refine ⟨.of_written done, fun planned => ?_⟩
  have opened := open_planted planned
  unfold write at done
  obtain ⟨_, h₁, opening, recorded⟩ := ok_of_bind done
  rw [opening] at opened
  obtain rfl := (Prod.mk.inj recorded).2
  exact record_planted opened _

/-- **A record is written to the log, and all that this changes is the log.** -/
theorem write_noted (level : LogLevel) (owner message : Text) (context : Fields)
    (ready : h.LogReady) :
    ∃ h', (write level owner message context).perform h = (.ok ⟨⟩, h') ∧ h.Noted h' := by
  obtain ⟨h', performed, -⟩ := write_logs level owner message context h ready
  exact ⟨h', performed, noted_of_written performed⟩

theorem write_notes (level : LogLevel) (owner message : Text) (context : Fields) :
    (write level owner message context).Notes := by
  intro h
  rcases write_cases level owner message context h with
    ⟨h', performed, -⟩ | ⟨e, h', failed, foreign⟩
  · rw [performed]
    exact .inl (noted_of_written performed)
  · rw [failed]
    exact .inr ⟨e, rfl, foreign⟩

/-- A fault of the system is told to the log, and a value stands for what was not done. -/
theorem orSystem_warned {α : Type} {act : Action α} {e : Fault}
    (failed : act.perform h = (.error e, h')) (system : e.fromSystem = true)
    (ready : h'.LogReady) (owner : String) (message : Fault → Text) (a : α) :
    ∃ h'', (orSystem act fun e => do
      warning owner (message e)
      pure a).perform h = (.ok a, h'') ∧ h'.Noted h'' := by
  obtain ⟨h'', told, noted⟩ := write_noted .warning owner.toList (message e) [] ready
  exact ⟨h'', (perform_orSystem_handled failed system).trans ((perform_bind_ok told).trans rfl),
    noted⟩

end Log
end ContractCheck
