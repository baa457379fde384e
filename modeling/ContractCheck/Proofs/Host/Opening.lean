import ContractCheck.Proofs.FileSystem.Ways
import ContractCheck.Proofs.Host.Logged

/-! # Where opening a log makes directories

A log is opened when it is written to first, and then the directories above its file are made.  So
writing to a log changes its file and what lies on its way, and nothing else (`Log.write_within`).
-/
namespace ContractCheck

open ContractCheck.Action

variable {h h' : Host}

namespace Host

/-- The places on the way of a log that is still to be opened. -/
def OnLogWay (h : Host) (q : Place) : Prop :=
  ∃ settings path, h.log = .planned settings ∧ Log.fileFor? h settings = some (some path) ∧
    FileSystem.OnWay h.cwd (Path.Posix.parent path) q

/-- The places that writing to the log can change. -/
def LogArea (h : Host) (q : Place) : Prop := h.AtLog q ∨ h.OnLogWay q

end Host

namespace Log

/-- The outputs of a log are opened at its file and on its way. -/
theorem openOutputs_within {settings : LoggingSettings} (planned : h.log = .planned settings) :
    h.files.AlikeBut h.AtLog h.OnLogWay ((openOutputs settings).perform h).2.files := by
  unfold openOutputs
  rw [perform_bind_ok (perform_get h)]
  dsimp only
  split
  · exact .refl ..
  · exact .refl ..
  · next path named =>
    have made : h.files.AlikeBut h.AtLog h.OnLogWay
        (h.files.makeDirectories h.cwd (Path.Posix.parent path)).1 :=
      (FileSystem.makeDirectories_within h.AtLog h.files h.cwd _).mono (fun _ => id) fun q on =>
        ⟨settings, path, planned, named, on⟩
    have own : h.AtLog (FileSystem.placeOf h.cwd path) :=
      ⟨path, by simp [Host.logFiles, planned, named], rfl⟩
    rw [perform_orSystem, perform_bind, perform_makeDirectories]
    cases (h.files.makeDirectories h.cwd (Path.Posix.parent path)).2 with
    | some e =>
      dsimp only [andThen, orElse]
      split
      · exact made
      · exact made
    | none =>
      dsimp only [andThen]
      rw [perform_bind, perform_change]
      dsimp only
      split
      · next fs added => exact made.trans (FileSystem.update_alike added own)
      · dsimp only [andThen, orElse]
        split
        · exact made
        · exact made

/-- **Writing to the log changes its file and what lies on its way.** -/
theorem write_within {level : LogLevel} {owner message : Text} {context : Fields}
    (done : (write level owner message context).perform h = (.ok ⟨⟩, h')) :
    h.Logged h' ∧ ¬ h'.LogPlanned ∧ h.files.AlikeBut h.AtLog h.OnLogWay h'.files := by
  have logged : h.Logged h' := by
    rcases write_cases level owner message context h with
      ⟨h'', written, logged⟩ | ⟨e, h'', failed, -⟩
    · obtain rfl := (Prod.mk.inj (done.symm.trans written)).2
      exact logged
    · cases done.symm.trans failed
  refine ⟨logged, write_opens done, ?_⟩
  by_cases planned : h.LogPlanned
  · obtain ⟨settings, planned⟩ := planned
    unfold write at done
    obtain ⟨_, h₁, opened, recorded⟩ := ok_of_bind done
    obtain rfl := (Prod.mk.inj recorded).2
    have logged₁ : h.Logged h₁ := by
      rcases open_cases h with ⟨h₂, opened', logged₁⟩ | ⟨e, h₂, failed, -⟩
      · obtain rfl := (Prod.mk.inj (opened.symm.trans opened')).2
        exact logged₁
      · cases opened.symm.trans failed
    have first : h.files.AlikeBut h.AtLog h.OnLogWay h₁.files := by
      have within := openOutputs_within planned
      unfold open_ at opened
      rw [perform_bind_ok (perform_get h), planned] at opened
      obtain ⟨outputs, h₂, ran, set⟩ := ok_of_bind opened
      obtain rfl := (Prod.mk.inj set).2
      rw [ran] at within
      exact within
    have open₁ : ¬ h₁.LogPlanned := open_opens opened
    exact first.trans ((record_logged _ h₁).files.mono logged₁.atLog fun _ will =>
      absurd will open₁)
  · exact logged.files.mono (fun _ => id) fun _ will => absurd will planned

end Log
end ContractCheck
