import ContractCheck.Services
import ContractCheck.Lint.Registry
import ContractCheck.Settings.Load

/-! # What a run of the program shares

A container holds the logger and the presenter that all parts use, and the registry of linters.  It
is prepared once: with the settings that are given or those of the working directory, it gets a
presenter, a logger that is made when it is first used, and every linter that is found.
-/
namespace ContractCheck

/-- What a shared service does. -/
inductive Role where
  | logger
  | presenter
deriving DecidableEq

/-- Shared services and the registry of linters. -/
structure Container (Service Maker : Type) where
  services : Services Role Service Maker := {}
  linters : Registry := {}
  prepared : Bool := false

namespace Container

variable {Service Maker : Type}

/-- The container after linters were looked for, and the names that were registered. -/
def discover (c : Container Service Maker) (extensions : List LinterKind) :
    Container Service Maker × List Text :=
  let (linters, names) := c.linters.discover extensions
  ({ c with linters }, names)

/-- The container prepared for settings; one that is prepared already stays as it is. -/
def prepare (c : Container Service Maker) (given : Option Settings.Loaded) (presenter : Service)
    (logger : LoggingSettings → Maker) : Action (Container Service Maker) := do
  if c.prepared then pure c
  else
    let loaded ← match given with
      | some l => pure l
      | none => Settings.load none none
    let services := (c.services.put .presenter (.inl presenter)).put .logger
      (.inr (logger loaded.config.logging))
    let linters := (c.linters.discover []).1
    pure { services, linters, prepared := true }

/-- **A prepared container stays as it is.** -/
theorem prepare_of_prepared (c : Container Service Maker) (h : c.prepared = true)
    (given : Option Settings.Loaded) (presenter : Service) (logger : LoggingSettings → Maker) :
    c.prepare given presenter logger = pure c := by
  simp [prepare, h]

end Container
end ContractCheck
