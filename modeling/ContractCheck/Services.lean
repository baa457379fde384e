/-! # Shared services

Services that many parts share are registered under what they are.  A registration gives the service
itself or a way to make it, which is used once, when the service is first asked for.
-/
namespace ContractCheck

/-- The services by what they are: each one itself, or how it is made. -/
structure Services (Kind Service Maker : Type) where
  entries : List (Kind × (Service ⊕ Maker)) := []

namespace Services

variable {Kind Service Maker : Type} [DecidableEq Kind]

/-- What is registered for a kind. -/
def held? (s : Services Kind Service Maker) (k : Kind) : Option (Service ⊕ Maker) :=
  s.entries.lookup k

/-- The services with a registration, in place of an earlier one. -/
def put (s : Services Kind Service Maker) (k : Kind) (e : Service ⊕ Maker) :
    Services Kind Service Maker :=
  { entries := (k, e) :: s.entries.filter fun x => x.1 != k }

/-- The services with a service or a way to make one; the service counts if both are given, and
without either there is no registration. -/
def register? (s : Services Kind Service Maker) (k : Kind) (service : Option Service)
    (maker : Option Maker) : Option (Services Kind Service Maker) :=
  match service, maker with
  | some x, _ => some (s.put k (.inl x))
  | none, some m => some (s.put k (.inr m))
  | none, none => none

/-- The service of a kind, made if it was not yet, and the services that hold it from then on. -/
def resolve {M : Type → Type} [Monad M] (s : Services Kind Service Maker) (make : Maker → M Service)
    (k : Kind) : M (Option Service × Services Kind Service Maker) :=
  match s.held? k with
  | none => pure (none, s)
  | some (.inl x) => pure (some x, s)
  | some (.inr m) => do
    let x ← make m
    pure (some x, s.put k (.inl x))

/-- The service of a kind, or a default one that is not kept. -/
def resolveOr {M : Type → Type} [Monad M] (s : Services Kind Service Maker)
    (make : Maker → M Service) (default : M Service) (k : Kind) :
    M (Service × Services Kind Service Maker) := do
  match ← s.resolve make k with
  | (some x, s) => pure (x, s)
  | (none, s) => do
    let x ← default
    pure (x, s)

/-- The service as one owner uses it: the one that the owner holds, or else the registered one or a
default one, made to fit the owner. -/
def useIn {M : Type → Type} [Monad M] (s : Services Kind Service Maker) (make : Maker → M Service)
    (default : M Service) (fit : Service → Service) (k : Kind) (owned : Option Service) :
    M (Service × Services Kind Service Maker) := do
  match owned with
  | some x => pure (x, s)
  | none => do
    let (x, s) ← s.resolveOr make default k
    pure (fit x, s)

theorem held?_put_self (s : Services Kind Service Maker) (k : Kind) (e : Service ⊕ Maker) :
    (s.put k e).held? k = some e := by
  simp [held?, put]

/-- **A service is made once:** when it was found, it is found again without being made. -/
theorem resolve_again (s s' : Services Kind Service Maker) (make make' : Maker → Id Service)
    (k : Kind) (x : Service) (h : s.resolve make k = (some x, s')) :
    s'.resolve make' k = (some x, s') := by
  unfold resolve at h
  cases he : s.held? k with
  | none => rw [he] at h; cases h
  | some e =>
    rw [he] at h
    cases e with
    | inl y => cases h; simp [resolve, he]; rfl
    | inr m => cases h; simp [resolve, held?_put_self]; rfl

end Services
end ContractCheck
