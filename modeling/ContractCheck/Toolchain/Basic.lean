import ContractCheck.Toolchain.Component
import ContractCheck.Settings.Sections

/-! # The toolchain

The compiler, the linker and the standard library, with the versions that the settings ask for.  The
standard library has the compiler's version unless the settings say otherwise.
-/
namespace ContractCheck

/-- The components that a compilation needs, and the versions asked for; an empty one means any. -/
structure Toolchain where
  compiler : Component
  linker : Component
  stdlib : Component
  compilerVersion : Text
  linkerVersion : Text
  stdlibVersion : Text

namespace Toolchain

/-- The directory that all components are installed in, below their home. -/
def family : Text := "solidity".toList

/-- The name of the compiler. -/
def compilerName : Text := "solc".toList

/-- The name of the linker. -/
def linkerName : Text := "tvm_linker".toList

/-- The name of the standard library. -/
def stdlibName : Text := "stdlib_sol".toList

/-- The toolchain of a home directory. -/
def at_ (home : Text) (s : ToolchainSettings) : Toolchain :=
  { compiler := { family, name := compilerName, executable := true, home, source := s.sourceUrl }
    linker := { family, name := linkerName, executable := true, mark := .leading, home
                source := s.sourceUrl }
    stdlib := { family, name := stdlibName, fileName := some (stdlibName ++ ".tvm".toList), home
                source := s.sourceUrl, partOf := some compilerName }
    compilerVersion := s.compilerVersion
    linkerVersion := s.linkerVersion
    stdlibVersion := if s.stdlibVersion.isEmpty then s.compilerVersion else s.stdlibVersion }

/-- The toolchain that settings ask for. -/
def ofSettings (s : ToolchainSettings) : Action Toolchain := do
  let h ← get
  match s.home with
  | some (c :: cs) =>
    match h.expandHome? (c :: cs) with
    | some home => pure (at_ home s)
    | none => throw .noHome
  | _ => pure (at_ (Component.defaultHome h) s)

variable (t : Toolchain)

/-- The components, each with the version asked for, in the order in which they are installed. -/
def wanted : List (Component × Text) :=
  [(t.compiler, t.compilerVersion), (t.linker, t.linkerVersion), (t.stdlib, t.stdlibVersion)]

/-- The versions asked for, by component. -/
def versions : Fields := t.wanted.map fun w => (w.1.name, .text w.2)

/-- Installs components one after another. -/
def ensureEach (terminal : Terminal) : List (Component × Text) → Action Unit
  | [] => pure ()
  | (c, version) :: rest => do
    let _ ← c.ensure terminal version
    ensureEach terminal rest

/-- Installs every component that is missing. -/
def ensure (terminal : Terminal) : Action Unit := ensureEach terminal t.wanted

end Toolchain
end ContractCheck
