import ContractCheck.FileSystem.Basic

/-! # Trees of files

A file system is built entry by entry: `plant` puts an entry at a place and makes the directories
above it.  Two file systems are compared below a place: `changes` lists every entry that is new,
other than before, or gone.
-/
namespace ContractCheck.FileSystem

/-- The file system with a directory at a place where none stands. -/
def clear (fs : FileSystem) (p : Place) : FileSystem :=
  if fs.get? p = some .directory then fs else fs.set p .directory

/-- The file system with an entry at a place and directories above it.  A directory that is there
keeps its entries. -/
def plant (fs : FileSystem) (p : Place) (n : Node) : FileSystem :=
  let fs := ((List.range p.length).map p.take).foldl clear fs
  if n = .directory then fs.clear p else fs.set p n

/-- The entries below a place, by the names that lead to them from there. -/
def below (fs : FileSystem) (p : Place) : List (Place × Node) :=
  (fs.entries.filter fun e => p.isPrefixOf e.1 && e.1 != p).map fun e => (e.1.drop p.length, e.2)

/-- What changed below a place: new and other entries, and after them those that are gone. -/
def changes (old new : FileSystem) (p : Place) : List (Place × Option Node) :=
  let before := old.below p
  let after := new.below p
  ((after.filter fun e => before.lookup e.1 ≠ some e.2).map fun e => (e.1, some e.2)) ++
    ((before.filter fun e => (after.lookup e.1).isNone).map fun e => (e.1, none))

end ContractCheck.FileSystem
