import ContractCheck.Proofs.FileSystem.Alike

/-! # Files that are moved and removed

When a file is given another name, what stood under the old name stands under the new one, nothing
is left, and nothing else changes (`get?_relocate_apart`).  The file system moves what can be found,
unless something of another kind is in the way or a directory is denied (`rename_done`,
`move_done`).
-/
namespace ContractCheck

/-- Whether an entry can take a place: nothing stands there, or both are files. -/
def Node.CanReplace (n : Node) : Option Node → Prop
  | none => True
  | some (.file ..) => ∃ content x, n = .file content x
  | some .directory => False

/-- A file takes the place of anything but a directory. -/
theorem Node.canReplace_file {content : Bytes} {x : Mode} {n : Option Node}
    (free : n ≠ some .directory) :
    (Node.file content x).CanReplace n := by
  match n with
  | none => trivial
  | some (.file ..) => exact ⟨content, x, rfl⟩
  | some .directory => exact absurd rfl free

/-- Whether what stands at a place can be written over: it is a file that may be written. -/
def Node.writable : Node → Bool
  | .directory => false
  | .file _ mode => mode.writable

/-- A file with other bytes, or a new one. -/
def Node.rewritten (content : Bytes) : Option Node → Node
  | some (.file _ x) => .file content x
  | _ => .file content .plain

namespace FileSystem

variable {fs : FileSystem} {cwd p q : Place} {source target : Text} {n : Node}

/-! ## Where things are after a move -/

/-- What was moved stands at the target. -/
theorem get?_relocate_target (below : p ≠ []) (below' : q ≠ []) :
    (fs.relocate p q).get? q = fs.get? p := by
  have kept : (fs.entries.filter fun e => !p.isPrefixOf e.1 && !q.isPrefixOf e.1).lookup
      q = none := by
    have itself : q.isPrefixOf q = true := List.isPrefixOf_iff_prefix.mpr List.prefix_rfl
    rw [lookup_filter (fun k => !p.isPrefixOf k && !q.isPrefixOf k), itself]
    simp
  have carried := lookup_carried fs.entries p q []
  rw [List.append_nil, List.append_nil] at carried
  simp only [get?, entryAt, relocate, below, below', if_false, List.lookup_append, kept,
    Option.none_or]
  exact carried

/-- Nothing is left at the source. -/
theorem get?_relocate_source (below : p ≠ []) (apart : ¬ q <+: p) :
    (fs.relocate p q).get? p = none := by
  have kept : (fs.entries.filter fun e => !p.isPrefixOf e.1 && !q.isPrefixOf e.1).lookup
      p = none := by
    have itself : p.isPrefixOf p = true := List.isPrefixOf_iff_prefix.mpr List.prefix_rfl
    rw [lookup_filter (fun k => !p.isPrefixOf k && !q.isPrefixOf k), itself]
    simp
  have carried : ∀ es : List (Place × Node),
      (es.map fun e => (moved p q e.1, e.2)).lookup p = none := by
    intro es
    induction es with
    | nil => rfl
    | cons e es ih =>
      have other : (p == moved p q e.1) = false := by
        refine beq_eq_false_iff_ne.mpr fun same => apart ?_
        rw [same]
        exact List.prefix_append _ _
      rw [List.map_cons, List.lookup_cons, other]
      exact ih
  simp only [get?, entryAt, relocate, below, if_false, List.lookup_append, kept, Option.none_or]
  exact carried _

/-! ## Moving -/

/-- **What is found is given another name**, if nothing of another kind has it. -/
theorem rename_done (led : fs.resolve cwd source = .ok p) (there : fs.get? p = some n)
    (led' : fs.resolve cwd target = .ok q) (other : p ≠ q) (apart : ¬ p <+: q)
    (still : p ∉ fs.denied) (allowed : p.dropLast ∉ fs.denied) (allowed' : q.dropLast ∉ fs.denied)
    (free : n.CanReplace (fs.get? q)) :
    fs.rename cwd source target = .ok (fs.relocate p q) := by
  have found : fs.find cwd source = .ok (p, n) := find_iff.mpr ⟨led, there⟩
  have open_ : (fs.denied.contains p.dropLast || fs.denied.contains q.dropLast) = false := by
    rw [Bool.or_eq_false_iff]
    exact ⟨Bool.eq_false_iff.mpr fun mem => allowed (List.contains_iff_mem.mp mem),
      Bool.eq_false_iff.mpr fun mem => allowed' (List.contains_iff_mem.mp mem)⟩
  rw [rename, found, led']
  dsimp only [bind, Except.bind]
  rw [if_neg other, if_neg fun within => apart (List.isPrefixOf_iff_prefix.mp within), open_,
    if_neg Bool.false_ne_true]
  cases occupant : fs.get? q with
  | none =>
    cases n with
    | file content x => rfl
    | directory =>
      have moves : (fs.denied.contains p && p.dropLast != q.dropLast) = false := by
        rw [Bool.eq_false_iff.mpr fun mem => still (List.contains_iff_mem.mp mem), Bool.false_and]
      dsimp only
      rw [moves]
      rfl
  | some n' =>
    rw [occupant] at free
    cases n' with
    | directory => exact free.elim
    | file content x =>
      obtain ⟨content', x', rfl⟩ := free
      rfl

/-- A file that is given its own name stays. -/
theorem rename_same (led : fs.resolve cwd source = .ok p) (there : fs.get? p = some n)
    (led' : fs.resolve cwd target = .ok p) :
    fs.rename cwd source target = .ok fs := by
  have found : fs.find cwd source = .ok (p, n) := find_iff.mpr ⟨led, there⟩
  rw [rename, found, led']
  dsimp only [bind, Except.bind]
  rw [if_pos rfl]

/-- **What is found is moved**, and not into a directory if none stands at the target. -/
theorem move_done (led : fs.resolve cwd source = .ok p) (there : fs.get? p = some n)
    (led' : fs.resolve cwd target = .ok q) (other : p ≠ q) (apart : ¬ p <+: q)
    (still : p ∉ fs.denied) (allowed : p.dropLast ∉ fs.denied) (allowed' : q.dropLast ∉ fs.denied)
    (free : n.CanReplace (fs.get? q)) :
    fs.move cwd source target = (fs.relocate p q, none) := by
  have free' : fs.isDirectory cwd target = false := by
    unfold isDirectory find
    rw [led']
    dsimp only [bind, Except.bind]
    cases occupant : fs.get? q with
    | none => rfl
    | some n' =>
      rw [occupant] at free
      cases n' with
      | directory => exact free.elim
      | file content x => rfl
  rw [move, free', Bool.false_and, if_neg Bool.false_ne_true, bring,
    rename_done led there led' other apart still allowed allowed' free]

/-! ## Removing and writing -/

theorem remove_done {content : Bytes} {x : Mode} (led : fs.resolve cwd source = .ok p)
    (there : fs.get? p = some (.file content x))
    (allowed : p.dropLast ∉ fs.denied) : fs.remove cwd source = .ok (fs.erase p) := by
  have found : fs.find cwd source = .ok (p, .file content x) := find_iff.mpr ⟨led, there⟩
  rw [remove, found]
  dsimp only [bind, Except.bind]
  rw [if_neg fun mem => allowed (List.contains_iff_mem.mp mem)]

/-- What is removed was found at its place, and goes with everything below. -/
theorem remove_cases {fs' : FileSystem} (done : fs.remove cwd source = .ok fs') :
    fs' = fs.erase (placeOf cwd source) := by
  unfold remove at done
  cases found : fs.find cwd source with
  | error e => rw [found] at done; cases done
  | ok e =>
    obtain ⟨p, n⟩ := e
    obtain ⟨rfl, -⟩ := find_place found
    rw [found] at done
    cases n with
    | directory => cases done
    | file content x =>
      dsimp only [bind, Except.bind] at done
      split at done
      · cases done
      · exact (Except.ok.inj done).symm

/-- **A file can be written** where nothing stands, or a file that may be written. -/
theorem write_done {content : Bytes} (name : Text.endsWith target ['/'] = false)
    (led : fs.resolve cwd target = .ok q) (free : ∀ n, fs.get? q = some n → n.writable = true)
    (allowed : fs.get? q = none → q.dropLast ∉ fs.denied) :
    fs.write cwd target content = .ok (fs.set q (Node.rewritten content (fs.get? q))) := by
  unfold write update
  rw [name, if_neg Bool.false_ne_true, led]
  dsimp only [bind, Except.bind]
  cases occupant : fs.get? q with
  | none => exact if_neg fun mem => allowed occupant (List.contains_iff_mem.mp mem)
  | some n =>
    have writable := free n occupant
    cases n with
    | directory => cases writable
    | file old x => exact if_pos writable

end FileSystem
end ContractCheck
