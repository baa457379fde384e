import ContractCheck.Proofs.FileSystem.Moving
import ContractCheck.Proofs.FileSystem.Rows
import ContractCheck.Proofs.FileSystem.Standing

/-! # Writing a file into directories that are made first

The directories above a file are made, and the file is written.  This works exactly if the file
system takes the path, nothing but directories is on the way, and nothing that would have to be
changed is denied (`receives_iff`).
-/
namespace ContractCheck.FileSystem

open ContractCheck.Path

variable {fs fs' : FileSystem} {cwd dir p : Place} {lead names : List Text} {name : Text}
  {content : Bytes}

/-- Whether a place can be written to once the directories above it are made: they stand or can be
made, and it is a file that may be written, or free in a directory that is not denied. -/
structure Receives (fs : FileSystem) (p : Place) : Prop where
  way : fs.Open [] p.dropLast
  free : ∀ n, fs.get? p = some n → n.writable = true
  absent : fs.get? p = none → p.dropLast ∉ fs.denied

/-- Directories that could be made had nothing in their way. -/
theorem open_of_makeAlong (proper : ∀ s ∈ names, Proper s)
    (done : (fs.makeAlong dir names).2 = none) :
    fs.Open dir names ∧ ∀ s ∈ names, tooLong s = false := by
  induction names generalizing fs dir with
  | nil => exact ⟨fun front name ahead => absurd (List.prefix_nil.mp ahead) (by simp), nofun⟩
  | cons name rest ih =>
    obtain ⟨own, proper⟩ := List.forall_mem_cons.mp proper
    rw [makeAlong, isStill_of_proper own, if_neg Bool.false_ne_true, if_neg own.2.2] at done
    split at done
    · cases done
    · next short =>
      have short : tooLong name = false := Bool.eq_false_iff.mpr short
      -- The first directory is clear, and so is the rest of the way in a file system that is the
      -- same beyond it.
      have further (fs' : FileSystem) (first : fs.get? (dir ++ [name]) = some .directory ∨
          fs.get? (dir ++ [name]) = none ∧ dir ∉ fs.denied) (denied : fs'.denied = fs.denied)
          (apart : ∀ q, q ≠ dir ++ [name] → fs'.get? q = fs.get? q)
          (done : (fs'.makeAlong (dir ++ [name]) rest).2 = none) :
          fs.Open dir (name :: rest) ∧ ∀ s ∈ name :: rest, tooLong s = false := by
        obtain ⟨clear, fits⟩ := ih proper done
        refine ⟨fun front x ahead => ?_, List.forall_mem_cons.mpr ⟨short, fits⟩⟩
        cases front with
        | nil =>
          obtain ⟨rfl, -⟩ := List.cons_prefix_cons.mp ahead
          rwa [List.append_nil]
        | cons y front =>
          obtain ⟨rfl, inner⟩ := List.cons_prefix_cons.mp ahead
          have behind := clear front x inner
          rw [apart _ (by simp), denied] at behind
          have same : dir ++ y :: front = dir ++ [y] ++ front := by simp
          rwa [same]
      dsimp only at done
      split at done
      · next stands => exact further fs (.inl stands) rfl (fun _ _ => rfl) done
      · cases done
      · next none =>
        split at done
        · cases done
        · next allowed =>
          exact further (fs.set (dir ++ [name]) .directory)
            (.inr ⟨none, fun mem => allowed (List.contains_iff_mem.mpr mem)⟩)
            (denied_set fun _ => rfl)
            (fun q other => get?_set_of_ne fs _ other) done

/-- A file that was written stood there and may be written, or its place was free. -/
theorem allowed_of_write {path : Text} (written : fs.write cwd path content = .ok fs') :
    ∃ p, fs.resolve cwd path = .ok p ∧ (∀ n, fs.get? p = some n → n.writable = true) ∧
      (fs.get? p = none → p.dropLast ∉ fs.denied) := by
  unfold write update at written
  split at written
  · cases written
  · cases led : fs.resolve cwd path with
    | error e => rw [led] at written; cases written
    | ok p =>
      rw [led] at written
      dsimp only [bind, Except.bind] at written
      refine ⟨p, rfl, ?_⟩
      cases occupant : fs.get? p with
      | none =>
        rw [occupant] at written
        dsimp only at written
        split at written
        · cases written
        · next allowed => exact ⟨nofun, fun _ mem => allowed (List.contains_iff_mem.mpr mem)⟩
      | some n =>
        rw [occupant] at written
        cases n with
        | directory => cases written
        | file old x =>
          dsimp only at written
          split at written
          · next writable =>
            refine ⟨fun n same => ?_, nofun⟩
            obtain rfl := Option.some.inj same
            exact writable
          · cases written

section Row

variable (row : Row lead p) (proper : Proper name) (bare : '/' ∉ name)
include row proper bare

/-- **A file can be written into directories that are made first** exactly if the file system takes
its path and receives it at its place. -/
theorem receives_iff (fs : FileSystem) (cwd : Place) (content : Bytes) :
    ((fs.makeDirectories cwd (slashed (lead ++ p))).2 = none ∧
      ∃ fs', (fs.makeDirectories cwd (slashed (lead ++ p))).1.write cwd
      (slashed (lead ++ (p ++ [name]))) content = .ok fs') ↔
    Fits (slashed (lead ++ (p ++ [name]))) ∧ fs.Receives (p ++ [name]) := by
  have row' := row.concat proper bare
  have above : ∀ front, front <+: p → front ≠ [] → p ++ [name] ≠ [] ++ front := by
    rintro front inside - same
    have lengths := inside.length_le
    rw [← List.nil_append front, ← same, List.length_append, List.length_singleton] at lengths
    omega
  constructor
  · rintro ⟨made, fs', written⟩
    obtain ⟨q, led, free, absent⟩ := allowed_of_write written
    obtain rfl : q = p ++ [name] := (resolve_place led).trans (placeOf_row row' cwd)
    have fits := fits_of_resolve row' led
    have front : Fits (slashed (lead ++ p)) := by
      rw [Row.slashed_concat] at fits
      exact fits.front
    have clear : fs.Open [] p := by
      rw [makeDirectories, if_neg fun zero => front.usable (List.contains_iff_mem.mp zero),
        if_neg (Nat.not_lt.mpr front.short), startOf, if_pos row.absolute, row.pieces,
          makeAlong_row row.lead] at made
      exact (open_of_makeAlong row.proper made).1
    obtain ⟨-, paved⟩ := makeDirectories_open row front clear cwd
    rw [paved.apart _ above] at free absent
    rw [paved.denied] at absent
    refine ⟨fits, ?_, free, absent⟩
    rwa [List.dropLast_concat]
  · rintro ⟨fits, receives⟩
    have front : Fits (slashed (lead ++ p)) := by
      rw [Row.slashed_concat] at fits
      exact fits.front
    have clear := receives.way
    rw [List.dropLast_concat] at clear
    obtain ⟨made, paved⟩ := makeDirectories_open row front clear cwd
    refine ⟨made, ?_⟩
    obtain ⟨last, final, some⟩ := row'.last
    refine ⟨_, write_done (Path.endsWith_slashed row'.whole final some)
      (resolve_row row' fits fun front above' other => ?_) ?_ ?_⟩
    · by_cases root : front = []
      · rw [root]
        rfl
      · exact paved.stands front (above_of_concat above' other) root
    · rw [paved.apart _ above]
      exact receives.free
    · rw [paved.apart _ above, paved.denied]
      exact receives.absent

end Row
end ContractCheck.FileSystem
