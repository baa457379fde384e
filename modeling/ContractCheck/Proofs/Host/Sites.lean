import ContractCheck.Proofs.FileSystem.Moving
import ContractCheck.Proofs.FileSystem.Rows
import ContractCheck.Proofs.Host.Logged
import Mathlib.Logic.Function.Basic

/-! # What stands at some places

To follow a few files through an activity, it is enough to know what stands at their places and
above them (`Host.At`).  Each file operation changes this view at one place or two, and writing to a
log that is open, and kept elsewhere, does not change it.  So what an activity does can be told as a
change of the view (`Site.Turns`).
-/
namespace ContractCheck

open FileSystem (placeOf Fits)
open ContractCheck.Path (Row slashed)

/-- Some places of one height, the working directory, and the directories that may be denied. -/
structure Site where
  cwd : Place
  denied : List Place
  spots : List Place
  height : Nat
  level : ∀ q ∈ spots, q.length = height

/-- What stands where. -/
abbrev View := Place → Option Node

namespace View

/-- With what was at one place at another one. -/
def move (v : View) (p q : Place) : View := Function.update (Function.update v q (v p)) p none

/-- With nothing at a place. -/
def clear (v : View) (p : Place) : View := Function.update v p none

/-- With other bytes in a file. -/
def write (v : View) (q : Place) (content : Bytes) : View :=
  Function.update v q (some (Node.rewritten content (v q)))

/-- With a directory at a place and above it. -/
def pave (v : View) (p : Place) : View := fun q => if q.isPrefixOf p then some .directory else v q

variable {v : View} {p q z : Place} {content : Bytes}

theorem move_target (other : p ≠ q) : v.move p q q = v p := by
  rw [move, Function.update_of_ne other.symm, Function.update_self]

theorem move_source : v.move p q p = none := Function.update_self ..

theorem move_of_ne (left : z ≠ p) (gone : z ≠ q) : v.move p q z = v z := by
  rw [move, Function.update_of_ne left, Function.update_of_ne gone]

theorem write_self : v.write q content q = some (Node.rewritten content (v q)) :=
  Function.update_self ..

theorem write_of_ne (other : z ≠ q) : v.write q content z = v z := Function.update_of_ne other ..

theorem clear_self : v.clear p p = none := Function.update_self ..

theorem clear_of_ne (other : z ≠ p) : v.clear p z = v z := Function.update_of_ne other ..

theorem pave_above (above : z <+: p) : v.pave p z = some .directory :=
  if_pos (List.isPrefixOf_iff_prefix.mpr above)

theorem pave_apart (apart : ¬ z <+: p) : v.pave p z = v z :=
  if_neg fun above => apart (List.isPrefixOf_iff_prefix.mp above)

/-- Whether a directory and those above it stand. -/
def Stands (v : View) (p : Place) : Prop := ∀ front, front <+: p → v front = some .directory

/-- Whether a directory stands or can be made, like those above it. -/
def Open (v : View) (denied : List Place) (p : Place) : Prop :=
  ∀ front name, front ++ [name] <+: p → v (front ++ [name]) = some .directory ∨
    v (front ++ [name]) = none ∧ front ∉ denied

theorem Stands.pave (stands : v.Stands p) (q : Place) : (v.pave q).Stands p := by
  intro front above
  by_cases inside : front <+: q
  · exact pave_above inside
  · rw [pave_apart inside, stands front above]

theorem Stands.move {d : Place} (stands : v.Stands d) (apart : ¬ p <+: d) (apart' : ¬ q <+: d) :
    (v.move p q).Stands d := by
  intro front above
  rw [move_of_ne _ _, stands front above]
  · rintro rfl
    exact apart above
  · rintro rfl
    exact apart' above

theorem Stands.write {d : Place} (stands : v.Stands d) (apart : ¬ q <+: d) :
    (v.write q content).Stands d := by
  intro front above
  rw [write_of_ne _, stands front above]
  rintro rfl
  exact apart above

theorem stands_pave (v : View) (p : Place) : (v.pave p).Stands p := fun _ above => pave_above above

theorem Stands.way (stands : v.Stands p) (denied : List Place) : v.Open denied p :=
  fun _ _ above => .inl (stands _ above)

end View

namespace Site

variable (σ : Site)

/-- Whether a place is one of the site, or above one. -/
def Near (q : Place) : Prop := ∃ z ∈ σ.spots, q <+: z

variable {σ}

theorem near_of_mem {q : Place} (mem : q ∈ σ.spots) : σ.Near q := ⟨q, mem, List.prefix_rfl⟩

theorem Near.above {p q : Place} (near : σ.Near q) (above : p <+: q) : σ.Near p := by
  obtain ⟨z, mem, below⟩ := near
  exact ⟨z, mem, above.trans below⟩

/-- No place near the site is below another place of its height. -/
theorem Near.eq_of_above {p q : Place} (near : σ.Near q) (level : p.length = σ.height)
    (below : p <+: q) : p = q := by
  obtain ⟨z, mem, above⟩ := near
  exact below.eq_of_length_le (level ▸ σ.level z mem ▸ above.length_le)

end Site

/-- A host with an open log that is kept apart from a site, and what stands at the site. -/
structure Host.At (h : Host) (σ : Site) (v : View) : Prop where
  cwd : h.cwd = σ.cwd
  denied : ∀ q, σ.Near q → q ∈ h.files.denied → q ∈ σ.denied
  opened : ¬ h.LogPlanned
  aside : ∀ q, σ.Near q → ¬ h.AtLog q
  view : ∀ q, σ.Near q → h.files.get? q = v q

variable {h h' : Host} {σ : Site} {v v' v'' : View} {lead : List Text} {p q : Place}
  {source target : Text}

namespace Host.At

theorem ready (at_ : h.At σ v) : h.LogReady :=
  fun settings planned => absurd ⟨settings, planned⟩ at_.opened

theorem logged (at_ : h.At σ v) (logged : h.Logged h') : h'.At σ v where
  cwd := logged.cwd.trans at_.cwd
  denied q near mem := at_.denied q near (logged.files.denied ▸ mem)
  opened := at_.opened ∘ logged.opens
  aside q near inside := at_.aside q near (logged.atLog q inside)
  view q near := (logged.get? at_.opened (at_.aside q near)).trans (at_.view q near)

/-- What changes files only. -/
theorem files (at_ : h.At σ v) {fs : FileSystem}
    (denied : ∀ q, σ.Near q → q ∈ fs.denied → q ∈ h.files.denied)
    (view : ∀ q, σ.Near q → fs.get? q = v' q) : { h with files := fs }.At σ v' where
  cwd := at_.cwd
  denied q near mem := at_.denied q near (denied q near mem)
  opened := at_.opened
  aside := at_.aside
  view := view

/-- A row leads to its place near the site, if the directories above stand. -/
theorem resolve (at_ : h.At σ v) (row : Row lead p) (fits : Fits (slashed (lead ++ p)))
    (near : σ.Near p) (stands : ∀ front, front <+: p → front ≠ p → v front = some .directory) :
    h.files.resolve h.cwd (slashed (lead ++ p)) = .ok p :=
  FileSystem.resolve_row row fits fun front above other =>
    (at_.view front (near.above above)).trans (stands front above other)

/-- A file is not denied, and a directory only if the site says so. -/
theorem not_denied {n : Node} (at_ : h.At σ v) (near : σ.Near p) (given : v p = some n)
    (still : n = .directory → p ∉ σ.denied) : p ∉ h.files.denied := by
  intro mem
  have stands := FileSystem.directory_of_denied mem
  rw [at_.view p near, given] at stands
  exact still (Option.some.inj stands) (at_.denied p near mem)

theorem relocate (at_ : h.At σ v) (mem : p ∈ σ.spots) (mem' : q ∈ σ.spots)
    (other : p ≠ q) (below : p ≠ []) (below' : q ≠ []) (still : p ∉ h.files.denied) :
    { h with files := h.files.relocate p q }.At σ (v.move p q) := by
  have apart : ¬ q <+: p :=
    fun inside => other ((Site.near_of_mem mem).eq_of_above (σ.level q mem') inside).symm
  refine at_.files (fun z near denied => ?_) fun z near => ?_
  · rcases List.mem_append.mp denied with kept | carried
    · exact List.mem_of_mem_filter kept
    · -- What was carried near the site was at the source itself.
      obtain ⟨d, origin, rfl⟩ := List.mem_map.mp carried
      obtain ⟨denied, inside⟩ := List.mem_filter.mp origin
      obtain ⟨rest, rfl⟩ := List.isPrefixOf_iff_prefix.mp (Bool.and_eq_true_iff.mp inside).1
      rw [FileSystem.moved, List.drop_left] at near
      have same := near.eq_of_above (σ.level q mem') (List.prefix_append q rest)
      rw [List.append_right_eq_self.mp same.symm, List.append_nil] at denied
      exact absurd denied still
  rw [View.move]
  by_cases left : z = p
  · subst left
    rw [Function.update_self, FileSystem.get?_relocate_source below apart]
  · rw [Function.update_of_ne left]
    by_cases gone : z = q
    · subst gone
      rw [Function.update_self, FileSystem.get?_relocate_target below below',
        at_.view p (Site.near_of_mem mem)]
    · rw [Function.update_of_ne gone, FileSystem.get?_relocate_apart, at_.view z near]
      · exact fun inside => left (near.eq_of_above (σ.level p mem) inside).symm
      · exact fun inside => gone (near.eq_of_above (σ.level q mem') inside).symm

theorem erase (at_ : h.At σ v) (level : p.length = σ.height) (below : p ≠ []) :
    { h with files := h.files.erase p }.At σ (v.clear p) := by
  refine at_.files (fun z _ => List.mem_of_mem_filter) fun z near => ?_
  rw [View.clear]
  by_cases same : z = p
  · subst same
    rw [Function.update_self, FileSystem.get?_erase _ _ below,
      if_pos (List.isPrefixOf_iff_prefix.mpr List.prefix_rfl)]
  · rw [Function.update_of_ne same, ← at_.view z near]
    by_cases root : z = []
    · subst root
      rfl
    · rw [FileSystem.get?_erase _ _ root, if_neg]
      exact fun inside => same (near.eq_of_above level (List.isPrefixOf_iff_prefix.mp inside)).symm

theorem set (at_ : h.At σ v) (mem : q ∈ σ.spots) (below : q ≠ []) (content : Bytes) :
    { h with files := h.files.set q (Node.rewritten content (h.files.get? q)) }.At σ
      (v.write q content) := by
  refine at_.files (fun z _ => List.mem_of_mem_filter) fun z near => ?_
  rw [View.write]
  by_cases same : z = q
  · subst same
    rw [Function.update_self, FileSystem.get?_set_self _ _ below, at_.view z near]
  · rw [Function.update_of_ne same, FileSystem.get?_set_of_ne _ _ same, at_.view z near]

theorem pave (at_ : h.At σ v) {fs : FileSystem} (paved : FileSystem.Paved [] p h.files fs) :
    { h with files := fs }.At σ (v.pave p) := by
  refine at_.files (fun z _ => paved.denied ▸ id) fun z near => ?_
  rw [View.pave]
  split
  · next above =>
    by_cases root : z = []
    · subst root
      rfl
    · exact paved.stands z (List.isPrefixOf_iff_prefix.mp above) root
  · next apart =>
    rw [paved.apart z, at_.view z near]
    rintro front above - rfl
    exact apart (List.isPrefixOf_iff_prefix.mpr above)

end Host.At

/-! ## Changes of the view -/

/-- An activity that gives a value, and turns one view into another. -/
def Site.Turns {α : Type} (σ : Site) (v : View) (act : Action α) (a : α) (v' : View) : Prop :=
  ∀ h : Host, h.At σ v → ∃ h', act.perform h = (.ok a, h') ∧ h'.At σ v'

namespace Site.Turns

open ContractCheck.Action

variable {α β : Type} {act : Action α} {a : α} {b : β}

theorem pure (a : α) : σ.Turns v (Pure.pure a : Action α) a v := fun h at_ => ⟨h, rfl, at_⟩

theorem bind {f : α → Action β} (first : σ.Turns v act a v') (rest : σ.Turns v' (f a) b v'') :
    σ.Turns v (act >>= f) b v'' := by
  intro h at_
  obtain ⟨h', performed, at_'⟩ := first h at_
  obtain ⟨h'', performed', at_''⟩ := rest h' at_'
  exact ⟨h'', (perform_bind_ok performed).trans performed', at_''⟩

theorem orSystem {handle : Fault → Action α} (first : σ.Turns v act a v') :
    σ.Turns v (Action.orSystem act handle) a v' := by
  intro h at_
  obtain ⟨h', performed, at_'⟩ := first h at_
  rw [perform_orSystem, performed]
  exact ⟨h', rfl, at_'⟩

/-- Writing to the log changes nothing near the site. -/
theorem write (level : LogLevel) (owner message : Text) (context : Fields) :
    σ.Turns v (Log.write level owner message context) ⟨⟩ v := by
  intro h at_
  obtain ⟨h', performed, logged⟩ := Log.write_logged level owner message context h at_.ready
  exact ⟨h', performed, at_.logged logged⟩

theorem look {f : FileSystem → Place → Text → α} {path : Text}
    (seen : ∀ h : Host, h.At σ v → f h.files h.cwd path = a) :
    σ.Turns v (Action.look f path) a v := by
  intro h at_
  unfold Action.look
  rw [perform_bind_ok (perform_get h), seen h at_]
  exact ⟨h, rfl, at_⟩

theorem ask {f : FileSystem → Place → Text → Except FileError α} {path : Text}
    (seen : ∀ h : Host, h.At σ v → f h.files h.cwd path = .ok a) :
    σ.Turns v (Action.ask f path) a v := by
  intro h at_
  rw [perform_ask, seen h at_]
  exact ⟨h, rfl, at_⟩

theorem change {f : FileSystem → Place → Text → Except FileError FileSystem} {path : Text}
    (done : ∀ h : Host, h.At σ v → ∃ fs, f h.files h.cwd path = .ok fs ∧
      { h with files := fs }.At σ v') :
    σ.Turns v (Action.change f path) ⟨⟩ v' := by
  intro h at_
  obtain ⟨fs, changed, at_'⟩ := done h at_
  rw [perform_change, changed]
  exact ⟨_, rfl, at_'⟩

theorem attempt {f : FileSystem → Place → Text → FileSystem × Option FileError} {path : Text}
    (done : ∀ h : Host, h.At σ v → ∃ fs, f h.files h.cwd path = (fs, none) ∧
      { h with files := fs }.At σ v') :
    σ.Turns v (Action.attempt f path) ⟨⟩ v' := by
  intro h at_
  obtain ⟨fs, changed, at_'⟩ := done h at_
  rw [perform_attempt, changed]
  exact ⟨_, rfl, at_'⟩

/-- Directories are made where nothing else is in the way. -/
theorem makeDirectories (row : Row lead p) (fits : Fits (slashed (lead ++ p)))
    (clear : ∀ h : Host, h.At σ v → h.files.Open [] p) :
    σ.Turns v (Action.makeDirectories (slashed (lead ++ p))) ⟨⟩ (v.pave p) := by
  intro h at_
  obtain ⟨done, paved⟩ := FileSystem.makeDirectories_open row fits (clear h at_) h.cwd
  rw [perform_makeDirectories, done]
  exact ⟨_, rfl, at_.pave paved⟩

end Site.Turns
end ContractCheck
