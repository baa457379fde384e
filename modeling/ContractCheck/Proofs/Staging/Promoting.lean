import ContractCheck.Proofs.Host.Sites
import ContractCheck.Proofs.Layout.Outputs
import ContractCheck.Proofs.Text.Transport
import ContractCheck.Staging

/-! # Promoting outputs

The bytecode that stands beside the staged copy of a source is moved into the build directory and
written there a second time in base64, an interface description goes the same way if there is one,
and the staged copy is removed (`Staging.promote_turns`).
-/
namespace ContractCheck

open FileSystem (Fits above_of_concat)
open ContractCheck.Path (Row slashed)
open Layout (Outputs extensions bytecodeExt interfaceExt transportExt codeExt beside promoted)

variable {h : Host} {σ : Site} {v : View} {directory stem ext e : Text}
  {lead here there : List Text}

/-! ## Places of outputs -/

/-- The place of an output beside the staged copy. -/
abbrev stagedAt (here : Place) (stem e : Text) : Place := here ++ ['~' :: (stem ++ e)]

/-- The place of an output in the build directory. -/
abbrev builtAt (there : Place) (stem e : Text) : Place := there ++ [stem ++ e]

theorem stagedAt_ne_builtAt (here there : Place) (stem : Text) {e e' : Text}
    (other : e.length + 1 ≠ e'.length) :
    stagedAt here stem e ≠ builtAt there stem e' := by
  intro same
  have names := congrArg List.getLast? same
  rw [List.getLast?_concat, List.getLast?_concat] at names
  have lengths := congrArg List.length (Option.some.inj names)
  rw [List.length_cons, List.length_append, List.length_append] at lengths
  omega

theorem stagedAt_ne (here : Place) (stem : Text) {e e' : Text} (other : e ≠ e') :
    stagedAt here stem e ≠ stagedAt here stem e' := by
  intro same
  have names := List.append_cancel_left same
  exact other (by simpa using names)

theorem builtAt_ne (there : Place) (stem : Text) {e e' : Text} (other : e ≠ e') :
    builtAt there stem e ≠ builtAt there stem e' := by
  intro same
  have names := List.append_cancel_left same
  exact other (by simpa using names)

theorem not_above {p : Place} {name : Text} (level : there.length = p.length) :
    ¬ p ++ [name] <+: there := by
  intro above
  have lengths := above.length_le
  rw [List.length_append, level, List.length_singleton] at lengths
  omega

/-! ## Looking for an output -/

namespace Host.At

variable {p : Place} {name : Text} {n : Node}

/-- An output in a directory that stands is found if it stands too. -/
theorem find_iff (at_ : h.At σ v) (row : Row lead (p ++ [name])) (mem : p ++ [name] ∈ σ.spots)
    (stands : v.Stands p) (fits : Fits (slashed (lead ++ (p ++ [name])))) :
    h.files.find h.cwd (slashed (lead ++ (p ++ [name]))) = .ok (p ++ [name], n) ↔
    v (p ++ [name]) = some n := by
  have near := Site.near_of_mem mem
  have led :=
    at_.resolve row fits near fun front above other => stands front (above_of_concat above other)
  rw [FileSystem.find_iff, at_.view _ near]
  exact ⟨And.right, fun given => ⟨led, given⟩⟩

/-- A file that stands in a directory that stands can be read if it may be. -/
theorem read {b : Bytes} {x : Mode} (at_ : h.At σ v) (row : Row lead (p ++ [name]))
    (mem : p ++ [name] ∈ σ.spots) (stands : v.Stands p)
    (fits : Fits (slashed (lead ++ (p ++ [name])))) (given : v (p ++ [name]) = some (.file b x))
    (readable : x.readable = true) :
    h.files.read h.cwd (slashed (lead ++ (p ++ [name]))) = .ok b := by
  unfold FileSystem.read
  rw [(at_.find_iff row mem stands fits).mpr given]
  exact if_pos readable

/-- Nothing is found where nothing stands, or by a path that the file system does not take. -/
theorem not_isThere (at_ : h.At σ v) (row : Row lead (p ++ [name])) (mem : p ++ [name] ∈ σ.spots)
    (absent : Fits (slashed (lead ++ (p ++ [name]))) → v (p ++ [name]) = none) :
    h.files.isThere h.cwd (slashed (lead ++ (p ++ [name]))) = false := by
  unfold FileSystem.isThere
  cases found : h.files.find h.cwd (slashed (lead ++ (p ++ [name]))) with
  | error e => rfl
  | ok f =>
    obtain ⟨q, n⟩ := f
    obtain ⟨led, given⟩ := FileSystem.find_iff.mp found
    obtain rfl : q = p ++ [name] :=
      (FileSystem.resolve_place led).trans (FileSystem.placeOf_row row h.cwd)
    rw [at_.view _ (Site.near_of_mem mem), absent (FileSystem.fits_of_resolve row led)] at given
    cases given

end Host.At

/-! ## Moving an output -/

namespace Staging

open Site.Turns

variable {s : Staging} (layout : s.layout = {}) (out : Outputs directory stem ext lead here there)
include layout out

/-- **An output that stands is moved** into the build directory, which is made if it is missing. -/
theorem promoteOutput_there {n : Node} (listed : e ∈ extensions)
    (mem : stagedAt here stem e ∈ σ.spots) (mem' : builtAt there stem e ∈ σ.spots)
    (fits : Fits (beside directory stem e)) (fits' : Fits (promoted directory stem e))
    (stands : v.Stands here) (way : v.Open σ.denied there) (allowed : here ∉ σ.denied)
    (allowed' : there ∉ σ.denied) (given : v (stagedAt here stem e) = some n)
    (still : n = .directory → stagedAt here stem e ∉ σ.denied)
    (free : n.CanReplace (v (builtAt there stem e))) :
    σ.Turns v (s.promoteOutput (directory ++ '/' :: (stem ++ ext)) e)
      (some (promoted directory stem e))
      ((v.pave there).move (stagedAt here stem e) (builtAt there stem e)) := by
  have row := out.besideRow e listed
  have row' := out.promotedRow e listed
  rw [out.beside_eq e listed] at fits
  rw [out.promoted_eq e listed] at fits' ⊢
  have other : stagedAt here stem e ≠ builtAt there stem e :=
    stagedAt_ne_builtAt here there stem (by omega)
  have level : ¬ stagedAt here stem e <+: there := not_above out.level
  have level' : ¬ builtAt there stem e <+: there := not_above rfl
  have found : σ.Turns v (Action.look FileSystem.isThere (slashed (lead ++ stagedAt here stem e)))
      true v := by
    refine look fun h at_ => ?_
    unfold FileSystem.isThere
    rw [(at_.find_iff row mem stands fits).mpr given]
    rfl
  have parent : Path.Posix.parent (slashed (lead ++ builtAt there stem e)) =
      slashed (lead ++ there) :=
    out.buildRow.parent (row'.proper _ (by simp)) (row'.plain _ (by simp))
  -- In the directory that was made the output takes its place.
  have moved : σ.Turns (v.pave there)
    (Action.attempt (fun fs cwd p => fs.move cwd p (slashed (lead ++ builtAt there stem e)))
      (slashed (lead ++ stagedAt here stem e))) ⟨⟩
      ((v.pave there).move (stagedAt here stem e) (builtAt there stem e)) := by
    refine attempt fun h at_ => ?_
    have loose := at_.not_denied (Site.near_of_mem mem) (by rw [View.pave_apart level, given]) still
    refine ⟨_, ?_, at_.relocate mem mem' other (by simp) (by simp) loose⟩
    have here_ : h.files.find h.cwd (slashed (lead ++ stagedAt here stem e)) =
        .ok (stagedAt here stem e, n) :=
      (at_.find_iff row mem (stands.pave there) fits).mpr (by rw [View.pave_apart level, given])
    obtain ⟨led, standing⟩ := FileSystem.find_iff.mp here_
    have led' := at_.resolve row' fits' (Site.near_of_mem mem') fun front above different =>
      View.stands_pave v there front (above_of_concat above different)
    refine FileSystem.move_done led standing led' other ?_ loose ?_ ?_ ?_
    · exact fun inside => other ((Site.near_of_mem mem').eq_of_above (σ.level _ mem) inside)
    · rw [List.dropLast_concat]
      exact fun denied =>
        allowed (at_.denied _ ((Site.near_of_mem mem).above (List.prefix_append _ _)) denied)
    · rw [List.dropLast_concat]
      exact fun denied =>
        allowed' (at_.denied _ ((Site.near_of_mem mem').above (List.prefix_append _ _)) denied)
    · rw [at_.view _ (Site.near_of_mem mem'), View.pave_apart level']
      exact free
  have made : σ.Turns v (Action.makeDirectories (slashed (lead ++ there))) ⟨⟩ (v.pave there) := by
    refine makeDirectories out.buildRow ?_ fun h at_ front name above => ?_
    · rw [Row.slashed_concat] at fits'
      exact fits'.front
    · have near : σ.Near (front ++ [name]) :=
        (Site.near_of_mem mem').above (above.trans (List.prefix_append _ _))
      rw [List.nil_append, at_.view _ near]
      refine (way front name above).imp_right (And.imp_right fun allowed denied => allowed ?_)
      exact at_.denied _ (near.above (List.prefix_append _ _)) denied
  unfold promoteOutput
  rw [layout]
  dsimp only
  rw [out.output e listed, out.target e listed, out.beside_eq e listed, out.promoted_eq e listed]
  refine found.bind ?_
  rw [if_pos rfl]
  have whole : σ.Turns v (move (slashed (lead ++ stagedAt here stem e))
      (slashed (lead ++ builtAt there stem e))) true
      ((v.pave there).move (stagedAt here stem e) (builtAt there stem e)) := by
    unfold move
    rw [parent]
    refine (made.bind (moved.bind (.pure true))).orSystem.bind ?_
    rw [if_pos rfl]
    exact (write _ _ _ _).bind (.pure true)
  refine whole.bind ?_
  rw [if_pos rfl]
  exact .pure _

/-- An output that does not stand is passed over. -/
theorem promoteOutput_absent (listed : e ∈ extensions) (mem : stagedAt here stem e ∈ σ.spots)
    (absent : Fits (beside directory stem e) → v (stagedAt here stem e) = none) :
    σ.Turns v (s.promoteOutput (directory ++ '/' :: (stem ++ ext)) e) none v := by
  rw [out.beside_eq e listed] at absent
  unfold promoteOutput
  rw [layout]
  dsimp only
  rw [out.output e listed, out.beside_eq e listed]
  refine (look fun h at_ => at_.not_isThere (out.besideRow e listed) mem absent).bind ?_
  rw [if_neg Bool.false_ne_true]
  exact .pure none

omit layout

/-- The bytecode is written in base64 next to where it is. -/
theorem writeTransport_turns {b : Bytes} {x : Mode} (mem : builtAt there stem bytecodeExt ∈ σ.spots)
    (mem' : builtAt there stem transportExt ∈ σ.spots)
    (fits : Fits (promoted directory stem bytecodeExt))
    (fits' : Fits (promoted directory stem transportExt)) (stands : v.Stands there)
    (given : v (builtAt there stem bytecodeExt) = some (.file b x))
    (free : ∀ n, v (builtAt there stem transportExt) = some n → n.writable = true)
    (readable : x.readable = true) (allowed : there ∉ σ.denied) :
    σ.Turns v (writeTransport (promoted directory stem bytecodeExt))
      (some (promoted directory stem transportExt))
      (v.write (builtAt there stem transportExt) (Utf8.encode (Text.Base64.encode b))) := by
  have row := out.promotedRow bytecodeExt (by decide)
  have row' := out.promotedRow transportExt (by decide)
  have transport := out.transport
  rw [out.promoted_eq _ (by decide)] at fits transport ⊢
  rw [out.promoted_eq _ (by decide)] at fits' transport ⊢
  have read : σ.Turns v (Action.readFile (slashed (lead ++ builtAt there stem bytecodeExt))) b v :=
    ask fun _ at_ => at_.read row mem stands fits given readable
  have wrote : σ.Turns v (Action.writeText (slashed (lead ++ builtAt there stem transportExt))
    (Text.Base64.encode b)) ⟨⟩
      (v.write (builtAt there stem transportExt) (Utf8.encode (Text.Base64.encode b))) := by
    refine change fun h at_ => ⟨_, ?_, at_.set mem' (by simp) _⟩
    have near := Site.near_of_mem mem'
    have led := at_.resolve row' fits' near fun front above different =>
      stands front (above_of_concat above different)
    obtain ⟨last, final, some⟩ := row'.last
    refine FileSystem.write_done (Path.endsWith_slashed row'.whole final some) led ?_ fun _ => ?_
    · rwa [at_.view _ near]
    · rw [List.dropLast_concat]
      exact fun denied => allowed (at_.denied _ (near.above (List.prefix_append _ _)) denied)
  unfold writeTransport
  dsimp only
  rw [transport, row.tidy, row'.tidy]
  refine orSystem (read.bind (wrote.bind ?_))
  exact .pure _

/-- A staged copy that stands is removed. -/
theorem removeStaged_turns {content : Bytes} {x : Mode} (listed : e ∈ extensions)
    (mem : stagedAt here stem e ∈ σ.spots) (fits : Fits (beside directory stem e))
    (stands : v.Stands here) (allowed : here ∉ σ.denied)
    (given : v (stagedAt here stem e) = some (.file content x)) :
    σ.Turns v (removeStaged (beside directory stem e)) ⟨⟩ (v.clear (stagedAt here stem e)) := by
  rw [out.beside_eq e listed] at fits ⊢
  have removed : σ.Turns v (Action.change FileSystem.remove
      (slashed (lead ++ stagedAt here stem e))) ⟨⟩
      (v.clear (stagedAt here stem e)) := by
    refine change fun h at_ => ⟨_, ?_, at_.erase (σ.level _ mem) (by simp)⟩
    obtain ⟨led, there⟩ :=
      FileSystem.find_iff.mp ((at_.find_iff (out.besideRow e listed) mem stands fits).mpr given)
    refine FileSystem.remove_done led there ?_
    rw [List.dropLast_concat]
    exact fun denied =>
      allowed (at_.denied _ ((Site.near_of_mem mem).above (List.prefix_append _ _)) denied)
  unfold removeStaged
  exact (removed.bind (write _ _ _ _)).orSystem

end Staging

/-! ## Promoting -/

/-- What promoting an output that may be there comes to. -/
structure Taken (directory stem e : Text) (here there : Place) (v : View) (taken : Option Text)
    (v' : View) : Prop where
  staging : v'.Stands here
  building : v.Stands there ∨ taken.isSome → v'.Stands there
  arrived : ∀ n, v (stagedAt here stem e) = some n → Fits (beside directory stem e) →
    v' (builtAt there stem e) = some n ∧ taken = some (promoted directory stem e)
  gone : Fits (beside directory stem e) → v' (stagedAt here stem e) = none
  apart : ∀ z, z ≠ stagedAt here stem e → z ≠ builtAt there stem e → ¬ z <+: there → v' z = v z

/-- Outputs that can be promoted: the directory beside the staged copy stands and the build
directory stands or can be made, neither of them denied, the bytecode is there and can be read, and
nothing is in the way of what is moved and written. -/
structure Promotable (directory stem ext : Text) (here there : Place) (denied : List Place)
    (b : Bytes) (x : Mode)
    (v : View) : Prop where
  stands : v.Stands here
  way : v.Open denied there
  staging : here ∉ denied
  building : there ∉ denied
  bytecode : v (stagedAt here stem bytecodeExt) = some (.file b x)
  source : v (stagedAt here stem ext) ≠ some .directory
  fits : Fits (beside directory stem bytecodeExt) ∧ Fits (promoted directory stem bytecodeExt) ∧
    Fits (promoted directory stem transportExt)
  readable : x.readable = true
  free : v (builtAt there stem bytecodeExt) ≠ some .directory
  room : ∀ n, v (builtAt there stem transportExt) = some n → n.writable = true
  interface : ∀ n, v (stagedAt here stem interfaceExt) = some n →
    Fits (beside directory stem interfaceExt) →
    Fits (promoted directory stem interfaceExt) ∧
    n.CanReplace (v (builtAt there stem interfaceExt)) ∧
      (n = .directory → stagedAt here stem interfaceExt ∉ denied)

/-- What is where after a promotion, and what the artifact says. -/
structure Promoted (directory stem ext : Text) (here there : Place) (b : Bytes) (x : Mode)
    (v : View) (artifact : Artifact)
    (v' : View) : Prop where
  staging : v'.Stands here
  building : v'.Stands there
  bytecode : v' (builtAt there stem bytecodeExt) = some (.file b x)
  transport : v' (builtAt there stem transportExt) =
    some (Node.rewritten (Utf8.encode (Text.Base64.encode b)) (v (builtAt there stem transportExt)))
  interface : ∀ n, v (stagedAt here stem interfaceExt) = some n →
    Fits (beside directory stem interfaceExt) →
    v' (builtAt there stem interfaceExt) = some n ∧
    artifact.interface = some (promoted directory stem interfaceExt)
  named : artifact.bytecode = some (promoted directory stem bytecodeExt) ∧
    artifact.transport = some (promoted directory stem transportExt)
  gone : ∀ e ∈ [bytecodeExt, interfaceExt, ext], Fits (beside directory stem e) →
    v' (stagedAt here stem e) = none
  apart : ∀ z, (∀ e ∈ [bytecodeExt, interfaceExt, ext], z ≠ stagedAt here stem e) →
    (∀ e ∈ [bytecodeExt, transportExt, interfaceExt], z ≠ builtAt there stem e) →
    ¬ z <+: there → v' z = v z

/-- Nothing beside the staged copy has the place of what is promoted. -/
theorem staged_ne_built (here there : Place) (stem : Text)
    (source : ext ∈ [".sol".toList, ".tsol".toList]) {e e' : Text}
    (mem : e ∈ [bytecodeExt, interfaceExt, ext])
    (mem' : e' ∈ [bytecodeExt, transportExt, interfaceExt]) :
    stagedAt here stem e ≠ builtAt there stem e' := by
  refine stagedAt_ne_builtAt here there stem ?_
  simp only [List.mem_cons, List.not_mem_nil, or_false] at source mem mem'
  rcases source with rfl | rfl <;> rcases mem with rfl | rfl | rfl <;> rcases mem' with
    rfl | rfl | rfl <;> decide

/-- A source has another extension than the outputs. -/
theorem ne_outputs (source : ext ∈ [".sol".toList, ".tsol".toList]) :
    ext ≠ bytecodeExt ∧ ext ≠ interfaceExt := by
  rcases List.mem_cons.mp source with rfl | mem
  · decide
  · rw [List.mem_singleton.mp mem]
    decide

/-! ### Step by step -/

/-- What is where when the bytecode was promoted and written a second time. -/
structure Transported (directory stem : Text) (here there : Place) (b : Bytes) (x : Mode)
    (v v' : View) :
    Prop where
  staging : v'.Stands here
  building : v'.Stands there
  bytecode : v' (builtAt there stem bytecodeExt) = some (.file b x)
  transport : v' (builtAt there stem transportExt) =
    some (Node.rewritten (Utf8.encode (Text.Base64.encode b)) (v (builtAt there stem transportExt)))
  gone : v' (stagedAt here stem bytecodeExt) = none
  apart : ∀ z, z ≠ stagedAt here stem bytecodeExt →
    (∀ e ∈ [bytecodeExt, transportExt], z ≠ builtAt there stem e) → ¬ z <+: there → v' z = v z

namespace Transported

variable {b : Bytes} {x : Mode} {v₂ v₃ v₄ : View} {interface : Option Text}
variable (half : Transported directory stem here there b x v v₂)
  (source : ext ∈ [".sol".toList, ".tsol".toList])
include half source

/-- What else is beside the staged copy is left. -/
theorem staged (level : there.length = here.length) (mem : e ∈ [bytecodeExt, interfaceExt, ext])
    (other : e ≠ bytecodeExt) : v₂ (stagedAt here stem e) = v (stagedAt here stem e) := by
  refine half.apart _ (stagedAt_ne here stem other) (fun e' mem' => ?_) (not_above level)
  refine staged_ne_built here there stem source mem ?_
  rcases List.mem_cons.mp mem' with rfl | mem'
  · simp
  · simp [List.mem_singleton.mp mem']

/-- What else is in the build directory is left. -/
theorem built (mem : e ∈ [bytecodeExt, transportExt, interfaceExt]) (other : e ≠ bytecodeExt)
    (other' : e ≠ transportExt) : v₂ (builtAt there stem e) = v (builtAt there stem e) := by
  refine half.apart _ (staged_ne_built here there stem source (by simp) mem).symm
    (fun e' mem' => builtAt_ne there stem ?_) (not_above rfl)
  rcases List.mem_cons.mp mem' with rfl | mem'
  · exact other
  · exact List.mem_singleton.mp mem' ▸ other'

/-- When the interface description was taken too and the staged copy is gone, the outputs are
promoted. -/
theorem promoted (level : there.length = here.length)
    (taken : Taken directory stem interfaceExt here there v₂ interface v₃)
    (gone : Fits (beside directory stem ext) → v₄ (stagedAt here stem ext) = none)
    (kept : ∀ z, z ≠ stagedAt here stem ext → v₄ z = v₃ z) :
    Promoted directory stem ext here there b x v
      { bytecode := some (Layout.promoted directory stem bytecodeExt), interface
        transport := some (Layout.promoted directory stem transportExt) } v₄ := by
  have outside (name : Text) : ¬ here ++ [name] <+: there := not_above level
  have keptBuilt (e : Text) (mem : e ∈ [bytecodeExt, transportExt, interfaceExt]) :
      v₄ (builtAt there stem e) = v₃ (builtAt there stem e) :=
    kept _ (staged_ne_built here there stem source (by simp) mem).symm
  have early (e : Text) (mem : e ∈ [bytecodeExt, transportExt, interfaceExt])
      (other : e ≠ interfaceExt) : v₄ (builtAt there stem e) = v₂ (builtAt there stem e) := by
    rw [keptBuilt e mem, taken.apart _ (staged_ne_built here there stem source (by simp) mem).symm
      (builtAt_ne there stem other) (not_above rfl)]
  exact
    { building := fun front above => by
        rw [kept front fun same => outside _ (same ▸ above),
          taken.building (.inl half.building) front above]
      staging := fun front above => by
        rw [kept front fun same => not_above rfl (same ▸ above), taken.staging front above]
      bytecode := by rw [early _ (by simp) (by decide), half.bytecode]
      transport := by rw [early _ (by simp) (by decide), half.transport]
      interface := fun n given fits => by
        rw [keptBuilt _ (by simp)]
        exact taken.arrived n ((half.staged source level (by simp) (by decide)).trans given) fits
      named := ⟨rfl, rfl⟩
      gone := by
        intro e listed fits
        by_cases own : e = ext
        · exact own ▸ gone (own ▸ fits)
        rw [kept _ (stagedAt_ne here stem own)]
        by_cases last : e = interfaceExt
        · exact last ▸ taken.gone (last ▸ fits)
        obtain rfl : e = bytecodeExt := by simpa [own, last] using listed
        rw [taken.apart _ (stagedAt_ne here stem last)
          (staged_ne_built here there stem source (by simp) (by simp)) (outside _), half.gone]
      apart := fun z left built above => by
        rw [kept z (left ext (by simp)), taken.apart z (left _ (by simp)) (built _ (by simp)) above,
          half.apart z (left _ (by simp)) (fun e mem => built e (by
            rcases List.mem_cons.mp mem with rfl | mem
            · simp
            · simp [List.mem_singleton.mp mem])) above] }

end Transported

namespace Staging

variable {s : Staging} (layout : s.layout = {}) (out : Outputs directory stem ext lead here there)
include layout out

/-- An output is promoted if it is there. -/
theorem promoteOutput_turns (listed : e ∈ extensions) (mem : stagedAt here stem e ∈ σ.spots)
    (mem' : builtAt there stem e ∈ σ.spots) (stands : v.Stands here) (way : v.Open σ.denied there)
    (allowed : here ∉ σ.denied)
    (allowed' : there ∉ σ.denied) (can : ∀ n, v (stagedAt here stem e) = some n →
      Fits (beside directory stem e) →
      Fits (promoted directory stem e) ∧ n.CanReplace (v (builtAt there stem e)) ∧
        (n = .directory → stagedAt here stem e ∉ σ.denied)) :
    ∃ taken v', σ.Turns v (s.promoteOutput (directory ++ '/' :: (stem ++ ext)) e) taken v' ∧
      Taken directory stem e here there v taken v' := by
  by_cases given : ∃ n, v (stagedAt here stem e) = some n ∧ Fits (beside directory stem e)
  · obtain ⟨n, given, fits⟩ := given
    obtain ⟨fits', free, still⟩ := can n given fits
    have other : stagedAt here stem e ≠ builtAt there stem e :=
      stagedAt_ne_builtAt here there stem (by omega)
    have level := out.level
    refine ⟨_, _, promoteOutput_there layout out listed mem mem' fits fits'
      stands way allowed allowed' given still free, ?_, ?_, ?_,
      fun _ => View.move_source, fun z left gone apart => ?_⟩
    · exact (stands.pave there).move (not_above rfl) (not_above level.symm)
    · exact fun _ => (View.stands_pave v there).move (not_above level) (not_above rfl)
    · intro n' given' _
      obtain rfl := Option.some.inj (given.symm.trans given')
      rw [View.move_target other, View.pave_apart (not_above level), given]
      exact ⟨rfl, rfl⟩
    · rw [View.move_of_ne left gone, View.pave_apart apart]
  · have absent : Fits (beside directory stem e) → v (stagedAt here stem e) = none := by
      intro fits
      cases found : v (stagedAt here stem e) with
      | none => rfl
      | some n => exact absurd ⟨n, found, fits⟩ given
    refine ⟨_, _, promoteOutput_absent layout out listed mem absent, stands, ?_, ?_, absent,
      fun z _ _ _ => rfl⟩
    · rintro (stands | none)
      · exact stands
      · cases none
    · exact fun n given' fits => absurd ⟨n, given', fits⟩ given

omit layout in
/-- A staged copy is removed if it is there, before anything else goes on. -/
theorem dropStaged_turns {α : Type} (listed : ext ∈ extensions)
    (mem : stagedAt here stem ext ∈ σ.spots) (stands : v.Stands here)
    (allowed : here ∉ σ.denied) (file : v (stagedAt here stem ext) ≠ some .directory) :
    ∃ v', (∀ {rest : Action α} {a : α} {v'' : View}, σ.Turns v' rest a v'' → σ.Turns v (do
        if ← Action.look FileSystem.isThere (beside directory stem ext) then
          removeStaged (beside directory stem ext)
        rest) a v'') ∧ (Fits (beside directory stem ext) → v' (stagedAt here stem ext) = none) ∧
      ∀ z, z ≠ stagedAt here stem ext → v' z = v z := by
  by_cases given : ∃ n, v (stagedAt here stem ext) = some n ∧ Fits (beside directory stem ext)
  · obtain ⟨n, given, fits⟩ := given
    cases n with
    | directory => exact absurd given file
    | file content x =>
      have removed := removeStaged_turns out listed mem fits stands allowed given
      refine ⟨_, fun after => (Site.Turns.look (a := true) fun h at_ => ?_).bind
        (removed.bind after),
        fun _ => View.clear_self, fun z => View.clear_of_ne⟩
      rw [out.beside_eq ext listed] at fits ⊢
      unfold FileSystem.isThere
      rw [(at_.find_iff (out.besideRow ext listed) mem stands fits).mpr given]
      rfl
  · have absent : Fits (beside directory stem ext) → v (stagedAt here stem ext) = none := by
      intro fits
      cases found : v (stagedAt here stem ext) with
      | none => rfl
      | some n => exact absurd ⟨n, found, fits⟩ given
    refine ⟨v, fun after => (Site.Turns.look (a := false) fun h at_ => ?_).bind after, absent,
      fun _ _ => rfl⟩
    rw [out.beside_eq ext listed] at absent ⊢
    exact at_.not_isThere (out.besideRow ext listed) mem absent

/-- **The bytecode goes first**, and its second form is written. -/
theorem bytecode_turns {b : Bytes} {x : Mode} (source : ext ∈ [".sol".toList, ".tsol".toList])
    (mem : ∀ e ∈ [bytecodeExt, interfaceExt, ext], stagedAt here stem e ∈ σ.spots)
    (mem' : ∀ e ∈ [bytecodeExt, transportExt, interfaceExt], builtAt there stem e ∈ σ.spots)
    (can : Promotable directory stem ext here there σ.denied b x v) :
    ∃ v₁ v₂, σ.Turns v (s.promoteOutput (directory ++ '/' :: (stem ++ ext)) bytecodeExt)
        (some (promoted directory stem bytecodeExt)) v₁ ∧
      σ.Turns v₁ (writeTransport (promoted directory stem bytecodeExt))
        (some (promoted directory stem transportExt)) v₂ ∧
      Transported directory stem here there b x v v₂ := by
  obtain ⟨bytecodeFits, bytecodeFits', transportFits⟩ := can.fits
  have inside (name : Text) : ¬ there ++ [name] <+: there := not_above rfl
  have moves : ∀ n, v (stagedAt here stem bytecodeExt) = some n →
      Fits (beside directory stem bytecodeExt) → Fits (promoted directory stem bytecodeExt) ∧
        n.CanReplace (v (builtAt there stem bytecodeExt)) ∧
          (n = .directory → stagedAt here stem bytecodeExt ∉ σ.denied) := by
    intro n given _
    obtain rfl := Option.some.inj (can.bytecode.symm.trans given)
    exact ⟨bytecodeFits', Node.canReplace_file can.free, nofun⟩
  obtain ⟨bytecode, v₁, first, taken⟩ := promoteOutput_turns layout out (e := bytecodeExt)
    (by decide) (mem bytecodeExt (by simp)) (mem' bytecodeExt (by simp)) can.stands can.way
    can.staging can.building moves
  obtain ⟨arrived, rfl⟩ := taken.arrived _ can.bytecode bytecodeFits
  have building := taken.building (.inr rfl)
  have occupant : v₁ (builtAt there stem transportExt) = v (builtAt there stem transportExt) :=
    taken.apart _ (staged_ne_built here there stem source (by simp) (by simp)).symm
      (builtAt_ne there stem (by decide)) (inside _)
  have second := writeTransport_turns out (mem' bytecodeExt (by simp)) (mem' transportExt (by simp))
    bytecodeFits' transportFits building arrived (occupant ▸ can.room) can.readable can.building
  refine ⟨v₁, _, first, second, ?_⟩
  exact
    { staging := taken.staging.write (not_above out.level.symm)
      building := building.write (inside _)
      bytecode := by rw [View.write_of_ne (builtAt_ne there stem (by decide)), arrived]
      transport := by rw [View.write_self, occupant]
      gone := by
        rw [View.write_of_ne (staged_ne_built here there stem source (by simp) (by simp)),
          taken.gone bytecodeFits]
      apart := fun z left built above => by
        rw [View.write_of_ne (built _ (by simp)), taken.apart z left (built _ (by simp)) above] }

/-- **Outputs that can be promoted are promoted.** -/
theorem promote_turns {b : Bytes} {x : Mode} (source : ext ∈ [".sol".toList, ".tsol".toList])
    (mem : ∀ e ∈ [bytecodeExt, interfaceExt, ext], stagedAt here stem e ∈ σ.spots)
    (mem' : ∀ e ∈ [bytecodeExt, transportExt, interfaceExt], builtAt there stem e ∈ σ.spots)
    (can : Promotable directory stem ext here there σ.denied b x v) :
    ∃ artifact v', σ.Turns v (s.promote (directory ++ '/' :: (stem ++ ext))) artifact v' ∧
      Promoted directory stem ext here there b x v artifact v' := by
  obtain ⟨v₁, v₂, first, second, half⟩ := bytecode_turns layout out source mem mem' can
  -- Neither step touched the interface description or what may stand where it goes.
  have waiting : v₂ (stagedAt here stem interfaceExt) = v (stagedAt here stem interfaceExt) :=
    half.staged source out.level (by simp) (by decide)
  have occupant : v₂ (builtAt there stem interfaceExt) = v (builtAt there stem interfaceExt) :=
    half.built source (by simp) (by decide) (by decide)
  obtain ⟨interface, v₃, third, taken⟩ := promoteOutput_turns layout out (e := interfaceExt)
    (by decide) (mem interfaceExt (by simp)) (mem' interfaceExt (by simp)) half.staging
    (half.building.way _) can.staging can.building (by rw [waiting, occupant]; exact can.interface)
  have copied : v₃ (stagedAt here stem ext) = v (stagedAt here stem ext) := by
    obtain ⟨other, other'⟩ := ne_outputs source
    rw [taken.apart _ (stagedAt_ne here stem other')
        (staged_ne_built here there stem source (by simp) (by simp)) (not_above out.level),
      half.staged source out.level (by simp) other]
  obtain ⟨v₄, fourth, gone, kept⟩ := dropStaged_turns out (Layout.mem_extensions source)
    (mem ext (by simp)) taken.staging can.staging (copied ▸ can.source)
  refine ⟨{ bytecode := some (promoted directory stem bytecodeExt), interface
            transport := some (promoted directory stem transportExt) }, v₄, ?_,
    half.promoted source out.level taken gone kept⟩
  have copy : s.layout.stagedPath (directory ++ '/' :: (stem ++ ext)) =
      beside directory stem ext := by
    rw [layout, out.copy]
  unfold promote
  rw [copy]
  exact first.bind (second.bind (third.bind (fourth (.pure _))))

end Staging
end ContractCheck
