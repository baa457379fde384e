import ContractCheck.Proofs.Host.Touching
import ContractCheck.Proofs.Layout.Stems
import ContractCheck.Proofs.Staging.Promoting

/-! # The steps of a promotion

A promotion moves the bytecode, writes it in base64, moves the interface description and removes the
staged copy (`Staging.promote_of_steps`).  Each step touches the places that it is about, if there
is something to do, and nothing else: `promoteOutput_turned`, `writeTransport_touches`,
`clearStaged_touches`.
-/
namespace ContractCheck

open ContractCheck.Action
open FileSystem (placeOf folderOf Fits)
open Layout (Stem extensions bytecodeExt interfaceExt transportExt)

variable {h h' h₁ : Host} {made : Place → Prop} {σ : List Place}

/-- A file with other bytes is a file with these. -/
theorem Node.rewritten_file (content : Bytes) (n : Option Node) :
    ∃ x, Node.rewritten content n = .file content x := by
  match n with
  | none => exact ⟨_, rfl⟩
  | some (.file ..) => exact ⟨_, rfl⟩
  | some .directory => exact ⟨_, rfl⟩

/-- A file that is found can be read if its mode says so. -/
theorem FileSystem.read_found {fs : FileSystem} {cwd p : Place} {path : Text}
    {content : Bytes} {x : Mode} (found : fs.find cwd path = .ok (p, .file content x))
    (readable : x.readable = true) :
    fs.read cwd path = .ok content := by
  unfold read
  rw [found]
  exact if_pos readable

namespace Staging

section Paths

variable (s : Staging) (path : Text)

/-- The path of an output beside the staged copy of a source. -/
def outputPath (e : Text) : Text := Layout.replaceExtension (s.layout.stagedPath path) e

/-- The path that the bytecode of a source is written to in base64. -/
def transportPath : Text :=
  Layout.replaceExtension (s.layout.buildPath path bytecodeExt) transportExt

/-- The directory that is made for the outputs of a source. -/
def buildDirectory : Text := Path.Posix.parent (s.layout.buildPath path bytecodeExt)

end Paths

variable {s : Staging} {path ext stem : Text}

/-! ## The steps of a promotion -/

/-- Writes the bytecode in base64 if it was promoted. -/
def transported : Option Text → Action (Option Text)
  | some target => writeTransport target
  | none => pure none

/-- Removes the staged copy of a source if it is there. -/
def clearStaged (s : Staging) (path : Text) : Action Unit := do
  if ← Action.look FileSystem.isThere (s.layout.stagedPath path) then
    removeStaged (s.layout.stagedPath path)

theorem perform_look (p : Text) (h : Host) :
    (Action.look FileSystem.isThere p).perform h = (.ok (h.files.isThere h.cwd p), h) := by
  unfold Action.look
  rw [perform_bind_ok (perform_get h)]
  rfl

/-- A promotion is its four steps. -/
theorem promote_of_steps {bytecode transport interface : Option Text} {h₁ h₂ h₃ h₄ : Host}
    (first : (s.promoteOutput path bytecodeExt).perform h = (.ok bytecode, h₁))
    (second : (transported bytecode).perform h₁ = (.ok transport, h₂))
    (third : (s.promoteOutput path interfaceExt).perform h₂ = (.ok interface, h₃))
    (fourth : (s.clearStaged path).perform h₃ = (.ok ⟨⟩, h₄)) :
    (s.promote path).perform h = (.ok { bytecode, interface, transport }, h₄) := by
  have last : (do
      let interface ← s.promoteOutput path interfaceExt
      if ← Action.look FileSystem.isThere (s.layout.stagedPath path) then
        removeStaged (s.layout.stagedPath path)
      pure { bytecode, interface, transport } : Action Artifact).perform h₂ =
      (.ok { bytecode, interface, transport }, h₄) := by
    unfold clearStaged at fourth
    rw [perform_bind_ok (perform_look _ h₃)] at fourth
    rw [perform_bind_ok third]
    dsimp only
    rw [perform_bind_ok (perform_look _ h₃)]
    cases there : h₃.files.isThere h₃.cwd (s.layout.stagedPath path) with
    | true =>
      rw [there, if_pos rfl] at fourth
      rw [if_pos rfl, perform_bind_ok fourth]
      rfl
    | false =>
      rw [there, if_neg Bool.false_ne_true] at fourth
      obtain rfl := (Prod.mk.inj fourth).2
      rfl
  unfold promote
  rw [perform_bind_ok first, ← last]
  cases bytecode <;> exact perform_bind_ok second

theorem promoteOutput_none {e : Text}
    (absent : h.files.isThere h.cwd (s.outputPath path e) = false) :
    (s.promoteOutput path e).perform h = (.ok none, h) := by
  have seen := perform_look (s.outputPath path e) h
  rw [absent] at seen
  exact (perform_bind_ok seen).trans rfl

theorem clearStaged_absent (absent : h.files.isThere h.cwd (s.layout.stagedPath path) = false) :
    (s.clearStaged path).perform h = (.ok ⟨⟩, h) := by
  have seen := perform_look (s.layout.stagedPath path) h
  rw [absent] at seen
  exact (perform_bind_ok seen).trans rfl

/-- Where nothing is found, a promotion does nothing. -/
theorem promote_nothing (absent : ∀ e ∈ [bytecodeExt, interfaceExt],
    h.files.isThere h.cwd (s.outputPath path e) = false)
    (source : h.files.isThere h.cwd (s.layout.stagedPath path) = false) :
    (s.promote path).perform h = (.ok {}, h) :=
  promote_of_steps (promoteOutput_none (absent bytecodeExt (by simp)))
    (show (transported none).perform h = (.ok none, h) from rfl)
    (promoteOutput_none (absent interfaceExt (by simp)))
    (clearStaged_absent source)

/-! ## Places -/

/-- What is beside the staged copy is at no place of the build directory, even if these are one
directory. -/
theorem marked_ne_built (own : Stem s.layout path ext stem) {e e' : Text}
    (listed : e ∈ extensions) (listed' : e' ∈ extensions)
    (here there : Place) : builtAt here (s.layout.marker ++ stem) e ≠ builtAt there stem e' := by
  intro same
  have names := congrArg List.getLast? same
  rw [List.getLast?_concat, List.getLast?_concat] at names
  exact Layout.marked_ne own.marker listed listed' (Option.some.inj names)

section Stem

variable (own : Stem s.layout path ext stem) {e : Text}
include own

theorem output_inside (listed : e ∈ extensions) :
    Path.InDirectory (s.outputPath path e) (s.layout.stagingOf path)
    (s.layout.marker ++ stem ++ e) := own.output e listed

theorem transport_inside :
    Path.InDirectory (s.transportPath path) (s.layout.buildingOf path) (stem ++ transportExt) :=
  own.transport

theorem output_place (listed : e ∈ extensions) (cwd : Place) :
    placeOf cwd (s.outputPath path e) = builtAt (folderOf cwd (s.layout.stagingOf path))
      (s.layout.marker ++ stem) e :=
  (output_inside own listed).placeOf cwd

theorem target_place (listed : e ∈ extensions) (cwd : Place) :
    placeOf cwd (s.layout.buildPath path e) =
      builtAt (folderOf cwd (s.layout.buildingOf path)) stem e :=
  (own.target e listed).placeOf cwd

theorem transport_place (cwd : Place) :
    placeOf cwd (s.transportPath path) = builtAt (folderOf cwd (s.layout.buildingOf path)) stem
      transportExt :=
  (transport_inside own).placeOf cwd

theorem staged_place (cwd : Place) :
    placeOf cwd (s.layout.stagedPath path) =
    builtAt (folderOf cwd (s.layout.stagingOf path)) (s.layout.marker ++ stem) ext :=
  own.staged.placeOf cwd

theorem parent_target (listed : e ∈ extensions) :
    Path.Posix.parent (s.layout.buildPath path e) = s.buildDirectory path := by
  rw [buildDirectory, (own.target e listed).parent, (own.target bytecodeExt (by decide)).parent]

end Stem

/-! ## Moving an output -/

/-- A host in which the build directory of a source has been made. -/
structure Opens (s : Staging) (path : Text) (σ : List Place) (made : Place → Prop) (h h₁ : Host) :
    Prop where
  done : (Action.makeDirectories (s.buildDirectory path)).perform h = (.ok ⟨⟩, h₁)
  apart : h₁.Apart σ
  touches : h.Touches (fun _ => False) made h₁
  building : h₁.files.Standing h₁.cwd (s.layout.buildingOf path)

variable {e : Text} {n : Node} {p : Place}

/-- What is found beside the staged copy is still found when the build directory is made. -/
theorem Opens.find (opens : s.Opens path σ made h h₁) (own : Stem s.layout path ext stem)
    (listed : e ∈ extensions) (apart : h.Apart σ) (mem : placeOf h.cwd (s.outputPath path e) ∈ σ)
    (found : h.files.find h.cwd (s.outputPath path e) = .ok (p, n)) :
    h₁.files.find h₁.cwd (s.outputPath path e) = .ok (p, n) := by
  have inside := output_inside own listed
  obtain ⟨nameable, staging, rfl, there⟩ := inside.find_iff.mp found
  have staging₁ := opens.touches.standing apart (fun _ => False.elim) staging
  refine inside.find_iff.mpr ⟨nameable, staging₁, by rw [opens.touches.cwd], ?_⟩
  rw [← inside.placeOf h.cwd] at there ⊢
  rw [← there]
  exact opens.touches.same apart opens.apart mem not_false

/-- **An output that is found is moved.** -/
theorem move_touches (own : Stem s.layout path ext stem) (listed : e ∈ extensions)
    (apart : h.Apart σ) (mem : placeOf h.cwd (s.outputPath path e) ∈ σ)
    (mem' : placeOf h.cwd (s.layout.buildPath path e) ∈ σ) (opens : s.Opens path σ made h h₁)
    (found : h.files.find h.cwd (s.outputPath path e) = .ok (p, n))
    (fits : Fits (s.layout.buildPath path e))
    (allowed : (placeOf h.cwd (s.outputPath path e)).dropLast ∉ h.files.denied)
    (allowed' : (placeOf h.cwd (s.layout.buildPath path e)).dropLast ∉ h.files.denied) :
    ∃ h', (move (s.outputPath path e) (s.layout.buildPath path e)).perform h = (.ok true, h') ∧
      h'.Apart σ ∧
      h.Touches (fun q => q = placeOf h.cwd (s.outputPath path e) ∨
        q = placeOf h.cwd (s.layout.buildPath path e)) made h' ∧
      h'.files.Standing h'.cwd (s.layout.buildingOf path) ∧
      h'.files.get? (placeOf h.cwd (s.layout.buildPath path e)) = some n ∧
      h'.files.get? (placeOf h.cwd (s.outputPath path e)) = none := by
  have cwd := opens.touches.cwd
  have target := target_place own listed h.cwd
  obtain ⟨led₁, there₁⟩ := FileSystem.find_iff.mp (opens.find own listed apart mem found)
  obtain rfl : p = placeOf h.cwd (s.outputPath path e) :=
    FileSystem.resolve_place (FileSystem.find_iff.mp found).1
  have led₂ : h₁.files.resolve h₁.cwd (s.layout.buildPath path e) =
    .ok (placeOf h.cwd (s.layout.buildPath path e)) := by
    have inside := own.target e listed
    exact inside.resolve_iff.mpr ⟨inside.nameable fits, opens.building, by rw [cwd, inside.placeOf]⟩
  have stands : h₁.files.get? (folderOf h.cwd (s.layout.buildingOf path)) = some .directory :=
    cwd ▸ opens.building.directory
  have other : placeOf h.cwd (s.outputPath path e) ≠ placeOf h.cwd (s.layout.buildPath path e) := by
    rw [output_place own listed, target]
    exact marked_ne_built own listed listed _ _
  have free : n.CanReplace (h₁.files.get? (placeOf h.cwd (s.layout.buildPath path e))) := by
    cases n with
    | directory => exact absurd there₁ (opens.apart.free _ mem)
    | file content x => exact Node.canReplace_file (opens.apart.free _ mem')
  rw [target] at mem' led₂ other free allowed' ⊢
  have still : placeOf h.cwd (s.outputPath path e) ∉ h₁.files.denied := fun denied =>
    opens.apart.free _ mem (FileSystem.directory_of_denied denied)
  have moved := FileSystem.move_done led₁ there₁ led₂ other
    (fun above => other (opens.apart.eq_of_above mem stands above)) still
    (opens.touches.denied ▸ allowed) (opens.touches.denied ▸ allowed') free
  obtain ⟨apart₂, touches₂, arrived, gone⟩ := opens.apart.relocate mem mem' other stands there₁ made
  obtain ⟨h₃, logged, apart₃, touches₃⟩ := apart₂.write made .debug owner.toList
    ("Promoted ".toList ++ s.outputPath path e ++ " -> ".toList ++ s.layout.buildPath path e) []
  refine ⟨h₃, ?_, apart₃, ?_, ?_, ?_, ?_⟩
  · have changed := perform_attempt (fun fs cwd p => fs.move cwd p (s.layout.buildPath path e))
      (s.outputPath path e) h₁
    rw [moved] at changed
    unfold move
    rw [parent_target own listed, perform_bind_ok
      (perform_orSystem_ok ((perform_bind_ok opens.done).trans
      ((perform_bind_ok changed).trans rfl))), if_pos rfl]
    exact (perform_bind_ok logged).trans rfl
  · exact ((opens.touches.mono fun _ => False.elim).trans touches₂).trans
      (touches₃.mono fun _ => False.elim)
  · have building :=
      touches₂.standing opens.apart (by rintro q (rfl | rfl) <;> assumption) opens.building
    exact touches₃.standing apart₂ (fun _ => False.elim) building
  · exact (touches₃.same apart₂ apart₃ mem' not_false).trans arrived
  · exact (touches₃.same apart₂ apart₃ mem not_false).trans gone

/-- What the turn of an output comes to: it is moved if it is found, and passed over if not. -/
structure Turned (s : Staging) (path e : Text) (σ : List Place) (made : Place → Prop) (h : Host)
    (taken : Option Text) (h' : Host) :
    Prop where
  apart : h'.Apart σ
  touches : h.Touches (fun q => h.files.isThere h.cwd (s.outputPath path e) = true ∧
    (q = placeOf h.cwd (s.outputPath path e) ∨ q = placeOf h.cwd (s.layout.buildPath path e))) made
      h'
  moved : ∀ p n, h.files.find h.cwd (s.outputPath path e) = .ok (p, n) →
    taken = some (s.layout.buildPath path e) ∧
    h'.files.Standing h'.cwd (s.layout.buildingOf path) ∧
    h'.files.get? (placeOf h.cwd (s.layout.buildPath path e)) = some n ∧
    h'.files.get? (placeOf h.cwd (s.outputPath path e)) = none
  absent : h.files.isThere h.cwd (s.outputPath path e) = false → taken = none ∧ h' = h

/-- **The turn of an output.** -/
theorem promoteOutput_turned (own : Stem s.layout path ext stem) (listed : e ∈ extensions)
    (apart : h.Apart σ) (mem : placeOf h.cwd (s.outputPath path e) ∈ σ)
    (mem' : placeOf h.cwd (s.layout.buildPath path e) ∈ σ)
    (opens : h.files.isThere h.cwd (s.outputPath path e) = true → ∃ h₁, s.Opens path σ made h h₁)
    (fits : h.files.isThere h.cwd (s.outputPath path e) = true → Fits (s.layout.buildPath path e))
    (allowed : (placeOf h.cwd (s.outputPath path e)).dropLast ∉ h.files.denied)
    (allowed' : (placeOf h.cwd (s.layout.buildPath path e)).dropLast ∉ h.files.denied) :
    ∃ taken h', (s.promoteOutput path e).perform h = (.ok taken, h') ∧
      s.Turned path e σ made h taken h' := by
  rcases h.files.found_or_absent h.cwd (s.outputPath path e) with
    ⟨p, n, found, there⟩ | ⟨missing, absent⟩
  · obtain ⟨h₁, opens⟩ := opens there
    obtain ⟨h', performed, apart', touches, building, arrived, gone⟩ :=
      move_touches own listed apart mem mem' opens found (fits there) allowed allowed'
    have seen := perform_look (s.outputPath path e) h
    rw [there] at seen
    refine ⟨_, h', (perform_bind_ok seen).trans ((perform_bind_ok performed).trans rfl), apart',
      touches.mono fun q inside => ⟨there, inside⟩, fun p' n' found' => ?_, fun absent => ?_⟩
    · obtain ⟨-, rfl⟩ := Prod.mk.inj (Except.ok.inj (found.symm.trans found'))
      exact ⟨rfl, building, arrived, gone⟩
    · cases there.symm.trans absent
  · exact ⟨none, h, promoteOutput_none absent, apart, .refl ..,
      fun p n found => absurd found (missing p n), fun _ => ⟨rfl, rfl⟩⟩

/-! ## Writing the bytecode in base64 -/

/-- **The bytecode that was promoted is written in base64.** -/
theorem writeTransport_touches (made : Place → Prop) (own : Stem s.layout path ext stem)
    (apart : h.Apart σ) (mem' : placeOf h.cwd (s.transportPath path) ∈ σ)
    (building : h.files.Standing h.cwd (s.layout.buildingOf path))
    {b : Bytes} {x : Mode} (given : h.files.get?
      (placeOf h.cwd (s.layout.buildPath path bytecodeExt)) = some (.file b x))
    (fits : Fits (s.layout.buildPath path bytecodeExt)) (fits' : Fits (s.transportPath path))
    (readable : x.readable = true)
    (writable : ∀ n, h.files.get? (placeOf h.cwd (s.transportPath path)) = some n →
      n.writable = true)
    (allowed : (placeOf h.cwd (s.transportPath path)).dropLast ∉ h.files.denied) :
    ∃ h' x', (writeTransport (s.layout.buildPath path bytecodeExt)).perform h =
    (.ok (some (s.transportPath path)), h') ∧
      h'.Apart σ ∧ h.Touches (· = placeOf h.cwd (s.transportPath path)) made h' ∧
      h'.files.get? (placeOf h.cwd (s.transportPath path)) =
        some (.file (Utf8.encode (Text.Base64.encode b)) x') := by
  have source := own.target bytecodeExt (by decide)
  have target := transport_inside own
  have led := source.resolve_tidy (source.resolve_iff.mpr ⟨source.nameable fits, building, rfl⟩)
  have led' := target.resolve_tidy (target.resolve_iff.mpr ⟨target.nameable fits', building, rfl⟩)
  rw [← source.placeOf] at led
  have read : (Action.readFile (Path.Posix.tidy (s.layout.buildPath path bytecodeExt))).perform h =
      (.ok b, h) :=
    Action.readFile_ok (FileSystem.read_found (FileSystem.find_iff.mpr ⟨led, given⟩) readable)
  have place := transport_place own h.cwd
  rw [place] at mem' writable allowed ⊢
  have wrote {content : Bytes} :
      h.files.write h.cwd (Path.Posix.tidy (s.transportPath path)) content = _ :=
    FileSystem.write_done target.tidy_open led' writable fun _ => allowed
  obtain ⟨x', file⟩ := Node.rewritten_file (Utf8.encode (Text.Base64.encode b))
    (h.files.get? (builtAt (folderOf h.cwd (s.layout.buildingOf path)) stem transportExt))
  have changed := perform_change_ok (h := h)
    (f := fun fs cwd p => fs.write cwd p (Utf8.encode (Text.Base64.encode b))) wrote
  rw [file] at changed
  obtain ⟨apart', touches⟩ := apart.set made mem' building.directory
    (Utf8.encode (Text.Base64.encode b)) x'
  refine ⟨_, x', ?_, apart', touches, FileSystem.get?_set_self _ _ (by simp)⟩
  exact perform_orSystem_ok ((perform_bind_ok read).trans ((perform_bind_ok changed).trans rfl))

/-! ## Removing the staged copy -/

/-- A staged copy that is there is removed. -/
theorem clearStaged_touches (made : Place → Prop) (own : Stem s.layout path ext stem)
    (apart : h.Apart σ) (mem : placeOf h.cwd (s.layout.stagedPath path) ∈ σ)
    (allowed : (placeOf h.cwd (s.layout.stagedPath path)).dropLast ∉ h.files.denied) :
    ∃ h', (s.clearStaged path).perform h = (.ok ⟨⟩, h') ∧ h'.Apart σ ∧
      h.Touches (fun q => h.files.isThere h.cwd (s.layout.stagedPath path) = true ∧
        q = placeOf h.cwd (s.layout.stagedPath path))
        made h' ∧
      (h.files.isThere h.cwd (s.layout.stagedPath path) = true →
        h'.files.get? (placeOf h.cwd (s.layout.stagedPath path)) = none) ∧
      (h.files.isThere h.cwd (s.layout.stagedPath path) = false → h' = h) := by
  cases there : h.files.isThere h.cwd (s.layout.stagedPath path) with
  | false => exact ⟨h, clearStaged_absent there, apart, .refl .., nofun, fun _ => rfl⟩
  | true =>
    obtain ⟨nameable, staging, given⟩ := own.staged.isThere_iff.mp there
    rw [← own.staged.placeOf] at given
    obtain ⟨n, given⟩ := Option.ne_none_iff_exists'.mp given
    have led := own.staged.resolve_iff.mpr ⟨nameable, staging, rfl⟩
    rw [← own.staged.placeOf] at led
    cases n with
    | directory => exact absurd given (apart.free _ mem)
    | file content x =>
      have removed := perform_change_ok (h := h) (f := FileSystem.remove)
        (FileSystem.remove_done led given allowed)
      obtain ⟨apart₁, touches₁, gone⟩ := apart.erase made mem
      obtain ⟨h', logged, apart₂, touches₂⟩ := apart₁.write made .debug owner.toList
        ("Removed staged source ".toList ++ s.layout.stagedPath path) []
      have seen := perform_look (s.layout.stagedPath path) h
      rw [there] at seen
      refine ⟨h', ?_, apart₂, ?_, fun _ => ?_, nofun⟩
      · exact (perform_bind_ok seen).trans
          (perform_orSystem_ok ((perform_bind_ok removed).trans logged))
      · exact (touches₁.mono fun q same => ⟨rfl, same⟩).trans (touches₂.mono fun _ => False.elim)
      · exact (touches₂.same apart₁ apart₂ mem not_false).trans gone

end Staging
end ContractCheck
