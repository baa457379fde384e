import ContractCheck.Proofs.Compilation.Linking
import ContractCheck.Proofs.Layout.Naming
import ContractCheck.Proofs.Staging.Promoting

/-! # From the linker to the build directory

The linker says which file it made.  That file becomes the bytecode beside the staged copy, and from
there it is promoted: what is in the build directory then, as it is and in base64, are the bytes
that the linker wrote (`Compilation.run_promote`).
-/
namespace ContractCheck

open ContractCheck.Action
open FileSystem (Fits placeOf above_of_concat)
open Layout (Original Outputs extensions bytecodeExt interfaceExt transportExt
  codeExt beside promoted toStagingDir toBuildDir)
open ContractCheck.Path (Row slashed)

variable {h h' : Host} {σ : Site} {v : View} {directory stem ext leaf e : Text}
  {lead here there : List Text} {b : Bytes} {x : Mode}

/-! ## Paths of a compilation -/

namespace Layout.Outputs

variable (out : Outputs directory stem ext lead here there)
  (source : ext ∈ [".sol".toList, ".tsol".toList])
include out source

theorem basename : Path.Posix.basename (beside directory stem ext) = '~' :: (stem ++ ext) :=
  Path.basename_join _ ((out.besideRow ext (mem_extensions source)).plain _ (by simp))

theorem directoryOf :
    Compilation.directoryOf (beside directory stem ext) = slashed (lead ++ here) := by
  have bare :=
    (out.besideRow ext (mem_extensions source)).plain _ (List.mem_append_right _ List.mem_cons_self)
  have some : (slashed (lead ++ here)).isEmpty = false := by
    rw [Path.slashed_eq_join (List.append_ne_nil_of_right_ne_nil _ out.stagingRow.given)]
    rfl
  rw [Compilation.directoryOf, out.beside_eq ext (mem_extensions source),
    out.stagingRow.dirname bare]
  exact if_neg (Bool.eq_false_iff.mp some)

theorem targetOf (h : Host) :
    Compilation.targetOf h (beside directory stem ext) none = slashed (lead ++ here) := by
  show Path.Posix.absolute h.directory (Compilation.directoryOf (beside directory stem ext)) = _
  rw [out.directoryOf source, Path.Posix.absolute, Path.Posix.join, if_pos out.stagingRow.absolute,
    out.stagingRow.normalise]

theorem outputOf (e : Text) :
    Compilation.outputOf (beside directory stem ext) (slashed (lead ++ here)) e =
      beside directory stem e := by
  have front : replaceExtension ('~' :: stem ++ ext) e = '~' :: stem ++ e := by
    simp only [List.mem_cons, List.not_mem_nil, or_false] at source
    rcases source with rfl | rfl <;> exact replaceExtension_append (by decide) (by decide) e
  rw [Compilation.outputOf, out.basename source, ← out.staging]
  exact congrArg (Path.Posix.join (toStagingDir {} directory)) front

theorem isSource :
    Compilation.sourceExtensions.contains
    (Path.Posix.extension (Path.Posix.basename (beside directory stem ext))) = true := by
  have bare :=
    (out.besideRow ext (mem_extensions source)).plain _ (List.mem_append_right _ List.mem_cons_self)
  rw [out.basename source]
  simp only [List.mem_cons, List.not_mem_nil, or_false] at source
  rcases source with rfl | rfl
  · have known : Path.Posix.extension ('~' :: (stem ++ ".sol".toList)) = ".sol".toList :=
      (extension_eq_iff bare (by decide) (by decide)).mpr (List.suffix_append _ _)
    rw [known]
    decide
  · have known : Path.Posix.extension ('~' :: (stem ++ ".tsol".toList)) = ".tsol".toList :=
      (extension_eq_iff bare (by decide) (by decide)).mpr (List.suffix_append _ _)
    rw [known]
    decide

end Layout.Outputs

/-! ## The file that the linker made -/

/-- What stands at the outputs once the file that the linker made has been given its name. -/
structure Placed (here : Place) (stem leaf : Text) (b : Bytes) (x : Mode) (v v' : View) : Prop where
  bytecode : v' (stagedAt here stem bytecodeExt) = some (.file b x)
  gone : here ++ [leaf] ≠ stagedAt here stem bytecodeExt → v' (here ++ [leaf]) = none
  apart : ∀ z, z ≠ here ++ [leaf] → z ≠ stagedAt here stem bytecodeExt →
    z ≠ stagedAt here stem codeExt → v' z = v z

namespace Compilation

variable {c : Compilation} {file target out name : Text}

/-- The file is given its name, which may be the one that it has. -/
theorem rename_placed {path : Text} (row : Row lead (stagedAt here stem bytecodeExt))
    (fits : Fits (slashed (lead ++ stagedAt here stem bytecodeExt)))
    (mem : here ++ [leaf] ∈ σ.spots) (mem' : stagedAt here stem bytecodeExt ∈ σ.spots)
    (at_ : h.At σ v) (led : h.files.resolve h.cwd path = .ok (here ++ [leaf]))
    (given : v (here ++ [leaf]) = some (.file b x)) (stands : v.Stands here)
    (allowed : here ∉ σ.denied) (room : v (stagedAt here stem bytecodeExt) ≠ some .directory) :
    ∃ fs v₁, h.files.rename h.cwd path (slashed (lead ++ stagedAt here stem bytecodeExt)) = .ok fs ∧
      { h with files := fs }.At σ v₁ ∧ v₁ (stagedAt here stem bytecodeExt) = some (.file b x) ∧
      (here ++ [leaf] ≠ stagedAt here stem bytecodeExt → v₁ (here ++ [leaf]) = none) ∧
      ∀ z, z ≠ here ++ [leaf] → z ≠ stagedAt here stem bytecodeExt → v₁ z = v z := by
  have there : h.files.get? (here ++ [leaf]) = some (.file b x) :=
    (at_.view _ (Site.near_of_mem mem)).trans given
  have led' := at_.resolve row fits (Site.near_of_mem mem') fun front above other =>
    stands front (above_of_concat above other)
  by_cases same : here ++ [leaf] = stagedAt here stem bytecodeExt
  · rw [same] at led there given
    exact ⟨_, v, FileSystem.rename_same led there led', at_, given,
      fun differ => absurd same differ, fun z _ _ => rfl⟩
  · have still := at_.not_denied (Site.near_of_mem mem) given nofun
    have open_ (name : Text) (listed : here ++ [name] ∈ σ.spots) :
        (here ++ [name]).dropLast ∉ h.files.denied := by
      rw [List.dropLast_concat]
      exact fun denied =>
        allowed (at_.denied _ ((Site.near_of_mem listed).above (List.prefix_append _ _)) denied)
    refine ⟨_, _, FileSystem.rename_done led there led' same ?_ still (open_ _ mem)
      (open_ _ mem') ?_,
      at_.relocate mem mem' same (by simp) (by simp) still, ?_, fun _ => View.move_source,
      fun z left gone => View.move_of_ne left gone⟩
    · exact fun inside => same (inside.eq_of_length (by simp))
    · rw [at_.view _ (Site.near_of_mem mem')]
      exact Node.canReplace_file room
    · rw [View.move_target same, given]

/-- The path of the code has no zero in it if that of the bytecode has none. -/
theorem usable_code (fits : Fits (slashed (lead ++ stagedAt here stem bytecodeExt))) :
    '\x00' ∉ slashed (lead ++ stagedAt here stem codeExt) := by
  intro zero
  have clear := fits.usable
  rw [Row.slashed_concat] at zero clear
  have extra : '\x00' ∉ codeExt := by decide
  simp only [List.mem_append, List.mem_cons, not_or] at zero clear
  tauto

/-- The file takes its name beside the staged copy, and the code is removed if that can be done. -/
theorem placeOutput_placed (named : savedFile? out = some name)
    (bytecode : outputOf file target bytecodeExt = slashed (lead ++ stagedAt here stem bytecodeExt))
    (code : outputOf file target codeExt = slashed (lead ++ stagedAt here stem codeExt))
    (row : Row lead (stagedAt here stem bytecodeExt)) (row' : Row lead (stagedAt here stem codeExt))
    (fits : Fits (slashed (lead ++ stagedAt here stem bytecodeExt)))
    (mem : ∀ q ∈ [here ++ [leaf], stagedAt here stem bytecodeExt, stagedAt here stem codeExt],
      q ∈ σ.spots)
    (at_ : h.At σ v) (led : h.files.resolve h.cwd (Path.Posix.join (directoryOf file) name) =
      .ok (here ++ [leaf]))
    (given : v (here ++ [leaf]) = some (.file b x)) (stands : v.Stands here)
    (allowed : here ∉ σ.denied) (room : v (stagedAt here stem bytecodeExt) ≠ some .directory) :
    ∃ res h' v', (placeOutput file target out).perform h = (res, h') ∧ h'.At σ v' ∧
      (∀ e, res = .error e → e.fromSystem = true) ∧ Placed here stem leaf b x v v' := by
  have other : stagedAt here stem codeExt ≠ stagedAt here stem bytecodeExt :=
    stagedAt_ne here stem (by decide)
  obtain ⟨fs, v₁, renamed, at₁, first, gone, apart⟩ :=
    rename_placed row fits (mem _ (by simp)) (mem _ (by simp)) at_ led given stands allowed room
  have usable := usable_code fits
  unfold placeOutput
  rw [named, bytecode, code]
  dsimp only
  rw [perform_bind, perform_change, renamed]
  dsimp only [andThen]
  rw [perform_change]
  cases removed : ({ h with files := fs } : Host).files.remove h.cwd
    (slashed (lead ++ stagedAt here stem codeExt)) with
  | error e =>
    refine ⟨_, _, v₁, rfl, at₁, fun e' same => ?_, first, gone,
      fun z left apart' _ => apart z left apart'⟩
    obtain rfl := Except.error.inj same
    exact FileSystem.remove_fromSystem usable removed
  | ok fs' =>
    obtain rfl := FileSystem.remove_cases removed
    rw [FileSystem.placeOf_row row']
    have level : (stagedAt here stem codeExt).length = σ.height := σ.level _ (mem _ (by simp))
    refine ⟨_, _, _, rfl, at₁.erase level (by simp), fun e' same => (by cases same),
      ?_, fun differ => ?_, fun z left apart' behind => ?_⟩
    · rw [View.clear_of_ne other.symm, first]
    · by_cases own : here ++ [leaf] = stagedAt here stem codeExt
      · rw [own, View.clear_self]
      · rw [View.clear_of_ne own, gone differ]
    · rw [View.clear_of_ne behind, apart z left apart']

/-- What fails for the system's reasons is logged. -/
theorem orLogged_at {act : Action Unit} {res : Except Fault Unit} (file : Text)
    (lead : String) (performed : act.perform h = (res, h'))
    (at_ : h'.At σ v) (system : ∀ e, res = .error e → e.fromSystem = true) :
    ∃ h'', (orLogged act true lead file).perform h = (.ok ⟨⟩, h'') ∧ h''.At σ v := by
  have logs (message : Text) : ∃ h'',
    (Log.debug owner message [("file".toList, .text file)]).perform h' = (.ok ⟨⟩, h'') ∧
      h''.At σ v := by
    obtain ⟨h'', logged, same⟩ :=
      Log.debug_logged owner message [("file".toList, .text file)] h' at_.ready
    exact ⟨h'', logged, at_.logged same⟩
  unfold orLogged
  rw [perform_tryCatch, performed]
  cases res with
  | ok _ => exact ⟨h', rfl, at_⟩
  | error e =>
    have own := system e rfl
    dsimp only [orElse]
    cases e with
    | failure f => cases own
    | _ =>
      dsimp only
      rw [own, Bool.true_and, if_pos rfl]
      exact logs _

end Compilation

/-- A program that ended well gives what it wrote, and only logging is left to do. -/
theorem Component.settle_at (c : Component) (command : Text) {finished : Finished}
    (well : finished.status = 0) (at_ : h.At σ v) :
    ∃ h', (c.settle .keeping command (.ok finished)).perform h =
    (.ok (Utf8.readLenient finished.output), h') ∧ h'.At σ v ∧
      h.files.Grows h'.files := by
  have shown : (h.showing finished.shown).At σ v :=
    ⟨at_.cwd, at_.denied, at_.opened, at_.aside, at_.view⟩
  have presented : (Terminal.keeping.present (Utf8.readLenient finished.output)
    (Utf8.readLenient finished.errors)).perform h =
      (.ok ⟨⟩, h.showing finished.shown) := Terminal.present_keeping _ _ _
  obtain ⟨h', logged, same⟩ :=
    Log.debug_logged c.owner ("Exited with code ".toList ++ Text.ofInt finished.status)
    [("component".toList, .text c.name)] (h.showing finished.shown) shown.ready
  refine ⟨h', ?_, shown.logged same, same.files.grows⟩
  rw [settle, conclude, perform_bind_ok presented, perform_bind_ok logged, if_pos well]
  rfl

/-! ## Delivering -/

/-- The places of the outputs of a source, and of the file that the linker made. -/
def outputPlaces (here there : Place) (stem ext leaf : Text) : List Place :=
  [here ++ [leaf], stagedAt here stem bytecodeExt, stagedAt here stem codeExt,
    stagedAt here stem interfaceExt,
    stagedAt here stem ext, builtAt there stem bytecodeExt, builtAt there stem transportExt,
    builtAt there stem interfaceExt]

/-- The site of the outputs of a source. -/
def outputSite (cwd : Place) (denied : List Place) (here there : Place) (stem ext leaf : Text)
    (level : there.length = here.length) : Site where
  cwd := cwd
  denied := denied
  spots := outputPlaces here there stem ext leaf
  height := here.length + 1
  level q mem := by
    simp only [outputPlaces, List.mem_cons, List.not_mem_nil, or_false] at mem
    rcases mem with rfl | rfl | rfl | rfl | rfl | rfl | rfl | rfl <;> simp [level]

/-- A run of the linker that made a file: it ended well, and the file that it says it made is
there. -/
structure Compilation.Makes (c : Compilation) (h : Host) (file : Text) (r : ToolRun) (q : Place)
    (b : Bytes) (x : Mode) :
    Prop where
  invocation : r.invocation = c.linking file (targetOf h file none)
  made : ∃ finished name, h.outcome r = .ok finished ∧ finished.status = 0 ∧
    savedFile? (Utf8.readLenient finished.output) = some name ∧
    (h.filesAfter r).find h.cwd (Path.Posix.join (directoryOf file) name) = .ok (q, .file b x)

/-- Files among which the outputs of a source can be delivered: the file that the linker made is not
the staged copy or the interface description, the file system takes the names of the bytecode, the
directories can be written, and nothing is in the way. -/
structure Deliverable (directory stem ext leaf : Text) (here there : Place) (fs : FileSystem) :
    Prop where
  other : leaf ≠ '~' :: (stem ++ ext) ∧ leaf ≠ '~' :: (stem ++ interfaceExt)
  fits : Fits (beside directory stem bytecodeExt) ∧ Fits (promoted directory stem bytecodeExt) ∧
    Fits (promoted directory stem transportExt)
  staging : here ∉ fs.denied
  building : there ∉ fs.denied
  way : View.Open fs.get? fs.denied there
  room : fs.get? (stagedAt here stem bytecodeExt) ≠ some .directory
  source : fs.get? (stagedAt here stem ext) ≠ some .directory
  free : fs.get? (builtAt there stem bytecodeExt) ≠ some .directory
  spare : ∀ n, fs.get? (builtAt there stem transportExt) = some n → n.writable = true
  interface : ∀ n, fs.get? (stagedAt here stem interfaceExt) = some n →
    Fits (beside directory stem interfaceExt) →
    Fits (promoted directory stem interfaceExt) ∧
    n.CanReplace (fs.get? (builtAt there stem interfaceExt)) ∧
      (n = .directory → stagedAt here stem interfaceExt ∉ fs.denied)

/-- What has been delivered: the bytecode can be read in the build directory and its second form is
there, the artifact names them, an interface description is there too if there was one, and nothing
of it is left beside the staged copy, which is gone. -/
structure Delivered (directory stem ext : Text) (there q : Place) (b : Bytes) (h : Host)
    (artifact : Artifact) (h' : Host) :
    Prop where
  bytecode : h'.files.read h'.cwd (promoted directory stem bytecodeExt) = .ok b
  transport : ∃ p t y,
    h'.files.find h'.cwd (promoted directory stem transportExt) = .ok (p, .file (Utf8.encode t) y) ∧
      Text.Base64.decode? t = some b
  named : artifact.bytecode = some (promoted directory stem bytecodeExt) ∧
    artifact.transport = some (promoted directory stem transportExt)
  interface : ∀ p n, h.files.find h.cwd (beside directory stem interfaceExt) = .ok (p, n) →
    (∃ p', h'.files.find h'.cwd (promoted directory stem interfaceExt) = .ok (p', n)) ∧
      artifact.interface = some (promoted directory stem interfaceExt)
  gone : ∀ e ∈ [bytecodeExt, interfaceExt, ext],
    h'.files.isThere h'.cwd (beside directory stem e) = false
  made : (∀ e ∈ [bytecodeExt, transportExt, interfaceExt], q ≠ builtAt there stem e) →
    h'.files.get? q = none

/-- Once the file that the linker made has its name, the outputs can be promoted. -/
theorem Deliverable.promotable {fs : FileSystem} {v' : View}
    (out : Outputs directory stem ext lead here there)
    (source : ext ∈ [".sol".toList, ".tsol".toList])
    (can : Deliverable directory stem ext leaf here there fs)
    (readable : x.readable = true) (stands : View.Stands fs.get? here)
    (placed : Placed here stem leaf b x fs.get? v') :
    Promotable directory stem ext here there fs.denied b x v' := by
  -- Above the outputs nothing changed, and at the outputs only what was made and given its name.
  have above {front d : Place} (ahead : front <+: d) (level : d.length = here.length) :
      v' front = fs.get? front := by
    refine placed.apart front ?_ ?_ ?_ <;>
      · rintro rfl
        have lengths := ahead.length_le
        rw [List.length_append, List.length_singleton, level] at lengths
        omega
  have beside_ {e : Text} (listed : e ∈ [interfaceExt, ext]) (other : leaf ≠ '~' :: (stem ++ e)) :
      v' (stagedAt here stem e) = fs.get? (stagedAt here stem e) := by
    have differs : e ≠ bytecodeExt ∧ e ≠ codeExt := by
      simp only [List.mem_cons, List.not_mem_nil, or_false] at listed source
      rcases listed with rfl | rfl
      · decide
      · rcases source with rfl | rfl <;> decide
    refine placed.apart _ (fun same => other ?_) (stagedAt_ne here stem differs.1)
      (stagedAt_ne here stem differs.2)
    have names := List.append_cancel_left same
    exact (List.singleton_inj.mp names).symm
  have built {e : Text} (listed : e ∈ [bytecodeExt, transportExt, interfaceExt]) :
      v' (builtAt there stem e) = fs.get? (builtAt there stem e) ∨
      v' (builtAt there stem e) = none := by
    have apart : builtAt there stem e ≠ stagedAt here stem bytecodeExt ∧
      builtAt there stem e ≠ stagedAt here stem codeExt := by
      simp only [List.mem_cons, List.not_mem_nil, or_false] at listed
      rcases listed with rfl | rfl | rfl <;>
        exact ⟨(stagedAt_ne_builtAt here there stem (by decide)).symm,
          (stagedAt_ne_builtAt here there stem (by decide)).symm⟩
    by_cases same : builtAt there stem e = here ++ [leaf]
    · rw [same]
      exact .inr (placed.gone (same ▸ apart.1))
    · exact .inl (placed.apart _ same apart.1 apart.2)
  exact
    { stands := fun front ahead => by rw [above ahead rfl, stands front ahead]
      way := fun front name ahead => by
        rw [above ahead out.level]
        exact can.way front name ahead
      staging := can.staging
      building := can.building
      bytecode := placed.bytecode
      source := by
        rw [beside_ (by simp) can.other.1]
        exact can.source
      fits := can.fits
      readable := readable
      free := by
        rcases built (e := bytecodeExt) (by simp) with same | none
        · rw [same]
          exact can.free
        · rw [none]
          exact (Option.some_ne_none _).symm
      room := by
        rcases built (e := transportExt) (by simp) with same | none
        · rw [same]
          exact can.spare
        · rw [none]
          exact nofun
      interface := fun n given fits => by
        rw [beside_ (by simp) can.other.2] at given
        obtain ⟨fits', free, still⟩ := can.interface n given fits
        refine ⟨fits', ?_, still⟩
        rcases built (e := interfaceExt) (by simp) with same | none
        · rwa [same]
        · rw [none]
          trivial }

theorem beside_mem {here there : Place} (listed : e ∈ [bytecodeExt, interfaceExt, ext]) :
    stagedAt here stem e ∈ outputPlaces here there stem ext leaf := by
  simp only [List.mem_cons, List.not_mem_nil, or_false] at listed
  rcases listed with rfl | rfl | rfl <;> simp [outputPlaces]

theorem built_mem {here there : Place} (listed : e ∈ [bytecodeExt, transportExt, interfaceExt]) :
    builtAt there stem e ∈ outputPlaces here there stem ext leaf := by
  simp only [List.mem_cons, List.not_mem_nil, or_false] at listed
  rcases listed with rfl | rfl | rfl <;> simp [outputPlaces]

/-- What has been promoted can be found by its paths. -/
theorem Promoted.delivered {v' : View} {artifact : Artifact} {q : Place}
    (out : Outputs directory stem ext lead here there)
    (source : ext ∈ [".sol".toList, ".tsol".toList]) (at_ : h.At σ v) (at' : h'.At σ v')
    (mem : ∀ e ∈ [bytecodeExt, interfaceExt, ext], stagedAt here stem e ∈ σ.spots)
    (mem' : ∀ e ∈ [bytecodeExt, transportExt, interfaceExt], builtAt there stem e ∈ σ.spots)
    (can : Promotable directory stem ext here there σ.denied b x v)
    (done : Promoted directory stem ext here there b x v artifact v') (near : q ∈ σ.spots)
    (level : q.length = there.length + 1)
    (other : ∀ e ∈ [interfaceExt, ext], q ≠ stagedAt here stem e)
    (made : q ≠ stagedAt here stem bytecodeExt → v q = none) :
    Delivered directory stem ext there q b h artifact h' := by
  have bytecode : bytecodeExt ∈ extensions := by decide
  have transport : transportExt ∈ extensions := by decide
  have interface : interfaceExt ∈ extensions := by decide
  obtain ⟨fits, fits', fits''⟩ := can.fits
  constructor
  case bytecode =>
    rw [out.promoted_eq _ bytecode] at fits' ⊢
    exact at'.read (out.promotedRow _ bytecode) (mem' _ (by simp)) done.building
      fits' done.bytecode can.readable
  case transport =>
    rw [out.promoted_eq _ transport] at fits'' ⊢
    have written : ∃ x', v' (builtAt there stem transportExt) =
        some (.file (Utf8.encode (Text.Base64.encode b)) x') := by
      rw [done.transport]
      cases v (builtAt there stem transportExt) with
      | none => exact ⟨_, rfl⟩
      | some n => cases n <;> exact ⟨_, rfl⟩
    obtain ⟨x', written⟩ := written
    exact ⟨_, Text.Base64.encode b, x',
      (at'.find_iff (out.promotedRow _ transport) (mem' _ (by simp))
      done.building fits'').mpr written, Text.Base64.decode?_encode b⟩
  case named => exact done.named
  case interface =>
    intro p n found
    rw [out.beside_eq _ interface] at found
    obtain ⟨led, there_⟩ := FileSystem.find_iff.mp found
    obtain rfl : p = stagedAt here stem interfaceExt :=
      (FileSystem.resolve_place led).trans
        (FileSystem.placeOf_row (out.besideRow _ interface) h.cwd)
    have taken : Fits (beside directory stem interfaceExt) := by
      rw [out.beside_eq _ interface]
      exact FileSystem.fits_of_resolve (out.besideRow _ interface) led
    rw [at_.view _ (Site.near_of_mem (mem _ (by simp)))] at there_
    obtain ⟨arrived, named⟩ := done.interface n there_ taken
    have taken' := (can.interface n there_ taken).1
    refine ⟨⟨builtAt there stem interfaceExt, ?_⟩, named⟩
    rw [out.promoted_eq _ interface] at taken' ⊢
    exact (at'.find_iff (out.promotedRow _ interface) (mem' _ (by simp)) done.building taken').mpr
      arrived
  case gone =>
    intro e listed
    have known : e ∈ extensions := by
      simp only [List.mem_cons, List.not_mem_nil, or_false] at listed
      rcases listed with rfl | rfl | rfl
      · exact bytecode
      · exact interface
      · exact Layout.mem_extensions source
    rw [out.beside_eq e known]
    exact at'.not_isThere (out.besideRow e known) (mem e listed) fun taken =>
      done.gone e listed (by rw [out.beside_eq e known]; exact taken)
  case made =>
    intro apart
    rw [at'.view q (Site.near_of_mem near)]
    by_cases own : q = stagedAt here stem bytecodeExt
    · rw [own]
      exact done.gone _ (by simp) fits
    · refine (done.apart q (fun e listed => ?_) apart fun above => ?_).trans (made own)
      · rcases List.mem_cons.mp listed with rfl | listed
        · exact own
        · exact other e listed
      · have lengths := above.length_le
        omega

namespace Compilation

variable {c : Compilation}

/-- What is above the file that the linker made stands: the path of a staged copy starts at the
root. -/
theorem Makes.stands (out : Outputs directory stem ext lead here there)
    (source : ext ∈ [".sol".toList, ".tsol".toList]) {r : ToolRun}
    (makes : c.Makes h (beside directory stem ext) r (here ++ [leaf]) b x) :
    View.Stands (h.filesAfter r).get? here := by
  obtain ⟨finished, name, -, -, -, found⟩ := makes.made
  obtain ⟨led, -⟩ := FileSystem.find_iff.mp found
  have absolute : Path.Posix.isAbsolute
      (Path.Posix.join (directoryOf (beside directory stem ext)) name) = true := by
    rw [out.directoryOf source]
    exact Path.isAbsolute_join out.stagingRow.absolute
  have walked := (FileSystem.resolve_iff.mp led).2
  rw [FileSystem.startOf, if_pos absolute] at walked
  have above :=
    FileSystem.stands_of_led walked fun front ahead other => absurd (List.prefix_nil.mp ahead) other
  exact fun front ahead => above front (ahead.trans (List.prefix_append _ _)) fun same =>
    not_above rfl (same ▸ ahead)

/-- The host behind a run of a tool, as the outputs of a source see it. -/
theorem ran_at {h₁ : Host} {i : Invocation} {r : ToolRun} (level : there.length = here.length)
    (opened : ¬ h₁.LogPlanned)
    (scene : h₁.In (.around h)) (noted : r = { invocation := i, files := h₁.files })
    (aside : ∀ q, h₁.AtLog q → ∀ p ∈ outputPlaces here there stem ext leaf, ¬ q <+: p) :
    (h₁.ran r.invocation).files = h.filesAfter r ∧
    (h₁.ran r.invocation).At (outputSite h.cwd (h.filesAfter r).denied
      here there stem ext leaf level) (h.filesAfter r).get? := by
  have same : ({ invocation := r.invocation, files := h₁.files } : ToolRun) = r := by rw [noted]
  have files : (h₁.ran r.invocation).files = h.filesAfter r := by
    show h₁.filesAfter { invocation := r.invocation, files := h₁.files } = _
    rw [same, Host.filesAfter, Host.filesAfter, scene.tools, scene.cwd, scene.environment]
    rfl
  exact ⟨files,
    { cwd := scene.cwd
      denied := fun q _ mem => by rwa [files] at mem
      opened := opened
      aside := fun q near written => by
        obtain ⟨p, listed, inside⟩ := near
        exact aside q written p listed inside
      view := fun q _ => by rw [files] }⟩

/-- When the linker has run in the compilation of a staged copy, and has made a file beside it, the
compilation ends and that file has its name. -/
theorem run_placed (out : Outputs directory stem ext lead here there)
    (source : ext ∈ [".sol".toList, ".tsol".toList]) {result : Except Fault (List Text)} {h₁ : Host}
    {new : List ToolRun} {r : ToolRun}
    (ran : (c.run (beside directory stem ext) none).perform h = (result, h₁))
    (runs : h₁.runs = h.runs ++ new) (mem : r ∈ new)
    (makes : c.Makes h (beside directory stem ext) r (here ++ [leaf]) b x)
    (can : Deliverable directory stem ext leaf here there (h.filesAfter r))
    (aside : ∀ q, h₁.AtLog q → ∀ p ∈ outputPlaces here there stem ext leaf, ¬ q <+: p) :
    (∃ blocks, result = .ok blocks) ∧
    ∃ v', h₁.At (outputSite h.cwd (h.filesAfter r).denied here there stem ext leaf out.level) v' ∧
      Placed here stem leaf b x (h.filesAfter r).get? v' := by
  have stands := makes.stands out source
  obtain ⟨finished, name, outcome, well, named, found⟩ := makes.made
  obtain ⟨led, made⟩ := FileSystem.find_iff.mp found
  have link : IsLink r.invocation := by
    rw [makes.invocation]
    rfl
  obtain ⟨h₂, res, h₃, opened, scene, noted, after, rfl, given⟩ :=
    run_linked (out.isSource source) ran runs mem link
  -- The log is where it was when the linker ended.
  have log : (h₂.ran r.invocation).SameLog h₃ := by
    have kept := afterLinker_keepsLog (c := c) (beside directory stem ext)
      (targetOf h (beside directory stem ext) none)
      (h.outcome r) (h₂.ran r.invocation) opened
    rwa [after] at kept
  obtain ⟨files, at_⟩ :=
    ran_at out.level opened scene noted fun q written => aside q (log.atLog.mpr written)
  have bytecode : bytecodeExt ∈ extensions := by decide
  have code : codeExt ∈ extensions := by decide
  have paths (e : Text) (listed : e ∈ extensions) :
      outputOf (beside directory stem ext) (targetOf h (beside directory stem ext) none) e =
      slashed (lead ++ stagedAt here stem e) := by
    rw [out.targetOf source, out.outputOf source, out.beside_eq e listed]
  have fits : Fits (slashed (lead ++ stagedAt here stem bytecodeExt)) :=
    out.beside_eq _ bytecode ▸ can.fits.1
  have spots : ∀ q ∈ [here ++ [leaf], stagedAt here stem bytecodeExt, stagedAt here stem codeExt],
      q ∈ (outputSite h.cwd (h.filesAfter r).denied here there stem ext leaf out.level).spots := by
    intro q listed
    simp only [List.mem_cons, List.not_mem_nil, or_false] at listed
    rcases listed with rfl | rfl | rfl <;> simp [outputSite, outputPlaces]
  have allowed : here ∉ (outputSite h.cwd (h.filesAfter r).denied here
    there stem ext leaf out.level).denied := can.staging
  have cwd : (outputSite h.cwd (h.filesAfter r).denied here there stem ext leaf out.level).cwd =
    h.cwd := rfl
  generalize outputSite h.cwd (h.filesAfter r).denied here there stem ext leaf out.level =
    σ at at_ spots allowed cwd ⊢
  obtain ⟨h₄, settled, at₄, grows⟩ := c.toolchain.linker.settle_at
    (Text.join [' '] (c.toolchain.linker.path :: ["compile".toList,
      outputOf (beside directory stem ext)
      (targetOf h (beside directory stem ext) none) codeExt, "--lib".toList,
      c.toolchain.stdlib.path])) well at_
  have led₄ : h₄.files.resolve h₄.cwd
    (Path.Posix.join (directoryOf (beside directory stem ext)) name) = .ok (here ++ [leaf]) := by
    rw [at₄.cwd, cwd]
    exact grows.resolve (by rw [files]; exact led)
  obtain ⟨res', h₅, v₁, performed, at₅, system, placed⟩ :=
    placeOutput_placed named (paths _ bytecode) (paths _ code)
    (out.besideRow _ bytecode) (out.besideRow _ code) fits spots at₄ led₄ made stands
      allowed can.room
  obtain ⟨h₆, logged, at₆⟩ := orLogged_at (beside directory stem ext) "Linking failed: "
    ((perform_bind_ok settled).trans performed) at₅ system
  rw [outcome] at after
  obtain ⟨rfl, rfl⟩ := Prod.mk.inj (after.symm.trans logged)
  exact ⟨given rfl, v₁, ⟨at₆.cwd, at₆.denied, at₆.opened, at₆.aside, at₆.view⟩, placed⟩

/-- **What the linker made is delivered**: when the linker has run in the compilation of a staged
copy, and has made a file beside it, then the compilation ends, and promoting the source puts the
bytes of that file into the build directory. -/
theorem run_promote (layout : c.staging.layout = {}) (own : Original directory stem ext)
    (staging : placeOf h.cwd (toStagingDir {} directory) = here)
    (building : placeOf h.cwd (toBuildDir {} directory) = there)
    {result : Except Fault (List Text)} {h₁ : Host} {new : List ToolRun} {r : ToolRun}
    (ran : (c.run (Layout.stagedPath {} (directory ++ '/' :: (stem ++ ext))) none).perform h =
      (result, h₁))
    (runs : h₁.runs = h.runs ++ new) (mem : r ∈ new)
    (makes : c.Makes h (Layout.stagedPath {} (directory ++ '/' :: (stem ++ ext))) r
      (here ++ [leaf]) b x)
    (readable : x.readable = true)
    (can : Deliverable directory stem ext leaf here there (h.filesAfter r))
    (aside : ∀ q, h₁.AtLog q → ∀ p ∈ outputPlaces here there stem ext leaf, ¬ q <+: p) :
    (∃ blocks, result = .ok blocks) ∧
    ∃ artifact h₂, (c.staging.promote (directory ++ '/' :: (stem ++ ext))).perform h₁ =
      (.ok artifact, h₂) ∧
      Delivered directory stem ext there (here ++ [leaf]) b h₁ artifact h₂ := by
  obtain ⟨lead, here', there', out⟩ := own.outputs
  obtain rfl : here = here' := by rw [← staging, out.staging, FileSystem.placeOf_row out.stagingRow]
  obtain rfl : there = there' := by
    rw [← building, out.building, FileSystem.placeOf_row out.buildRow]
  rw [out.copy] at ran makes
  obtain ⟨ended, v₁, at₁, placed⟩ := run_placed out own.source ran runs mem makes can aside
  refine ⟨ended, ?_⟩
  have mem' : ∀ e ∈ [bytecodeExt, interfaceExt, ext], stagedAt here stem e ∈
      (outputSite h.cwd (h.filesAfter r).denied here there stem ext leaf out.level).spots :=
      fun _ listed => beside_mem listed
  have mem'' : ∀ e ∈ [bytecodeExt, transportExt, interfaceExt], builtAt there stem e ∈
      (outputSite h.cwd (h.filesAfter r).denied here there stem ext leaf out.level).spots :=
      fun _ listed => built_mem listed
  have promotable := can.promotable out own.source readable (makes.stands out own.source) placed
  obtain ⟨artifact, v₂, promotes, promoted⟩ :=
    Staging.promote_turns layout out own.source mem' mem'' promotable
  obtain ⟨h₂, performed, at₂⟩ := promotes h₁ at₁
  refine ⟨artifact, h₂, performed,
    promoted.delivered out own.source at₁ at₂ mem' mem'' promotable ?_ ?_ (fun e listed same => ?_)
    placed.gone⟩
  · simp [outputSite, outputPlaces]
  · simp [out.level]
  · -- The file that the linker made is neither the copy nor the interface description.
    have named := List.singleton_inj.mp (List.append_cancel_left same)
    simp only [List.mem_cons, List.not_mem_nil, or_false] at listed
    rcases listed with rfl | rfl
    · exact can.other.2 named
    · exact can.other.1 named

/-! ## A delivery, and what is not delivered -/

/-- The bytes of a contract. -/
def contract : Bytes := [104, 105]

/-- A host with a directory in a project, and with a linker that makes a contract there. -/
def making (start : Host) (here : Place) (leaf : Text) (mode : Mode := .plain) : Host :=
  { start with
    files := (start.files.set ["p".toList] .directory).set here .directory
    tools := fun _ _ i fs =>
      if IsLink i then
        (.ok { status := 0, output := Utf8.encode (savedMark ++ leaf ++ ['\n']), errors := [] },
          fs.set (here ++ [leaf]) (.file contract mode))
      else (.ok { status := 0, output := [], errors := [] }, fs) }

variable {start : Host} {here : Place} {leaf source : Text} {mode : Mode} {r : ToolRun}

/-- The compilation of the staged copy of a source on such a host. -/
def making.compiled (start : Host) (here : Place) (leaf source : Text) (mode : Mode := .plain) :
    Except Fault (List Text) × Host :=
  (installed.run (Layout.stagedPath {} source) none).perform (making start here leaf mode)

/-- The promotion of the source after that. -/
def making.promoted (start : Host) (here : Place) (leaf source : Text) (mode : Mode := .plain) :
    Except Fault Artifact × Host :=
  (installed.staging.promote source).perform (making.compiled start here leaf source mode).2

/-- A run of the linker on the staged copy, among files that lead to the one that the linker
makes. -/
def making.Links (start : Host) (here : Place) (leaf source : Text) (mode : Mode) (r : ToolRun) :
    Prop :=
  r.invocation.program = installed.toolchain.linker.path ∧
  r.invocation.arguments = (installed.linking (Layout.stagedPath {} source)
    (targetOf (making start here leaf mode) (Layout.stagedPath {} source) none)).arguments ∧
  r.invocation.directory = directoryOf (Layout.stagedPath {} source) ∧ r.invocation.input = [] ∧
  savedFile? (Utf8.readLenient (Utf8.encode (savedMark ++ leaf ++ ['\n']))) = some leaf ∧
  (r.files.set (here ++ [leaf]) (.file contract mode)).resolve start.cwd
    (Path.Posix.join (directoryOf (Layout.stagedPath {} source)) leaf) = .ok (here ++ [leaf])

instance : Decidable (making.Links start here leaf source mode r) :=
  inferInstanceAs (Decidable (_ ∧ _ ∧ _ ∧ _ ∧ _ ∧ _))

/-- What the linker writes then. -/
theorem making.Links.files (links : making.Links start here leaf source mode r) :
    (making start here leaf mode).filesAfter r =
      r.files.set (here ++ [leaf]) (.file contract mode) := by
  obtain ⟨⟨program, arguments, directory, input⟩, files⟩ := r
  obtain ⟨rfl, rfl, rfl, rfl, -, -⟩ := links
  rfl

/-- The linker makes the contract. -/
theorem making.Links.makes (links : making.Links start here leaf source mode r) :
    installed.Makes (making start here leaf mode) (Layout.stagedPath {} source) r (here ++ [leaf])
      contract mode := by
  have files := links.files
  obtain ⟨⟨program, arguments, directory, input⟩, fs⟩ := r
  obtain ⟨rfl, rfl, rfl, rfl, named, led⟩ := links
  refine ⟨rfl, _, leaf, rfl, rfl, named, ?_⟩
  rw [files]
  exact FileSystem.find_iff.mpr ⟨led, FileSystem.get?_set_self _ _ (by simp)⟩

/-- A compilation of the staged copy in which the linker makes the contract. -/
def making.Made (start : Host) (here : Place) (leaf source : Text) (mode : Mode := .plain) : Prop :=
  ∃ r ∈ (making.compiled start here leaf source mode).2.runs,
    installed.Makes (making start here leaf mode) (Layout.stagedPath {} source) r (here ++ [leaf])
      contract mode

theorem making.made_of_links (ran : ∃ r ∈ (making.compiled start here leaf source mode).2.runs,
    making.Links start here leaf source mode r) :
    making.Made start here leaf source mode := by
  obtain ⟨r, mem, links⟩ := ran
  exact ⟨r, mem, links.makes⟩

theorem contract_original : Original "/p/contracts".toList "A".toList ".sol".toList where
  absolute := by decide
  resolved := by decide +kernel
  below := by decide
  bare := by decide
  forward := by decide
  inLine := by decide
  source := by decide

/-- The place of the staged copies of the project. -/
def transient : Place := ["p".toList, ".temp".toList]

theorem contract_deliverable :
    Deliverable "/p/contracts".toList "A".toList ".sol".toList "out.tvc".toList transient
    ["p".toList, "build".toList]
    ((making fresh transient "out.tvc".toList).files.set (transient ++ ["out.tvc".toList])
      (.file contract .plain)) where
  other := by decide
  fits := by decide +kernel
  staging := by decide +kernel
  building := by decide +kernel
  way := by
    have each : ∀ q ∈ List.inits ["p".toList, "build".toList], q ≠ [] →
        ((making fresh transient "out.tvc".toList).files.set (transient ++ ["out.tvc".toList])
          (.file contract .plain)).get? q = some .directory ∨
        ((making fresh transient "out.tvc".toList).files.set (transient ++ ["out.tvc".toList])
          (.file contract .plain)).get? q = none ∧
        q.dropLast ∉ (making fresh transient "out.tvc".toList).files.denied := by decide +kernel
    intro front name above
    have here := each _ ((List.mem_inits _ _).mpr above) (by simp)
    rwa [List.dropLast_concat] at here
  room := by decide +kernel
  source := by decide +kernel
  free := by decide +kernel
  spare n given := by
    have none : ((making fresh transient "out.tvc".toList).files.set
        (transient ++ ["out.tvc".toList])
        (.file contract .plain)).get? (builtAt ["p".toList, "build".toList] "A".toList
        transportExt) =
          none := by decide +kernel
    rw [none] at given
    cases given
  interface n given := by
    have none : ((making fresh transient "out.tvc".toList).files.set
        (transient ++ ["out.tvc".toList])
        (.file contract .plain)).get? (stagedAt transient "A".toList interfaceExt) = none := by
        decide +kernel
    rw [none] at given
    cases given

/-- A contract is delivered. -/
theorem contract_delivered :
    (∃ blocks, (making.compiled fresh transient "out.tvc".toList "/p/contracts/A.sol".toList).1 =
      .ok blocks) ∧
    ∃ artifact h₂, making.promoted fresh transient "out.tvc".toList "/p/contracts/A.sol".toList =
      (.ok artifact, h₂) ∧
      Delivered "/p/contracts".toList "A".toList ".sol".toList ["p".toList, "build".toList]
        (transient ++ ["out.tvc".toList]) contract
        (making.compiled fresh transient "out.tvc".toList "/p/contracts/A.sol".toList).2
        artifact h₂ := by
  obtain ⟨r, mem, links, files⟩ :
      ∃ r ∈ (making.compiled fresh transient "out.tvc".toList "/p/contracts/A.sol".toList).2.runs,
        making.Links fresh transient "out.tvc".toList "/p/contracts/A.sol".toList .plain r ∧
        r.files = (making fresh transient "out.tvc".toList).files := by decide +kernel
  have can := contract_deliverable
  rw [← files, ← links.files] at can
  have silent : (making.compiled fresh transient "out.tvc".toList
      "/p/contracts/A.sol".toList).2.logFiles = [] := by
    decide +kernel
  have aside : ∀ q, (making.compiled fresh transient "out.tvc".toList
      "/p/contracts/A.sol".toList).2.AtLog q →
      ∀ p ∈ outputPlaces transient ["p".toList, "build".toList] "A".toList ".sol".toList
        "out.tvc".toList, ¬ q <+: p := by
    rintro q ⟨path, listed, -⟩
    rw [silent] at listed
    cases listed
  exact run_promote (c := installed) (h := making fresh transient "out.tvc".toList) rfl
    contract_original
    (by decide +kernel) (by decide +kernel) (Prod.eta _).symm rfl mem links.makes rfl can aside

/-- The name of a file that can be staged, but whose second form has too long a name. -/
def longName : Text := List.replicate 249 'n'

/-- The host of a toolchain that logs into the file that a contract's second form is delivered
to. -/
def logging : Host :=
  { fresh with
    files :=
      { entries := fresh.files.entries ++ [(transient ++ ["~A.sol".toList], .file [] .plain)] }
    log := .planned { level := .debug, filePath := some "/p/build/A.base64".toList } }

/-- The host of a toolchain with such a file, which cannot be written. -/
def guarded : Host :=
  { fresh with
    files :=
      { entries := fresh.files.entries ++ [(["p".toList, "build".toList], .directory),
          (["p".toList, "build".toList, "A.base64".toList], .file [] { writable := false })] } }

/-- A contract that the linker made is not delivered as it should be in every case: outside the
directory of the contracts it stays where it is if it has its own name already, and the second form
is missing or wrong if its name is too long, if the log is written to it, if there is such a file
that cannot be written, or if what the linker made cannot be read. -/
theorem contract_undelivered :
    (making.Made fresh ["p".toList] "A.tvc".toList "/p/A.sol".toList ∧
      (making.promoted fresh ["p".toList] "A.tvc".toList "/p/A.sol".toList).2.files.isThere []
        "/p/A.tvc".toList = true) ∧
    (making.Made fresh transient "out.tvc".toList
      ("/p/contracts/".toList ++ longName ++ ".sol".toList) ∧
      (making.promoted fresh transient "out.tvc".toList
        ("/p/contracts/".toList ++ longName ++ ".sol".toList)).1.toOption.map (·.transport) =
          some none) ∧
    (making.Made logging transient "out.tvc".toList "/p/contracts/A.sol".toList ∧
      ((making.promoted logging transient
        "out.tvc".toList "/p/contracts/A.sol".toList).2.files.read
          [] "/p/build/A.base64".toList).toOption.bind
          (fun bytes => Text.Base64.decode? (Utf8.readLenient bytes)) ≠ some contract) ∧
    (making.Made guarded transient "out.tvc".toList "/p/contracts/A.sol".toList ∧
      (making.promoted guarded transient "out.tvc".toList
        "/p/contracts/A.sol".toList).1.toOption.map (·.transport) = some none) ∧
    making.Made fresh transient "out.tvc".toList "/p/contracts/A.sol".toList { readable := false } ∧
      (making.promoted fresh transient "out.tvc".toList "/p/contracts/A.sol".toList
        { readable := false }).1.toOption.map (·.transport) = some none := by
  refine ⟨⟨making.made_of_links ?shared, ?_⟩, ⟨making.made_of_links ?long, ?_⟩,
    ⟨making.made_of_links ?logged, ?_⟩, ⟨making.made_of_links ?guarded, ?_⟩,
    making.made_of_links ?sealed, ?_⟩ <;> decide +kernel

end Compilation
end ContractCheck
