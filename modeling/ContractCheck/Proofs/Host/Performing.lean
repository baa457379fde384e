import ContractCheck.Host.Logging

/-! # Performing activities

What an activity gives and what host it leaves, put together from what its parts do.
-/
namespace ContractCheck.Action

variable {α β : Type}

@[simp] theorem perform_pure (a : α) (h : Host) : (pure a : Action α).perform h = (.ok a, h) := rfl

theorem eq_of_pure {a b : α} {h h' : Host} (done : (pure a : Action α).perform h = (.ok b, h')) :
    a = b :=
  Except.ok.inj (Prod.mk.inj done).1

/-- Whether an activity succeeded can be decided. -/
theorem eq_ok_of_toOption {α : Type} {done : Except Fault α × Host} {a : α}
    (h : done.1.toOption = some a) :
    done = (.ok a, done.2) := by
  obtain ⟨outcome, host⟩ := done
  cases outcome with
  | ok b => rw [Option.some.inj h]
  | error e => cases h

@[simp] theorem perform_get (h : Host) : (get : Action Host).perform h = (.ok h, h) := rfl

@[simp] theorem perform_modify (f : Host → Host) (h : Host) :
    (modify f : Action PUnit).perform h = (.ok ⟨⟩, f h) := rfl

/-- What comes after a value; a fault ends it. -/
def andThen (f : α → Action β) : Except Fault α × Host → Except Fault β × Host
  | (.ok a, h) => (f a).perform h
  | (.error e, h) => (.error e, h)

theorem perform_bind (act : Action α) (f : α → Action β) (h : Host) :
    (act >>= f).perform h = andThen f (act.perform h) := by
  show (match act h with | (r, h') => ExceptT.bindCont f r h') = andThen f (act h)
  rcases act h with ⟨⟨e⟩ | ⟨a⟩, h'⟩ <;> rfl

theorem perform_bind_ok {act : Action α} {f : α → Action β} {h h' : Host} {a : α}
    (first : act.perform h = (.ok a, h')) : (act >>= f).perform h = (f a).perform h' := by
  rw [perform_bind, first, andThen]

theorem perform_bind_error {act : Action α} {f : α → Action β} {h h' : Host} {e : Fault}
    (first : act.perform h = (.error e, h')) : (act >>= f).perform h = (.error e, h') := by
  rw [perform_bind, first, andThen]

/-- When two activities succeed one after the other, each of them does. -/
theorem ok_of_bind {act : Action α} {f : α → Action β} {h h' : Host} {b : β}
    (done : (act >>= f).perform h = (.ok b, h')) :
    ∃ a h₁, act.perform h = (.ok a, h₁) ∧ (f a).perform h₁ = (.ok b, h') := by
  rw [perform_bind] at done
  cases performed : act.perform h with
  | mk outcome h₁ =>
    rw [performed] at done
    cases outcome with
    | ok a => exact ⟨a, h₁, rfl, done⟩
    | error e => cases done

/-- What comes after a fault. -/
def orElse (handle : Fault → Action α) : Except Fault α × Host → Except Fault α × Host
  | (.ok a, h) => (.ok a, h)
  | (.error e, h) => (handle e).perform h

theorem perform_tryCatch (act : Action α) (handle : Fault → Action α) (h : Host) :
    (tryCatch act handle : Action α).perform h = orElse handle (act.perform h) := by
  have caught : (tryCatch act handle : Action α).perform h = ExceptT.tryCatch act handle h := rfl
  rw [caught]
  -- Below faults there is a state, with its own sequencing.
  show (act >>= _ : StateM Host (Except Fault α)).run h = orElse handle (StateT.run act h)
  rw [StateT.run_bind]
  rcases StateT.run act h with ⟨⟨e⟩ | ⟨a⟩, h'⟩ <;> rfl

theorem perform_map (f : α → β) (act : Action α) (h : Host) :
    (f <$> act).perform h = ((act.perform h).1.map f, (act.perform h).2) := by
  show (act >>= fun a => pure (f a)).perform h = _
  rw [perform_bind]
  rcases act.perform h with ⟨⟨e⟩ | ⟨a⟩, h'⟩ <;> rfl

theorem perform_ask (f : FileSystem → Place → Text → Except FileError α) (path : Text) (h : Host) :
    (ask f path).perform h = ((f h.files h.cwd path).mapError fun e => .file e path, h) := by
  unfold ask
  rw [perform_bind_ok (perform_get h)]
  cases f h.files h.cwd path <;> rfl

theorem readFile_ok {path : Text} {bytes : Bytes} {h : Host}
    (read : h.files.read h.cwd path = .ok bytes) :
    (readFile path).perform h = (.ok bytes, h) := by
  unfold readFile
  rw [perform_ask, read]
  rfl

theorem readFile_fails {path : Text} {e : FileError} {h : Host}
    (failed : h.files.read h.cwd path = .error e) :
    (readFile path).perform h = (.error (.file e path), h) := by
  unfold readFile
  rw [perform_ask, failed]
  rfl

theorem readText_ok {path t : Text} {bytes : Bytes} {h : Host}
    (read : h.files.read h.cwd path = .ok bytes) (decoded : Utf8.read? bytes = some t) :
    (readText path).perform h = (.ok (Text.unifyBreaks t), h) := by
  unfold readText
  rw [perform_bind_ok (readFile_ok read), decoded]
  rfl

theorem readText_garbled {path : Text} {bytes : Bytes} {h : Host}
    (read : h.files.read h.cwd path = .ok bytes)
    (garbled : Utf8.read? bytes = none) : (readText path).perform h = (.error .notText, h) := by
  unfold readText
  rw [perform_bind_ok (readFile_ok read), garbled]
  rfl

theorem readText_fails {path : Text} {e : FileError} {h : Host}
    (failed : h.files.read h.cwd path = .error e) :
    (readText path).perform h = (.error (.file e path), h) :=
  perform_bind_error (readFile_fails failed)

theorem perform_change (f : FileSystem → Place → Text → Except FileError FileSystem) (path : Text)
    (h : Host) :
    (change f path).perform h = match f h.files h.cwd path with
      | .ok fs => (.ok ⟨⟩, { h with files := fs })
      | .error e => (.error (.file e path), h) := by
  unfold change
  rw [perform_bind, perform_ask]
  cases f h.files h.cwd path <;> rfl

theorem perform_attempt (f : FileSystem → Place → Text → FileSystem × Option FileError)
    (path : Text) (h : Host) :
    (attempt f path).perform h =
      (match (f h.files h.cwd path).2 with
        | none => .ok ⟨⟩
        | some e => .error (.file e path),
        { h with files := (f h.files h.cwd path).1 }) := by
  unfold attempt
  rw [perform_bind_ok (perform_get h)]
  rcases f h.files h.cwd path with ⟨fs, _ | e⟩ <;> rfl

theorem perform_makeDirectories (path : Text) (h : Host) :
    (makeDirectories path).perform h =
      (match (h.files.makeDirectories h.cwd path).2 with
        | none => .ok ⟨⟩
        | some e => .error (.file e path),
        { h with files := (h.files.makeDirectories h.cwd path).1 }) :=
  perform_attempt FileSystem.makeDirectories path h

theorem perform_runTool (invocation : Invocation) (h : Host) :
    (runTool invocation).perform h =
      (.ok (h.tools h.cwd h.environment invocation h.files).1,
        { h with
          files := (h.tools h.cwd h.environment invocation h.files).2
          runs := h.runs ++ [{ invocation, files := h.files }] }) := rfl

theorem perform_orSystem (act : Action α) (handle : Fault → Action α) (h : Host) :
    (orSystem act handle).perform h =
      orElse (fun e => if e.fromSystem then handle e else throw e) (act.perform h) :=
  perform_tryCatch ..

theorem perform_orSystem_ok {act : Action α} {handle : Fault → Action α} {h h' : Host} {a : α}
    (done : act.perform h = (.ok a, h')) : (orSystem act handle).perform h = (.ok a, h') := by
  rw [perform_orSystem, done, orElse]

/-- A fault of the system is handled. -/
theorem perform_orSystem_handled {act : Action α} {handle : Fault → Action α}
    {h h' : Host} {e : Fault} (failed : act.perform h = (.error e, h'))
    (system : e.fromSystem = true) :
    (orSystem act handle).perform h = (handle e).perform h' := by
  rw [perform_orSystem, failed, orElse, if_pos system]

/-- A fault that is not the system's is not handled. -/
theorem perform_orSystem_foreign {act : Action α} {handle : Fault → Action α}
    {h h' : Host} {e : Fault} (failed : act.perform h = (.error e, h'))
    (foreign : e.fromSystem = false) :
    (orSystem act handle).perform h = (.error e, h') := by
  rw [perform_orSystem, failed, orElse, foreign, if_neg Bool.false_ne_true]
  rfl

/-- The transcript is set aside for what is transcribed, and a fault becomes a value. -/
theorem perform_transcribed (act : Action α) (h : Host) :
    (transcribed act).perform h =
      (.ok ((act.perform { h with transcript := [] }).1,
          (act.perform { h with transcript := [] }).2.transcript),
        { (act.perform { h with transcript := [] }).2 with transcript := h.transcript }) := by
  have caught : (tryCatch (Except.ok <$> act) fun e =>
      pure (.error e) : Action (Except Fault α)).perform
      { h with transcript := [] } =
        (.ok (act.perform { h with transcript := [] }).1,
          (act.perform { h with transcript := [] }).2) := by
    rw [perform_tryCatch, perform_map]
    rcases act.perform { h with transcript := [] } with ⟨⟨e⟩ | ⟨a⟩, h'⟩ <;> rfl
  unfold transcribed
  rw [perform_bind_ok (perform_get h), perform_bind_ok (perform_modify _ h), perform_bind_ok caught]
  rfl

end ContractCheck.Action

namespace ContractCheck.Log

/-- Nothing is opened for a sink that is ready. -/
theorem perform_open {h : Host} (ready : ∀ settings, h.log ≠ .planned settings) :
    open_.perform h = (.ok ⟨⟩, h) := by
  unfold open_
  rw [Action.perform_bind_ok (Action.perform_get h)]
  split
  · next settings planned => exact absurd planned (ready settings)
  · rfl

end ContractCheck.Log
