import BlockSchematic.Command.Run

/-!
# How sessions end

A session is put together from readings, prints and writes. For each of these one rule says how it
ends, and with them the end of a whole session follows from what its readings find.
-/

namespace BlockSchematic

@[simp] theorem toOption_mapError {α ε δ : Type} (f : ε → δ) (x : Except ε α) :
    (mapError f x).toOption = x.toOption := by
  cases x <;> rfl

theorem toOption_map {α β ε : Type} (f : α → β) (x : Except ε α) :
    (x.map f).toOption = x.toOption.map f := by
  cases x <;> rfl

namespace Session

variable {α β : Type} {files : Files} {done : α → Files → Prop}
  {failed : CommandError → Files → Prop}

/-- Where a session finds these files, what it makes, or its error, and the files it leaves are
so. -/
def Ends (session : Session α) (files : Files) (done : α → Files → Prop)
    (failed : CommandError → Files → Prop) : Prop :=
  ∀ world : World, world.files = files →
    match session.run.run world with
    | (.ok a, after) => done a after.files
    | (.error e, after) => failed e after.files

theorem run_bind (session : Session β) (next : β → Session α) (world : World) :
    (session >>= next).run.run world =
      match session.run.run world with
      | (.ok b, after) => (next b).run.run after
      | (.error e, after) => (.error e, after) := by
  rw [ExceptT.run_bind, StateT.run_bind]
  cases session.run.run world with
  | mk result after => cases result <;> rfl

theorem run_orFail (x : Except CommandError α) (world : World) :
    (Session.orFail x).run.run world = (x, world) := by
  cases x <;> rfl

theorem run_reading (f : Files → Except CommandError α) (world : World) :
    (reading f).run.run world = (f world.files, world) :=
  run_orFail (f world.files) world

theorem Ends.bind {session : Session β} {next : β → Session α} {met : β → Files → Prop}
    (first : session.Ends files met failed)
    (rest : ∀ b after, met b after → (next b).Ends after done failed) :
    Ends (session >>= next) files done failed := by
  intro world found
  have here := first world found
  rw [run_bind]
  cases ran : session.run.run world with
  | mk result after =>
    rw [ran] at here
    cases result with
    | error e => exact here
    | ok b => exact rest b after.files here after rfl

theorem Ends.reading_bind {f : Files → Except CommandError β} {next : β → Session α}
    (ok : ∀ b, (f files).toOption = some b → (next b).Ends files done failed)
    (error : ∀ e, (f files).toOption = none → failed e files) :
    Ends (reading f >>= next) files done failed := by
  rintro world rfl
  rw [run_bind, run_reading]
  cases found : f world.files with
  | error e => exact error e (by rw [found]; rfl)
  | ok b => exact ok b (by rw [found]; rfl) world rfl

theorem Ends.orFail_bind {x : Except CommandError β} {next : β → Session α}
    (ok : ∀ b, x.toOption = some b → (next b).Ends files done failed)
    (error : ∀ e, x.toOption = none → failed e files) :
    Ends (orFail x >>= next) files done failed :=
  .reading_bind (f := fun _ => x) ok error

theorem Ends.mapError_bind {ε : Type} {f : ε → CommandError} {x : Except ε β}
    {next : β → Session α} (ok : ∀ b, x.toOption = some b → (next b).Ends files done failed)
    (error : ∀ e, x.toOption = none → failed e files) :
    Ends (orFail (mapError f x) >>= next) files done failed :=
  .orFail_bind (fun b found => ok b ((toOption_mapError f x).symm.trans found)) fun e missing =>
    error e ((toOption_mapError f x).symm.trans missing)

theorem Ends.throw {e : CommandError} (failure : failed e files) :
    Ends (MonadExcept.throw e : Session α) files done failed := by
  rintro world rfl
  exact failure

/-- A failure that is reported first is a failure all the same. -/
theorem Ends.report_throw {e : CommandError} (text : String) (failure : failed e files) :
    Ends (report text >>= fun _ => (MonadExcept.throw e : Session α)) files done failed := by
  rintro world rfl
  exact failure

theorem Ends.print {text : String} {done : Unit → Files → Prop} (kept : done () files) :
    Ends (print text) files done failed := by
  rintro world rfl
  exact kept

theorem Ends.save {path text : String} {done : Unit → Files → Prop}
    (written : ∀ after, files.write path text = .ok after → done () after)
    (refused : ∀ fault, files.write path text = .error fault →
      failed (.unwritable path fault) files) :
    Ends (save path text) files done failed := by
  rintro world rfl
  rw [Session.save, run_bind, run_reading, Files.writeText]
  cases h : world.files.write path text with
  | error fault => exact refused fault h
  | ok after => exact written after h

theorem outcome_of_ends {session : Session Unit} {done : Files → Prop}
    (ends : session.Ends files (fun _ => done) failed) :
    match session.outcome files with
    | .ok world => done world.files
    | .error failure => failed failure.error failure.files := by
  have here := ends ⟨"", "", files⟩ rfl
  rw [outcome]
  cases ran : session.run.run ⟨"", "", files⟩ with
  | mk result after =>
    rw [ran] at here
    cases result with
    | error e => exact here
    | ok a => exact here

end Session

end BlockSchematic
