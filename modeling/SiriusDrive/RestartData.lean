import SiriusDrive.Lib.Transition

/-! # Saving and loading restart data

A value is saved by writing it to a temporary file, removing the old file and
renaming the temporary one. The process may be killed between any two operations
on the files. `RestartValueSerializer` and `DownloadLimiter` save in the same way.
-/

namespace SiriusDrive

/-- The two files of a path, as far as they exist. -/
structure RestartFiles where
  outputFile : Option (List UInt8) := none
  /-- The file with the suffix ".tmp". -/
  tmpFile : Option (List UInt8) := none
  deriving Repr, DecidableEq

/-- What `saveRestartData` does to the files. -/
inductive FileOperation where
  /-- The constructor of the `std::ofstream`. -/
  | openTmp
  | writeTmp (byte : UInt8)
  | removeOutput
  | renameTmp
  deriving Repr, DecidableEq

namespace RestartFiles

variable (files : RestartFiles)

def apply : FileOperation → RestartFiles
  | .openTmp => { files with tmpFile := some [] }
  | .writeTmp byte => { files with tmpFile := files.tmpFile.map (· ++ [byte]) }
  | .removeOutput => { files with outputFile := none }
  | .renameTmp =>
      match files.tmpFile with
      | some data => { outputFile := some data, tmpFile := none }
      -- the error code of the rename is not read
      | none => files

/-- `loadRestartData`. -/
def loadRestartData : Option (List UInt8) :=
  match files.outputFile with
  | some data => some data
  | none => files.tmpFile

end RestartFiles

/-- `saveRestartData`. -/
def saveRestartData (data : List UInt8) : List FileOperation :=
  .openTmp :: (data.map .writeTmp ++ [.removeOutput, .renameTmp])

/-- A call of `saveRestartData` with what it has not done yet. -/
structure RunningSave where
  data : List UInt8
  remaining : List FileOperation
  deriving Repr, DecidableEq

/-- The files of a path with what has been saved in them. -/
structure RestartStorage where
  files : RestartFiles
  running : Option RunningSave := none
  /-- The value of the last call that has come to its end. -/
  lastSaved : Option (List UInt8) := none
  /-- The value that was being saved at the last crash. -/
  interrupted : Option (List UInt8) := none
  deriving Repr, DecidableEq

inductive RestartEvent where
  | saveRestartData (data : List UInt8)
  /-- The next operation of the running call. -/
  | advance
  /-- The process is killed and started again. -/
  | crash
  deriving Repr, DecidableEq

namespace RestartStorage

variable (storage : RestartStorage)

def advance (save : RunningSave) : RestartStorage :=
  match save.remaining with
  | [] => { storage with running := none, lastSaved := some save.data }
  | [operation] =>
      { storage with
        files := storage.files.apply operation
        running := none
        lastSaved := some save.data }
  | operation :: remaining =>
      { storage with
        files := storage.files.apply operation
        running := some { save with remaining } }

end RestartStorage

def restartSystem : Transition RestartStorage RestartEvent where
  step storage
    | .saveRestartData data =>
        if storage.running.isSome then none
        else some { storage with running := some { data, remaining := saveRestartData data } }
    | .advance => storage.running.map storage.advance
    | .crash =>
        match storage.running with
        | some save => some { storage with running := none, interrupted := some save.data }
        | none => some storage

namespace RestartStorage

/-! ## What a restart finds -/

/-- When no call is running and some value has been saved, the value loaded is the last one
    saved, or the one that was being saved at the crash. -/
def Recovers (storage : RestartStorage) : Prop :=
  ∀ last, storage.running = none → storage.lastSaved = some last →
    storage.files.loadRestartData = some last ∨
      ∃ data, storage.interrupted = some data ∧ storage.files.loadRestartData = some data

/-- A crash that leaves a value which can be loaded: the output file is still there, or the
    temporary file has all of the new value, if it does not happen to have the last one. -/
def CrashIsHarmless (storage : RestartStorage) : RestartEvent → Prop
  | .crash => ∀ save last, storage.running = some save → storage.lastSaved = some last →
      storage.files.outputFile.isSome = true ∨ storage.files.tmpFile = some save.data ∨
        storage.files.tmpFile = some last
  | _ => True

/-- How far a running call has come. -/
inductive Progress (files : RestartFiles) (data : List UInt8) : List FileOperation → Prop
  | started : Progress files data (saveRestartData data)
  | writing (written rest : List UInt8) (tmp : files.tmpFile = some written)
      (all : written ++ rest = data) :
      Progress files data (rest.map .writeTmp ++ [.removeOutput, .renameTmp])
  | removed (tmp : files.tmpFile = some data) (out : files.outputFile = none) :
      Progress files data [.renameTmp]

/-- The output file has the last value saved; it is missing only if a call has not renamed
    the temporary file yet. -/
structure Consistent (storage : RestartStorage) : Prop where
  progress : ∀ save, storage.running = some save →
    Progress storage.files save.data save.remaining
  output : ∀ last data, storage.lastSaved = some last →
    storage.files.outputFile = some data → data = last
  recovers : storage.Recovers

/-- A storage in which nothing has been saved by a call yet. -/
def initial (files : RestartFiles) : RestartStorage := { files }

theorem consistent_initial (files : RestartFiles) : (initial files).Consistent where
  progress _ running := by cases running
  output _ _ saved := by cases saved
  recovers _ _ saved := by cases saved

theorem consistent_goesOn {storage : RestartStorage} {data : List UInt8}
    {operation : FileOperation} {remaining : List FileOperation} (notLast : remaining ≠ [])
    (progress : Progress (storage.files.apply operation) data remaining)
    (output : ∀ last found, storage.lastSaved = some last →
      (storage.files.apply operation).outputFile = some found → found = last) :
    (storage.advance { data, remaining := operation :: remaining }).Consistent := by
  cases remaining with
  | nil => exact absurd rfl notLast
  | cons next rest =>
      constructor
      · intro save isRunning
        cases isRunning
        exact progress
      · exact output
      · intro last idle
        cases idle

theorem consistent_advance {storage : RestartStorage} {save : RunningSave}
    (consistent : storage.Consistent) (running : storage.running = some save) :
    (storage.advance save).Consistent := by
  obtain ⟨data, remaining⟩ := save
  have progress : Progress storage.files data remaining := consistent.progress _ running
  cases progress with
  | started =>
      apply consistent_goesOn (by simp) (Progress.writing [] data rfl rfl)
      exact consistent.output
  | writing written rest tmp all =>
      cases rest with
      | nil =>
          have isAll : written = data := by simpa using all
          apply consistent_goesOn (by simp)
          · exact Progress.removed (tmp.trans (congrArg some isAll)) rfl
          · intro last found saved isOutput
            cases isOutput
      | cons byte rest =>
          apply consistent_goesOn (by simp)
          · apply Progress.writing (written ++ [byte]) rest
            · simp only [RestartFiles.apply, tmp, Option.map_some]
            · simpa using all
          · exact consistent.output
  | removed tmp out =>
      have renamed : storage.files.apply .renameTmp = { outputFile := some data } := by
        simp only [RestartFiles.apply, tmp]
      constructor
      · intro save isRunning
        cases isRunning
      · intro last found saved isOutput
        simp only [advance, renamed, Option.some.injEq] at saved isOutput
        exact isOutput.symm.trans saved
      · intro last _ saved
        left
        simp only [advance, renamed, Option.some.injEq] at saved ⊢
        exact congrArg some saved

theorem consistent_crash {storage : RestartStorage} {save : RunningSave}
    (consistent : storage.Consistent) (running : storage.running = some save)
    (harmless : storage.CrashIsHarmless .crash) :
    Consistent { storage with running := none, interrupted := some save.data } := by
  constructor
  · intro other isRunning
    cases isRunning
  · exact consistent.output
  · intro last _ saved
    cases out : storage.files.outputFile with
    | some data =>
        left
        have isLast : data = last := consistent.output last data saved out
        simp only [RestartFiles.loadRestartData, out, isLast]
    | none =>
        rcases harmless save last running saved with present | whole | old
        · rw [out] at present
          cases present
        · right
          refine ⟨save.data, rfl, ?_⟩
          simp only [RestartFiles.loadRestartData, out, whole]
        · left
          simp only [RestartFiles.loadRestartData, out, old]

theorem consistent_step {storage after : RestartStorage} {event : RestartEvent}
    (consistent : storage.Consistent) (harmless : storage.CrashIsHarmless event)
    (step : restartSystem.step storage event = some after) : after.Consistent := by
  cases event with
  | saveRestartData data =>
      simp only [restartSystem] at step
      split at step
      · cases step
      · cases step
        constructor
        · intro save isRunning
          cases isRunning
          exact Progress.started
        · exact consistent.output
        · intro last idle
          cases idle
  | advance =>
      simp only [restartSystem] at step
      cases running : storage.running with
      | none =>
          rw [running] at step
          cases step
      | some save =>
          rw [running] at step
          cases step
          exact consistent_advance consistent running
  | crash =>
      simp only [restartSystem] at step
      cases running : storage.running with
      | none =>
          rw [running] at step
          cases step
          exact consistent
      | some save =>
          rw [running] at step
          cases step
          exact consistent_crash consistent running harmless

/-- A crash that is not harmless leaves a value which was never saved, or was saved only in part. -/
theorem not_recovers_of_crash {storage : RestartStorage} {event : RestartEvent}
    (harmful : ¬ storage.CrashIsHarmless event) :
    ∃ after, restartSystem.step storage event = some after ∧ ¬ after.Recovers := by
  cases event with
  | saveRestartData | advance => exact absurd trivial harmful
  | crash =>
      simp only [CrashIsHarmless, not_forall, not_or] at harmful
      obtain ⟨save, last, running, saved, missing, notWhole, notOld⟩ := harmful
      have out : storage.files.outputFile = none := by simpa using missing
      have loads : storage.files.loadRestartData = storage.files.tmpFile := by
        simp only [RestartFiles.loadRestartData, out]
      refine ⟨{ storage with running := none, interrupted := some save.data }, ?_, ?_⟩
      · simp only [restartSystem, running]
      · intro recovers
        rcases recovers last rfl saved with isLast | ⟨data, isInterrupted, isData⟩
        · exact notOld (loads.symm.trans isLast)
        · cases isInterrupted
          exact notWhole (loads.symm.trans isData)

/-- The restarts of a run recover what was saved exactly if every crash of the run is harmless. -/
theorem recovers_iff_crashes_harmless (files : RestartFiles) (events : List RestartEvent) :
    restartSystem.Always Recovers (initial files) events ↔
      restartSystem.Meets CrashIsHarmless (initial files) events := by
  apply Transition.always_iff_meets (E := fun _ _ => True) (I := Consistent)
  · exact fun _ consistent => consistent.recovers
  · intro storage event after consistent _ harmless step
    exact consistent_step consistent harmless step
  · intro storage event _ _ harmful
    exact not_recovers_of_crash harmful
  · exact consistent_initial files
  · exact Transition.meets_of_forall (P := fun _ => True) fun _ _ => trivial

instance (storage : RestartStorage) : Decidable storage.Recovers :=
  match running : storage.running, saved : storage.lastSaved with
  | some _, _ => isTrue fun _ idle => by rw [running] at idle; cases idle
  | none, none => isTrue fun _ _ isSaved => by rw [saved] at isSaved; cases isSaved
  | none, some last =>
      decidable_of_iff (storage.files.loadRestartData = some last ∨
          (storage.interrupted.isSome = true ∧
            storage.files.loadRestartData = storage.interrupted)) (by
        simp only [Recovers, running, saved]
        cases storage.interrupted <;> simp)

/-- The output file has been removed for a second value when the process is killed; a third
    one is then written over the second. -/
def untilSecondCrash : List RestartEvent :=
  [.saveRestartData [1], .advance, .advance, .advance, .advance,
   .saveRestartData [2], .advance, .advance, .advance, .crash,
   .saveRestartData [3, 4], .advance, .advance, .crash]

/-- Half of the third value is loaded. -/
theorem partial_value_is_loaded :
    ¬ restartSystem.Always Recovers (initial {}) untilSecondCrash := by decide +kernel

end RestartStorage

end SiriusDrive
