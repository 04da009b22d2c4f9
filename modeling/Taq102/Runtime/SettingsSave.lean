import Taq102.Lib.Fallible
import Taq102.Runtime.Settings

/-! Saving the preferences (`settings_save`) call by call, and what its one exit path leaves of the
directory whichever of the calls fail. -/
namespace Taq102.Runtime
open Taq102.Lib Fallible

/-- The locals of `settings_save` that its exit path reads, the files, and whether the directory was
synced. -/
structure Saving where
  files : Files
  directoryFd : Bool
  temporary : Option CStr
  renamed : Bool
  synced : Bool

/-- A call that fails or changes nothing. -/
def call (e : SaveEnv) (c : SaveCall) : Fallible Saving Unit :=
  if e.fails c then fail (-1) else pure ()

def temporaryName (path : CStr) (e : SaveEnv) : CStr := path ++ cstr ".tmp." ++ e.suffix

/-- The file `mkstemp` opens is new; its name is in the template in any case. -/
def makeTemporary (path : CStr) (e : SaveEnv) : Fallible Saving Unit := do
  update fun st => { st with temporary := some (temporaryName path e) }
  let taken ← gets fun st => (st.files (temporaryName path e)).isSome
  if taken then fail (-1)
  call e .mkstemp
  update fun st => { st with files := Function.update st.files (temporaryName path e) (some []) }

def writeTemporary (text path : CStr) (e : SaveEnv) : Fallible Saving Unit := do
  let written := writeAll e.writes text
  update fun st => { st with files := Function.update st.files (temporaryName path e) (some written.2) }
  if !written.1 then fail (-1)

def renameTemporary (path : CStr) (e : SaveEnv) : Fallible Saving Unit := do
  call e .rename
  update fun st => { st with
    files := Function.update (Function.update st.files (temporaryName path e) none) path
      (st.files (temporaryName path e))
    renamed := true }

/-- From the new temporary file to the synced directory. -/
def saveTemporary (text path : CStr) (e : SaveEnv) : Fallible Saving Unit := do
  call e .getfd
  call e .setfd
  call e .fchmod
  writeTemporary text path e
  call e .fsync
  call e .close
  renameTemporary path e
  call e .fsyncDirectory
  update fun st => { st with synced := true }

/-- The function up to its label `done`. -/
def saveBody (text path : CStr) (e : SaveEnv) : Fallible Saving Unit := do
  call e .directory
  call e .openDirectory
  update fun st => { st with directoryFd := true }
  call e .getfdDirectory
  call e .setfdDirectory
  call e .temporary
  makeTemporary path e
  saveTemporary text path e

/-- The label `done`: the return value and what is left. -/
def saveDone (e : SaveEnv) (body : Except Int Unit × Saving) : Int × Saving :=
  let st := body.2
  let st := match st.temporary with
    | some name => if st.renamed then st else { st with files := Function.update st.files name none }
    | none => st
  let result := match body.1 with
    | .ok () => 0
    | .error _ => -1
  (if st.directoryFd && e.fails .closeDirectory then -1 else result, st)

def saveCalls (s : Settings) (path : CStr) (e : SaveEnv) (files : Files) : Int × Saving :=
  let st := { files, directoryFd := false, temporary := none, renamed := false, synced := false }
  if (contents s).length ≥ 128 then (-1, st) else saveDone e (saveBody (contents s) path e st)

/-- The directory after a save: the file as a whole, and nothing else changed. -/
structure Replaced (s : Settings) (path : CStr) (files : Files) (out : Int × Saving) : Prop where
  whole : out.2.files path = files path ∨ out.2.files path = some (contents s)
  stored : out.1 = 0 → out.2.files path = some (contents s) ∧ out.2.synced = true
  kept : out.2.renamed = false → out.2.files path = files path
  others : ∀ name, name ≠ path → out.2.files name = files name

/-- The calls before `mkstemp` all succeed. -/
def ReachesMkstemp (s : Settings) (e : SaveEnv) : Prop :=
  (contents s).length < 128 ∧ e.fails .directory = false ∧ e.fails .openDirectory = false ∧
    e.fails .getfdDirectory = false ∧ e.fails .setfdDirectory = false ∧ e.fails .temporary = false

instance (s : Settings) (e : SaveEnv) : Decidable (ReachesMkstemp s e) :=
  inferInstanceAs (Decidable (_ ∧ _))

section Calls
variable {α : Type} {f : Unit → Fallible Saving α} {e : SaveEnv} {st : Saving} {path text : CStr}

theorem call_apply (c : SaveCall) :
    call e c st = if e.fails c = true then (.error (-1), st) else (.ok (), st) := by
  rw [call]
  split <;> rfl

theorem call_bind (c : SaveCall) :
    (call e c >>= f) st = if e.fails c = true then (.error (-1), st) else f () st :=
  bind_ite (call_apply c)

/-- What holds of the rest holds of a call before it, if it holds when the call fails. -/
theorem call_cases {P : Except Int α × Saving → Prop} {c : SaveCall}
    (hfail : e.fails c = true → P (.error (-1), st)) (hgo : e.fails c = false → P (f () st)) :
    P ((call e c >>= f) st) := by
  rw [call_bind]
  split
  · rename_i h
    exact hfail h
  · rename_i h
    exact hgo (Bool.eq_false_of_not_eq_true h)

theorem makeTemporary_bind : (makeTemporary path e >>= f) st =
    let named := { st with temporary := some (temporaryName path e) }
    if (st.files (temporaryName path e)).isSome = true ∨ e.fails .mkstemp = true then
      (.error (-1), named)
    else f () { named with files := Function.update st.files (temporaryName path e) (some []) } := by
  apply bind_ite
  rw [makeTemporary, update_bind, gets_bind]
  by_cases htaken : (st.files (temporaryName path e)).isSome = true
  · rw [if_pos (Or.inl htaken), if_pos htaken]
    exact bind_of_error rfl
  · rw [if_neg htaken]
    refine (call_bind _).trans ?_
    by_cases hfails : e.fails .mkstemp = true
    · rw [if_pos hfails, if_pos (Or.inr hfails)]
    · rw [if_neg hfails, if_neg (not_or.mpr ⟨htaken, hfails⟩)]
      rfl

theorem writeTemporary_bind : (writeTemporary text path e >>= f) st =
    let written := { st with
      files := Function.update st.files (temporaryName path e) (some (writeAll e.writes text).2) }
    if (writeAll e.writes text).1 = false then (.error (-1), written) else f () written := by
  apply bind_ite
  rw [writeTemporary, update_bind]
  cases (writeAll e.writes text).1 <;> rfl

theorem renameTemporary_bind : (renameTemporary path e >>= f) st =
    if e.fails .rename = true then (.error (-1), st)
    else f () { st with
      files := Function.update (Function.update st.files (temporaryName path e) none) path
        (st.files (temporaryName path e))
      renamed := true } := by
  apply bind_ite
  rw [renameTemporary, call_bind]
  rfl

end Calls

section Outcome
variable {s : Settings} {path text : CStr} {e : SaveEnv} {files : Files} {st : Saving}

theorem temporaryName_ne (path : CStr) (e : SaveEnv) : temporaryName path e ≠ path := by
  intro h
  have hlen := congrArg List.length h
  have hdots : (cstr ".tmp.").length = 5 := by decide +kernel
  rw [temporaryName, List.length_append, List.length_append, hdots] at hlen
  omega

theorem minusOne_ne : ¬ (-1 : Int) = 0 := by decide

/-- The exit path after a call that failed. -/
theorem saveDone_error : saveDone e (.error (-1), st) = (-1,
    match st.temporary with
    | some name => if st.renamed then st else { st with files := Function.update st.files name none }
    | none => st) := by
  rw [saveDone]
  simp only [ite_self]

/-- A call that failed before there was a temporary file. -/
theorem replaced_early (hfiles : st.files = files) (htemporary : st.temporary = none) :
    Replaced s path files (saveDone e (.error (-1), st)) := by
  rw [saveDone_error, htemporary]
  exact ⟨.inl (by rw [hfiles]), fun h => absurd h minusOne_ne, fun _ => by rw [hfiles],
    fun _ _ => by rw [hfiles]⟩

/-- A call that failed before the rename: the temporary file is removed. -/
theorem replaced_removed (hfiles : Function.update st.files (temporaryName path e) none = files)
    (htemporary : st.temporary = some (temporaryName path e)) (hrenamed : st.renamed = false) :
    Replaced s path files (saveDone e (.error (-1), st)) := by
  rw [saveDone_error, htemporary]
  simp only [hrenamed, Bool.false_eq_true, if_false, hfiles]
  exact ⟨.inl rfl, fun h => absurd h minusOne_ne, fun _ => rfl, fun _ _ => rfl⟩

/-- Once renamed, the file stays: what fails then is only reported. -/
theorem replaced_renamed {body : Except Int Unit} (hpath : st.files path = some (contents s))
    (hothers : ∀ name, name ≠ path → st.files name = files name) (hrenamed : st.renamed = true)
    (hsynced : body = .ok () → st.synced = true) : Replaced s path files (saveDone e (body, st)) := by
  have hdone : (saveDone e (body, st)).2 = st := by
    rw [saveDone]
    simp only [hrenamed, if_true]
    split <;> rfl
  have hresult : (saveDone e (body, st)).1 = 0 → body = .ok () := by
    rw [saveDone]
    cases body with
    | ok _ => exact fun _ => rfl
    | error code =>
      intro h
      simp only [ite_self] at h
      exact absurd h minusOne_ne
  refine ⟨.inr ?_, fun h => ⟨?_, ?_⟩, fun h => ?_, fun name hname => ?_⟩
  · rw [hdone]
    exact hpath
  · rw [hdone]
    exact hpath
  · rw [hdone]
    exact hsynced (hresult h)
  · rw [hdone, hrenamed] at h
    cases h
  · rw [hdone]
    exact hothers name hname

/-- The file `mkstemp` opened is the only one that differs. -/
theorem removed_temporary {content : Option CStr} (hfree : files (temporaryName path e) = none) :
    Function.update (Function.update files (temporaryName path e) content) (temporaryName path e)
      none = files := by
  rw [Function.update_idem, ← hfree, Function.update_eq_self]

/-- The state in which `mkstemp` is called. -/
def atMkstemp (files : Files) : Saving :=
  { files, directoryFd := true, temporary := none, renamed := false, synced := false }

/-- The state after `mkstemp` opened a new file. -/
def opened (path : CStr) (e : SaveEnv) (files : Files) : Saving :=
  { atMkstemp files with
    files := Function.update files (temporaryName path e) (some [])
    temporary := some (temporaryName path e) }

/-- The file at the path, once the rename has put the whole text there. -/
theorem replaced_synced (hfree : files (temporaryName path e) = none)
    (hfiles : st.files =
      Function.update (Function.update files (temporaryName path e) none) path (some (contents s)))
    (hrenamed : st.renamed = true) :
    Replaced s path files (saveDone e ((do
      call e .fsyncDirectory
      update fun st => { st with synced := true }) st)) := by
  have hpath : st.files path = some (contents s) := by
    rw [hfiles, Function.update_self]
  have hothers : ∀ name, name ≠ path → st.files name = files name := by
    intro name hname
    rw [hfiles, Function.update_of_ne hname, ← hfree, Function.update_eq_self]
  refine call_cases (P := fun body => Replaced s path files (saveDone e body)) (fun _ => ?_) fun _ => ?_
  · exact replaced_renamed hpath hothers hrenamed fun h => by cases h
  · refine replaced_renamed ?_ ?_ ?_ fun _ => rfl
    · exact hpath
    · exact hothers
    · exact hrenamed

/-- Until the rename the exit path removes the temporary file; after it the new text is complete. -/
theorem replaced_temporary (hfree : files (temporaryName path e) = none) :
    Replaced s path files (saveDone e (saveTemporary (contents s) path e (opened path e files))) := by
  have hempty : Function.update (Function.update files (temporaryName path e) (some []))
      (temporaryName path e) none = files := removed_temporary hfree
  refine call_cases (P := fun body => Replaced s path files (saveDone e body))
    (fun _ => replaced_removed hempty rfl rfl) fun _ => ?_
  refine call_cases (P := fun body => Replaced s path files (saveDone e body))
    (fun _ => replaced_removed hempty rfl rfl) fun _ => ?_
  refine call_cases (P := fun body => Replaced s path files (saveDone e body))
    (fun _ => replaced_removed hempty rfl rfl) fun _ => ?_
  rw [writeTemporary_bind]
  have hwritten : Function.update (Function.update (opened path e files).files (temporaryName path e)
      (some (writeAll e.writes (contents s)).2)) (temporaryName path e) none = files := by
    rw [Function.update_idem]
    exact hempty
  cases hall : (writeAll e.writes (contents s)).1 with
  | false => exact replaced_removed hwritten rfl rfl
  | true =>
    refine call_cases (P := fun body => Replaced s path files (saveDone e body))
      (fun _ => replaced_removed hwritten rfl rfl) fun _ => ?_
    refine call_cases (P := fun body => Replaced s path files (saveDone e body))
      (fun _ => replaced_removed hwritten rfl rfl) fun _ => ?_
    rw [renameTemporary_bind]
    split
    · exact replaced_removed hwritten rfl rfl
    · refine replaced_synced hfree ?_ rfl
      simp only [opened, atMkstemp, Function.update_idem, Function.update_self, writeAll_all hall]

/-- The calls up to `mkstemp`, which change no file. -/
theorem saveBody_cases {P : Except Int Unit × Saving → Prop}
    (hearly : ∀ fd, P (.error (-1), { atMkstemp files with directoryFd := fd }))
    (hgo : ReachesMkstemp s e →
      P ((makeTemporary path e >>= fun _ => saveTemporary (contents s) path e) (atMkstemp files)))
    (hshort : (contents s).length < 128) :
    P (saveBody (contents s) path e { atMkstemp files with directoryFd := false }) := by
  refine call_cases (fun _ => hearly false) fun hdirectory => ?_
  refine call_cases (fun _ => hearly false) fun hopen => ?_
  rw [update_bind]
  refine call_cases (fun _ => hearly true) fun hget => ?_
  refine call_cases (fun _ => hearly true) fun hset => ?_
  refine call_cases (fun _ => hearly true) fun htemporary => ?_
  exact hgo ⟨hshort, hdirectory, hopen, hget, hset, htemporary⟩

theorem saveBody_reach (hreach : ReachesMkstemp s e) :
    saveBody (contents s) path e { atMkstemp files with directoryFd := false } =
      (makeTemporary path e >>= fun _ => saveTemporary (contents s) path e) (atMkstemp files) := by
  obtain ⟨-, hdirectory, hopen, hget, hset, htemporary⟩ := hreach
  simp only [saveBody, call_bind, update_bind, hdirectory, hopen, hget, hset, htemporary,
    Bool.false_eq_true, if_false]
  rfl

theorem replaced_free (hfree : ReachesMkstemp s e → files (temporaryName path e) = none) :
    Replaced s path files (saveCalls s path e files) := by
  rw [saveCalls]
  split
  · exact ⟨.inl rfl, fun h => absurd h minusOne_ne, fun _ => rfl, fun _ _ => rfl⟩
  · rename_i hlong
    refine saveBody_cases (P := fun body => Replaced s path files (saveDone e body)) (s := s)
      (fun _ => replaced_early rfl rfl) (fun hreach => ?_) (by omega)
    rw [makeTemporary_bind]
    split
    · refine replaced_removed ?_ rfl rfl
      change Function.update files (temporaryName path e) none = files
      rw [← hfree hreach, Function.update_eq_self]
    · exact replaced_temporary (hfree hreach)

/-- A name that belongs to another file is removed. -/
theorem taken_removed (hreach : ReachesMkstemp s e) (htaken : files (temporaryName path e) ≠ none) :
    (saveCalls s path e files).2.files (temporaryName path e) = none := by
  have hbody : saveBody (contents s) path e { atMkstemp files with directoryFd := false } =
      (.error (-1), { atMkstemp files with temporary := some (temporaryName path e) }) :=
    (saveBody_reach hreach).trans
      (makeTemporary_bind.trans (if_pos (Or.inl (Option.isSome_iff_ne_none.mpr htaken))))
  have hshort := hreach.1
  rw [saveCalls, if_neg (by omega)]
  have hdone := congrArg (saveDone e) hbody
  rw [saveDone_error] at hdone
  exact (congrArg (fun out : Int × Saving => out.2.files (temporaryName path e)) hdone).trans
    (Function.update_self ..)

end Outcome

section Sequence
variable {path text : CStr} {e : SaveEnv} {files : Files} {st : Saving}

/-- What the caller sees of a save. -/
def outcome (out : Int × Saving) : Int × Files := (out.1, out.2.files)

theorem saveDone_ok : (saveDone e (.ok (), st)).1 =
    if (st.directoryFd && e.fails .closeDirectory) = true then -1 else 0 := by
  simp only [saveDone]
  cases st.temporary with
  | none => rfl
  | some name => cases st.renamed <;> rfl

theorem outcome_early (htemporary : st.temporary = none) :
    outcome (saveDone e (.error (-1), st)) = (-1, st.files) := by
  rw [saveDone_error, htemporary]
  rfl

theorem outcome_removed (htemporary : st.temporary = some (temporaryName path e))
    (hrenamed : st.renamed = false) : outcome (saveDone e (.error (-1), st)) =
      (-1, Function.update st.files (temporaryName path e) none) := by
  rw [saveDone_error, htemporary]
  simp only [hrenamed, Bool.false_eq_true, if_false]
  rfl

theorem outcome_renamed {body : Except Int Unit} {result : Int} (hrenamed : st.renamed = true)
    (hresult : (saveDone e (body, st)).1 = result) :
    outcome (saveDone e (body, st)) = (result, st.files) := by
  rw [outcome, hresult, saveDone]
  simp only [hrenamed, if_true]
  split <;> rfl

/-- What is left to do after `replaceFile`. -/
def syncDirectory (e : SaveEnv) (replaced : Bool × Files) : Int × Files :=
  if replaced.1 && !e.fails .fsyncDirectory && !e.fails .closeDirectory then (0, replaced.2)
  else (-1, replaced.2)

theorem replaceFile_fails (h : (setCloseOnExec e .getfd .setfd && !e.fails .fchmod &&
      (writeAll e.writes text).1 && !e.fails .fsync && !e.fails .close && !e.fails .rename) = false) :
    (-1, Function.update files (temporaryName path e) none) =
      syncDirectory e (replaceFile text path (temporaryName path e) e files) := by
  rw [replaceFile, if_neg (by rw [h]; exact Bool.false_ne_true)]
  rfl

theorem outcome_saveTemporary :
    outcome (saveDone e (saveTemporary text path e (opened path e files))) =
      syncDirectory e (replaceFile text path (temporaryName path e) e files) := by
  have hempty : Function.update (opened path e files).files (temporaryName path e) none =
      Function.update files (temporaryName path e) none := Function.update_idem ..
  refine call_cases (P := fun body => outcome (saveDone e body) = _) (fun h => ?_) fun hget => ?_
  · rw [outcome_removed rfl rfl, hempty]
    exact replaceFile_fails (by simp only [setCloseOnExec, h, Bool.not_true, Bool.false_and])
  refine call_cases (P := fun body => outcome (saveDone e body) = _) (fun h => ?_) fun hset => ?_
  · rw [outcome_removed rfl rfl, hempty]
    exact replaceFile_fails
      (by simp only [setCloseOnExec, h, Bool.not_true, Bool.and_false, Bool.false_and])
  refine call_cases (P := fun body => outcome (saveDone e body) = _) (fun h => ?_) fun hmode => ?_
  · rw [outcome_removed rfl rfl, hempty]
    exact replaceFile_fails (by simp only [h, Bool.not_true, Bool.and_false, Bool.false_and])
  rw [writeTemporary_bind]
  cases hall : (writeAll e.writes text).1 with
  | false =>
    refine (outcome_removed rfl rfl).trans ?_
    rw [Function.update_idem, hempty]
    exact replaceFile_fails (by simp only [hall, Bool.and_false, Bool.false_and])
  | true =>
    refine call_cases (P := fun body => outcome (saveDone e body) = _) (fun h => ?_) fun hsync => ?_
    · refine (outcome_removed rfl rfl).trans ?_
      rw [Function.update_idem, hempty]
      exact replaceFile_fails (by simp only [h, Bool.not_true, Bool.and_false, Bool.false_and])
    refine call_cases (P := fun body => outcome (saveDone e body) = _) (fun h => ?_) fun hclose => ?_
    · refine (outcome_removed rfl rfl).trans ?_
      rw [Function.update_idem, hempty]
      exact replaceFile_fails (by simp only [h, Bool.not_true, Bool.and_false, Bool.false_and])
    rw [renameTemporary_bind]
    cases hrename : e.fails .rename with
    | true =>
      refine (outcome_removed rfl rfl).trans ?_
      rw [Function.update_idem, hempty]
      exact replaceFile_fails (by simp only [hrename, Bool.not_true, Bool.and_false])
    | false =>
      have hreplaced : replaceFile text path (temporaryName path e) e files =
          (true, Function.update (Function.update files (temporaryName path e) none) path
            (some (writeAll e.writes text).2)) := by
        simp only [replaceFile, setCloseOnExec, hget, hset, hmode, hall, hsync, hclose, hrename,
          Bool.not_false, Bool.and_true, if_true]
      have hfiles : Function.update (Function.update (Function.update (opened path e files).files
            (temporaryName path e) (some (writeAll e.writes text).2)) (temporaryName path e) none) path
            (Function.update (opened path e files).files (temporaryName path e)
              (some (writeAll e.writes text).2) (temporaryName path e)) =
          Function.update (Function.update files (temporaryName path e) none) path
            (some (writeAll e.writes text).2) := by
        rw [Function.update_idem, hempty, Function.update_self]
      rw [hreplaced, if_neg Bool.false_ne_true]
      refine call_cases (P := fun body => outcome (saveDone e body) = _) (fun h => ?_) fun hdone => ?_
      · refine (outcome_renamed rfl (congrArg Prod.fst saveDone_error)).trans ?_
        rw [syncDirectory, h]
        exact congrArg (Prod.mk _) hfiles
      · refine (outcome_renamed rfl saveDone_ok).trans ?_
        rw [syncDirectory, hdone]
        cases e.fails .closeDirectory <;> exact congrArg (Prod.mk _) hfiles

/-- The function call by call is the one the runtime uses. -/
theorem saveCalls_settingsSave (s : Settings) (path : CStr) (e : SaveEnv) (files : Files) :
    outcome (saveCalls s path e files) = settingsSave s path e files := by
  rw [saveCalls, settingsSave]
  by_cases hlong : (contents s).length ≥ 128
  · rw [if_pos hlong, if_pos hlong]
    rfl
  rw [if_neg hlong, if_neg hlong]
  by_cases hearly : e.fails .directory = true ∨ e.fails .openDirectory = true ∨
      setCloseOnExec e .getfdDirectory .setfdDirectory = false ∨ e.fails .temporary = true
  · rw [if_pos hearly]
    refine saveBody_cases (P := fun body => outcome (saveDone e body) = (-1, files)) (s := s)
      (fun _ => outcome_early rfl) (fun hreach => absurd hearly ?_) (by omega)
    obtain ⟨-, hdirectory, hopen, hget, hset, htemporary⟩ := hreach
    simp only [setCloseOnExec, hdirectory, hopen, hget, hset, htemporary, Bool.not_false, Bool.and_true,
      Bool.false_eq_true, Bool.true_eq_false, or_self, not_false_eq_true]
  rw [if_neg hearly]
  have hreach : ReachesMkstemp s e := by
    simp only [setCloseOnExec, not_or, Bool.not_eq_false, Bool.not_eq_true, Bool.and_eq_true,
      Bool.not_eq_true'] at hearly
    obtain ⟨hdirectory, hopen, ⟨hget, hset⟩, htemporary⟩ := hearly
    exact ⟨by omega, hdirectory, hopen, hget, hset, htemporary⟩
  have hbody : saveBody (contents s) path e { atMkstemp files with directoryFd := false } = _ :=
    (saveBody_reach hreach).trans makeTemporary_bind
  refine (congrArg (fun body => outcome (saveDone e body)) hbody).trans ?_
  by_cases htaken : e.fails .mkstemp = true ∨ files (temporaryName path e) ≠ none
  · refine Eq.trans ?_ (if_pos htaken).symm
    have hfails := htaken.symm.imp_left Option.isSome_iff_ne_none.mpr
    exact (congrArg (fun body => outcome (saveDone e body)) (if_pos hfails)).trans
      (outcome_removed rfl rfl)
  · refine Eq.trans ?_ (if_neg htaken).symm
    have hopens := fun h => htaken (Or.symm (Or.imp_left Option.isSome_iff_ne_none.mp h))
    exact (congrArg (fun body => outcome (saveDone e body)) (if_neg hopens)).trans
      outcome_saveTemporary

end Sequence

/-- The directory is as it should be after a save exactly when `mkstemp`, if it is reached, leaves a
name in its template that no file has: one it could not open is removed all the same. -/
theorem saveCalls_replaced_iff (s : Settings) (path : CStr) (e : SaveEnv) (files : Files) :
    Replaced s path files (saveCalls s path e files) ↔
      ¬ (ReachesMkstemp s e ∧ files (temporaryName path e) ≠ none) := by
  refine ⟨fun h ⟨hreach, htaken⟩ => ?_, fun h => replaced_free fun hreach => ?_⟩
  · have hkept := h.others (temporaryName path e) (temporaryName_ne path e)
    rw [taken_removed hreach htaken] at hkept
    exact htaken hkept.symm
  · exact not_not.mp fun htaken => h ⟨hreach, htaken⟩

/-- `mkstemp` fails for want of a descriptor, and the name it tried is another file's. -/
theorem other_file_removed :
    let e : SaveEnv := { fails := fun c => c = .mkstemp, suffix := cstr "a1B2c3", writes := [] }
    let other := cstr "/data/s.tmp.a1B2c3"
    let files : Files := fun name => if name = other then some (cstr "kept") else none
    let out := saveCalls settingsDefaults (cstr "/data/s") e files
    files other = some (cstr "kept") ∧ out.2.files other = none ∧
      ¬ Replaced settingsDefaults (cstr "/data/s") files out := by
  intro e other files out
  have hbefore : files other = some (cstr "kept") := by decide +kernel
  have hafter : out.2.files other = none := by decide +kernel
  have hother : other ≠ cstr "/data/s" := by decide +kernel
  refine ⟨hbefore, hafter, fun h => ?_⟩
  have hkept := h.others other hother
  rw [hbefore, hafter] at hkept
  cases hkept

end Taq102.Runtime
