import TensorParity.File.System
import TensorParity.Proofs.Except

/-!
What file operations leave behind. A file that was written or moved reads back as its content, and
operations on files leave the directories in place, so a path leads where it led before. Computations
on files are taken apart step by step.
-/
namespace TensorParity

namespace FileSystem

variable {fs fs' : FileSystem} {location place : Location} {entry : Entry} {p q : Path}
  {content : ByteArray}

theorem find?_put_self (h : location ≠ []) :
    (fs.put location entry).find? location = some entry := by
  simp [find?, put, h]

theorem find?_put_of_ne (h : place ≠ location) :
    (fs.put location entry).find? place = fs.find? place := by
  unfold find? put
  split
  · rfl
  · rw [List.find?_cons_of_neg (by simpa using Ne.symm h), List.find?_filter]
    congr 2
    funext a
    by_cases ha : a.1 = place <;> simp [ha, h]

theorem find?_drop_of_ne (h : place ≠ location) :
    (fs.drop location).find? place = fs.find? place := by
  unfold find? drop
  split
  · rfl
  · rw [List.find?_filter]
    congr 2
    funext a
    by_cases ha : a.1 = place <;> simp [ha, h]

theorem find?_drop_self (h : location ≠ []) : (fs.drop location).find? location = none := by
  simp [find?, drop, h]

/-- What is put somewhere later stands in place of what was put there before. -/
theorem put_put (fs : FileSystem) (location : Location) (entry entry' : Entry) :
    (fs.put location entry).put location entry' = fs.put location entry' := by
  simp [put, List.filter_filter]

/-- Whether relative paths start from the same place and no directory is lost. -/
structure KeepsDirectories (fs fs' : FileSystem) : Prop where
  current : fs'.current = fs.current
  directories : ∀ location, fs.find? location = some .directory →
    fs'.find? location = some .directory

theorem KeepsDirectories.trans {fs'' : FileSystem} (h : KeepsDirectories fs fs')
    (h' : KeepsDirectories fs' fs'') : KeepsDirectories fs fs'' :=
  ⟨h'.current.trans h.current, fun location hfound =>
    h'.directories location (h.directories location hfound)⟩

theorem keepsDirectories_put (h : fs.find? location ≠ some .directory) (entry : Entry) :
    KeepsDirectories fs (fs.put location entry) := by
  refine ⟨rfl, fun place hplace => ?_⟩
  rwa [find?_put_of_ne]
  rintro rfl
  exact h hplace

theorem keepsDirectories_drop (h : fs.find? location ≠ some .directory) :
    KeepsDirectories fs (fs.drop location) := by
  refine ⟨rfl, fun place hplace => ?_⟩
  rwa [find?_drop_of_ne]
  rintro rfl
  exact h hplace

theorem KeepsDirectories.enter (h : KeepsDirectories fs fs') {name : String}
    (hstep : fs.enter location name = .ok place) : fs'.enter location name = .ok place := by
  unfold FileSystem.enter at hstep ⊢
  split at hstep
  · rename_i hdot
    rwa [if_pos hdot]
  rename_i hdot
  rw [if_neg hdot]
  split at hstep
  · rename_i hdots
    rwa [if_pos hdots]
  rename_i hdots
  rw [if_neg hdots]
  split at hstep
  · simp at hstep
  rename_i hlength
  rw [if_neg hlength]
  split at hstep
  · simp at hstep
  · simp at hstep
  · rename_i hfound
    rwa [h.directories _ hfound]

theorem KeepsDirectories.follow (h : KeepsDirectories fs fs') {slash : Bool} {names : List String}
    {target : Target} (hfollow : fs.follow slash location names = .ok target) :
    fs'.follow slash location names = .ok target := by
  induction names generalizing location with
  | nil => exact hfollow
  | cons name rest ih =>
    cases rest with
    | nil => exact hfollow
    | cons next rest =>
      rw [FileSystem.follow] at hfollow ⊢
      · obtain ⟨entered, henter, hrest⟩ := bind_eq_ok.mp hfollow
        rw [h.enter henter]
        exact ih hrest
      · simp
      · simp

/-- A path that is no fault in itself is followed name by name. -/
theorem resolve_eq_ok {target : Target} : fs.resolve p = .ok target ↔
    '\x00' ∉ p.text.toList ∧ p.text.toList ≠ [] ∧ p.text.utf8ByteSize ≤ maxPath ∧
      fs.follow (p.text.toList.getLast? = some '/') (if p.isAbsolute then [] else fs.current)
        (pathNames p) = .ok target := by
  simp only [FileSystem.resolve, pathNames]
  by_cases hzero : '\x00' ∈ p.text.toList
  · simp [hzero]
  by_cases hempty : p.text.toList = []
  · simp [hempty]
  by_cases hlength : maxPath < p.text.utf8ByteSize
  · simp [hzero, hempty, hlength, Nat.not_le.mpr hlength]
  · simp [hzero, hempty, hlength, Nat.not_lt.mp hlength]

/-- A path that leads somewhere still leads there. -/
theorem KeepsDirectories.resolve (h : KeepsDirectories fs fs') {target : Target}
    (hresolve : fs.resolve p = .ok target) : fs'.resolve p = .ok target := by
  obtain ⟨hzero, hempty, hlength, hfollow⟩ := resolve_eq_ok.mp hresolve
  rw [← h.current] at hfollow
  exact resolve_eq_ok.mpr ⟨hzero, hempty, hlength, h.follow hfollow⟩

/-- The place that a path names is not the root, and it ends in the last of the path's names. -/
theorem follow_named {slash slash' : Bool} {start : Location} {names : List String}
    (h : fs.follow slash start names = .ok (.named location slash')) :
    location ≠ [] ∧ location.getLast? = names.getLast? ∧ slash' = slash := by
  induction names generalizing start with
  | nil => simp [FileSystem.follow] at h
  | cons name rest ih =>
    cases rest with
    | nil =>
      unfold FileSystem.follow at h
      split at h
      · simp at h
      split at h
      · simp at h
      split at h
      · simp at h
      · obtain ⟨rfl, rfl⟩ := Target.named.inj (Except.ok.inj h)
        simp
    | cons next rest =>
      rw [FileSystem.follow] at h
      · obtain ⟨entered, -, hrest⟩ := bind_eq_ok.mp h
        simpa using ih hrest
      · simp

theorem resolve_named {slash : Bool} (h : fs.resolve p = .ok (.named location slash)) :
    location ≠ [] ∧ location.getLast? = (pathNames p).getLast? := by
  obtain ⟨-, -, -, hfollow⟩ := resolve_eq_ok.mp h
  exact ⟨(follow_named hfollow).1, (follow_named hfollow).2.1⟩

theorem locate_file (hresolve : fs.resolve p = .ok (.named location false))
    (hfound : fs.find? location = some (.file content)) :
    fs.locate p = .ok (location, .file content) := by
  simp only [locate, hresolve, ok_bind, hfound]
  rfl

theorem read_file (hresolve : fs.resolve p = .ok (.named location false))
    (hfound : fs.find? location = some (.file content)) :
    fs.read p = .ok content ∧ fs.size p = .ok content.size := by
  simp only [read, size, locate_file hresolve hfound, ok_bind]
  exact ⟨rfl, rfl⟩

/-- A file that is read has the size of its content. -/
theorem size_of_read (h : fs.read p = .ok content) : fs.size p = .ok content.size := by
  obtain ⟨⟨location, entry⟩, hlocate, h⟩ := bind_eq_ok.mp h
  cases entry with
  | directory => cases h
  | file found =>
    obtain rfl := Except.ok.inj h
    rw [size, hlocate]
    rfl

theorem write_eq_ok (h : fs.write p content = .ok fs') :
    ∃ location, fs.resolve p = .ok (.named location false) ∧ location ≠ [] ∧
      fs.find? location ≠ some .directory ∧ fs' = fs.put location (.file content) := by
  obtain ⟨target, hresolve, h⟩ := bind_eq_ok.mp h
  cases target with
  | reached location => simp at h
  | named location slash =>
    simp only at h
    split at h
    · simp at h
    · rename_i hplain
      rw [not_or, Bool.not_eq_true] at hplain
      obtain ⟨rfl, hfile⟩ := hplain
      exact ⟨location, hresolve, (resolve_named hresolve).1, hfile, (Except.ok.inj h).symm⟩

theorem write_of_named (hresolve : fs.resolve p = .ok (.named location false)) :
    fs.write p content = if fs.find? location = some .directory then .error .isDirectory
      else .ok (fs.put location (.file content)) := by
  simp only [write, hresolve, ok_bind, Bool.false_eq_true, false_or]
  rfl

/-- What a file is to hold plays no part in whether it can be written. -/
theorem write_eq_error {e : FileError} (h : fs.write p content = .error e) (content' : ByteArray) :
    fs.write p content' = .error e := by
  rcases bind_eq_error.mp h with h | ⟨target, hresolve, h⟩
  · rw [write, h, error_bind]
  · rw [write, hresolve, ok_bind]
    cases target with
    | reached location => exact h
    | named location slash =>
      dsimp only at h ⊢
      split at h
      · rwa [if_pos ‹_›]
      · cases h

/-- A file that can be written can be written with anything in it, and as often as one likes. -/
theorem write_write (h : fs.write p content = .ok fs') (content' : ByteArray) :
    ∃ after, fs.write p content' = .ok after ∧ fs'.write p content' = .ok after := by
  obtain ⟨location, hresolve, hne, hfile, rfl⟩ := write_eq_ok h
  refine ⟨fs.put location (.file content'), ?_, ?_⟩
  · rw [write_of_named hresolve, if_neg hfile]
  · rw [write_of_named ((keepsDirectories_put hfile _).resolve hresolve), put_put, if_neg]
    simp [find?_put_self hne]

theorem makeDirectory_eq_ok (h : fs.makeDirectory p = .ok fs') :
    ∃ location slash, fs.resolve p = .ok (.named location slash) ∧ fs.find? location = none ∧
      fs' = fs.put location .directory := by
  obtain ⟨target, hresolve, h⟩ := bind_eq_ok.mp h
  cases target with
  | reached place => cases h
  | named location slash =>
    dsimp only at h
    split at h
    · cases h
    · exact ⟨location, slash, hresolve, ‹_›, (Except.ok.inj h).symm⟩

theorem ensureDirectory_eq_ok (h : fs.ensureDirectory p = .ok fs') :
    fs.makeDirectory p = .ok fs' ∨ fs' = fs ∧ fs.isDirectory p = true := by
  unfold ensureDirectory at h
  split at h
  · rename_i hmake
    obtain rfl := Except.ok.inj h
    exact .inl hmake
  · split at h
    · exact .inr ⟨(Except.ok.inj h).symm, ‹_›⟩
    · cases h

theorem rename_eq_ok (h : fs.rename p q = .ok fs') :
    ∃ location entry place, fs.locate p = .ok (location, entry) ∧
      fs.resolve q = .ok (.named place false) ∧ place ≠ [] ∧ fs.find? place ≠ some .directory ∧
      fs' = (fs.drop location).put place entry := by
  obtain ⟨⟨location, entry⟩, hlocate, h⟩ := bind_eq_ok.mp h
  obtain ⟨target, hresolve, h⟩ := bind_eq_ok.mp h
  cases target with
  | reached place => simp at h
  | named place slash =>
    simp only at h
    split at h
    · simp at h
    rename_i hslash
    split at h
    · simp at h
    rename_i hfile
    rw [Bool.not_eq_true] at hslash
    subst hslash
    exact ⟨location, entry, place, hlocate, hresolve, (resolve_named hresolve).1, hfile,
      (Except.ok.inj h).symm⟩

/-- A file that was written and then moved is read at its new place. -/
theorem read_rename_write {written renamed : FileSystem} (hwrite : fs.write p content = .ok written)
    (hrename : written.rename p q = .ok renamed) :
    renamed.read q = .ok content ∧ renamed.size q = .ok content.size := by
  obtain ⟨location, hresolve, hne, hfile, rfl⟩ := write_eq_ok hwrite
  have hfound : (fs.put location (.file content)).find? location = some (.file content) :=
    find?_put_self hne
  have hlocate := locate_file ((keepsDirectories_put hfile _).resolve hresolve) hfound
  obtain ⟨location', entry, place, hlocate', htarget, hplace, hplaceFile, rfl⟩ :=
    rename_eq_ok hrename
  rw [hlocate] at hlocate'
  obtain ⟨rfl, rfl⟩ := Prod.mk.inj (Except.ok.inj hlocate')
  have hdrop : KeepsDirectories (fs.put location (.file content))
      ((fs.put location (.file content)).drop location) :=
    keepsDirectories_drop (by rw [hfound]; simp)
  have hfree : ((fs.put location (.file content)).drop location).find? place ≠ some .directory := by
    by_cases hsame : place = location
    · rw [hsame, find?_drop_self hne]
      simp
    · rwa [find?_drop_of_ne hsame]
  have hkeeps := hdrop.trans (keepsDirectories_put hfree (.file content))
  exact read_file (hkeeps.resolve htarget) (find?_put_self hplace)

/-- Of two files that were written under different names both are read back. -/
theorem read_write_write {first second : FileSystem} {content' : ByteArray}
    (hfirst : fs.write p content = .ok first) (hsecond : first.write q content' = .ok second)
    (hne : (pathNames p).getLast? ≠ (pathNames q).getLast?) :
    second.read p = .ok content ∧ second.size p = .ok content.size ∧
      second.read q = .ok content' ∧ second.size q = .ok content'.size := by
  obtain ⟨location, hresolve, hroot, hfile, rfl⟩ := write_eq_ok hfirst
  obtain ⟨place, hresolve', hroot', hfile', rfl⟩ := write_eq_ok hsecond
  have hplaces : location ≠ place := by
    rintro rfl
    exact hne ((resolve_named hresolve).2.symm.trans (resolve_named hresolve').2)
  have hkeeps := keepsDirectories_put hfile' (.file content')
  have hp := hkeeps.resolve ((keepsDirectories_put hfile _).resolve hresolve)
  have hq := hkeeps.resolve hresolve'
  have hfound : ((fs.put location (.file content)).put place (.file content')).find? location =
      some (.file content) := by
    rw [find?_put_of_ne hplaces, find?_put_self hroot]
  exact ⟨(read_file hp hfound).1, (read_file hp hfound).2, (read_file hq (find?_put_self hroot')).1,
    (read_file hq (find?_put_self hroot')).2⟩

end FileSystem

namespace FileAction

variable {ε α β δ : Type} {fs fs' : FileSystem}

/-- What a computation yields, and the files after it. -/
def outcome (x : FileAction ε α) (fs : FileSystem) : Except ε α × FileSystem := x.run.run fs

theorem outcome_bind (x : FileAction ε α) (f : α → FileAction ε β) (fs : FileSystem) :
    (x >>= f).outcome fs =
      match x.outcome fs with
      | (.ok a, fs') => (f a).outcome fs'
      | (.error e, fs') => (.error e, fs') := by
  simp only [outcome, run_run_bind]
  obtain ⟨_ | _, _⟩ := x.run.run fs <;> rfl

theorem bind_eq_ok {x : FileAction ε α} {f : α → FileAction ε β} {b : β} :
    (x >>= f).outcome fs = (.ok b, fs') ↔
      ∃ a middle, x.outcome fs = (.ok a, middle) ∧ (f a).outcome middle = (.ok b, fs') := by
  rw [outcome_bind]
  cases x.outcome fs with
  | mk result middle =>
    cases result with
    | error e => simp
    | ok a =>
      constructor
      · intro h
        exact ⟨a, middle, rfl, h⟩
      · rintro ⟨_, _, hfirst, h⟩
        cases hfirst
        exact h

/-- A computation of two steps stops after the first or goes on. -/
theorem bind_cases {x : FileAction ε α} {f : α → FileAction ε β} {result : Except ε β}
    (h : (x >>= f).outcome fs = (result, fs')) :
    (∃ e, x.outcome fs = (.error e, fs') ∧ result = .error e) ∨
      ∃ a middle, x.outcome fs = (.ok a, middle) ∧ (f a).outcome middle = (result, fs') := by
  rw [outcome_bind] at h
  generalize x.outcome fs = first at h ⊢
  obtain ⟨e | a, middle⟩ := first
  · obtain ⟨rfl, rfl⟩ := Prod.mk.inj h
    exact .inl ⟨e, rfl, rfl⟩
  · exact .inr ⟨a, middle, rfl, h⟩

@[simp]
theorem outcome_pure (a : α) : (pure a : FileAction ε α).outcome fs = (.ok a, fs) := rfl

@[simp]
theorem outcome_throw (e : ε) : (throw e : FileAction ε α).outcome fs = (.error e, fs) := rfl

@[simp]
theorem outcome_get : (get : FileAction ε FileSystem).outcome fs = (.ok fs, fs) := rfl

@[simp]
theorem outcome_set (after : FileSystem) :
    (set after : FileAction ε PUnit).outcome fs = (.ok PUnit.unit, after) := rfl

@[simp]
theorem outcome_lift (x : Except ε α) : (liftM x : FileAction ε α).outcome fs = (x, fs) := by
  cases x <;> rfl

theorem outcome_ofResult (result : Except δ α) (refused : δ → ε) :
    (ofResult result refused).outcome fs = (result.mapError refused, fs) := by
  cases result <;> rfl

/-- A lookup leaves the files. -/
theorem lift_eq {x result : Except ε α} (h : (liftM x : FileAction ε α).outcome fs = (result, fs')) :
    x = result ∧ fs = fs' := by
  rw [outcome_lift] at h
  exact Prod.mk.inj h

theorem ofResult_eq {x : Except δ α} {refused : δ → ε} {result : Except ε α}
    (h : (ofResult x refused).outcome fs = (result, fs')) :
    x.mapError refused = result ∧ fs = fs' := by
  rw [outcome_ofResult] at h
  exact Prod.mk.inj h

theorem look_eq {query : FileSystem → Except FileError α} {refused : FileError → ε}
    {result : Except ε α} (h : (look query refused).outcome fs = (result, fs')) :
    (query fs).mapError refused = result ∧ fs = fs' := by
  rw [look, outcome_bind, outcome_get] at h
  exact ofResult_eq h

theorem outcome_adapt {ε' : Type} (f : ε → ε') (x : FileAction ε α) :
    FileAction.outcome (x.adapt f) fs = ((x.outcome fs).1.mapError f, (x.outcome fs).2) := rfl

/-- A change is made, or the files stay as they are. -/
theorem outcome_change (step : FileSystem → Except FileError FileSystem) (refused : FileError → ε) :
    (change step refused).outcome fs =
      match step fs with
      | .ok fs' => (.ok (), fs')
      | .error e => (.error (refused e), fs) := by
  unfold change
  rw [outcome_bind, outcome_get]
  dsimp only
  cases step fs <;> rfl

theorem change_eq_ok {step : FileSystem → Except FileError FileSystem} {refused : FileError → ε}
    {u : Unit} (h : (change step refused).outcome fs = (.ok u, fs')) : step fs = .ok fs' := by
  rw [outcome_change] at h
  cases hstep : step fs with
  | error e => simp [hstep] at h
  | ok after => simpa [hstep] using h

theorem change_eq_error {step : FileSystem → Except FileError FileSystem} {refused : FileError → ε}
    {e : ε} (h : (change step refused).outcome fs = (.error e, fs')) :
    fs = fs' ∧ ∃ reason, e = refused reason := by
  rw [outcome_change] at h
  cases hstep : step fs with
  | ok after => simp [hstep] at h
  | error reason =>
    simp only [hstep, Prod.mk.injEq, Except.error.injEq] at h
    exact ⟨h.2, reason, h.1.symm⟩

/-- An attempt that is refused changes nothing. -/
theorem outcome_attempt (step : FileSystem → Except FileError FileSystem) :
    (attempt step : FileAction ε Unit).outcome fs =
      match step fs with
      | .ok fs' => (.ok (), fs')
      | .error _ => (.ok (), fs) := by
  unfold attempt
  rw [outcome_bind, outcome_get]
  dsimp only
  cases step fs <;> rfl

/-! Directories that are made with those above them. -/

/-- Directories are made one by one, from the outermost that is missing to the innermost. -/
theorem outcome_makeTree (fuel : Nat) (p : Path) (fs : FileSystem) :
    (makeTree (fuel + 1) p).outcome fs =
      if p.text = "" then (.ok (), fs)
      else
        match fs.makeDirectory p with
        | .ok made => (.ok (), made)
        | .error .notFound =>
          match p.parent? with
          | none => (.error .notFound, fs)
          | some above =>
            match (makeTree fuel above).outcome fs with
            | (.error e, left) => (.error e, left)
            | (.ok (), made) =>
              match made.ensureDirectory p with
              | .ok last => (.ok (), last)
              | .error e => (.error e, made)
        | .error e => if fs.isDirectory p then (.ok (), fs) else (.error e, fs) := by
  rw [makeTree]
  split
  · rfl
  rw [outcome_bind, outcome_get]
  dsimp only
  generalize fs.makeDirectory p = made
  split
  · rfl
  · cases p.parent? with
    | none => rfl
    | some above =>
      dsimp only
      rw [outcome_bind]
      obtain ⟨_ | _, made⟩ := (makeTree fuel above).outcome fs
      · rfl
      · dsimp only
        rw [outcome_change]
        cases made.ensureDirectory p <;> rfl
  · rename_i e hother
    rw [outcome_bind, outcome_get]
    dsimp only
    cases fs.isDirectory p <;> cases e <;> first | exact (hother rfl).elim | rfl

/-- What the making of one directory keeps, the making of all of them keeps, also when it is refused
halfway. -/
theorem makeTree_invariant (inv : FileSystem → Prop)
    (hmake : ∀ p fs fs', inv fs → fs.makeDirectory p = .ok fs' → inv fs') (fuel : Nat) (p : Path)
    (h : inv fs) : inv ((makeTree fuel p).outcome fs).2 := by
  induction fuel generalizing p with
  | zero => exact h
  | succ fuel ih =>
    rw [outcome_makeTree]
    split
    · exact h
    split
    · exact hmake p fs _ h ‹_›
    · split
      · exact h
      · rename_i above _
        specialize ih above
        split
        · rename_i hleft
          rwa [hleft] at ih
        · rename_i made hmade
          rw [hmade] at ih
          split
          · rcases FileSystem.ensureDirectory_eq_ok ‹_› with hlast | ⟨rfl, -⟩
            · exact hmake p made _ ih hlast
            · exact ih
          · exact ih
    · split <;> exact h

theorem outcome_makeDirectories (p : Path) (refused : FileError → ε) :
    (makeDirectories p refused).outcome fs =
      (((makeTree (p.text.length + 1) p).outcome fs).1.mapError refused,
        ((makeTree (p.text.length + 1) p).outcome fs).2) :=
  outcome_adapt refused _

theorem makeDirectories_eq_ok {p : Path} : fs.makeDirectories p = .ok fs' ↔
    (makeTree (p.text.length + 1) p).outcome fs = (.ok (), fs') := by
  unfold FileSystem.makeDirectories
  change (match (makeTree (p.text.length + 1) p).outcome fs with
    | (.ok (), made) => Except.ok made
    | (.error e, _) => .error e) = .ok fs' ↔ _
  obtain ⟨_ | _, _⟩ := (makeTree (p.text.length + 1) p).outcome fs <;> simp

theorem outcome_makeDirectories_of_ok {p : Path} (refused : FileError → ε)
    (h : fs.makeDirectories p = .ok fs') : (makeDirectories p refused).outcome fs = (.ok (), fs') := by
  rw [outcome_makeDirectories, makeDirectories_eq_ok.mp h]
  rfl

/-- Directories that are made are there; if they are refused, the files say why. -/
theorem makeDirectories_cases {p : Path} {refused : FileError → ε} {result : Except ε Unit}
    (h : (makeDirectories p refused).outcome fs = (result, fs')) :
    (result = .ok () ∧ fs.makeDirectories p = .ok fs') ∨
      ∃ reason, result = .error (refused reason) ∧
        (makeTree (p.text.length + 1) p).outcome fs = (.error reason, fs') := by
  rw [outcome_makeDirectories] at h
  rw [makeDirectories_eq_ok]
  generalize (makeTree (p.text.length + 1) p).outcome fs = made at h ⊢
  obtain ⟨_ | _, _⟩ := made
  · obtain ⟨rfl, rfl⟩ := Prod.mk.inj h
    exact .inr ⟨_, rfl, rfl⟩
  · obtain ⟨rfl, rfl⟩ := Prod.mk.inj h
    exact .inl ⟨rfl, rfl⟩

end FileAction

end TensorParity
