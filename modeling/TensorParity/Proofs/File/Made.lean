import TensorParity.Proofs.File.System

/-!
Which files operations make and which they take away. Making directories makes no file, writing
makes one, and a file that was removed is gone for good unless something makes it anew.
-/
namespace TensorParity

namespace FileSystem

variable {fs fs' fs'' : FileSystem} {location : Location} {entry : Entry} {p q : Path}
  {content : ByteArray} {made : Location → Prop}

theorem isFile_iff :
    fs.isFile p = true ↔ ∃ location content, fs.locate p = .ok (location, .file content) := by
  unfold isFile
  constructor
  · intro h
    split at h
    · exact ⟨_, _, ‹_›⟩
    · cases h
  · rintro ⟨location, content, hlocate⟩
    rw [hlocate]

/-- A path leads to a file if it names the file's location. -/
theorem locate_eq_file_iff :
    fs.locate p = .ok (location, .file content) ↔
      fs.resolve p = .ok (.named location false) ∧ fs.find? location = some (.file content) := by
  constructor
  · intro h
    obtain ⟨target, hresolve, h⟩ := bind_eq_ok.mp h
    cases target with
    | reached place => cases h
    | named place slash =>
      dsimp only at h
      cases hfound : fs.find? place with
      | none => simp [hfound] at h
      | some entry =>
        cases entry with
        | directory =>
          rw [hfound] at h
          cases h
        | file content =>
          cases slash with
          | true => simp [hfound] at h
          | false =>
            rw [hfound] at h
            cases h
            exact ⟨hresolve, hfound⟩
  · rintro ⟨hresolve, hfound⟩
    exact locate_file hresolve hfound

/-- A file is where it was put. -/
theorem locate_put (hresolve : fs.resolve p = .ok (.named location false))
    (hfile : fs.find? location ≠ some .directory) :
    (fs.put location (.file content)).locate p = .ok (location, .file content) :=
  locate_eq_file_iff.mpr ⟨(keepsDirectories_put hfile _).resolve hresolve,
    find?_put_self (resolve_named hresolve).1⟩

theorem pathExists_of_none {slash : Bool} (hresolve : fs.resolve p = .ok (.named location slash))
    (hnone : fs.find? location = none) : fs.pathExists p = false := by
  simp only [pathExists, locate, hresolve, ok_bind, hnone]
  rfl

/-- Directories stay, and files are new only in some places. -/
structure MakesOnly (made : Location → Prop) (fs fs' : FileSystem) : Prop
    extends KeepsDirectories fs fs' where
  files : ∀ location content, fs'.find? location = some (.file content) →
    made location ∨ ∃ before, fs.find? location = some (.file before)

theorem MakesOnly.refl (made : Location → Prop) (fs : FileSystem) : MakesOnly made fs fs :=
  ⟨⟨rfl, fun _ h => h⟩, fun _ content h => .inr ⟨content, h⟩⟩

theorem MakesOnly.trans (h : MakesOnly made fs fs') (h' : MakesOnly made fs' fs'') :
    MakesOnly made fs fs'' := by
  refine ⟨h.toKeepsDirectories.trans h'.toKeepsDirectories, fun location content hfound => ?_⟩
  rcases h'.files location content hfound with hmade | ⟨before, hbefore⟩
  · exact .inl hmade
  · exact h.files location before hbefore

theorem MakesOnly.mono {made' : Location → Prop}
    (hmono : ∀ location, made location → made' location) (h : MakesOnly made fs fs') :
    MakesOnly made' fs fs' :=
  ⟨h.toKeepsDirectories, fun location content hfound =>
    (h.files location content hfound).imp_left (hmono location)⟩

theorem makesOnly_put_file (h : fs.find? location ≠ some .directory) :
    MakesOnly (· = location) fs (fs.put location (.file content)) := by
  refine ⟨keepsDirectories_put h _, fun place now hfound => ?_⟩
  by_cases hplace : place = location
  · exact .inl hplace
  · rw [find?_put_of_ne hplace] at hfound
    exact .inr ⟨now, hfound⟩

theorem makesOnly_put_directory (hne : location ≠ []) (h : fs.find? location = none) :
    MakesOnly made fs (fs.put location .directory) := by
  refine ⟨keepsDirectories_put (by simp [h]) _, fun place now hfound => ?_⟩
  by_cases hplace : place = location
  · rw [hplace, find?_put_self hne] at hfound
    cases hfound
  · rw [find?_put_of_ne hplace] at hfound
    exact .inr ⟨now, hfound⟩

/-- Where a file was taken away nothing is left. -/
theorem find?_drop_of_file (h : fs.find? location = some (.file content)) {place : Location} :
    (fs.drop location).find? place = if place = location then none else fs.find? place := by
  have hne : location ≠ [] := by
    rintro rfl
    cases h
  split
  · rename_i hplace
    rw [hplace, find?_drop_self hne]
  · rename_i hplace
    exact find?_drop_of_ne hplace

theorem makesOnly_drop (h : fs.find? location = some (.file content)) :
    MakesOnly made fs (fs.drop location) := by
  refine ⟨keepsDirectories_drop (by simp [h]), fun place now hfound => ?_⟩
  rw [find?_drop_of_file h] at hfound
  split at hfound
  · cases hfound
  · exact .inr ⟨now, hfound⟩

/-- A file that was put somewhere and taken away again leaves nothing. -/
theorem makesOnly_drop_put (hne : location ≠ []) (h : fs.find? location ≠ some .directory) :
    MakesOnly made fs ((fs.put location (.file content)).drop location) := by
  have hput : (fs.put location (.file content)).find? location = some (.file content) :=
    find?_put_self hne
  refine ⟨(keepsDirectories_put h _).trans (keepsDirectories_drop (by simp [hput])),
    fun place now hfound => ?_⟩
  rw [find?_drop_of_file hput] at hfound
  split at hfound
  · cases hfound
  · rename_i hplace
    rw [find?_put_of_ne hplace] at hfound
    exact .inr ⟨now, hfound⟩

section Directories

theorem makesOnly_makeDirectory (h : fs.makeDirectory p = .ok fs') : MakesOnly made fs fs' := by
  obtain ⟨location, slash, hresolve, hfree, rfl⟩ := makeDirectory_eq_ok h
  exact makesOnly_put_directory (resolve_named hresolve).1 hfree

/-- Making a directory and those above it makes no file, also when it is refused halfway. -/
theorem makesOnly_makeTree (fuel : Nat) (p : Path) (fs : FileSystem) :
    MakesOnly made fs ((FileAction.makeTree fuel p).outcome fs).2 :=
  FileAction.makeTree_invariant (MakesOnly made fs)
    (fun _ _ _ h hmake => h.trans (makesOnly_makeDirectory hmake)) fuel p (.refl made fs)

theorem makesOnly_makeDirectories {ε : Type} {refused : FileError → ε} {result : Except ε Unit}
    (h : (FileAction.makeDirectories p refused).outcome fs = (result, fs')) :
    MakesOnly made fs fs' := by
  rw [FileAction.outcome_makeDirectories] at h
  obtain ⟨-, rfl⟩ := Prod.mk.inj h
  exact makesOnly_makeTree _ p fs

end Directories

theorem makesOnly_write (h : fs.write p content = .ok fs') :
    ∃ location, fs'.resolve p = .ok (.named location false) ∧ MakesOnly (· = location) fs fs' := by
  obtain ⟨location, hresolve, -, hfile, rfl⟩ := write_eq_ok h
  exact ⟨location, (keepsDirectories_put hfile _).resolve hresolve, makesOnly_put_file hfile⟩

theorem remove_eq_ok (h : fs.remove p = .ok fs') :
    ∃ location content, fs.locate p = .ok (location, .file content) ∧ fs' = fs.drop location := by
  obtain ⟨⟨location, entry⟩, hlocate, h⟩ := bind_eq_ok.mp h
  cases entry with
  | directory => cases h
  | file content => exact ⟨location, content, hlocate, (Except.ok.inj h).symm⟩

theorem makesOnly_remove (h : fs.remove p = .ok fs') : MakesOnly made fs fs' := by
  obtain ⟨location, content, hlocate, rfl⟩ := remove_eq_ok h
  exact makesOnly_drop (locate_eq_file_iff.mp hlocate).2

/-- Whether nothing is there that was not there before. -/
structure Within (fs' fs : FileSystem) : Prop where
  current : fs.current = fs'.current
  found : ∀ location entry, fs'.find? location = some entry → fs.find? location = some entry

theorem Within.refl (fs : FileSystem) : Within fs fs := ⟨rfl, fun _ _ h => h⟩

theorem Within.trans (h : Within fs'' fs') (h' : Within fs' fs) : Within fs'' fs :=
  ⟨h'.current.trans h.current, fun location entry hfound =>
    h'.found location entry (h.found location entry hfound)⟩

/-- A path that leads to a file led there before. -/
theorem Within.locate (h : Within fs' fs) (hlocate : fs'.locate p = .ok (location, .file content)) :
    fs.locate p = .ok (location, .file content) := by
  have hkeeps : KeepsDirectories fs' fs := ⟨h.current, fun place hplace => h.found place _ hplace⟩
  obtain ⟨hresolve, hfound⟩ := locate_eq_file_iff.mp hlocate
  exact locate_eq_file_iff.mpr ⟨hkeeps.resolve hresolve, h.found _ _ hfound⟩

theorem Within.isFile (h : Within fs' fs) (hfile : fs.isFile p = false) : fs'.isFile p = false := by
  rw [← Bool.not_eq_true] at hfile ⊢
  intro hfile'
  obtain ⟨location, content, hlocate⟩ := isFile_iff.mp hfile'
  exact hfile (isFile_iff.mpr ⟨location, content, h.locate hlocate⟩)

theorem within_remove (h : fs.remove p = .ok fs') : Within fs' fs ∧ fs'.isFile p = false := by
  obtain ⟨location, content, hlocate, rfl⟩ := remove_eq_ok h
  obtain ⟨hresolve, hfound⟩ := locate_eq_file_iff.mp hlocate
  refine ⟨⟨rfl, fun place entry hplace => ?_⟩, ?_⟩
  · rw [find?_drop_of_file hfound] at hplace
    split at hplace
    · cases hplace
    · exact hplace
  · rw [← Bool.not_eq_true]
    intro hfile
    obtain ⟨place, now, hlocate'⟩ := isFile_iff.mp hfile
    obtain ⟨hresolve', hfound'⟩ := locate_eq_file_iff.mp hlocate'
    have hkeeps : KeepsDirectories fs (fs.drop location) := keepsDirectories_drop (by simp [hfound])
    have hsame := hkeeps.resolve hresolve
    rw [hresolve'] at hsame
    obtain ⟨rfl, -⟩ := Target.named.inj (Except.ok.inj hsame)
    rw [find?_drop_of_file hfound, if_pos rfl] at hfound'
    cases hfound'

/-- Only what is no file cannot be removed. -/
theorem isFile_of_remove {e : FileError} (h : fs.remove p = .error e) : fs.isFile p = false := by
  rw [← Bool.not_eq_true]
  intro hfile
  obtain ⟨location, content, hlocate⟩ := isFile_iff.mp hfile
  rw [remove, hlocate] at h
  cases h

end FileSystem

end TensorParity
