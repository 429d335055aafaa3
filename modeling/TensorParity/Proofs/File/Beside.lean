import TensorParity.Proofs.File.Leading
import TensorParity.Proofs.File.System

/-!
Computations beside each other in one directory. A computation that works on places of its own does
the same wherever these places hold the same, and leaves all other places as they are; what other
computations do there plays no part in it.
-/
namespace TensorParity

/-- Which states are alike to a computation, and what it leaves as it is. -/
structure Frame (σ : Type) where
  alike : σ → σ → Prop
  leaves : σ → σ → Prop
  refl : ∀ s, leaves s s
  trans : ∀ {s t u}, leaves s t → leaves t u → leaves s u

namespace Frame

variable {σ ε α β : Type} {frame : Frame σ}

/-- What two runs from alike states have in common, the first of them from `s`. -/
structure Agrees {ρ : Type} (frame : Frame σ) (s : σ) (first second : ρ × σ) : Prop where
  result : first.1 = second.1
  alike : frame.alike first.2 second.2
  leaves : frame.leaves s first.2

theorem Agrees.same {ρ : Type} {s s' t' : σ} (result : ρ) (halike : frame.alike s' t')
    (hleaves : frame.leaves s s') : frame.Agrees s (result, s') (result, t') :=
  ⟨rfl, halike, hleaves⟩

/-- Whether a computation does the same from alike states. -/
def Steady (frame : Frame σ) (x : ExceptT ε (StateM σ) α) : Prop :=
  ∀ s t, frame.alike s t → frame.Agrees s (x.run.run s) (x.run.run t)

theorem steady_pure (a : α) : frame.Steady (pure a : ExceptT ε (StateM σ) α) :=
  fun s _ h => .same _ h (frame.refl s)

theorem steady_throw (e : ε) : frame.Steady (throw e : ExceptT ε (StateM σ) α) :=
  fun s _ h => .same _ h (frame.refl s)

theorem steady_lift (x : Except ε α) : frame.Steady (liftM x : ExceptT ε (StateM σ) α) := by
  cases x with
  | ok a => exact steady_pure a
  | error e => exact steady_throw e

/-- One step after the other; the second may rely on what the first has done. -/
theorem Steady.bind {x : ExceptT ε (StateM σ) α} {f : α → ExceptT ε (StateM σ) β}
    (hx : frame.Steady x)
    (hf : ∀ a s s' t', x.run.run s = (.ok a, s') → frame.alike s' t' →
      frame.Agrees s' ((f a).run.run s') ((f a).run.run t')) : frame.Steady (x >>= f) := by
  intro s t h
  obtain ⟨hresult, halike, hleaves⟩ := hx s t h
  rw [run_run_bind, run_run_bind]
  cases hs : x.run.run s with
  | mk result s' =>
    cases ht : x.run.run t with
    | mk result' t' =>
      rw [hs, ht] at hresult halike
      rw [hs] at hleaves
      obtain rfl : result = result' := hresult
      cases result with
      | error e => exact .same _ halike hleaves
      | ok a =>
        obtain ⟨hresult, halike, hleaves'⟩ := hf a s s' t' hs halike
        exact ⟨hresult, halike, frame.trans hleaves hleaves'⟩

theorem Steady.andThen {x : ExceptT ε (StateM σ) α} {f : α → ExceptT ε (StateM σ) β}
    (hx : frame.Steady x) (hf : ∀ a, frame.Steady (f a)) : frame.Steady (x >>= f) :=
  hx.bind fun a _ s' t' _ halike => hf a s' t' halike

/-- A computation that looks at the state first. -/
theorem steady_get {f : σ → ExceptT ε (StateM σ) α}
    (h : ∀ s t, frame.alike s t → frame.Agrees s ((f s).run.run s) ((f t).run.run t)) :
    frame.Steady (get >>= f) :=
  h

end Frame

namespace FileSystem

variable {mine : Location → Prop} {base fs gs : FileSystem} {location place : Location}
  {entry : Entry} {p q : Path} {ε α : Type}

/-- Whether nothing has changed but in places of one's own. -/
def Untouched (mine : Location → Prop) (fs fs' : FileSystem) : Prop :=
  ∀ location, ¬ mine location → fs'.find? location = fs.find? location

/-- Whether two states have the directories of a third and agree on one's own places. -/
structure Near (mine : Location → Prop) (base fs gs : FileSystem) : Prop where
  left : KeepsDirectories base fs
  right : KeepsDirectories base gs
  processLeft : fs.process = base.process
  processRight : gs.process = base.process
  agree : ∀ location, mine location → fs.find? location = gs.find? location

/-- Work on places of one's own. -/
def frame (mine : Location → Prop) (base : FileSystem) : Frame FileSystem where
  alike := Near mine base
  leaves := Untouched mine
  refl _ _ _ := rfl
  trans h h' location hother := (h' location hother).trans (h location hother)

theorem Near.put (h : Near mine base fs gs) (hmine : mine location)
    (hfile : fs.find? location ≠ some .directory) (entry : Entry) :
    Near mine base (fs.put location entry) (gs.put location entry) ∧
      Untouched mine fs (fs.put location entry) := by
  have hfile' : gs.find? location ≠ some .directory := h.agree location hmine ▸ hfile
  have hne : location ≠ [] := by
    rintro rfl
    exact hfile rfl
  refine ⟨⟨h.left.trans (keepsDirectories_put hfile entry),
    h.right.trans (keepsDirectories_put hfile' entry), h.processLeft, h.processRight,
    fun place hplace => ?_⟩, fun place hother => ?_⟩
  · by_cases hsame : place = location
    · rw [hsame, find?_put_self hne, find?_put_self hne]
    · rw [find?_put_of_ne hsame, find?_put_of_ne hsame, h.agree place hplace]
  · exact find?_put_of_ne fun hsame => hother (hsame ▸ hmine)

theorem Near.drop (h : Near mine base fs gs) (hmine : mine location)
    (hfile : fs.find? location ≠ some .directory) :
    Near mine base (fs.drop location) (gs.drop location) ∧
      Untouched mine fs (fs.drop location) := by
  have hfile' : gs.find? location ≠ some .directory := h.agree location hmine ▸ hfile
  have hne : location ≠ [] := by
    rintro rfl
    exact hfile rfl
  refine ⟨⟨h.left.trans (keepsDirectories_drop hfile),
    h.right.trans (keepsDirectories_drop hfile'), h.processLeft, h.processRight,
    fun place hplace => ?_⟩, fun place hother => ?_⟩
  · by_cases hsame : place = location
    · rw [hsame, find?_drop_self hne, find?_drop_self hne]
    · rw [find?_drop_of_ne hsame, find?_drop_of_ne hsame, h.agree place hplace]
  · exact find?_drop_of_ne fun hsame => hother (hsame ▸ hmine)

/-- Whether a path stands for a place of one's own, or for none, as long as directories stay. -/
def Owns (mine : Location → Prop) (base : FileSystem) (p : Path) : Prop :=
  ∃ found, base.Fixed p found ∧ ∀ location, found = .ok location → mine location

/-- Where a path of one's own leads in two states that agree. -/
theorem Near.resolve (h : Near mine base fs gs) (hp : Owns mine base p) :
    (∃ e, fs.resolve p = .error e ∧ gs.resolve p = .error e) ∨
      ∃ location, mine location ∧ fs.resolve p = .ok (.named location false) ∧
        gs.resolve p = .ok (.named location false) := by
  obtain ⟨found, hfixed, hmine⟩ := hp
  cases found with
  | error e => exact .inl ⟨e, hfixed fs h.left, hfixed gs h.right⟩
  | ok location => exact .inr ⟨location, hmine _ rfl, hfixed fs h.left, hfixed gs h.right⟩

theorem Near.locate (h : Near mine base fs gs) (hp : Owns mine base p) :
    fs.locate p = gs.locate p := by
  rcases h.resolve hp with ⟨e, hleft, hright⟩ | ⟨location, hmine, hleft, hright⟩
  · simp only [FileSystem.locate, hleft, hright, error_bind]
  · simp only [FileSystem.locate, hleft, hright, ok_bind, h.agree location hmine]

/-- What reading shows of a place of one's own. -/
theorem Near.read (h : Near mine base fs gs) (hp : Owns mine base p) :
    fs.read p = gs.read p ∧ fs.size p = gs.size p ∧ fs.readText p = gs.readText p := by
  simp only [FileSystem.read, FileSystem.size, FileSystem.readText, h.locate hp, and_self]

/-! Changes in places of one's own. -/

/-- Whether a step changes two states that agree in the same way, or neither. -/
def StepSteady (mine : Location → Prop) (base : FileSystem)
    (step : FileSystem → Except FileError FileSystem) : Prop :=
  ∀ fs gs, Near mine base fs gs →
    (∃ e, step fs = .error e ∧ step gs = .error e) ∨
      ∃ fs' gs', step fs = .ok fs' ∧ step gs = .ok gs' ∧ Near mine base fs' gs' ∧
        Untouched mine fs fs'

theorem stepSteady_write (hp : Owns mine base p) (content : ByteArray) :
    StepSteady mine base (·.write p content) := by
  intro fs gs h
  rcases h.resolve hp with ⟨e, hleft, hright⟩ | ⟨location, hmine, hleft, hright⟩
  · exact .inl ⟨e, by simp only [write, hleft, error_bind],
      by simp only [write, hright, error_bind]⟩
  dsimp only
  rw [write_of_named hleft, write_of_named hright, ← h.agree location hmine]
  by_cases hfile : fs.find? location = some .directory
  · exact .inl ⟨_, if_pos hfile, if_pos hfile⟩
  · exact .inr ⟨_, _, if_neg hfile, if_neg hfile, h.put hmine hfile _⟩

/-- What is located by a path of one's own is in a place of one's own. -/
theorem Owns.located (hp : Owns mine base p) (hkeeps : KeepsDirectories base fs)
    (h : fs.locate p = .ok (location, entry)) :
    mine location ∧ fs.find? location = some entry := by
  obtain ⟨found, hfixed, hmine⟩ := hp
  obtain ⟨target, hresolve, hfound⟩ := bind_eq_ok.mp h
  cases found with
  | error e => cases (hfixed fs hkeeps).symm.trans hresolve
  | ok place =>
    cases (hfixed fs hkeeps).symm.trans hresolve
    dsimp only at hfound
    split at hfound
    · cases hfound
    · cases hfound
      exact ⟨hmine _ rfl, ‹_›⟩
    · cases hfound
      exact ⟨hmine _ rfl, ‹_›⟩

theorem stepSteady_remove (hp : Owns mine base p) : StepSteady mine base (·.remove p) := by
  intro fs gs h
  dsimp only
  rw [remove, remove, ← h.locate hp]
  cases hlocate : fs.locate p with
  | error e => exact .inl ⟨e, rfl, rfl⟩
  | ok found =>
    obtain ⟨location, entry⟩ := found
    obtain ⟨hmine, hfound⟩ := hp.located h.left hlocate
    cases entry with
    | directory => exact .inl ⟨.isDirectory, rfl, rfl⟩
    | file content => exact .inr ⟨_, _, rfl, rfl, h.drop hmine (by simp [hfound])⟩

/-- Moving a file from one of one's own places to another. -/
theorem Near.rename (h : Near mine base fs gs) (hp : Owns mine base p) (hq : Owns mine base q)
    {content : ByteArray} (hlocate : fs.locate p = .ok (location, .file content)) :
    (∃ e, fs.rename p q = .error e ∧ gs.rename p q = .error e) ∨
      ∃ fs' gs', fs.rename p q = .ok fs' ∧ gs.rename p q = .ok gs' ∧ Near mine base fs' gs' ∧
        Untouched mine fs fs' := by
  obtain ⟨hmine, hfound⟩ := hp.located h.left hlocate
  have hdrop := h.drop hmine (by simp [hfound])
  unfold FileSystem.rename
  rw [← h.locate hp, hlocate, ok_bind, ok_bind]
  dsimp only
  rcases h.resolve hq with ⟨e, hleft, hright⟩ | ⟨place, hplace, hleft, hright⟩
  · exact .inl ⟨e, by rw [hleft, error_bind], by rw [hright, error_bind]⟩
  rw [hleft, hright, ok_bind, ok_bind]
  simp only [Bool.false_eq_true, if_false, ← h.agree place hplace]
  by_cases hfile : fs.find? place = some .directory
  · exact .inl ⟨.isDirectory, if_pos hfile, if_pos hfile⟩
  have hfree : (fs.drop location).find? place ≠ some .directory := by
    by_cases hsame : place = location
    · have hne : location ≠ [] := by
        rintro rfl
        cases hfound
      rw [hsame, find?_drop_self hne]
      simp
    · rwa [find?_drop_of_ne hsame]
  obtain ⟨hnear, huntouched⟩ := hdrop.1.put hplace hfree (.file content)
  refine .inr ⟨_, _, if_neg hfile, if_neg hfile, hnear, fun other hother => ?_⟩
  rw [huntouched other hother, hdrop.2 other hother]

/-! Computations in places of one's own. -/

theorem steady_ofResult {δ : Type} (result : Except δ α) (refused : δ → ε) :
    (frame mine base).Steady (FileAction.ofResult result refused) := by
  cases result with
  | ok a => exact Frame.steady_pure a
  | error e => exact Frame.steady_throw (refused e)

theorem steady_change {step : FileSystem → Except FileError FileSystem}
    (h : StepSteady mine base step) (refused : FileError → ε) :
    (frame mine base).Steady (FileAction.change step refused) := by
  intro fs gs hnear
  change (frame mine base).Agrees fs ((FileAction.change step refused).outcome fs)
    ((FileAction.change step refused).outcome gs)
  rw [FileAction.outcome_change, FileAction.outcome_change]
  rcases h fs gs hnear with ⟨e, hfs, hgs⟩ | ⟨fs', gs', hfs, hgs, hnear', huntouched⟩
  · rw [hfs, hgs]
    exact .same _ hnear fun _ _ => rfl
  · rw [hfs, hgs]
    exact .same _ hnear' huntouched

theorem steady_makeDirectories (h : Leads base p location) (refused : FileError → ε) :
    (frame mine base).Steady (FileAction.makeDirectories p refused) := by
  intro fs gs hnear
  obtain ⟨result, hmake⟩ := h.makeTree p.text.length
  change (frame mine base).Agrees fs ((FileAction.makeDirectories p refused).outcome fs)
    ((FileAction.makeDirectories p refused).outcome gs)
  rw [FileAction.outcome_makeDirectories, FileAction.outcome_makeDirectories,
    hmake fs hnear.left, hmake gs hnear.right]
  exact .same _ hnear fun _ _ => rfl

end FileSystem

end TensorParity
