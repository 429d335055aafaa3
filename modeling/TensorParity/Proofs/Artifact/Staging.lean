import TensorParity.Proofs.Artifact.File
import TensorParity.Proofs.File.Rooted

/-!
Writing an artifact step by step. A step is one call to the operating system, and the staging file is
filled byte by byte, so every prefix of it is seen. Any call but the removal of the staging file may
be refused for reasons of its own, such as a full disk. Whatever the files were, at every step the
path leads to what it led to before or to the whole artifact.
-/
namespace TensorParity

namespace Artifact

open FileSystem

/-- How far a call that writes an artifact has got. -/
inductive WriteStage where
  /-- A directory is to be made; those below it wait, the outermost first. -/
  | making (fuel : Nat) (directory : Path) (below : List Path)
  /-- A directory is there, and those below it are to follow. -/
  | made (below : List Path)
  /-- So many bytes are to be in the staging file next. -/
  | filling (staging : Path) (bytes : Nat)
  | moving (staging : Path)
  /-- The move was refused, so the staging file is to be removed. -/
  | clearing (staging : Path) (reason : FileError)
  | done (result : Except ArtifactError Unit)

/-- A point of a call: how far it has got, and the files. -/
abbrev WritePoint := WriteStage × FileSystem

/-- Where a call begins. -/
def firstStage (p : Path) : WriteStage :=
  match p.namedParent? with
  | some parent => .making (parent.text.length + 1) parent []
  | none => .made []

/-- What follows a stage whose step is refused. -/
def WriteStage.refuse (p : Path) (e : FileError) : WriteStage → WriteStage
  | .making .. => .done (.error (refused (p.namedParent?.getD p) e))
  | .made _ => .done (.error (refused (p.namedParent?.getD p) e))
  | .filling staging _ => .done (.error (refused staging e))
  | .moving staging => .clearing staging e
  | .clearing _ reason => .done (.error (refused p reason))
  | .done result => .done result

/-- The step of a stage, if the files do not refuse it. -/
def WriteStage.advance (a : Artifact) (p : Path) :
    WriteStage → FileSystem → Except FileError WritePoint
  | .making 0 _ _, _ => .error .notFound
  | .making (fuel + 1) directory below, fs =>
    if directory.text = "" then .ok (.made below, fs)
    else
      match fs.makeDirectory directory with
      | .ok fs' => .ok (.made below, fs')
      | .error .notFound =>
        match directory.parent? with
        | none => .error .notFound
        | some above => .ok (.making fuel above (directory :: below), fs)
      | .error e => if fs.isDirectory directory then .ok (.made below, fs) else .error e
  | .made (directory :: below), fs => do return (.made below, ← fs.ensureDirectory directory)
  | .made [], fs =>
    match p.fileName? with
    | none => .ok (.done (.error (.file p.text "artifact path has no file name")), fs)
    | some name => .ok (.filling (p.sibling (stagingName fs.process name)) 0, fs)
  | .filling staging bytes, fs => do
    let content := a.encode.toUTF8
    let fs' ← fs.write staging (content.extract 0 bytes)
    return (if bytes < content.size then .filling staging (bytes + 1) else .moving staging, fs')
  | .moving staging, fs => do return (.done (.ok ()), ← fs.rename staging p)
  | .clearing staging reason, fs => do
    return (.done (.error (refused p reason)), ← fs.remove staging)
  | .done result, fs => .ok (.done result, fs)

/-- One step of a call. -/
def nextPoint (a : Artifact) (p : Path) (point : WritePoint) : WritePoint :=
  match point.1.advance a p point.2 with
  | .ok next => next
  | .error e => (point.1.refuse p e, point.2)

/-- The points that a call may pass. -/
inductive Passes (a : Artifact) (p : Path) (fs : FileSystem) : WritePoint → Prop
  | first : Passes a p fs (firstStage p, fs)
  | next {point : WritePoint} (h : Passes a p fs point) : Passes a p fs (nextPoint a p point)
  /-- The disk is full, or something else is wrong that the files do not tell. -/
  | broken {stage : WriteStage} {s : FileSystem} (e : FileError) (h : Passes a p fs (stage, s))
      (hstage : ∀ staging reason, stage ≠ .clearing staging reason) :
      Passes a p fs (stage.refuse p e, s)

variable {a : Artifact} {p q staging : Path} {fs base s s' : FileSystem}

/-! The steps are those of the call. -/

/-- Whether a point leads to another by steps of a call. -/
def Reaches (a : Artifact) (p : Path) (point last : WritePoint) : Prop :=
  ∃ steps, (nextPoint a p)^[steps] point = last

theorem Reaches.refl (point : WritePoint) : Reaches a p point point := ⟨0, rfl⟩

theorem Reaches.step {point last : WritePoint} (h : Reaches a p (nextPoint a p point) last) :
    Reaches a p point last := by
  obtain ⟨steps, hsteps⟩ := h
  exact ⟨steps + 1, hsteps⟩

theorem Reaches.trans {point middle last : WritePoint} (h : Reaches a p point middle)
    (h' : Reaches a p middle last) : Reaches a p point last := by
  obtain ⟨steps, rfl⟩ := h
  obtain ⟨more, rfl⟩ := h'
  exact ⟨more + steps, Function.iterate_add_apply ..⟩

theorem Reaches.of_ok {stage : WriteStage} {last : WritePoint} (next : WritePoint)
    (h : stage.advance a p s = .ok next) (hnext : Reaches a p next last) :
    Reaches a p (stage, s) last := by
  refine .step ?_
  simpa only [nextPoint, h] using hnext

theorem Reaches.of_error {stage : WriteStage} {last : WritePoint} {e : FileError}
    (h : stage.advance a p s = .error e) (hnext : Reaches a p (stage.refuse p e, s) last) :
    Reaches a p (stage, s) last := by
  refine .step ?_
  simpa only [nextPoint, h] using hnext

theorem Passes.reaches {point last : WritePoint} (h : Passes a p fs point)
    (hreaches : Reaches a p point last) : Passes a p fs last := by
  obtain ⟨steps, rfl⟩ := hreaches
  induction steps generalizing point with
  | zero => exact h
  | succ steps ih => exact ih h.next

/-- What follows the making of a directory. -/
def afterMaking (p : Path) (below : List Path) : Except FileError Unit × FileSystem → WritePoint
  | (.ok (), s) => (.made below, s)
  | (.error e, s) => (.done (.error (refused (p.namedParent?.getD p) e)), s)

theorem reaches_makeTree (fuel : Nat) (directory : Path) (below : List Path) (s : FileSystem) :
    Reaches a p (.making fuel directory below, s)
      (afterMaking p below ((FileAction.makeTree fuel directory).outcome s)) := by
  induction fuel generalizing directory below with
  | zero => exact .of_error rfl (.refl _)
  | succ fuel ih =>
    rw [FileAction.outcome_makeTree]
    by_cases hempty : directory.text = ""
    · rw [if_pos hempty]
      exact .of_ok _ (if_pos hempty) (.refl _)
    rw [if_neg hempty]
    have hadvance : WriteStage.advance a p (.making (fuel + 1) directory below) s = _ :=
      if_neg hempty
    split
    · rename_i made hmake
      rw [hmake] at hadvance
      exact .of_ok _ hadvance (.refl _)
    · rename_i hmake
      rw [hmake] at hadvance
      cases habove : directory.parent? with
      | none =>
        rw [habove] at hadvance
        exact .of_error hadvance (.refl _)
      | some above =>
        rw [habove] at hadvance
        refine .of_ok _ hadvance ((ih above (directory :: below)).trans ?_)
        dsimp only
        obtain ⟨e | _, left⟩ := (FileAction.makeTree fuel above).outcome s
        · exact .refl _
        dsimp only
        cases hlast : left.ensureDirectory directory with
        | ok last =>
          refine .of_ok (.made below, last) ?_ (.refl _)
          rw [WriteStage.advance, hlast]
          rfl
        | error e =>
          refine .of_error (e := e) ?_ (.refl _)
          rw [WriteStage.advance, hlast]
          rfl
    · rename_i e hother hmake
      have hadvance : WriteStage.advance a p (.making (fuel + 1) directory below) s =
          if s.isDirectory directory then .ok (.made below, s) else .error e := by
        rw [hadvance, hmake]
        split
        · cases ‹Except.error e = .ok _›
        · exact (hother (Except.error.inj ‹Except.error e = .error .notFound›)).elim
        · rw [Except.error.inj ‹Except.error e = .error _›]
      split
      · exact .of_ok _ (hadvance.trans (if_pos ‹_›)) (.refl _)
      · exact .of_error (hadvance.trans (if_neg ‹_›)) (.refl _)

theorem extract_of_le {content : ByteArray} {bytes : Nat} (h : content.size ≤ bytes) :
    content.extract 0 bytes = content := by
  apply ByteArray.ext
  simp [h]

/-- The staging file is filled to its end. -/
theorem reaches_moving {written : FileSystem}
    (hwrite : base.write staging a.encode.toUTF8 = .ok written) {bytes : Nat}
    (hbytes : bytes ≤ a.encode.toUTF8.size)
    (hsame : ∀ content, s.write staging content = base.write staging content) :
    Reaches a p (.filling staging bytes, s) (.moving staging, written) := by
  induction hleft : a.encode.toUTF8.size - bytes generalizing bytes s with
  | zero =>
    have hfull : bytes = a.encode.toUTF8.size := by omega
    rw [hfull]
    refine .of_ok (.moving staging, written) ?_ (.refl _)
    simp only [WriteStage.advance, ByteArray.extract_zero_size, hsame, hwrite, ok_bind,
      lt_irrefl, if_false]
    rfl
  | succ left ih =>
    have hlt : bytes < a.encode.toUTF8.size := by omega
    obtain ⟨next, hnext, -⟩ := write_write hwrite (a.encode.toUTF8.extract 0 bytes)
    have hagain (content : ByteArray) : next.write staging content = base.write staging content := by
      obtain ⟨after, hbase, hagain⟩ := write_write hnext content
      rw [hbase, hagain]
    refine .of_ok (.filling staging (bytes + 1), next) ?_ (ih hlt hagain (by omega))
    simp only [WriteStage.advance, hsame, hnext, ok_bind, if_pos hlt]
    rfl

/-- The last point of a call. -/
def lastPoint (outcome : Except ArtifactError Unit × FileSystem) : WritePoint :=
  (.done outcome.1, outcome.2)

theorem reaches_publish (staging : Path) (s : FileSystem) :
    Reaches a p (.moving staging, s) (lastPoint ((publish staging p).outcome s)) := by
  rw [publish_eq]
  cases hrename : s.rename staging p with
  | ok moved =>
    refine .of_ok (.done (.ok ()), moved) ?_ (.refl _)
    rw [WriteStage.advance, hrename]
    rfl
  | error e =>
    refine .of_error (e := e) (by rw [WriteStage.advance, hrename]; rfl) ?_
    dsimp only [lastPoint, WriteStage.refuse]
    rw [FileAction.outcome_attempt]
    cases hremove : s.remove staging with
    | ok cleared =>
      refine .of_ok (.done (.error (refused p e)), cleared) ?_ (.refl _)
      rw [WriteStage.advance, hremove]
      rfl
    | error e' =>
      exact .of_error (by rw [WriteStage.advance, hremove]; rfl) (.refl _)

theorem reaches_stage (s : FileSystem) :
    Reaches a p (.made [], s) (lastPoint ((stage a p).outcome s)) := by
  unfold stage
  cases hname : p.fileName? with
  | none =>
    have hadvance : WriteStage.advance a p (.made []) s =
        .ok (.done (.error (.file p.text "artifact path has no file name")), s) := by
      simp only [WriteStage.advance, hname]
    exact .of_ok _ hadvance (.refl _)
  | some name =>
    have hadvance : WriteStage.advance a p (.made []) s =
        .ok (.filling (p.sibling (stagingName s.process name)) 0, s) := by
      simp only [WriteStage.advance, hname]
    refine .of_ok _ hadvance ?_
    dsimp only
    rw [FileAction.outcome_bind, FileAction.outcome_get]
    dsimp only
    rw [FileAction.outcome_bind, FileAction.outcome_change]
    cases hwrite : s.write (p.sibling (stagingName s.process name)) a.encode.toUTF8 with
    | ok written =>
      exact (reaches_moving hwrite (Nat.zero_le _) fun _ => rfl).trans (reaches_publish _ _)
    | error e =>
      refine .of_error (e := e) ?_ (.refl _)
      rw [WriteStage.advance, FileSystem.write_eq_error hwrite]
      rfl

/-- The steps of a call end in what the call yields, with the files that it leaves. -/
theorem reaches_write (a : Artifact) (p : Path) (fs : FileSystem) :
    Reaches a p (firstStage p, fs) (lastPoint ((a.write p).outcome fs)) := by
  rw [write_eq, FileAction.outcome_bind]
  unfold firstStage makeParent
  cases hparent : p.namedParent? with
  | none => exact reaches_stage fs
  | some parent =>
    refine (reaches_makeTree _ parent [] fs).trans ?_
    dsimp only
    rw [FileAction.outcome_makeDirectories]
    obtain ⟨e | _, made⟩ := (FileAction.makeTree (parent.text.length + 1) parent).outcome fs
    · rw [afterMaking, hparent]
      exact .refl _
    · exact reaches_stage made

/-! Directories that are made on the way. -/

/-- Whether the directory that the artifact lies in is there. -/
def ParentThere (fs : FileSystem) (p : Path) : Prop :=
  ∀ parent, p.namedParent? = some parent → ∃ location, Leads fs parent location

/-- Whether a path leads where it leads no matter which directories a call makes: it does not go up
again, or no directory is missing. -/
def Settled (fs : FileSystem) (p : Path) : Prop := ".." ∉ pathNames p ∨ ParentThere fs p

/-- Where a call makes directories. -/
def MayRise (fs : FileSystem) (p : Path) (location : Location) : Prop :=
  ¬ ParentThere fs p ∧ (".." ∉ pathNames p → location.length < (fs.place p).length)

/-- What the files are before the staging file is written. -/
structure Base (p : Path) (fs base : FileSystem) : Prop where
  raises : Raises (MayRise fs p) fs base
  rooted : base.Rooted

/-- A path whose names begin another one, which goes on below it. -/
structure Above (p q : Path) : Prop where
  root : q.isAbsolute = p.isAbsolute
  rest : ".." ∉ pathNames p → ∃ rest, pathNames p = pathNames q ++ rest ∧ ∃ name ∈ rest, name ≠ "."

theorem above_namedParent {parent : Path} (h : p.namedParent? = some parent) : Above p parent := by
  obtain ⟨hparent, -⟩ := Option.filter_eq_some_iff.mp h
  refine ⟨(Path.pathNames_parent hparent).1, fun hstraight => ?_⟩
  cases hname : p.fileName? with
  | none =>
    rw [Path.namedParent?_of_noName hname hstraight] at h
    cases h
  | some name =>
    obtain ⟨hdot, -, -, parent', dropped, dots, hparent', -, hnames, -⟩ :=
      Path.parent?_of_fileName hname
    obtain rfl := Option.some.inj (hparent'.symm.trans hparent)
    exact ⟨dropped ++ name :: dots, by rw [hnames, List.append_assoc], name, by simp, hdot⟩

theorem Above.parent {above : Path} (h : Above p q) (hparent : q.parent? = some above) :
    Above p above := by
  obtain ⟨hroot, more, -, hnames⟩ := Path.pathNames_parent hparent
  refine ⟨hroot.trans h.root, fun hstraight => ?_⟩
  obtain ⟨rest, hrest, name, hname, hdot⟩ := h.rest hstraight
  exact ⟨more ++ rest, by rw [hrest, hnames, List.append_assoc], name,
    List.mem_append_right _ hname, hdot⟩

/-- A path above another has its place above the other's. -/
theorem Above.length_lt (h : Above p q) (hstraight : ".." ∉ pathNames p)
    (hcurrent : s.current = fs.current) {location : Location} {slash : Bool}
    (hresolve : s.resolve q = .ok (.named location slash)) :
    location.length < (fs.place p).length := by
  obtain ⟨rest, hrest, name, hname, hdot⟩ := h.rest hstraight
  have hstraight' : ".." ∉ pathNames q := fun hmem =>
    hstraight (by rw [hrest]; exact List.mem_append_left _ hmem)
  have hlocation : location = s.place q := location_of_resolve hresolve
  have hpos : 0 < (rest.filter (· ≠ ".")).length :=
    List.length_pos_of_mem (List.mem_filter.mpr ⟨hname, by simpa using hdot⟩)
  rw [hlocation, place, place, arrive_of_straight hstraight, arrive_of_straight hstraight', hcurrent,
    h.root, hrest, List.filter_append, List.length_append, List.length_append, List.length_append]
  omega

theorem Base.makeDirectory (h : Base p fs s) (habove : Above p q) (hmissing : ¬ ParentThere fs p)
    (hmake : s.makeDirectory q = .ok s') : Base p fs s' := by
  refine ⟨h.raises.trans (raises_makeDirectory hmake fun location slash hresolve => ?_),
    h.rooted.makeDirectory hmake⟩
  exact ⟨hmissing, fun hstraight => habove.length_lt hstraight h.raises.current hresolve⟩

/-- A directory above the artifact that was there is not made, and no directory on the way to it is
missing. -/
theorem Base.parent_missing (h : Base p fs s) (hparent : ParentThere fs p → p.namedParent? = some q)
    (hempty : q.text ≠ "")
    (hmake : s.makeDirectory q = .error .notFound ∨ ∃ made, s.makeDirectory q = .ok made) :
    ¬ ParentThere fs p := by
  intro hthere
  obtain ⟨location, hleads⟩ := hthere q (hparent hthere)
  obtain ⟨e, hrefused, hfound⟩ := (hleads.mono h.raises.keepsDirectories).not_made hempty
  rcases hmake with hmake | ⟨made, hmake⟩
  · exact hfound (Except.error.inj (hrefused.symm.trans hmake))
  · cases hrefused.symm.trans hmake

/-- Where a settled path leads does not depend on the directories that a call makes. -/
theorem Base.locate_iff (hrooted : fs.Rooted) (h : Base p fs base) (hsettled : Settled fs p)
    (found : Location × Entry) : base.locate p = .ok found ↔ fs.locate p = .ok found := by
  have hkeeps := h.raises.keepsDirectories
  rcases hsettled with hstraight | hthere
  · have hsame : base.find? (fs.place p) = fs.find? (fs.place p) := by
      rcases h.raises.found (fs.place p) with hsame | ⟨⟨-, hshort⟩, -⟩
      · exact hsame
      · exact absurd (hshort hstraight) (lt_irrefl _)
    have hsame' : fs.find? (base.place p) = base.find? (base.place p) := by
      rw [place, h.raises.current, ← place, hsame]
    exact ⟨h.rooted.locate hrooted h.raises.current.symm hstraight hsame',
      hrooted.locate h.rooted h.raises.current hstraight hsame⟩
  · have hsame (location : Location) : base.find? location = fs.find? location := by
      rcases h.raises.found location with hsame | ⟨⟨hmissing, -⟩, -⟩
      · exact hsame
      · exact absurd hthere hmissing
    exact locate_congr hkeeps ⟨hkeeps.current.symm, fun location hfound =>
      (hsame location).symm.trans hfound⟩ (fun location _ _ => hsame location) found

/-- A path that leads somewhere is settled. -/
theorem settled_of_locate {found : Location × Entry} (h : fs.locate p = .ok found) :
    Settled fs p := by
  refine .inr fun parent hparent => ?_
  obtain ⟨hroot, rest, hne, hnames⟩ :=
    Path.pathNames_parent (Option.filter_eq_some_iff.mp hparent).1
  obtain ⟨target, hresolve, -⟩ := bind_eq_ok.mp h
  obtain ⟨-, -, -, hfollow⟩ := resolve_eq_ok.mp hresolve
  rw [hnames, follow_append (.inr hne), ← hroot] at hfollow
  obtain ⟨middle, hleads, -⟩ := bind_eq_ok.mp hfollow
  exact ⟨middle, hleads⟩

/-! The staging file lies beside the artifact. -/

/-- The name of a staging file for a path. -/
def IsStaging (p staging : Path) : Prop :=
  ∃ name process, p.fileName? = some name ∧ staging = p.sibling (stagingName process name)

/-- The staging file and the artifact are in different places. -/
theorem IsStaging.ne {place location : Location} {slash slash' : Bool} (h : IsStaging p staging)
    (hstaging : s.resolve staging = .ok (.named place slash))
    (hp : s.resolve p = .ok (.named location slash')) : place ≠ location := by
  obtain ⟨name, process, hname, rfl⟩ := h
  have hslash : '/' ∉ (stagingName process name).toList := by
    simp [stagingName, Path.not_mem_fileName hname, not_mem_toDigits]
  have hplace : place.getLast? = some (stagingName process name) := by
    rw [(resolve_named hstaging).2, Path.sibling, hname]
    exact Path.getLast?_join hslash (by simp [stagingName]) _
  rintro rfl
  have hsame := hplace.symm.trans (getLast?_of_named hp hname)
  -- the staging file has the longer name
  have hlength := congrArg (fun text => text.toList.length) (Option.some.inj hsame)
  simp [stagingName] at hlength
  omega

/-- Whether nothing has changed but what the staging file holds. -/
structure Aside (staging : Path) (base s : FileSystem) : Prop where
  keeps : KeepsDirectories base s
  back : KeepsDirectories s base
  found : ∀ location, base.resolve staging ≠ .ok (.named location false) →
    s.find? location = base.find? location

theorem Aside.refl (staging : Path) (base : FileSystem) : Aside staging base base :=
  ⟨.refl base, .refl base, fun _ _ => rfl⟩

/-- A change at the place of the staging file that leaves no directory there. -/
theorem Aside.change {location : Location} (h : Aside staging base s)
    (hresolve : s.resolve staging = .ok (.named location false)) (hkeeps : KeepsDirectories s s')
    (hfile : s'.find? location ≠ some .directory)
    (hsame : ∀ place, place ≠ location → s'.find? place = s.find? place) :
    Aside staging base s' := by
  refine ⟨h.keeps.trans hkeeps, ⟨h.back.current.trans hkeeps.current.symm, fun place hfound => ?_⟩,
    fun place hother => ?_⟩
  · have hplace : place ≠ location := fun hplace => hfile (hplace ▸ hfound)
    exact h.back.directories place (hsame place hplace ▸ hfound)
  · have hplace : place ≠ location := by
      rintro rfl
      exact hother (h.back.resolve hresolve)
    rw [hsame place hplace, h.found place hother]

theorem Aside.write {content : ByteArray} (h : Aside staging base s)
    (hwrite : s.write staging content = .ok s') : Aside staging base s' := by
  obtain ⟨location, hresolve, hne, hfile, rfl⟩ := FileSystem.write_eq_ok hwrite
  exact h.change hresolve (keepsDirectories_put hfile _) (by simp [find?_put_self hne])
    fun _ => find?_put_of_ne

theorem Aside.remove (h : Aside staging base s) (hremove : s.remove staging = .ok s') :
    Aside staging base s' := by
  obtain ⟨location, content, hlocate, rfl⟩ := remove_eq_ok hremove
  obtain ⟨hresolve, hfile⟩ := locate_eq_file_iff.mp hlocate
  exact h.change hresolve (keepsDirectories_drop (by simp [hfile]))
    (by simp [find?_drop_of_file hfile]) fun _ => find?_drop_of_ne

/-- What the staging file holds plays no part in where the path leads. -/
theorem Aside.locate_iff (h : Aside staging base s) (hstaging : IsStaging p staging)
    (found : Location × Entry) : s.locate p = .ok found ↔ base.locate p = .ok found := by
  refine locate_congr h.keeps h.back (fun location slash hresolve => ?_) found
  exact h.found location fun hplace => hstaging.ne hplace hresolve rfl

/-! What holds at every point. -/

/-- Whether a path leads where it led before the staging file was written. -/
def Kept (p : Path) (fs s : FileSystem) : Prop :=
  ∃ base, Base p fs base ∧ ∀ found, s.locate p = .ok found ↔ base.locate p = .ok found

/-- What the files are while there may be a staging file. -/
structure Staged (p : Path) (fs : FileSystem) (staging : Path) (s : FileSystem) : Prop where
  name : IsStaging p staging
  files : ∃ base, Base p fs base ∧ Aside staging base s

/-- Whether a path leads to the whole artifact. -/
def Whole (a : Artifact) (p : Path) (s : FileSystem) : Prop :=
  ∃ location, s.locate p = .ok (location, .file a.encode.toUTF8)

/-- What the files are at a point of a call. -/
def Sound (a : Artifact) (p : Path) (fs : FileSystem) : WritePoint → Prop
  | (.making _ directory below, s) =>
    Base p fs s ∧ (∀ q ∈ directory :: below, Above p q) ∧
      (ParentThere fs p → p.namedParent? = some directory ∧ below = [])
  | (.made below, s) =>
    Base p fs s ∧ (∀ q ∈ below, Above p q) ∧ (ParentThere fs p → below = [])
  | (.filling staging _, s) => Staged p fs staging s
  | (.moving staging, s) => Staged p fs staging s ∧ Whole a staging s
  | (.clearing staging _, s) => Staged p fs staging s ∧ Whole a staging s
  | (.done (.error _), s) => Kept p fs s
  | (.done (.ok ()), s) => Whole a p s

theorem Base.kept (h : Base p fs s) : Kept p fs s := ⟨s, h, fun _ => Iff.rfl⟩

theorem Staged.kept (h : Staged p fs staging s) : Kept p fs s := by
  obtain ⟨base, hbase, haside⟩ := h.files
  exact ⟨base, hbase, haside.locate_iff h.name⟩

theorem Staged.write {content : ByteArray} (h : Staged p fs staging s)
    (hwrite : s.write staging content = .ok s') : Staged p fs staging s' := by
  obtain ⟨base, hbase, haside⟩ := h.files
  exact ⟨h.name, base, hbase, haside.write hwrite⟩

theorem Staged.remove (h : Staged p fs staging s) (hremove : s.remove staging = .ok s') :
    Staged p fs staging s' := by
  obtain ⟨base, hbase, haside⟩ := h.files
  exact ⟨h.name, base, hbase, haside.remove hremove⟩

theorem sound_first (a : Artifact) (p : Path) (hrooted : fs.Rooted) :
    Sound a p fs (firstStage p, fs) := by
  have hbase : Base p fs fs := ⟨.refl _ fs, hrooted⟩
  unfold firstStage
  split
  · rename_i parent hparent
    exact ⟨hbase, by simpa using above_namedParent hparent, fun _ => ⟨hparent, rfl⟩⟩
  · exact ⟨hbase, by simp, fun _ => rfl⟩

/-- A step that is refused leaves the path as it is. -/
theorem sound_refuse {stage : WriteStage} (h : Sound a p fs (stage, s)) (e : FileError) :
    Sound a p fs (stage.refuse p e, s) := by
  cases stage with
  | making => exact h.1.kept
  | made => exact h.1.kept
  | filling => exact h.kept
  | moving => exact h
  | clearing => exact h.1.kept
  | done => exact h

theorem sound_making {fuel : Nat} {directory : Path} {below : List Path} {point : WritePoint}
    (h : Sound a p fs (.making fuel directory below, s))
    (hadvance : WriteStage.advance a p (.making fuel directory below) s = .ok point) :
    Sound a p fs point := by
  obtain ⟨hbase, habove, hthere⟩ := h
  rw [List.forall_mem_cons] at habove
  cases fuel with
  | zero => cases hadvance
  | succ fuel =>
    rw [WriteStage.advance] at hadvance
    split at hadvance
    · obtain rfl := Except.ok.inj hadvance
      exact ⟨hbase, habove.2, fun h => (hthere h).2⟩
    rename_i hempty
    have hmissing := hbase.parent_missing (fun h => (hthere h).1) hempty
    split at hadvance
    · rename_i made hmake
      obtain rfl := Except.ok.inj hadvance
      exact ⟨hbase.makeDirectory habove.1 (hmissing (.inr ⟨made, hmake⟩)) hmake, habove.2,
        fun h => (hthere h).2⟩
    · rename_i hmake
      split at hadvance
      · cases hadvance
      · rename_i above hparent
        obtain rfl := Except.ok.inj hadvance
        exact ⟨hbase, List.forall_mem_cons.mpr
          ⟨habove.1.parent hparent, List.forall_mem_cons.mpr habove⟩,
          fun h => absurd h (hmissing (.inl hmake))⟩
    · split at hadvance
      · obtain rfl := Except.ok.inj hadvance
        exact ⟨hbase, habove.2, fun h => (hthere h).2⟩
      · cases hadvance

theorem sound_made {below : List Path} {point : WritePoint} (h : Sound a p fs (.made below, s))
    (hadvance : WriteStage.advance a p (.made below) s = .ok point) : Sound a p fs point := by
  obtain ⟨hbase, habove, hthere⟩ := h
  cases below with
  | nil =>
    rw [WriteStage.advance] at hadvance
    split at hadvance
    · obtain rfl := Except.ok.inj hadvance
      exact hbase.kept
    · rename_i name hname
      obtain rfl := Except.ok.inj hadvance
      exact ⟨⟨name, s.process, hname, rfl⟩, s, hbase, .refl _ s⟩
  | cons directory below =>
    obtain ⟨made, hensure, hadvance⟩ := bind_eq_ok.mp hadvance
    obtain rfl := Except.ok.inj hadvance
    rw [List.forall_mem_cons] at habove
    have hmissing : ¬ ParentThere fs p := fun h => by cases hthere h
    refine ⟨?_, habove.2, fun h => absurd h hmissing⟩
    rcases ensureDirectory_eq_ok hensure with hmake | ⟨rfl, -⟩
    · exact hbase.makeDirectory habove.1 hmissing hmake
    · exact hbase

theorem sound_filling {bytes : Nat} {point : WritePoint}
    (h : Sound a p fs (.filling staging bytes, s))
    (hadvance : WriteStage.advance a p (.filling staging bytes) s = .ok point) :
    Sound a p fs point := by
  rw [WriteStage.advance] at hadvance
  obtain ⟨written, hwrite, hadvance⟩ := bind_eq_ok.mp hadvance
  have hstaged : Staged p fs staging written := Staged.write h hwrite
  rcases Nat.lt_or_ge bytes a.encode.toUTF8.size with hbytes | hbytes
  · rw [if_pos hbytes] at hadvance
    rw [← Except.ok.inj hadvance]
    exact hstaged
  · rw [if_neg (Nat.not_lt.mpr hbytes)] at hadvance
    rw [← Except.ok.inj hadvance]
    rw [extract_of_le hbytes] at hwrite
    obtain ⟨location, hresolve, -, hfile, rfl⟩ := FileSystem.write_eq_ok hwrite
    exact ⟨hstaged, location, locate_put hresolve hfile⟩

/-- After a move the path leads to the whole artifact, and the staging file is gone. -/
theorem sound_moved {moved : FileSystem} (h : Sound a p fs (.moving staging, s))
    (hrename : s.rename staging p = .ok moved) :
    Whole a p moved ∧ moved.pathExists staging = false := by
  obtain ⟨hstaged, location, hlocate⟩ := h
  obtain ⟨location', entry, place, hlocate', hplace, hne, hfile, rfl⟩ := rename_eq_ok hrename
  obtain ⟨rfl, rfl⟩ := Prod.mk.inj (Except.ok.inj (hlocate.symm.trans hlocate'))
  obtain ⟨hresolve, hfound⟩ := locate_eq_file_iff.mp hlocate
  have hother : location ≠ place := hstaged.name.ne hresolve hplace
  have hdrop : KeepsDirectories s (s.drop location) := keepsDirectories_drop (by simp [hfound])
  have hfree : (s.drop location).find? place ≠ some .directory := by
    rwa [find?_drop_of_ne hother.symm]
  refine ⟨⟨place, locate_put (hdrop.resolve hplace) hfree⟩, ?_⟩
  refine pathExists_of_none ((hdrop.trans (keepsDirectories_put hfree _)).resolve hresolve) ?_
  rw [find?_put_of_ne hother, find?_drop_of_file hfound, if_pos rfl]

/-- After a move that was refused the staging file is removed. -/
theorem sound_cleared {reason : FileError} (h : Sound a p fs (.clearing staging reason, s)) :
    ∃ cleared, s.remove staging = .ok cleared ∧ cleared.pathExists staging = false := by
  obtain ⟨-, location, hlocate⟩ := h
  obtain ⟨hresolve, hfound⟩ := locate_eq_file_iff.mp hlocate
  refine ⟨s.drop location, by rw [FileSystem.remove, hlocate]; rfl, ?_⟩
  have hdrop : KeepsDirectories s (s.drop location) := keepsDirectories_drop (by simp [hfound])
  refine pathExists_of_none (hdrop.resolve hresolve) ?_
  rw [find?_drop_of_file hfound, if_pos rfl]

theorem sound_advance {stage : WriteStage} {point : WritePoint} (h : Sound a p fs (stage, s))
    (hadvance : stage.advance a p s = .ok point) : Sound a p fs point := by
  cases stage with
  | making => exact sound_making h hadvance
  | made => exact sound_made h hadvance
  | filling => exact sound_filling h hadvance
  | moving =>
    obtain ⟨moved, hrename, hadvance⟩ := bind_eq_ok.mp hadvance
    rw [← Except.ok.inj hadvance]
    exact (sound_moved h hrename).1
  | clearing =>
    obtain ⟨cleared, hremove, hadvance⟩ := bind_eq_ok.mp hadvance
    rw [← Except.ok.inj hadvance]
    exact (h.1.remove hremove).kept
  | done =>
    rw [← Except.ok.inj hadvance]
    exact h

theorem sound_next {point : WritePoint} (h : Sound a p fs point) :
    Sound a p fs (nextPoint a p point) := by
  unfold nextPoint
  split
  · exact sound_advance h ‹_›
  · exact sound_refuse h _

/-- What holds at the first point and is kept by each step holds at every point. -/
theorem sound_of_passes (hrooted : fs.Rooted) {point : WritePoint} (h : Passes a p fs point) :
    Sound a p fs point := by
  induction h with
  | first => exact sound_first a p hrooted
  | next _ ih => exact sound_next ih
  | broken e _ _ ih => exact sound_refuse ih e

theorem kept_or_whole {stage : WriteStage} (h : Sound a p fs (stage, s)) :
    Kept p fs s ∨ Whole a p s := by
  cases stage with
  | making => exact .inl h.1.kept
  | made => exact .inl h.1.kept
  | filling => exact .inl h.kept
  | moving => exact .inl h.1.kept
  | clearing => exact .inl h.1.kept
  | done result =>
    cases result with
    | error => exact .inl h
    | ok => exact .inr h

theorem Kept.holds_eq (hrooted : fs.Rooted) (h : Kept p fs s) (hsettled : Settled fs p) :
    s.holds p = fs.holds p := by
  obtain ⟨base, hbase, hlocate⟩ := h
  exact holds_congr fun found => (hlocate found).trans (hbase.locate_iff hrooted hsettled found)

theorem Kept.file {location : Location} {content : ByteArray} (h : Kept p fs s)
    (hlocate : s.locate p = .ok (location, .file content)) :
    fs.find? location = some (.file content) := by
  obtain ⟨base, hbase, hkept⟩ := h
  exact hbase.raises.file (locate_eq_file_iff.mp ((hkept _).mp hlocate)).2

/-- What a call that writes an artifact promises at one of its points. -/
structure Guarded (a : Artifact) (p : Path) (fs : FileSystem) (stage : WriteStage)
    (s : FileSystem) : Prop where
  /-- A file that the path leads to is the whole artifact, or it was there before and is as it was. -/
  untorn : ∀ location content, s.locate p = .ok (location, .file content) →
    content = a.encode.toUTF8 ∨ fs.find? location = some (.file content)
  /-- The path leads to what it led to before or to the whole artifact. -/
  held : Settled fs p → s.holds p = fs.holds p ∨ s.holds p = some (.file a.encode.toUTF8)
  written : stage = .done (.ok ()) → s.holds p = some (.file a.encode.toUTF8)
  loaded : stage = .done (.ok ()) → a.encode.utf8ByteSize ≤ maxBytes → load s p = .ok a
  unchanged : ∀ e, stage = .done (.error e) → Settled fs p → s.holds p = fs.holds p
  /-- Also a path that is not settled leads to no file of the call's making then. -/
  untouched : ∀ e, stage = .done (.error e) → ∀ location content,
    s.locate p = .ok (location, .file content) → fs.find? location = some (.file content)
  moved : ∀ staging, stage = .moving staging → ∀ moved, s.rename staging p = .ok moved →
    nextPoint a p (stage, s) = (.done (.ok ()), moved) ∧ moved.pathExists staging = false
  cleared : ∀ staging reason, stage = .clearing staging reason → ∃ cleared,
    nextPoint a p (stage, s) = (.done (.error (refused p reason)), cleared) ∧
      cleared.pathExists staging = false

theorem Whole.holds_eq (h : Whole a p s) : s.holds p = some (.file a.encode.toUTF8) := by
  obtain ⟨location, hlocate⟩ := h
  exact holds_of_locate hlocate

/-- A path that leads to the whole artifact is loaded as the artifact. -/
theorem Whole.load (ha : a.Writable) (h : Whole a p s) (hsize : a.encode.utf8ByteSize ≤ maxBytes) :
    Artifact.load s p = .ok a := by
  obtain ⟨location, hlocate⟩ := h
  obtain ⟨hresolve, hfound⟩ := locate_eq_file_iff.mp hlocate
  exact (load_of_text (read_file hresolve hfound) hsize (decode_encode_of_writable ha hsize)).2

theorem guarded_of_passes (ha : a.Writable) (hrooted : fs.Rooted) {stage : WriteStage}
    (h : Passes a p fs (stage, s)) : Guarded a p fs stage s where
  untorn location content hlocate := by
    rcases kept_or_whole (sound_of_passes hrooted h) with hkept | ⟨place, hwhole⟩
    · exact .inr (hkept.file hlocate)
    · have hsame := (Prod.mk.inj (Except.ok.inj (hlocate.symm.trans hwhole))).2
      exact .inl (Entry.file.inj hsame)
  held hsettled :=
    (kept_or_whole (sound_of_passes hrooted h)).imp (·.holds_eq hrooted hsettled) (·.holds_eq)
  written := by
    rintro rfl
    exact Whole.holds_eq (sound_of_passes hrooted h)
  loaded := by
    rintro rfl
    exact Whole.load ha (sound_of_passes hrooted h)
  unchanged := by
    rintro e rfl
    exact Kept.holds_eq hrooted (sound_of_passes hrooted h)
  untouched := by
    rintro e rfl location content hlocate
    exact Kept.file (sound_of_passes hrooted h) hlocate
  moved := by
    rintro staging rfl moved hrename
    refine ⟨?_, (sound_moved (sound_of_passes hrooted h) hrename).2⟩
    simp only [nextPoint, WriteStage.advance, hrename]
    rfl
  cleared := by
    rintro staging reason rfl
    obtain ⟨cleared, hremove, hgone⟩ := sound_cleared (sound_of_passes hrooted h)
    refine ⟨cleared, ?_, hgone⟩
    simp only [nextPoint, WriteStage.advance, hremove]
    rfl

/-- Writing an artifact exposes no part of it. At every step of a call that may break off anywhere,
the path leads to what it led to before or to the whole text: to the text once the call has succeeded,
and then the artifact is loaded from it, and to what it led to before if the call has failed. Moved or
not, the staging file is gone in the end. Only where the path goes up again
from directories that the call makes does a path that led nowhere come to lead to a directory, or to
a file that was there before. -/
theorem write_atomic
    (hsource : (∃ m inputs, capture m inputs = .ok a) ∨ ∃ text, decode text = .ok a)
    (hrooted : fs.Rooted) (p : Path) :
    Reaches a p (firstStage p, fs) (lastPoint ((a.write p).outcome fs)) ∧
      Guarded a p fs (.done ((a.write p).outcome fs).1) ((a.write p).outcome fs).2 ∧
      (fs.holds p ≠ none → Settled fs p) ∧
      ∀ stage s, Passes a p fs (stage, s) → Guarded a p fs stage s := by
  have hguarded (stage : WriteStage) (s : FileSystem) (h : Passes a p fs (stage, s)) :
      Guarded a p fs stage s :=
    guarded_of_passes (writable_of_origin hsource) hrooted h
  have hreaches := reaches_write a p fs
  refine ⟨hreaches, hguarded _ _ (Passes.first.reaches hreaches), fun hholds => ?_, hguarded⟩
  cases hlocate : fs.locate p with
  | ok found => exact settled_of_locate hlocate
  | error e => exact absurd (by rw [holds, hlocate]; rfl) hholds

/-- An artifact that takes the place of a file. -/
theorem write_atomic_sample :
    let p : Path := ⟨"out/m.cpa"⟩
    let fs := (FileSystem.put {} ["out"] .directory).put ["out", "m.cpa"] (.file .empty)
    capture sampleModel [⟨[1, 1], #[0.5], by decide⟩] = .ok sample ∧ fs.Rooted ∧
      Reaches sample p (firstStage p, fs) (lastPoint ((sample.write p).outcome fs)) ∧
      Guarded sample p fs (.done ((sample.write p).outcome fs).1) ((sample.write p).outcome fs).2 ∧
      (fs.holds p ≠ none → Settled fs p) ∧
      ∀ stage s, Passes sample p fs (stage, s) → Guarded sample p fs stage s := by
  have hrooted : ((FileSystem.put {} ["out"] .directory).put ["out", "m.cpa"]
      (.file .empty)).Rooted :=
    (rooted_empty.put (by decide) (by decide) _).put (by decide) (by decide) _
  exact ⟨capture_sample, hrooted, write_atomic (.inl ⟨_, _, capture_sample⟩) hrooted _⟩

/-- A path that goes up from a directory of its own name is refused after that directory was made, so
it leads to the directory then, where it led nowhere. -/
theorem write_upward_exposed :
    FileSystem.Rooted {} ∧ FileSystem.holds {} ⟨"f/../f"⟩ = none ∧
      ((sample.write ⟨"f/../f"⟩).outcome {}).1 = .error (refused ⟨"f/../f"⟩ .isDirectory) ∧
      ((sample.write ⟨"f/../f"⟩).outcome {}).2.holds ⟨"f/../f"⟩ = some .directory := by
  refine ⟨rooted_empty, by decide +kernel, by decide +kernel, by decide +kernel⟩

end Artifact

end TensorParity
