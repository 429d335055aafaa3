import TensorParity.Proofs.File.Leading
import TensorParity.Proofs.File.Made

/-!
Trees of directories. Where everything lies in a directory, a path without double dots leads to
whatever is at its place, so what a path leads to is told by what lies there.
-/
namespace TensorParity

/-- Where a target is. -/
def Target.location : Target → Location
  | .named location _ => location
  | .reached location => location

namespace FileSystem

variable {fs fs' : FileSystem} {start middle location : Location} {entry : Entry} {p q : Path}
  {content : ByteArray} {name : String} {names front : List String} {slash : Bool}
  {target : Target}

/-- Whether everything lies in a directory, and relative paths start from one. -/
structure Rooted (fs : FileSystem) : Prop where
  current : fs.find? fs.current = some .directory
  above : ∀ location, fs.find? location ≠ none → fs.find? location.dropLast = some .directory

theorem rooted_empty : Rooted {} := by
  refine ⟨rfl, fun location hfound => ?_⟩
  by_cases hroot : location = []
  · rw [hroot]
    rfl
  · simp [find?, hroot] at hfound

/-! Operations keep the tree. -/

theorem Rooted.put (h : fs.Rooted) (habove : fs.find? location.dropLast = some .directory)
    (hfile : fs.find? location ≠ some .directory) (entry : Entry) :
    (fs.put location entry).Rooted := by
  have hkeeps := keepsDirectories_put hfile entry
  refine ⟨hkeeps.directories _ h.current, fun place hfound => hkeeps.directories _ ?_⟩
  by_cases hsame : place = location
  · rwa [hsame]
  · exact h.above place (find?_put_of_ne hsame ▸ hfound)

theorem Rooted.drop (h : fs.Rooted) (hfile : fs.find? location = some (.file content)) :
    (fs.drop location).Rooted := by
  have hkeeps : KeepsDirectories fs (fs.drop location) := keepsDirectories_drop (by simp [hfile])
  refine ⟨hkeeps.directories _ h.current, fun place hfound => hkeeps.directories _ ?_⟩
  rw [find?_drop_of_file hfile] at hfound
  split at hfound
  · exact absurd rfl hfound
  · exact h.above place hfound

theorem Rooted.enter (h : fs.Rooted) (hstart : fs.find? start = some .directory)
    (henter : fs.enter start name = .ok location) : fs.find? location = some .directory := by
  unfold FileSystem.enter at henter
  split at henter
  · rwa [← Except.ok.inj henter]
  split at henter
  · rw [← Except.ok.inj henter]
    exact h.above start (by simp [hstart])
  split at henter
  · cases henter
  split at henter
  · cases henter
  · cases henter
  · rename_i hfound
    rwa [← Except.ok.inj henter]

/-- Names lead from a directory to a directory. -/
theorem Rooted.foldlM_enter (h : fs.Rooted) (hstart : fs.find? start = some .directory)
    (hleads : names.foldlM fs.enter start = .ok location) :
    fs.find? location = some .directory :=
  foldlM_invariant (fun l => fs.find? l = some .directory)
    (fun _ _ _ _ hfound henter => h.enter hfound henter) hstart hleads

theorem Rooted.begins (h : fs.Rooted) (p : Path) :
    fs.find? (if p.isAbsolute then [] else fs.current) = some .directory := by
  split
  · rfl
  · exact h.current

/-! Following a path in two parts. -/

/-- What begins a path leads to a directory, from which the rest is followed. -/
theorem follow_append (h : front = [] ∨ names ≠ []) :
    fs.follow slash start (front ++ names) =
      front.foldlM fs.enter start >>= fun middle => fs.follow slash middle names := by
  induction front generalizing start with
  | nil => rfl
  | cons name rest ih =>
    have hne : names ≠ [] := h.resolve_left (by simp)
    rw [List.cons_append, FileSystem.follow, List.foldlM_cons, bind_assoc]
    · simp only [ih (.inr hne)]
    · simp [hne]

/-- The last step of a path. -/
theorem follow_last (h : fs.follow slash start [name] = .ok target) :
    (name = "." ∧ target = .reached start) ∨ (name = ".." ∧ target = .reached start.dropLast) ∨
      (name ≠ "." ∧ name ≠ ".." ∧ ¬ maxName < name.utf8ByteSize ∧
        target = .named (start ++ [name]) slash) := by
  unfold FileSystem.follow at h
  split at h
  · exact .inl ⟨‹_›, (Except.ok.inj h).symm⟩
  split at h
  · exact .inr (.inl ⟨‹_›, (Except.ok.inj h).symm⟩)
  split at h
  · cases h
  · exact .inr (.inr ⟨‹_›, ‹_›, ‹_›, (Except.ok.inj h).symm⟩)

/-- A place that a path names lies in the directory that the names before the last one lead to. -/
theorem named_eq (hresolve : fs.resolve p = .ok (.named location slash)) :
    ∃ front last middle, pathNames p = front ++ [last] ∧
      front.foldlM fs.enter (if p.isAbsolute then [] else fs.current) = .ok middle ∧
      location = middle ++ [last] ∧ last ≠ "." ∧ last ≠ ".." := by
  obtain ⟨-, -, -, hfollow⟩ := resolve_eq_ok.mp hresolve
  rcases List.eq_nil_or_concat' (pathNames p) with hnil | ⟨front, last, hnames⟩
  · rw [hnil] at hfollow
    cases hfollow
  · rw [hnames, follow_append (.inr (by simp))] at hfollow
    obtain ⟨middle, hleads, hlast⟩ := bind_eq_ok.mp hfollow
    rcases follow_last hlast with ⟨-, htarget⟩ | ⟨-, htarget⟩ | ⟨hdot, hdots, -, htarget⟩
    · cases htarget
    · cases htarget
    · exact ⟨front, last, middle, hnames, hleads, (Target.named.inj htarget).1, hdot, hdots⟩

theorem Rooted.named (h : fs.Rooted) (hresolve : fs.resolve p = .ok (.named location slash)) :
    fs.find? location.dropLast = some .directory := by
  obtain ⟨front, last, middle, -, hleads, rfl, -⟩ := named_eq hresolve
  rw [List.dropLast_concat]
  exact h.foldlM_enter (h.begins p) hleads

/-- A path with a file name names it at the end of its place. -/
theorem getLast?_of_named (hresolve : fs.resolve p = .ok (.named location slash))
    (hname : p.fileName? = some name) : location.getLast? = some name := by
  obtain ⟨front, last, middle, hnames, -, rfl, hdot, -⟩ := named_eq hresolve
  obtain ⟨-, -, -, parent, dropped, dots, -, -, hnames', -, hdots⟩ := Path.parent?_of_fileName hname
  have hlast : (FileSystem.pathNames parent ++ dropped ++ name :: dots).getLast? = some last := by
    rw [← hnames', hnames, List.getLast?_concat]
  rw [List.getLast?_concat]
  cases dots using List.reverseRecOn with
  | nil => simpa using hlast.symm
  | append_singleton front dot =>
    have hdot' : dot = last := by
      rw [← List.cons_append, ← List.append_assoc, List.getLast?_concat] at hlast
      exact Option.some.inj hlast
    exact absurd (hdots dot (by simp)) (hdot' ▸ hdot)

theorem Rooted.makeDirectory (h : fs.Rooted) (hmake : fs.makeDirectory p = .ok fs') :
    fs'.Rooted := by
  obtain ⟨location, slash, hresolve, hfree, rfl⟩ := makeDirectory_eq_ok hmake
  exact h.put (h.named hresolve) (by simp [hfree]) _

theorem Rooted.makeDirectories (h : fs.Rooted) (hmake : fs.makeDirectories p = .ok fs') :
    fs'.Rooted := by
  have htree := FileAction.makeTree_invariant Rooted (fun _ _ _ h hmake => h.makeDirectory hmake)
    (p.text.length + 1) p h
  rwa [FileAction.makeDirectories_eq_ok.mp hmake] at htree

theorem Rooted.remove (h : fs.Rooted) (hremove : fs.remove p = .ok fs') : fs'.Rooted := by
  obtain ⟨location, content, hlocate, rfl⟩ := remove_eq_ok hremove
  exact h.drop (locate_eq_file_iff.mp hlocate).2

/-! The place of a path does not depend on what is there. -/

/-- Where names lead if they lead anywhere. -/
def arrive (start : Location) (names : List String) : Location :=
  names.foldl (fun location name =>
    if name = "." then location
    else if name = ".." then location.dropLast
    else location ++ [name]) start

theorem arrive_append (start : Location) (front names : List String) :
    arrive start (front ++ names) = arrive (arrive start front) names :=
  List.foldl_append

/-- The place of a path. -/
def place (fs : FileSystem) (p : Path) : Location :=
  arrive (if p.isAbsolute then [] else fs.current) (pathNames p)

theorem location_of_enter (henter : fs.enter start name = .ok location) :
    location = arrive start [name] := by
  unfold FileSystem.enter at henter
  simp only [arrive, List.foldl_cons, List.foldl_nil]
  split at henter
  · rw [if_pos ‹_›, Except.ok.inj henter]
  rw [if_neg ‹_›]
  split at henter
  · rw [if_pos ‹_›, Except.ok.inj henter]
  rw [if_neg ‹_›]
  split at henter
  · cases henter
  split at henter
  · cases henter
  · cases henter
  · rw [Except.ok.inj henter]

theorem location_of_leads (hleads : names.foldlM fs.enter start = .ok location) :
    location = arrive start names := by
  induction names generalizing start with
  | nil => exact (Except.ok.inj hleads).symm
  | cons name rest ih =>
    obtain ⟨entered, henter, hrest⟩ := bind_eq_ok.mp ((List.foldlM_cons ..).symm.trans hleads)
    rw [ih hrest, location_of_enter henter]
    rfl

theorem location_of_follow (hfollow : fs.follow slash start names = .ok target) :
    target.location = arrive start names := by
  rcases List.eq_nil_or_concat' names with rfl | ⟨front, last, rfl⟩
  · obtain rfl := Except.ok.inj hfollow
    rfl
  · rw [follow_append (.inr (by simp))] at hfollow
    obtain ⟨middle, hleads, hlast⟩ := bind_eq_ok.mp hfollow
    rw [arrive_append, ← location_of_leads hleads]
    rcases follow_last hlast with ⟨rfl, rfl⟩ | ⟨rfl, rfl⟩ | ⟨hdot, hdots, -, rfl⟩
    · rfl
    · rfl
    · simp [Target.location, arrive, hdot, hdots]

theorem location_of_resolve (hresolve : fs.resolve p = .ok target) :
    target.location = fs.place p := by
  obtain ⟨-, -, -, hfollow⟩ := resolve_eq_ok.mp hresolve
  exact location_of_follow hfollow

/-! Paths without double dots. -/

/-- Names without double dots lead below where they start. -/
theorem arrive_of_straight (hstraight : ".." ∉ names) :
    arrive start names = start ++ names.filter (· ≠ ".") := by
  induction names generalizing start with
  | nil => simp [arrive]
  | cons name rest ih =>
    rw [List.mem_cons, not_or] at hstraight
    rw [arrive, List.foldl_cons, ← arrive, ih hstraight.2, if_neg (Ne.symm hstraight.1)]
    by_cases hdot : name = "." <;> simp [hdot]

/-- Names that lead to a directory lead to it wherever it is there. -/
theorem Rooted.leads_back (h : fs'.Rooted) (hstraight : ".." ∉ names)
    (hleads : names.foldlM fs.enter start = .ok location)
    (hfound : fs'.find? location = some .directory) :
    names.foldlM fs'.enter start = .ok location := by
  -- the directories above a directory are there, so the last name is looked at first
  induction names using List.reverseRecOn generalizing location with
  | nil => exact hleads
  | append_singleton front last ih =>
    rw [List.mem_append, not_or, List.mem_singleton] at hstraight
    rw [List.foldlM_append] at hleads ⊢
    obtain ⟨middle, hfront, hlast⟩ := bind_eq_ok.mp hleads
    obtain ⟨reached, henter, hlast⟩ := bind_eq_ok.mp ((List.foldlM_cons ..).symm.trans hlast)
    obtain rfl := Except.ok.inj hlast
    have hstep : fs'.find? middle = some .directory ∧ fs'.enter middle last = .ok reached := by
      unfold FileSystem.enter at henter ⊢
      split at henter
      · rename_i hdot
        obtain rfl := Except.ok.inj henter
        exact ⟨hfound, if_pos hdot⟩
      · rename_i hdot
        rw [if_neg (Ne.symm hstraight.2)] at henter
        rw [if_neg hdot, if_neg (Ne.symm hstraight.2)]
        split at henter
        · cases henter
        rename_i hlength
        rw [if_neg hlength]
        split at henter
        · cases henter
        · cases henter
        · obtain rfl := Except.ok.inj henter
          have habove := h.above _ (by rw [hfound]; simp : fs'.find? (middle ++ [last]) ≠ none)
          rw [List.dropLast_concat] at habove
          exact ⟨habove, by rw [hfound]⟩
    rw [ih hstraight.1 hfront hstep.1, ok_bind, List.foldlM_cons, hstep.2]
    rfl

theorem Rooted.follow_back (h : fs'.Rooted) (hstraight : ".." ∉ names)
    (hfollow : fs.follow slash start names = .ok target)
    (hfound : fs'.find? target.location ≠ none)
    (hreached : ∀ place, target = .reached place → fs'.find? place = some .directory) :
    fs'.follow slash start names = .ok target := by
  rcases List.eq_nil_or_concat' names with rfl | ⟨front, last, rfl⟩
  · exact hfollow
  · rw [List.mem_append, not_or, List.mem_singleton] at hstraight
    rw [follow_append (.inr (by simp))] at hfollow ⊢
    obtain ⟨middle, hleads, hlast⟩ := bind_eq_ok.mp hfollow
    have hmiddle : fs'.find? middle = some .directory := by
      rcases follow_last hlast with ⟨rfl, rfl⟩ | ⟨rfl, -⟩ | ⟨-, -, -, rfl⟩
      · exact hreached middle rfl
      · exact absurd rfl hstraight.2
      · simpa [Target.location] using h.above _ hfound
    rw [h.leads_back hstraight.1 hleads hmiddle, ok_bind]
    exact hlast

/-- Where a path leads in one state it leads in each other where something is at that place, if the
names after the last double dots begin at a directory. -/
theorem Rooted.resolve_back (h : fs'.Rooted) (hcurrent : fs'.current = fs.current)
    (hnames : pathNames p = front ++ names) (hstraight : ".." ∉ names)
    (hsplit : front = [] ∨ names ≠ [])
    (hfront : front.foldlM fs'.enter (if p.isAbsolute then [] else fs'.current) = .ok middle)
    (hresolve : fs.resolve p = .ok target) (hfound : fs'.find? target.location ≠ none)
    (hreached : ∀ place, target = .reached place → fs'.find? place = some .directory) :
    fs'.resolve p = .ok target := by
  obtain ⟨hzero, hempty, hlength, hfollow⟩ := resolve_eq_ok.mp hresolve
  rw [← hcurrent, hnames, follow_append hsplit] at hfollow
  obtain ⟨middle', hfront', hfollow⟩ := bind_eq_ok.mp hfollow
  rw [location_of_leads hfront', ← location_of_leads hfront] at hfollow
  refine resolve_eq_ok.mpr ⟨hzero, hempty, hlength, ?_⟩
  rw [hnames, follow_append hsplit, hfront, ok_bind]
  exact h.follow_back hstraight hfollow hfound hreached

/-- Two states in which a path leads anywhere agree on where that is. -/
theorem resolve_unique {target' : Target} (hcurrent : fs'.current = fs.current)
    (hresolve : fs.resolve p = .ok target) (hresolve' : fs'.resolve p = .ok target') :
    target' = target := by
  obtain ⟨-, -, -, hfollow⟩ := resolve_eq_ok.mp hresolve
  obtain ⟨-, -, -, hfollow'⟩ := resolve_eq_ok.mp hresolve'
  rw [hcurrent] at hfollow'
  rcases List.eq_nil_or_concat' (pathNames p) with hnil | ⟨front, last, hnames⟩
  · rw [hnil] at hfollow hfollow'
    exact (Except.ok.inj hfollow').symm.trans (Except.ok.inj hfollow)
  · rw [hnames, follow_append (.inr (by simp))] at hfollow hfollow'
    obtain ⟨middle, hleads, hlast⟩ := bind_eq_ok.mp hfollow
    obtain ⟨middle', hleads', hlast'⟩ := bind_eq_ok.mp hfollow'
    rw [location_of_leads hleads', ← location_of_leads hleads] at hlast'
    exact Except.ok.inj (hlast'.symm.trans hlast)

/-! What a path leads to. -/

/-- What a path leads to, if it leads anywhere. -/
def holds (fs : FileSystem) (p : Path) : Option Entry := (fs.locate p).toOption.map (·.2)

theorem holds_of_locate (h : fs.locate p = .ok (location, entry)) : fs.holds p = some entry := by
  rw [holds, h]
  rfl

theorem Rooted.reached (h : fs.Rooted) (hresolve : fs.resolve p = .ok (.reached location)) :
    fs.find? location = some .directory := by
  obtain ⟨-, -, -, hfollow⟩ := resolve_eq_ok.mp hresolve
  exact h.foldlM_enter (h.begins p) (leads_of_follow (.inl hfollow))

/-- What a path leads to is at its place. -/
theorem Rooted.found (h : fs.Rooted) (hlocate : fs.locate p = .ok (location, entry)) :
    fs.find? location = some entry ∧
      ∃ target, fs.resolve p = .ok target ∧ target.location = location := by
  obtain ⟨target, hresolve, hentry⟩ := bind_eq_ok.mp hlocate
  cases target with
  | reached place =>
    obtain ⟨rfl, rfl⟩ := Prod.mk.inj (Except.ok.inj hentry)
    exact ⟨h.reached hresolve, _, hresolve, rfl⟩
  | named place slash =>
    dsimp only at hentry
    split at hentry
    · cases hentry
    · obtain ⟨rfl, rfl⟩ := Prod.mk.inj (Except.ok.inj hentry)
      exact ⟨‹_›, _, hresolve, rfl⟩
    · split at hentry
      · cases hentry
      · obtain ⟨rfl, rfl⟩ := Prod.mk.inj (Except.ok.inj hentry)
        exact ⟨‹_›, _, hresolve, rfl⟩

/-- What a path leads to is told by where it leads and what a name stands for there. -/
theorem locate_eq_of_resolve (hresolve : fs.resolve p = .ok target)
    (hresolve' : fs'.resolve p = .ok target)
    (hsame : ∀ location slash, target = .named location slash →
      fs'.find? location = fs.find? location) : fs'.locate p = fs.locate p := by
  rw [locate, locate, hresolve, hresolve', ok_bind, ok_bind]
  cases target with
  | reached location => rfl
  | named location slash =>
    dsimp only
    rw [hsame location slash rfl]

/-- What is at the place of a path without double dots is what it leads to. -/
theorem Rooted.locate (h : fs.Rooted) (h' : fs'.Rooted) (hcurrent : fs'.current = fs.current)
    (hstraight : ".." ∉ pathNames p) (hsame : fs'.find? (fs.place p) = fs.find? (fs.place p))
    {found : Location × Entry} (hlocate : fs.locate p = .ok found) : fs'.locate p = .ok found := by
  obtain ⟨location, entry⟩ := found
  obtain ⟨hfound, target, hresolve, rfl⟩ := h.found hlocate
  have hthere : fs'.find? target.location = fs.find? target.location := by
    rw [location_of_resolve hresolve, hsame]
  have hback : fs'.resolve p = .ok target := by
    refine h'.resolve_back hcurrent rfl hstraight (.inl rfl) rfl hresolve ?_ ?_
    · rw [hthere, hfound]
      simp
    · rintro location rfl
      exact hthere.trans (h.reached hresolve)
  rwa [locate_eq_of_resolve hresolve hback]
  rintro location slash rfl
  exact hthere

/-- What a path leads to stays as long as directories do and nothing changes at its place. -/
theorem KeepsDirectories.locate (h : KeepsDirectories fs fs')
    (hsame : ∀ location slash, fs.resolve p = .ok (.named location slash) →
      fs'.find? location = fs.find? location)
    {found : Location × Entry} (hlocate : fs.locate p = .ok found) : fs'.locate p = .ok found := by
  obtain ⟨target, hresolve, -⟩ := bind_eq_ok.mp hlocate
  rwa [locate_eq_of_resolve hresolve (h.resolve hresolve)]
  rintro location slash rfl
  exact hsame location slash hresolve

/-- Two states with the same directories in which a path leads to the same. -/
theorem locate_congr (h : KeepsDirectories fs fs') (h' : KeepsDirectories fs' fs)
    (hsame : ∀ location slash, fs.resolve p = .ok (.named location slash) →
      fs'.find? location = fs.find? location) (found : Location × Entry) :
    fs'.locate p = .ok found ↔ fs.locate p = .ok found :=
  ⟨h'.locate fun location slash hresolve => (hsame location slash (h'.resolve hresolve)).symm,
    h.locate hsame⟩

theorem holds_congr (h : ∀ found, fs'.locate p = .ok found ↔ fs.locate p = .ok found) :
    fs'.holds p = fs.holds p := by
  unfold holds
  cases hlocate : fs.locate p with
  | ok found => rw [(h found).mpr hlocate]
  | error e =>
    cases hlocate' : fs'.locate p with
    | ok found => exact absurd ((h found).mp hlocate') (by simp [hlocate])
    | error e' => rfl

/-! Directories that are made on the way. -/

/-- Whether nothing has changed but for directories in some places where nothing was. -/
structure Raises (made : Location → Prop) (fs fs' : FileSystem) : Prop where
  current : fs'.current = fs.current
  process : fs'.process = fs.process
  found : ∀ location, fs'.find? location = fs.find? location ∨
    made location ∧ fs.find? location = none ∧ fs'.find? location = some .directory

variable {made : Location → Prop}

theorem Raises.refl (made : Location → Prop) (fs : FileSystem) : Raises made fs fs :=
  ⟨rfl, rfl, fun _ => .inl rfl⟩

theorem Raises.trans {fs'' : FileSystem} (h : Raises made fs fs') (h' : Raises made fs' fs'') :
    Raises made fs fs'' := by
  refine ⟨h'.current.trans h.current, h'.process.trans h.process, fun location => ?_⟩
  rcases h.found location with hsame | ⟨hmade, hnone, hfound⟩
  · rw [← hsame]
    exact h'.found location
  · rcases h'.found location with hsame' | ⟨-, hnone', -⟩
    · exact .inr ⟨hmade, hnone, hsame'.trans hfound⟩
    · rw [hfound] at hnone'
      cases hnone'

theorem Raises.keepsDirectories (h : Raises made fs fs') : KeepsDirectories fs fs' := by
  refine ⟨h.current, fun location hfound => ?_⟩
  rcases h.found location with hsame | ⟨-, hnone, -⟩
  · exact hsame.trans hfound
  · rw [hfound] at hnone
    cases hnone

/-- Files are neither made nor changed. -/
theorem Raises.file (h : Raises made fs fs') (hfound : fs'.find? location = some (.file content)) :
    fs.find? location = some (.file content) := by
  rcases h.found location with hsame | ⟨-, -, hdirectory⟩
  · exact hsame.symm.trans hfound
  · rw [hfound] at hdirectory
    cases hdirectory

theorem raises_makeDirectory (h : fs.makeDirectory p = .ok fs')
    (hmade : ∀ location slash, fs.resolve p = .ok (.named location slash) → made location) :
    Raises made fs fs' := by
  obtain ⟨location, slash, hresolve, hfree, rfl⟩ := makeDirectory_eq_ok h
  refine ⟨rfl, rfl, fun place => ?_⟩
  by_cases hplace : place = location
  · subst hplace
    exact .inr ⟨hmade place slash hresolve, hfree, find?_put_self (resolve_named hresolve).1⟩
  · exact .inl (find?_put_of_ne hplace)

end FileSystem

end TensorParity
