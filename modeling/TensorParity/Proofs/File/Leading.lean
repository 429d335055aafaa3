import TensorParity.Proofs.File.Path
import TensorParity.Proofs.File.System

/-!
Where paths lead while directories stay. A path whose names lead to a directory keeps leading there,
and so does its parent; a name that is joined to such a path stands for one place in that directory,
or for none, whatever files come and go.
-/
namespace TensorParity

namespace FileSystem

variable {fs fs' : FileSystem} {start location : Location} {p dir : Path} {name : String}
  {names : List String} {slash : Bool}

theorem KeepsDirectories.refl (fs : FileSystem) : KeepsDirectories fs fs := ⟨rfl, fun _ h => h⟩

/-! Names that lead to a directory. -/

theorem KeepsDirectories.foldlM_enter (h : KeepsDirectories fs fs')
    (hleads : names.foldlM fs.enter start = .ok location) :
    names.foldlM fs'.enter start = .ok location := by
  induction names generalizing start with
  | nil => exact hleads
  | cons name rest ih =>
    rw [List.foldlM_cons] at hleads ⊢
    obtain ⟨entered, henter, hrest⟩ := bind_eq_ok.mp hleads
    rw [h.enter henter]
    exact ih hrest

/-- A step into a directory that is not a dot reaches a directory by its name. -/
theorem enter_eq_ok (h : fs.enter start name = .ok location) :
    fs.follow slash start [name] = .ok (.reached location) ∨
      fs.follow slash start [name] = .ok (.named location slash) ∧
        fs.find? location = some .directory := by
  unfold enter at h
  unfold follow
  split at h
  · rename_i hdot
    rw [if_pos hdot, Except.ok.inj h]
    exact .inl rfl
  rename_i hdot
  rw [if_neg hdot]
  split at h
  · rename_i hdots
    rw [if_pos hdots, Except.ok.inj h]
    exact .inl rfl
  rename_i hdots
  rw [if_neg hdots]
  split at h
  · cases h
  rename_i hlength
  rw [if_neg hlength]
  split at h
  · cases h
  · cases h
  · rename_i hfound
    obtain rfl := Except.ok.inj h
    exact .inr ⟨rfl, hfound⟩

/-- Names that lead to a directory are followed to it. -/
theorem follow_of_leads (slash : Bool) (h : names.foldlM fs.enter start = .ok location) :
    fs.follow slash start names = .ok (.reached location) ∨
      fs.follow slash start names = .ok (.named location slash) ∧
        fs.find? location = some .directory := by
  induction names generalizing start with
  | nil =>
    obtain rfl := Except.ok.inj h
    exact .inl rfl
  | cons name rest ih =>
    obtain ⟨entered, henter, hrest⟩ := bind_eq_ok.mp ((List.foldlM_cons ..).symm.trans h)
    cases rest with
    | nil =>
      obtain rfl := Except.ok.inj hrest
      exact enter_eq_ok henter
    | cons next rest =>
      rw [follow, henter, ok_bind]
      · exact ih hrest
      · simp

/-- Names that are followed to a directory lead to it. -/
theorem leads_of_follow (h : fs.follow slash start names = .ok (.reached location) ∨
      fs.follow slash start names = .ok (.named location slash) ∧
        fs.find? location = some .directory) :
    names.foldlM fs.enter start = .ok location := by
  induction names generalizing start with
  | nil =>
    rcases h with h | ⟨h, -⟩
    · cases h
      rfl
    · cases h
  | cons name rest ih =>
    cases rest with
    | nil =>
      have henter : fs.enter start name = .ok location := by
        unfold follow at h
        unfold enter
        by_cases hdot : name = "."
        · simp only [if_pos hdot] at h ⊢
          rcases h with h | ⟨h, -⟩ <;> cases h
          rfl
        by_cases hdots : name = ".."
        · simp only [if_neg hdot, if_pos hdots] at h ⊢
          rcases h with h | ⟨h, -⟩ <;> cases h
          rfl
        by_cases hlength : maxName < name.utf8ByteSize
        · simp [hdot, hdots, hlength] at h
        · simp only [if_neg hdot, if_neg hdots, if_neg hlength] at h ⊢
          rcases h with h | ⟨h, hfound⟩ <;> cases h
          rw [hfound]
      rw [List.foldlM_cons, henter]
      rfl
    | cons next rest =>
      rw [follow] at h
      · cases henter : fs.enter start name with
        | error e => simp [henter] at h
        | ok entered =>
          rw [List.foldlM_cons, henter, ok_bind]
          rw [henter, ok_bind] at h
          exact ih h
      · simp

/-- The last name after names that lead to a directory stands for a place in it. -/
theorem follow_concat (slash : Bool) (hleads : names.foldlM fs.enter start = .ok location)
    (hdot : name ≠ ".") (hdots : name ≠ "..") :
    fs.follow slash start (names ++ [name]) =
      if maxName < name.utf8ByteSize then .error .nameTooLong
      else .ok (.named (location ++ [name]) slash) := by
  induction names generalizing start with
  | nil =>
    obtain rfl := Except.ok.inj hleads
    simp [follow, hdot, hdots]
  | cons first rest ih =>
    obtain ⟨entered, henter, hrest⟩ := bind_eq_ok.mp ((List.foldlM_cons ..).symm.trans hleads)
    rw [List.cons_append, follow, henter, ok_bind, ih hrest]
    simp

/-- Whether the names of a path lead to a directory. -/
def Leads (fs : FileSystem) (p : Path) (location : Location) : Prop :=
  (pathNames p).foldlM fs.enter (if p.isAbsolute then [] else fs.current) = .ok location

theorem Leads.mono (h : Leads fs p location) (hkeeps : KeepsDirectories fs fs') :
    Leads fs' p location := by
  unfold Leads
  rw [hkeeps.current]
  exact hkeeps.foldlM_enter h

/-- A path is a fault in itself, or it is followed name by name. -/
theorem resolve_cases (p : Path) :
    (∃ e, (∀ fs : FileSystem, fs.resolve p = .error e) ∧ (p.text ≠ "" → e ≠ .notFound)) ∨
      ∀ fs : FileSystem, fs.resolve p =
        fs.follow (p.text.toList.getLast? = some '/') (if p.isAbsolute then [] else fs.current)
          (pathNames p) := by
  by_cases hzero : '\x00' ∈ p.text.toList
  · exact .inl ⟨.zeroByte, fun fs => by simp [resolve, hzero], fun _ => by decide⟩
  by_cases hempty : p.text.toList = []
  · refine .inl ⟨.notFound, fun fs => by simp [resolve, hempty], fun hne => ?_⟩
    exact absurd (String.toList_eq_nil_iff.mp hempty) hne
  by_cases hlong : maxPath < p.text.utf8ByteSize
  · refine .inl ⟨.nameTooLong, fun fs => ?_, fun _ => by decide⟩
    simp [resolve, hzero, hempty, hlong]
  · refine .inr fun fs => ?_
    rw [resolve, if_neg hzero, if_neg hempty, if_neg hlong]
    rfl

/-! A name in a directory. -/

/-- Whether a path stands for a place, or for none, as long as directories stay. -/
def Fixed (fs : FileSystem) (p : Path) (place : Except FileError Location) : Prop :=
  ∀ fs', KeepsDirectories fs fs' → fs'.resolve p = place.map (.named · false)

/-- What is joined to a path goes on with its names. -/
theorem pathNames_join_pieces {next : String} (hhead : next.toList.head? ≠ some '/') (dir : Path) :
    pathNames (dir.join next) =
      pathNames dir ++ ((Path.pieces '/' next.toList).filter (· ≠ [])).map String.ofList := by
  obtain ⟨before, hbody, hbefore, -⟩ := Path.body_join_pieces hhead dir
  simp only [pathNames, hbody, List.filter_append, hbefore, List.map_append]

theorem pathNames_join (hslash : '/' ∉ name.toList) (hne : name.toList ≠ []) (dir : Path) :
    pathNames (dir.join name) = pathNames dir ++ [name] := by
  rw [pathNames_join_pieces (fun hhead => hslash (List.mem_of_head? hhead)),
    Path.pieces_of_not_mem hslash]
  simp [hne]

theorem getLast?_text_join (hslash : '/' ∉ name.toList) (hne : name.toList ≠ []) (dir : Path) :
    (dir.join name).text.toList.getLast? ≠ some '/' := by
  obtain ⟨front, htext⟩ : ∃ front, (dir.join name).text.toList = front ++ name.toList := by
    unfold Path.join
    split
    · exact ⟨[], rfl⟩
    · split
      · exact ⟨dir.text.toList, by simp⟩
      · exact ⟨dir.text.toList ++ ['/'], by simp⟩
  rw [htext, List.getLast?_append_of_ne_nil _ hne]
  exact fun h => hslash (List.mem_of_getLast? h)

/-- A name joined to a path that leads to a directory. -/
theorem Leads.fixed (h : Leads fs dir location) (hslash : '/' ∉ name.toList)
    (hne : name.toList ≠ []) (hdot : name ≠ ".") (hdots : name ≠ "..") :
    ∃ place, Fixed fs (dir.join name) place ∧ ∀ m, place = .ok m → m = location ++ [name] := by
  rcases resolve_cases (dir.join name) with ⟨e, hfault, -⟩ | hfollow
  · exact ⟨.error e, fun fs' _ => hfault fs', nofun⟩
  obtain ⟨-, -, -, habsolute⟩ := Path.body_join hslash dir
  have hlast : decide ((dir.join name).text.toList.getLast? = some '/') = false := by
    simpa using getLast?_text_join hslash hne dir
  have hresolve (fs' : FileSystem) (hkeeps : KeepsDirectories fs fs') :
      fs'.resolve (dir.join name) = if maxName < name.utf8ByteSize then .error .nameTooLong
        else .ok (.named (location ++ [name]) false) := by
    rw [hfollow, hlast, pathNames_join hslash hne, habsolute hne]
    exact follow_concat false (h.mono hkeeps) hdot hdots
  by_cases hlength : maxName < name.utf8ByteSize
  · refine ⟨.error .nameTooLong, fun fs' hkeeps => ?_, nofun⟩
    rw [hresolve fs' hkeeps, if_pos hlength]
    rfl
  · refine ⟨.ok (location ++ [name]), fun fs' hkeeps => ?_, fun m hm => (Except.ok.inj hm).symm⟩
    rw [hresolve fs' hkeeps, if_neg hlength]
    rfl

theorem foldlM_dots (hdots : ∀ name ∈ names, name = ".") :
    names.foldlM fs.enter start = .ok start := by
  induction names with
  | nil => rfl
  | cons name rest ih =>
    rw [List.forall_mem_cons] at hdots
    rw [List.foldlM_cons, hdots.1]
    exact ih hdots.2

/-- The parent of a name in a directory leads to that directory. -/
theorem Leads.parent (h : Leads fs dir location) (hslash : '/' ∉ name.toList)
    (hne : name.toList ≠ []) (hdot : name.toList ≠ ['.']) :
    ∃ parent, (dir.join name).parent? = some parent ∧ Leads fs parent location := by
  obtain ⟨parent, dropped, hparent, habsolute, hbody, hdropped⟩ :=
    Path.parent?_join hslash hne hdot dir
  have hnames : pathNames dir = pathNames parent ++ dropped.map String.ofList := by
    simp only [pathNames, hbody, List.map_append]
  refine ⟨parent, hparent, ?_⟩
  unfold Leads at h ⊢
  rw [hnames, ← habsolute, List.foldlM_append] at h
  obtain ⟨reached, hreached, hrest⟩ := bind_eq_ok.mp h
  have hdots : ∀ name ∈ dropped.map String.ofList, name = "." := by
    intro name hname
    obtain ⟨piece, hpiece, rfl⟩ := List.mem_map.mp hname
    rw [hdropped piece hpiece]
  rw [foldlM_dots hdots] at hrest
  rwa [← Except.ok.inj hrest]

/-! Directories that are there. -/

theorem leads_empty (h : p.text = "") (fs : FileSystem) : Leads fs p fs.current := by
  obtain ⟨text⟩ := p
  obtain rfl : text = "" := h
  rfl

theorem leads_of_isDirectory (h : fs.isDirectory p = true) : ∃ location, Leads fs p location := by
  have hlocate : ∃ location, fs.locate p = .ok (location, .directory) := by
    unfold isDirectory at h
    split at h
    · exact ⟨_, ‹_›⟩
    · cases h
  obtain ⟨location, hlocate⟩ := hlocate
  obtain ⟨target, hresolve, hfound⟩ := bind_eq_ok.mp hlocate
  obtain ⟨-, -, -, hfollow⟩ := resolve_eq_ok.mp hresolve
  cases target with
  | reached place => exact ⟨place, leads_of_follow (.inl hfollow)⟩
  | named place slash =>
    obtain ⟨-, -, rfl⟩ := follow_named hfollow
    dsimp only at hfound
    split at hfound
    · cases hfound
    · exact ⟨place, leads_of_follow (.inr ⟨hfollow, ‹_›⟩)⟩
    · split at hfound <;> cases hfound

theorem leads_of_makeDirectory (h : fs.makeDirectory p = .ok fs') :
    ∃ location, Leads fs' p location := by
  obtain ⟨location, slash, hresolve, hfree, rfl⟩ := makeDirectory_eq_ok h
  have hkeeps : KeepsDirectories fs (fs.put location .directory) :=
    keepsDirectories_put (by simp [hfree]) _
  obtain ⟨-, -, -, hfollow⟩ := resolve_eq_ok.mp (hkeeps.resolve hresolve)
  obtain ⟨hne, -, rfl⟩ := follow_named hfollow
  exact ⟨location, leads_of_follow (.inr ⟨hfollow, find?_put_self hne⟩)⟩

/-- A path whose directories were made leads to a directory. -/
theorem leads_of_makeDirectories (h : fs.makeDirectories p = .ok fs') :
    ∃ location, Leads fs' p location := by
  rw [FileAction.makeDirectories_eq_ok, FileAction.outcome_makeTree] at h
  split at h
  · rename_i hempty
    cases h
    exact ⟨_, leads_empty hempty _⟩
  split at h
  · rename_i hmake
    cases h
    exact leads_of_makeDirectory hmake
  · split at h
    · cases h
    split at h
    · cases h
    split at h
    · rename_i hlast
      cases h
      rcases ensureDirectory_eq_ok hlast with hmake | ⟨rfl, hthere⟩
      · exact leads_of_makeDirectory hmake
      · exact leads_of_isDirectory hthere
    · cases h
  · split at h
    · cases h
      exact leads_of_isDirectory ‹_›
    · cases h

/-- A directory that is there is not made. -/
theorem Leads.not_made (h : Leads fs p location) (hne : p.text ≠ "") :
    ∃ e, fs.makeDirectory p = .error e ∧ e ≠ .notFound := by
  rcases resolve_cases p with ⟨e, hfault, hfound⟩ | hfollow
  · exact ⟨e, by rw [makeDirectory, hfault, error_bind], hfound hne⟩
  · refine ⟨.exists, ?_, by decide⟩
    have hleads := follow_of_leads (p.text.toList.getLast? = some '/') h
    rw [← hfollow] at hleads
    rcases hleads with hreached | ⟨hnamed, hfound⟩
    · rw [makeDirectory, hreached, ok_bind]
    · simp only [makeDirectory, hnamed, ok_bind, hfound]

/-- Where a path leads to a directory, making it changes nothing; what may be wrong is the path. -/
theorem Leads.makeTree (h : Leads fs p location) (fuel : Nat) :
    ∃ result : Except FileError Unit, ∀ fs', KeepsDirectories fs fs' →
      (FileAction.makeTree (fuel + 1) p).outcome fs' = (result, fs') := by
  by_cases hempty : p.text = ""
  · refine ⟨.ok (), fun fs' _ => ?_⟩
    rw [FileAction.outcome_makeTree, if_pos hempty]
  rcases resolve_cases p with ⟨e, hfault, hfound⟩ | hfollow
  · refine ⟨.error e, fun fs' _ => ?_⟩
    have hmake : fs'.makeDirectory p = .error e := by
      rw [makeDirectory, hfault]
      rfl
    have hnone : fs'.isDirectory p = false := by
      rw [isDirectory, locate, hfault]
      rfl
    rw [FileAction.outcome_makeTree, if_neg hempty, hmake]
    split
    · cases ‹Except.error e = .ok _›
    · exact absurd (Except.error.inj ‹Except.error e = .error .notFound›) (hfound hempty)
    · rename_i heq
      rw [if_neg (by simp [hnone]), ← Except.error.inj heq]
  · refine ⟨.ok (), fun fs' hkeeps => ?_⟩
    have hleads := follow_of_leads (p.text.toList.getLast? = some '/') (h.mono hkeeps)
    rw [← hfollow] at hleads
    have hmake : fs'.makeDirectory p = .error .exists := by
      rcases hleads with hreached | ⟨hnamed, hfound⟩
      · rw [makeDirectory, hreached]
        rfl
      · simp only [makeDirectory, hnamed, ok_bind, hfound]
    have hthere : fs'.isDirectory p = true := by
      rcases hleads with hreached | ⟨hnamed, hfound⟩
      · rw [isDirectory, locate, hreached]
        rfl
      · simp only [isDirectory, locate, hnamed, ok_bind, hfound]
        rfl
    rw [FileAction.outcome_makeTree, if_neg hempty, hmake]
    exact if_pos hthere

end FileSystem

end TensorParity
