import TensorParity.Proofs.Artifact.Beside
import TensorParity.Proofs.Suite.Comparison

/-!
The places of scenarios. Every file of a run carries the name of its scenario, so scenarios with
different names work in different places of one directory.
-/
namespace TensorParity

open FileSystem

/-- What stands in a file name between the dots it begins with and the next dot. -/
def leadName (name : String) : List Char := (name.toList.dropWhile (· = '.')).takeWhile (· ≠ '.')

theorem leadName_eq {name : String} {dots lead rest : List Char}
    (hname : name.toList = dots ++ (lead ++ '.' :: rest)) (hdots : ∀ c ∈ dots, c = '.')
    (hne : lead ≠ []) (hlead : '.' ∉ lead) : leadName name = lead := by
  obtain ⟨c, cs, rfl⟩ := List.exists_cons_of_ne_nil hne
  have hc : c ≠ '.' := fun heq => hlead (heq ▸ List.mem_cons_self)
  have hcs : ∀ c' ∈ c :: cs, c' ≠ '.' := fun c' hc' heq => hlead (heq ▸ hc')
  rw [leadName, hname, List.dropWhile_append_of_pos (by simpa using hdots),
    List.cons_append, List.dropWhile_cons_of_neg (by simpa using hc), ← List.cons_append,
    List.takeWhile_append_of_pos (by simpa using hcs)]
  simp

namespace Scenario

variable {s : Scenario} {base : FileSystem} {dir workDir : Path} {location : Location}

/-- Whether a place carries the name of a scenario. -/
def Names (s : Scenario) (location : Location) : Prop :=
  ∃ name, location.getLast? = some name ∧ leadName name = s.canonicalName.toList

theorem names_disjoint {s' : Scenario} (h : s.Names location) (h' : s'.Names location) :
    s.canonicalName = s'.canonicalName := by
  obtain ⟨name, hlast, hlead⟩ := h
  obtain ⟨name', hlast', hlead'⟩ := h'
  obtain rfl := Option.some.inj (hlast.symm.trans hlast')
  exact String.toList_inj.mp (hlead.symm.trans hlead')

theorem not_mem_canonicalName (s : Scenario) {c : Char} (hc : Text.isCaseChar c = false) :
    c ∉ s.canonicalName.toList := by
  simp [canonicalName, Text.caseName, Text.caseChar_ne hc]

/-- A file name that carries the name of a scenario. -/
structure Carries (s : Scenario) (name : String) : Prop where
  lead : leadName name = s.canonicalName.toList
  noSlash : '/' ∉ name.toList

/-- A name carries the scenario's if it goes on with a dot after it, behind any dots. -/
theorem carries_of_toList (hs : s.canonicalName ≠ "") {name : String} (dots rest : List Char)
    (hname : name.toList = dots ++ (s.canonicalName.toList ++ '.' :: rest))
    (hdots : ∀ c ∈ dots, c = '.') (hrest : '/' ∉ rest) : s.Carries name where
  lead := leadName_eq hname hdots (by simpa using hs) (s.not_mem_canonicalName rfl)
  noSlash := by
    rw [hname]
    simp only [List.mem_append, List.mem_cons, not_or]
    exact ⟨fun hmem => absurd (hdots _ hmem) (by decide), s.not_mem_canonicalName rfl, by decide,
      hrest⟩

theorem carries_suffix (hs : s.canonicalName ≠ "") {suffix : String}
    (hsuffix : '/' ∉ suffix.toList) : s.Carries (s.canonicalName ++ "." ++ suffix) :=
  carries_of_toList hs [] suffix.toList (by simp) (List.forall_mem_nil _) hsuffix

theorem carries_stagingName (hs : s.canonicalName ≠ "") (process : Nat) :
    s.Carries (Artifact.stagingName process (s.canonicalName ++ "." ++ Artifact.extension)) := by
  refine carries_of_toList hs ['.']
    (['c', 'p', 'a', '.'] ++ (toString process).toList ++ ['.', 't', 'm', 'p']) ?_ ?_ ?_
  · simp [Artifact.stagingName, Artifact.extension]
  · simp
  · simp [Artifact.not_mem_toDigits]

/-- A name that is made of dots carries no other name. -/
theorem Carries.ne_dotted {name : String} (h : s.Carries name) (hs : s.canonicalName ≠ "")
    (dotted : String) (hdotted : leadName dotted = []) : name ≠ dotted := by
  rintro rfl
  exact hs (String.toList_inj.mp (h.lead.symm.trans hdotted))

/-- A file name that carries the name of a scenario stands for a place of the scenario. -/
theorem owns_join (hs : s.canonicalName ≠ "") (hleads : Leads base dir location) {name : String}
    (h : s.Carries name) : Owns s.Names base (dir.join name) := by
  have hempty : name.toList ≠ [] := by
    simpa using h.ne_dotted hs "" (by decide)
  obtain ⟨place, hfixed, hplace⟩ := hleads.fixed h.noSlash hempty (h.ne_dotted hs "." (by decide))
    (h.ne_dotted hs ".." (by decide))
  refine ⟨place, hfixed, fun m hm => ⟨name, ?_, h.lead⟩⟩
  rw [hplace m hm, List.getLast?_concat]

theorem toList_fileName (s : Scenario) : (s.canonicalName ++ "." ++ Artifact.extension).toList =
    s.canonicalName.toList ++ '.' :: ['c', 'p', 'a'] := by
  simp [Artifact.extension]

/-- A run has a place for its artifact in any directory that is there. -/
theorem site_artifactPath (hs : s.canonicalName ≠ "") (hleads : Leads base workDir location) :
    Artifact.Site s.Names base (s.artifactPath workDir) := by
  have hname : s.Carries (s.canonicalName ++ "." ++ Artifact.extension) :=
    carries_suffix hs (by decide)
  have hlong : 4 ≤ (s.canonicalName ++ "." ++ Artifact.extension).toList.length := by
    simp [Artifact.extension]
  obtain ⟨parent, hparent, hleads'⟩ := hleads.parent hname.noSlash
    (fun hshort => by rw [hshort] at hlong; exact absurd hlong (by decide))
    (fun hshort => by rw [hshort] at hlong; exact absurd hlong (by decide))
  refine ⟨owns_join hs hleads hname, ?_, ?_⟩
  · intro parent' hparent'
    have hsame := (Option.filter_eq_some_iff.mp hparent').1
    rw [artifactPath, hparent] at hsame
    obtain rfl := Option.some.inj hsame
    exact ⟨location, hleads'⟩
  · intro name hname
    obtain rfl := Option.some.inj ((s.fileName?_artifactPath workDir).symm.trans hname)
    have hsibling : (s.artifactPath workDir).sibling (Artifact.stagingName base.process
        (s.canonicalName ++ "." ++ Artifact.extension)) = parent.join
          (Artifact.stagingName base.process (s.canonicalName ++ "." ++ Artifact.extension)) := by
      rw [Path.sibling, fileName?_artifactPath, artifactPath, hparent]
      rfl
    rw [hsibling]
    exact owns_join hs hleads' (carries_stagingName hs base.process)

theorem fileStem?_artifactPath (hs : s.canonicalName ≠ "") :
    (s.artifactPath workDir).fileStem? = some s.canonicalName := by
  have hne : s.canonicalName.toList ≠ [] := by simpa using hs
  rw [Path.fileStem?, fileName?_artifactPath, Option.map_some]
  have hsuffix : (s.canonicalName ++ "." ++ Artifact.extension).toList.reverse.dropWhile (· ≠ '.') =
      '.' :: s.canonicalName.toList.reverse := by
    rw [toList_fileName]
    simp
  unfold Path.stem
  rw [hsuffix]
  obtain ⟨c, cs, hcs⟩ := List.exists_cons_of_ne_nil (mt List.reverse_eq_nil_iff.mp hne)
  rw [hcs]
  dsimp only
  rw [← hcs, List.reverse_reverse, String.ofList_toList]

/-- The files of a conversion carry the name of the scenario whose artifact is converted. -/
theorem owns_converted (hs : s.canonicalName ≠ "") (hleads : Leads base workDir location)
    {c : Converted} (h : convertedPaths workDir (s.artifactPath workDir) Loopback.structureSuffix
      Loopback.weightsSuffix = .ok c) :
    Owns s.Names base c.structurePath ∧ Owns s.Names base c.weightsPath := by
  have hstructure : s.Carries (s.canonicalName ++ "." ++ Loopback.structureSuffix) :=
    carries_suffix hs (by decide)
  have hweights : s.Carries (s.canonicalName ++ "." ++ Loopback.weightsSuffix) :=
    carries_suffix hs (by decide)
  simp only [convertedPaths, fileStem?_artifactPath hs, Except.ok.injEq] at h
  subst h
  -- the paths are read off first, else the joined paths are compared by computation
  dsimp only
  exact ⟨owns_join hs hleads hstructure, owns_join hs hleads hweights⟩

end Scenario

end TensorParity
