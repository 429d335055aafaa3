import TensorParity.Proofs.Artifact.File
import TensorParity.Proofs.Backend.Loopback
import TensorParity.Proofs.File.Beside

/-!
Exports, conversions and inference beside other work in one directory. Each stays in the places that
its paths stand for: the artifact, its staging file, and the two files of a conversion.
-/
namespace TensorParity

open FileSystem

variable {mine : Location → Prop} {base fs gs : FileSystem} {p : Path}

namespace Artifact

/-- A place for an artifact: the directory above it is there, and the artifact and its staging file
are in places of one's own. -/
structure Site (mine : Location → Prop) (base : FileSystem) (p : Path) : Prop where
  owned : Owns mine base p
  parent : ∀ parent, p.namedParent? = some parent → ∃ location, Leads base parent location
  staging : ∀ name, p.fileName? = some name →
    Owns mine base (p.sibling (stagingName base.process name))

theorem steady_makeParent (h : Site mine base p) :
    (FileSystem.frame mine base).Steady (makeParent p) := by
  unfold makeParent
  split
  · rename_i parent hparent
    obtain ⟨location, hleads⟩ := h.parent parent hparent
    exact steady_makeDirectories hleads _
  · exact Frame.steady_pure ()

theorem agrees_publish {staging : Path} {location : Location} {content : ByteArray}
    (h : Near mine base fs gs) (hstaging : Owns mine base staging) (hp : Owns mine base p)
    (hlocate : fs.locate staging = .ok (location, .file content)) :
    (FileSystem.frame mine base).Agrees fs ((publish staging p).outcome fs)
      ((publish staging p).outcome gs) := by
  rw [publish_eq, publish_eq, FileAction.outcome_attempt, FileAction.outcome_attempt]
  rcases h.rename hstaging hp hlocate with ⟨e, hleft, hright⟩ |
    ⟨fs', gs', hleft, hright, hnear, huntouched⟩
  · rw [hleft, hright]
    rcases stepSteady_remove hstaging fs gs h with ⟨e', hleft', hright'⟩ |
      ⟨fs', gs', hleft', hright', hnear, huntouched⟩
    · simp only [hleft', hright']
      exact .same _ h fun _ _ => rfl
    · simp only [hleft', hright']
      exact .same _ hnear huntouched
  · rw [hleft, hright]
    exact .same _ hnear huntouched

theorem steady_stage (h : Site mine base p) (a : Artifact) :
    (FileSystem.frame mine base).Steady (stage a p) := by
  unfold stage
  split
  · rename_i name hname
    refine Frame.steady_get fun fs gs hnear => ?_
    rw [hnear.processLeft, hnear.processRight]
    have hstaging := h.staging name hname
    refine (steady_change (stepSteady_write hstaging _) _).bind (fun _ s s' t' hwrite halike => ?_)
      fs gs hnear
    -- the staging file has just been written, so what is moved is a file
    obtain ⟨location, hresolve, hne, hfile, rfl⟩ :=
      FileSystem.write_eq_ok (FileAction.change_eq_ok hwrite)
    exact agrees_publish halike hstaging h.owned
      (locate_file ((keepsDirectories_put hfile _).resolve hresolve) (find?_put_self hne))
  · exact Frame.steady_throw _

theorem steady_export (h : Site mine base p) (m : Model) (inputs : List (Tensor Float)) :
    (FileSystem.frame mine base).Steady (exportModel m inputs p) := by
  refine (Frame.steady_lift _).andThen fun a => ?_
  rw [write_eq]
  exact ((steady_makeParent h).andThen fun _ => steady_stage h a).andThen fun _ =>
    Frame.steady_pure a

end Artifact

namespace Loopback

theorem load_artifact_congr (h : Near mine base fs gs) (hp : Owns mine base p) :
    Artifact.load fs p = Artifact.load gs p := by
  obtain ⟨-, hsize, htext⟩ := h.read hp
  rw [Artifact.load, Artifact.load, hsize, htext]

theorem load_congr {c : Converted} (h : Near mine base fs gs)
    (hc : Owns mine base c.structurePath ∧ Owns mine base c.weightsPath) :
    load fs c = load gs c := by
  have hread {q : Path} (hq : Owns mine base q) (limit : Nat) :
      readBounded fs q limit = readBounded gs q limit := by
    obtain ⟨hcontent, hsize, -⟩ := h.read hq
    rw [readBounded, readBounded, hcontent, hsize]
  rw [load, load, hread hc.1, hread hc.2]

theorem steady_convert {workDir : Path} {location : Location} {shapes : List Shape}
    (hp : Owns mine base p) (hdir : Leads base workDir location)
    (hpaths : ∀ c, convertedPaths workDir p structureSuffix weightsSuffix = .ok c →
      Owns mine base c.structurePath ∧ Owns mine base c.weightsPath) :
    (FileSystem.frame mine base).Steady (convert workDir p shapes) := by
  refine Frame.steady_get fun fs gs hnear => ?_
  rw [← load_artifact_congr hnear hp]
  refine (steady_ofResult _ _).andThen (fun a => ?_) fs gs hnear
  split
  · exact (Frame.steady_throw _).bind fun _ _ _ _ h => nomatch h
  refine (steady_makeDirectories hdir _).andThen fun _ =>
    (Frame.steady_lift _).bind fun c s s' t' hnamed halike => ?_
  obtain ⟨hstructure, hweights⟩ := hpaths c (FileAction.lift_eq hnamed).1
  refine ((steady_change (stepSteady_write hstructure _) _).andThen fun _ =>
    (steady_change (stepSteady_write hweights _) _).andThen fun _ =>
      Frame.steady_pure c) s' t' halike

theorem steady_infer {c : Converted}
    (hc : Owns mine base c.structurePath ∧ Owns mine base c.weightsPath)
    (inputs : List (Tensor Float)) : (FileSystem.frame mine base).Steady (infer c inputs) := by
  refine Frame.steady_get fun fs gs hnear => ?_
  rw [← load_congr hnear hc]
  exact (Frame.steady_lift _).andThen (fun m => steady_ofResult _ _) fs gs hnear

end Loopback

end TensorParity
