import TensorParity.Artifact.File
import TensorParity.Proofs.Artifact.Writable
import TensorParity.Proofs.Digest.Bytes
import TensorParity.Proofs.File.Made
import TensorParity.Proofs.File.System

/-!
Artifacts in files. An artifact that was written is loaded again. An export that succeeds makes the
artifact and no other file; one that is refused makes none, for the staging file is moved or removed.
-/
namespace TensorParity

namespace Artifact

open FileAction

variable {a : Artifact} {p : Path} {fs fs' : FileSystem}

theorem not_mem_toDigits (n : Nat) : '/' ∉ Nat.toDigits 10 n := fun hmem =>
  absurd (Nat.isDigit_of_mem_toDigits (by omega) (by omega) hmem) (by decide)

/-- Publishing moves the staging file or removes it. -/
theorem publish_eq (staging p : Path) (fs : FileSystem) :
    (publish staging p).outcome fs =
      match fs.rename staging p with
      | .ok fs' => (.ok (), fs')
      | .error e => (.error (refused p e), (FileAction.outcome (ε := ArtifactError)
          (FileAction.attempt (·.remove staging)) fs).2) := by
  unfold publish
  rw [FileAction.outcome_bind, FileAction.outcome_get]
  dsimp only
  cases fs.rename staging p with
  | ok fs' => rfl
  | error e =>
    rw [FileAction.outcome_bind, FileAction.outcome_attempt]
    cases fs.remove staging <;> rfl

theorem publish_eq_ok {staging : Path} {u : Unit}
    (h : (publish staging p).outcome fs = (.ok u, fs')) : fs.rename staging p = .ok fs' := by
  rw [publish_eq] at h
  cases hrename : fs.rename staging p with
  | ok after =>
    rw [hrename] at h
    exact congrArg Except.ok (Prod.mk.inj h).2
  | error e =>
    rw [hrename] at h
    cases h

/-- A place that an artifact was written to has a name, and its text there. -/
theorem write_eq_ok {u : Unit} (h : (a.write p).outcome fs = (.ok u, fs')) :
    (∃ name, p.fileName? = some name) ∧ fs'.read p = .ok a.encode.toUTF8 ∧
      fs'.size p = .ok a.encode.utf8ByteSize := by
  unfold write at h
  cases hname : p.fileName? with
  | none =>
    simp only [hname] at h
    split at h
    · obtain ⟨_, _, -, h⟩ := FileAction.bind_eq_ok.mp h
      cases h
    · cases h
  | some name =>
    simp only [hname] at h
    have htail {before : FileSystem}
        (h : ((get : FileAction ArtifactError FileSystem) >>= fun files =>
        FileAction.change (·.write (p.sibling (stagingName files.process name)) a.encode.toUTF8)
          (refused (p.sibling (stagingName files.process name))) >>= fun _ =>
        publish (p.sibling (stagingName files.process name)) p).outcome before = (.ok u, fs')) :
        fs'.read p = .ok a.encode.toUTF8 ∧ fs'.size p = .ok a.encode.utf8ByteSize := by
      obtain ⟨_, _, hget, h⟩ := FileAction.bind_eq_ok.mp h
      cases hget
      obtain ⟨_, written, hwrite, hpublish⟩ := FileAction.bind_eq_ok.mp h
      exact FileSystem.read_rename_write (change_eq_ok hwrite) (publish_eq_ok hpublish)
    refine ⟨⟨name, rfl⟩, ?_⟩
    split at h
    · obtain ⟨_, before, -, h⟩ := FileAction.bind_eq_ok.mp h
      exact htail h
    · exact htail h

theorem export_eq_ok {m : Model} {inputs : List (Tensor Float)}
    (h : (exportModel m inputs p).outcome fs = (.ok a, fs')) :
    capture m inputs = .ok a ∧ (a.write p).outcome fs = (.ok (), fs') := by
  obtain ⟨captured, before, hcapture, h⟩ := FileAction.bind_eq_ok.mp h
  rw [outcome_lift] at hcapture
  obtain ⟨hcaptured, rfl⟩ := Prod.mk.inj hcapture
  obtain ⟨u, written, hwrite, h⟩ := FileAction.bind_eq_ok.mp h
  rw [outcome_pure] at h
  obtain ⟨hsame, hfiles⟩ := Prod.mk.inj h
  rw [← hfiles, ← Except.ok.inj hsame]
  exact ⟨hcaptured, hwrite⟩

/-- A file within the size limit is loaded as what its text says. -/
theorem load_of_text {text : String}
    (hread : fs.read p = .ok text.toUTF8 ∧ fs.size p = .ok text.utf8ByteSize)
    (hsize : text.utf8ByteSize ≤ maxBytes) (hdecode : decode text = .ok a) :
    fs.readText p = .ok text ∧ load fs p = .ok a := by
  have htext : fs.readText p = .ok text := by
    rw [FileSystem.readText, hread.1, ok_bind, fromUTF8?_toUTF8]
    rfl
  have hcheck : checkSize text.utf8ByteSize = .ok () := if_neg (Nat.not_lt.mpr hsize)
  refine ⟨htext, ?_⟩
  rw [load, hread.2, htext]
  simp only [Except.mapError, ok_bind, hcheck]
  exact hdecode

/-- An artifact that was exported is loaded again, unless it is over the size limit. -/
theorem load_of_export {m : Model} {inputs : List (Tensor Float)}
    (h : (exportModel m inputs p).outcome fs = (.ok a, fs'))
    (hsize : a.encode.utf8ByteSize ≤ maxBytes) : load fs' p = .ok a := by
  obtain ⟨hcapture, hwrite⟩ := export_eq_ok h
  obtain ⟨-, hfile⟩ := write_eq_ok hwrite
  exact (load_of_text hfile hsize
    (decode_encode_of_writable (writable_of_capture hcapture) hsize)).2

/-! What an export leaves behind. -/

section Made

open FileSystem

/-- Nothing new. -/
abbrev NoneMade (fs fs' : FileSystem) : Prop := MakesOnly (fun _ => False) fs fs'

/-- One file, where the path leads. -/
abbrev OneMade (p : Path) (fs fs' : FileSystem) : Prop :=
  ∃ location, fs'.resolve p = .ok (.named location false) ∧ MakesOnly (· = location) fs fs'

/-- Publishing what was staged makes the artifact or nothing, the staging file included. -/
theorem outcome_publish {staging : Path} {written : FileSystem} {content : ByteArray}
    {result : Except ArtifactError Unit} (hwrite : fs.write staging content = .ok written)
    (h : (publish staging p).outcome written = (result, fs')) :
    (∀ e, result = .error e → NoneMade fs fs') ∧ (result = .ok () → OneMade p fs fs') := by
  obtain ⟨location, hresolve, hne, hfile, rfl⟩ := FileSystem.write_eq_ok hwrite
  have hfound : (fs.put location (.file content)).find? location = some (.file content) :=
    find?_put_self hne
  have hlocate := locate_file ((keepsDirectories_put hfile _).resolve hresolve) hfound
  rw [publish, outcome_bind, outcome_get] at h
  dsimp only at h
  split at h
  · rename_i renamed hrename
    obtain ⟨rfl, rfl⟩ := Prod.mk.inj h
    refine ⟨by rintro _ ⟨⟩, fun _ => ?_⟩
    obtain ⟨location', entry, place, hlocate', htarget, -, hfree, rfl⟩ := rename_eq_ok hrename
    rw [hlocate] at hlocate'
    obtain ⟨rfl, rfl⟩ := Prod.mk.inj (Except.ok.inj hlocate')
    have hfree' : ((fs.put location (.file content)).drop location).find? place ≠
        some .directory := by
      rw [find?_drop_of_file hfound]
      split
      · simp
      · exact hfree
    have hput : MakesOnly (· = place) ((fs.put location (.file content)).drop location)
        (((fs.put location (.file content)).drop location).put place (.file content)) :=
      makesOnly_put_file hfree'
    exact ⟨place, ((makesOnly_drop hfound).trans hput).resolve htarget,
      (makesOnly_drop_put hne hfile).trans hput⟩
  · -- the move was refused, so the staging file is where it was and can be removed
    have hremove : (fs.put location (.file content)).remove staging =
        .ok ((fs.put location (.file content)).drop location) := by
      rw [remove, hlocate]
      rfl
    rw [outcome_bind, outcome_attempt, hremove] at h
    obtain ⟨rfl, rfl⟩ := Prod.mk.inj h
    exact ⟨fun _ _ => makesOnly_drop_put hne hfile, by rintro ⟨⟩⟩

theorem OneMade.of_none {middle : FileSystem} (h : NoneMade fs middle) (h' : OneMade p middle fs') :
    OneMade p fs fs' := by
  obtain ⟨location, hresolve, hmade⟩ := h'
  exact ⟨location, hresolve, (h.mono fun _ => False.elim).trans hmade⟩

/-- The first step of a write: the directory that the artifact lies in. -/
def makeParent (p : Path) : FileAction ArtifactError Unit :=
  match p.namedParent? with
  | some parent => FileAction.makeDirectories parent (refused parent)
  | none => pure ()

/-- The second step of a write: the artifact, by way of its staging file. -/
def stage (a : Artifact) (p : Path) : FileAction ArtifactError Unit :=
  match p.fileName? with
  | some name => do
    let staging := p.sibling (stagingName (← get).process name)
    FileAction.change (·.write staging a.encode.toUTF8) (refused staging)
    publish staging p
  | none => throw (.file p.text "artifact path has no file name")

theorem write_eq (a : Artifact) (p : Path) : a.write p = makeParent p >>= fun _ => stage a p := by
  unfold write makeParent stage
  cases p.namedParent? <;> cases p.fileName? <;> rfl

theorem makesOnly_makeParent {made : Location → Prop} {result : Except ArtifactError Unit}
    (h : (makeParent p).outcome fs = (result, fs')) : MakesOnly made fs fs' := by
  unfold makeParent at h
  split at h
  · exact makesOnly_makeDirectories h
  · obtain ⟨-, rfl⟩ := Prod.mk.inj h
    exact .refl made _

theorem outcome_stage {result : Except ArtifactError Unit}
    (h : (stage a p).outcome fs = (result, fs')) :
    (∀ e, result = .error e → NoneMade fs fs') ∧ (result = .ok () → OneMade p fs fs') := by
  unfold stage at h
  split at h
  · rw [outcome_bind, outcome_get] at h
    rcases bind_cases h with ⟨e, hwrite, rfl⟩ | ⟨_, written, hwrite, h⟩
    · obtain ⟨rfl, -⟩ := change_eq_error hwrite
      exact ⟨fun _ _ => .refl _ _, nofun⟩
    · exact outcome_publish (change_eq_ok hwrite) h
  · obtain ⟨rfl, rfl⟩ := Prod.mk.inj h
    exact ⟨fun _ _ => .refl _ _, nofun⟩

/-- Writing an artifact makes it, or nothing. -/
theorem outcome_write {result : Except ArtifactError Unit}
    (h : (a.write p).outcome fs = (result, fs')) :
    (∀ e, result = .error e → NoneMade fs fs') ∧ (result = .ok () → OneMade p fs fs') := by
  rw [write_eq] at h
  rcases bind_cases h with ⟨e, hparent, rfl⟩ | ⟨_, middle, hparent, h⟩
  · exact ⟨fun _ _ => makesOnly_makeParent hparent, nofun⟩
  · have hmiddle : NoneMade fs middle := makesOnly_makeParent hparent
    have hstage := outcome_stage h
    exact ⟨fun e he => hmiddle.trans (hstage.1 e he), fun hok => .of_none hmiddle (hstage.2 hok)⟩

/-- So does an export. -/
theorem outcome_export {m : Model} {inputs : List (Tensor Float)}
    {result : Except ArtifactError Artifact}
    (h : (exportModel m inputs p).outcome fs = (result, fs')) :
    (∀ e, result = .error e → NoneMade fs fs') ∧ (∀ a, result = .ok a → OneMade p fs fs') := by
  rcases bind_cases h with ⟨e, hcapture, rfl⟩ | ⟨a, files, hcapture, h⟩
  · obtain ⟨-, rfl⟩ := lift_eq hcapture
    exact ⟨fun _ _ => .refl _ _, nofun⟩
  obtain ⟨-, rfl⟩ := lift_eq hcapture
  rcases bind_cases h with ⟨e, hwrite, rfl⟩ | ⟨_, written, hwrite, h⟩
  · exact ⟨fun _ _ => (outcome_write hwrite).1 e rfl, nofun⟩
  · obtain ⟨rfl, rfl⟩ := Prod.mk.inj h
    constructor
    · intro e he
      cases he
    · intro a' ha'
      exact (outcome_write hwrite).2 rfl

end Made

end Artifact

end TensorParity
