import TensorParity.Artifact.Capture
import TensorParity.Artifact.Text
import TensorParity.File.System

/-!
Artifacts in files. An artifact is written to a staging file next to its place and then moved there,
so the place never holds a part of it.
-/
namespace TensorParity

namespace Artifact

/-- The ending of artifact files. -/
def extension : String := "cpa"

/-- A refusal that names the path. -/
def refused (p : Path) (e : FileError) : ArtifactError := .file p.text e.message

/-- The name of the staging file for a file name. -/
def stagingName (process : Nat) (name : String) : String :=
  "." ++ name ++ "." ++ toString process ++ ".tmp"

/-- Moves the staging file to its place, or removes it. -/
def publish (staging p : Path) : FileAction ArtifactError Unit := do
  match (← get).rename staging p with
  | .ok fs => set fs
  | .error e => do
    FileAction.attempt (·.remove staging)
    throw (refused p e)

/-- Writes an artifact, with the directories above it that are missing. -/
def write (a : Artifact) (p : Path) : FileAction ArtifactError Unit := do
  if let some parent := p.namedParent? then
    FileAction.makeDirectories parent (refused parent)
  let some name := p.fileName?
    | throw (.file p.text "artifact path has no file name")
  let staging := p.sibling (stagingName (← get).process name)
  FileAction.change (·.write staging a.encode.toUTF8) (refused staging)
  publish staging p

/-- Reads an artifact. A file over the size limit is refused unread. -/
def load (fs : FileSystem) (p : Path) : Except ArtifactError Artifact := do
  let size ← (fs.size p).mapError (refused p)
  checkSize size
  let text ← (fs.readText p).mapError (refused p)
  decode text

/-- Captures a model and writes the artifact. -/
def exportModel (m : Model) (inputs : List (Tensor Float)) (p : Path) :
    FileAction ArtifactError Artifact := do
  let a ← capture m inputs
  a.write p
  return a

end Artifact

end TensorParity
