import TensorParity.Machine.Signal
import TensorParity.Shell.Builtin.Options

/-!
Waiting for processes, and the built-in commands for jobs and signals.
-/
namespace TensorParity.Shell

open Machine
open Machine.Routine (ask)

/-- The status that tells of how a process ended. -/
def statusOf : Exit → Nat
  | .status n => n
  | .signal n => 128 + n

/-- What is said of a process that the shell waits for, if a signal ended it. -/
def farewell : Exit → String
  | .status _ => ""
  | .signal n => if n = 2 ∨ n = 13 then "" else Signal.description n ++ "\n"

namespace Job

/-- The status of a job whose processes have all ended. -/
def status? (j : Job) : Option Nat :=
  if j.processes.all (·.2.isSome) then
    some (((j.processes.getLast?.bind (·.2)).map statusOf).getD 0)
  else none

/-- The process that a job is known by. -/
def leader? (j : Job) : Option Nat := j.processes.getLast?.map (·.1)

/-- Notes how a process ended. -/
def note (process : Nat) (exit : Exit) (j : Job) : Job :=
  { j with processes := j.processes.map fun (p, e) => (p, if p = process then some exit else e) }

/-- How a job stands, as a line. -/
def line (mark : String) (j : Job) : String :=
  let text :=
    match j.status?, j.processes.getLast?.bind (·.2) with
    | some _, some (.signal n) => Signal.description n
    | some 0, _ => "Done"
    | some n, _ => s!"Done({n})"
    | none, _ => "Running"
  let padded := text ++ String.ofList (List.replicate (27 - text.length) ' ')
  s!"[{j.number}] {mark} {padded}\n"

end Job

namespace State

/-- Notes how a process ended, in the job that it belongs to. -/
def noteExit (s : State) (process : Nat) (exit : Exit) : State :=
  { s with jobs := s.jobs.map (Job.note process exit) }

/-- A new job of processes that were just started. -/
def addJob (s : State) (processes : List Nat) : State :=
  let taken := s.jobs.map (·.number)
  let number := ((List.range (taken.length + 1)).find? fun n => n + 1 ∉ taken).getD 0 + 1
  { s with
    jobs := s.jobs ++ [{ number, processes := processes.map (·, none) }]
    last := processes.getLast? }

end State

/-- Looks for signals that came. -/
def lookForSignals : Act Unit := do
  let found ← ask .noted
  modify fun s => { s with arrived := s.arrived ++ found.filter (· ∉ s.arrived) }

/-- What a step of waiting for processes comes to. -/
inductive Waiting where
  | over
  | again
  | interrupted
  deriving DecidableEq

/-- Waits for the next child that ends. `told` says of which processes to say that a signal ended
them. -/
def awaitChild (told : List Nat) (stops : Bool) : Act Waiting := do
  match ← ask (.await true) with
  | .ended process exit => do
    if process ∈ told then
      let _ ← Act.write 2 (farewell exit)
    modify fun s => s.noteExit process exit
    return .again
  | .interrupted => do
    lookForSignals
    return if stops then .interrupted else .again
  | _ => return .over

/-- Waits until a job is done. Yields its status; none if a signal came first. -/
def awaitJob (number : Nat) (stops : Bool) : (fuel : Nat) → Act (Option Nat)
  | 0 => return some 0
  | fuel + 1 => do
    let s ← get
    match s.jobs.find? (·.number = number) with
    | none => return some 127
    | some j =>
      match j.status? with
      | some status => return some status
      | none =>
        if stops ∧ !s.arrived.isEmpty then return none
        match ← awaitChild (j.processes.map (·.1)) stops with
        | .over => return some 0
        | .again => awaitJob number stops fuel
        | .interrupted => return none

/-- Waits until all jobs are done; yields whether no signal came first. -/
def awaitAll : (fuel : Nat) → Act Bool
  | 0 => return true
  | fuel + 1 => do
    let s ← get
    if s.jobs.all (·.status?.isSome) then return true
    else if !s.arrived.isEmpty then return false
    else
      match ← awaitChild [] true with
      | .over => return true
      | .again => awaitAll fuel
      | .interrupted => return false

/-- Waits for processes that the shell started and cannot go on without. -/
def awaitProcesses (processes : List Nat) : Act Nat := do
  modify fun s => { s with jobs := s.jobs ++ [{ number := 0, processes := processes.map (·, none) }] }
  let status ← awaitJob 0 false Routine.endless
  modify fun s => { s with jobs := s.jobs.filter (·.number ≠ 0) }
  return status.getD 0

namespace Builtin

/-- The job that a word names. -/
def jobOf (word : String) : Act Job := do
  let s ← get
  let text := (word.drop 1).toString
  let missing : Act Job := Act.fail s!"No such job: {word}"
  let current : Act Job :=
    match s.jobs.getLast? with
    | some j => pure j
    | none => if word = "" then Act.fail "No current job" else missing
  if text = "" ∨ text = "%" ∨ text = "+" then current
  else if text = "-" then
    match s.jobs.reverse.drop 1 with
    | j :: _ => pure j
    | [] => missing
  else if text.toList.all Char.isDigit then
    match s.jobs.find? (·.number = Text.natOf 10 text.toList) with
    | some j => pure j
    | none => missing
  else missing

/-- The status of a wait that a signal ended. -/
def interruptedStatus : Act Nat := do return 128 + ((← get).arrived.head?.getD 0)

def waitFor (status : Nat) : List String → Act Nat
  | [] => return status
  | word :: rest => do
    let job? ←
      if word.startsWith "%" then pure (some (← jobOf word))
      else do
        let n ← Act.number word
        pure ((← get).jobs.find? fun j => j.leader? = some n)
    match job? with
    | none => waitFor 127 rest
    | some j =>
      match ← awaitJob j.number true Routine.endless with
      | some status => waitFor status rest
      | none => interruptedStatus

def runWait (words : List String) : Act Nat := do
  let words ← noOptions words
  if words.isEmpty then
    if ← awaitAll Routine.endless then return 0 else interruptedStatus
  else waitFor 127 words

def killUsage : String :=
  "Usage: kill [-s sigspec | -signum | -sigspec] [pid | job]... or\nkill -l [exitstatus]"

def signalNames : String :=
  "0\n" ++ String.join ((List.range (Signal.count - 1)).map fun n => Signal.name (n + 1) ++ "\n")

/-- Sends a signal to the processes that words name. -/
def killEach (signal : Nat) (status : Nat) : List String → Act Nat
  | [] => return status
  | word :: rest => do
    let target ←
      if word.startsWith "%" then do
        let _ ← jobOf word
        pure none
      else if word.startsWith "-" then do
        let _ ← Act.number (word.drop 1).toString
        pure none
      else some <$> Act.number word
    let sent : Bool ← match target with
      | some n => ask (.kill n signal)
      | none => pure false
    if sent then killEach signal status rest
    else
      Act.warn "No such process\n"
      killEach signal 1 rest

def runKill (words : List String) : Act Nat := do
  let usage : Act Nat := Act.fail killUsage
  let first := words.headD ""
  let (signal, lists, rest) ←
    if !first.startsWith "-" then pure (none, false, words)
    else
      match Signal.ofText? 1 (first.drop 1).toString with
      | some n => pure (some n, false, words.drop 1)
      | none => do
        let (found, rest) ← options "ls:" words
        let signal ←
          match found.reverse.lookup 's' with
          | none => pure none
          | some name =>
            match Signal.ofText? 1 name with
            | some n => pure (some n)
            | none => Act.fail s!"invalid signal number or name: {name}"
        pure (signal, found.any (·.1 = 'l'), rest)
  if words.isEmpty then usage
  else if lists then
    match rest with
    | [] => if signal.isSome then usage else Act.print signalNames
    | word :: _ => do
      let n ← Act.number word
      let n := if 128 < n then n - 128 else n
      if 0 < n ∧ n < Signal.count then Act.print (Signal.name n ++ "\n")
      else Act.fail s!"invalid signal number or exit status: {word}"
  else if rest.isEmpty then usage
  else killEach (signal.getD 15) 0 rest

def runJobs (words : List String) : Act Nat := do
  let (found, _) ← options "lp" words
  let s ← get
  let count := s.jobs.length
  let marked := s.jobs.zipIdx.map fun (j, i) =>
    (j, if i + 1 = count then "+" else if i + 2 = count then "-" else " ")
  if found.any (·.1 = 'p') then
    Act.print (String.join (s.jobs.filterMap fun j => j.leader?.map fun n => s!"{n}\n"))
  else
    let status ← Act.print (String.join (marked.reverse.map fun (j, mark) => j.line mark))
    modify fun s => { s with jobs := s.jobs.filter (·.status?.isNone) }
    return status

/-- Jobs cannot be moved, because the shell does not control a terminal. -/
def runMove (words : List String) : Act Nat := do
  let words ← noOptions words
  let _ ← jobOf (words.headD "")
  let job := words.headD ""
  Act.fail s!"job {job} not created under job control"

end Builtin

end TensorParity.Shell
