import TensorParity.Machine.Answer

/-!
Runs processes beside each other until the first of them has ended and nothing is left that could
still be read from it. A machine may be given a limit of time, after which its first process is
killed; fuel bounds the number of requests.
-/
namespace TensorParity.Machine

/-- What became of a stretch of one process. -/
inductive Stretch where
  /-- It came to something that others may have waited for. -/
  | met
  | waits
  | ended

/-- How long a process takes to start a child, and the child to begin. -/
def forkMicros : Nat := 60

def childMicros : Nat := 150

/-- Whether an answer to the request may let others go on. -/
def isMeeting : Request → Bool
  | .close _ => true
  | .duplicate _ _ => true
  | .kill _ _ => true
  | .await _ => true
  | .write _ _ => true
  | .read _ _ _ => true
  | .become => true
  | _ => false

/-- Runs one process until it meets others or its clock passes the horizon. -/
def stretch (horizon : Nat) : (fuel : Nat) → State → Task → Stretch × Nat × State × Task
  | 0, m, t => (.met, 0, m, t)
  | fuel + 1, m, t =>
    match t.program with
    | .exit status => (.ended, fuel, m, t.finish (.status (status % 256)))
    | .die signal =>
      let after := t.deliver signal
      (.ended, fuel, m, if after.exit.isSome then after else t.finish (.signal signal))
    | .fork child next =>
      let n := m.next
      let c : Task :=
        { t with
          number := n, parent := t.number, program := child
          time := t.time + childMicros, noted := [] }
      (.met, fuel, { m with next := n + 1, others := m.others ++ [c] },
        { t with program := next n, time := t.time + forkMicros })
    | .ask request next =>
      match m.answer t request with
      | .later => (.waits, fuel, m, { t with waiting := true })
      | .killed signal => (.ended, fuel, m, t.finish (.signal signal))
      | .done value m t =>
        let t := { t with program := next value }
        if isMeeting request ∨ horizon < t.time ∨ t.stopped ∨ t.exit.isSome then
          (.met, fuel, m, t)
        else stretch horizon fuel m t

/-- Whether a request has an answer now. -/
def State.canAnswer (m : State) (t : Task) : Request → Bool
  | .read n _ _ =>
    match m.description? t n with
    | some (_, { channel := .pipe index, .. }) =>
      0 < (m.pipes[index]?.getD {}).available
        || !m.holds t fun d => d.writable && d.channel = .pipe index
    | _ => true
  | .write n _ =>
    match m.description? t n with
    | some (_, { channel := .pipe index, .. }) =>
      (m.pipes[index]?.getD {}).available < Pipe.capacity
        || !m.holds t fun d => d.readable && d.channel = .pipe index
    | _ => true
  | .await block =>
    match m.await t block with
    | .later => false
    | _ => true
  | _ => true

/-- Whether a process could go on now. -/
def State.isReady (m : State) (t : Task) : Bool :=
  if t.exit.isSome || t.stopped then false
  else if !t.waiting then true
  else
    match t.program with
    | .ask request _ => m.canAnswer t request
    | _ => true

/-- When a process that is ready goes on. -/
def State.turn (m : State) (t : Task) : Nat := if t.waiting then max t.time m.time else t.time

/-- The process whose turn is first. -/
def State.first? (m : State) : Option Task :=
  (m.others.filter m.isReady).foldl (fun (best : Option Task) t =>
    match best with
    | some b => if m.turn t < m.turn b then some t else best
    | none => some t) none

/-- Puts a process back. One that ended and whose parent is gone leaves nothing. -/
def State.putBack (m : State) (first : Nat) (t : Task) : State :=
  let orphaned := t.number ≠ first && !m.others.any fun u =>
    u.number = t.parent && u.exit.isNone
  if t.exit.isSome && orphaned then m
  else { m with others := m.others ++ [t] }

/-- How a run ends: how its first process ended, or that it ran out of time. -/
structure Result where
  exit : Option Exit
  outlets : Array Outlet
  files : FileSystem

/-- How long the end of the first process goes unnoticed, in microseconds. -/
def noticeMicros : Nat := 1000

/-- How long a process may go on when too much left the machine, in microseconds. -/
def floodMicros : Nat := 2000

/-- Whether anything can still be read from the machine. -/
def State.isHeard (m : State) : Bool :=
  m.others.any fun t => t.slots.any fun s =>
    match m.descriptions[s.description]? with
    | some { channel := .outlet _, .. } => true
    | _ => false

/-- How a run stands. -/
structure Progress where
  /-- How many more requests are answered. -/
  left : Nat
  /-- Whether the limit of time has passed. -/
  late : Bool := false
  /-- When it was first seen that too much left the machine. -/
  flood : Option Nat := none
  /-- When and how the first process ended. -/
  ended : Option (Nat × Exit) := none

def Progress.result (p : Progress) (m : State) : Result :=
  ⟨if p.late then none else p.ended.map (·.2), m.outlets, m.files⟩

/-- The first process is killed from outside. -/
def State.quit (m : State) (first : Nat) : State :=
  { m with
    others := m.others.map fun t =>
      if t.number = first then { t.deliver killSignal with time := max t.time m.time } else t }

/-- Until when a process may go on by itself while others are ready. -/
def State.horizon (m : State) (t : Task) : Nat :=
  m.others.foldl (fun h u => if u.waiting || u.stopped || u.exit.isSome then h else min h u.time)
    (t.time + 1000000)

/-- Runs the machine from the process that is first on. -/
def run (first : Nat) (limit : Option Nat) : (fuel : Nat) → Progress → State → Result
  | 0, p, m => { p with late := true }.result m
  | fuel + 1, p, m =>
    match m.first? with
    | none => { p with late := p.late || p.ended.isNone }.result m
    | some t =>
      let turn := m.turn t
      let overdue := p.ended.isNone && (p.left = 0 || limit.any (· < turn))
      let p := if p.flood.isNone && m.outlets.any (·.isOver) then { p with flood := m.time } else p
      let flooded := p.ended.isNone && p.flood.any (· + floodMicros < turn)
      let finished :=
        match p.ended with
        | some (moment, _) => p.left = 0 || !m.isHeard && moment + noticeMicros < turn
        | none => false
      if finished then p.result m
      else if overdue || flooded then
        run first limit fuel
          { p with
            late := p.late || overdue, ended := some (m.time, .signal killSignal)
            left := p.left + afterwards }
          (m.quit first)
      else
        let others := m.others.filter (·.number ≠ t.number)
        let m := { m with others, time := max m.time turn }
        let t := { t with waiting := false, time := turn }
        let share := min maxStretch p.left
        let (_, left, m, t) := stretch (m.horizon t) share m t
        let ended :=
          if t.number = first then p.ended.or (t.exit.map (t.time, ·)) else p.ended
        run first limit fuel { p with left := p.left - (share - left), ended }
          (m.putBack first t)
where
  /-- The most requests in one stretch. -/
  maxStretch : Nat := 2000
  /-- How many requests may follow when the first process was killed. -/
  afterwards : Nat := 100000

end TensorParity.Machine
