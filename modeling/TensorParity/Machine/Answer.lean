import TensorParity.Machine.State

/-!
How a machine answers the requests of its processes.
-/
namespace TensorParity.Machine

/-- What becomes of a request. -/
inductive Reply (α : Type) where
  | done (value : α) (m : State) (t : Task)
  /-- There is no answer yet. -/
  | later
  /-- The process ends instead. -/
  | killed (signal : Nat)

namespace State

/-- The device that a path names. -/
def device? (path : String) : Option Channel :=
  match path with
  | "/dev/null" => some .null
  | "/dev/zero" => some .zeros
  | "/dev/full" => some .full
  | _ => none

/-- The descriptor that a path names. -/
def descriptorOf? (path : String) : Option Nat :=
  match path with
  | "/dev/stdin" => some 0
  | "/dev/stdout" => some 1
  | "/dev/stderr" => some 2
  | path =>
    if path.startsWith "/dev/fd/" then (path.drop 8).toString.toNat?
    else if path.startsWith "/proc/self/fd/" then (path.drop 14).toString.toNat?
    else none

/-- A new description of a channel. -/
def opened (channel : Channel) (access : Access) : Description :=
  { channel
    readable := access = .read || access = .update
    writable := access ≠ .read
    appending := access = .append }

/-- Opens a file at a location, or makes it. -/
def openAt (m : State) (access : Access) (location : Location) (slash : Bool) :
    Except FileError (Channel × State) :=
  match m.files.find? location with
  | some .directory =>
    if access = .read then .ok (.directory location, m)
    else if access = .create then .error .exists
    else .error .isDirectory
  | some (.file _) =>
    if slash then .error .notDirectory
    else
      match access with
      | .create => .error .exists
      | .write => .ok (.file location, m.setContent (.file location) .empty)
      | _ => .ok (.file location, m)
  | none =>
    if access = .read then .error .notFound
    else if slash then .error .isDirectory
    else .ok (.file location, m.setContent (.file location) .empty)

/-- Opens what a path names. -/
def openPath (m : State) (t : Task) (path : Path) (access : Access) :
    Except FileError (Description × State) := do
  if let some channel := device? path.text then
    return (opened channel access, m)
  if let some n := descriptorOf? path.text then
    match m.description? t n with
    | none => throw .notFound
    | some (_, d) =>
      match d.channel with
      | .file location =>
        let (channel, m) ← m.openAt access location false
        return (opened channel access, m)
      | channel => return (opened channel access, m)
  match ← (m.filesOf t).resolve path with
  | .reached location =>
    let (channel, m) ← m.openAt access location false
    return (opened channel access, m)
  | .named location slash =>
    let (channel, m) ← m.openAt access location slash
    return (opened channel access, m)

/-- The bytes up to and with the first that is `last`. -/
def upTo (last : Option UInt8) (bytes : ByteArray) : ByteArray :=
  match last with
  | none => bytes
  | some b =>
    match bytes.toList.findIdx? (· = b) with
    | some i => bytes.extract 0 (i + 1)
    | none => bytes

/-- How many bytes are looked at in one piece for the end of a line. -/
def lineWindow : Nat := 512

def read (m : State) (t : Task) (descriptor count : Nat) (last : Option UInt8) :
    Reply (Except FileError ByteArray) :=
  match m.description? t descriptor with
  | none => .done (.error .badDescriptor) m t
  | some (n, d) =>
    let count := if last.isSome then min count lineWindow else count
    if !d.readable then .done (.error .badDescriptor) m t
    else
      match d.channel with
      | .pipe index =>
        let p := m.pipes[index]?.getD {}
        if 0 < p.available then
          let taken := upTo last (p.take count).1
          .done (.ok taken)
            { m with pipes := m.pipes.modify index fun p => (p.take taken.size).2 } t
        else if m.holds t fun d => d.writable && d.channel = .pipe index then .later
        else .done (.ok .empty) m t
      | .null => .done (.ok .empty) m t
      | .zeros => .done (.ok ⟨Array.replicate count 0⟩) m t
      | .full => .done (.ok ⟨Array.replicate count 0⟩) m t
      | .directory _ => .done (.error .isDirectory) m t
      | .outlet _ => .done (.error .badDescriptor) m t
      | channel =>
        let taken := upTo last ((m.contentOf channel).extract d.offset (d.offset + count))
        .done (.ok taken) (m.setOffset n (d.offset + taken.size)) t

/-- A content with bytes put over it from an offset on. -/
def overwrite (content : ByteArray) (offset : Nat) (bytes : ByteArray) : ByteArray :=
  let gap : ByteArray := ⟨Array.replicate (offset - content.size) 0⟩
  content.extract 0 offset ++ gap ++ bytes
    ++ content.extract (offset + bytes.size) content.size

def write (m : State) (t : Task) (descriptor : Nat) (bytes : ByteArray) :
    Reply (Except FileError Unit) :=
  match m.description? t descriptor with
  | none => .done (.error .badDescriptor) m t
  | some (n, d) =>
    if !d.writable then .done (.error .badDescriptor) m t
    else
      match d.channel with
      | .pipe index =>
        if !m.holds t fun d => d.readable && d.channel = .pipe index then
          if t.reaction pipeSignal = .usual then .killed pipeSignal
          else .done (.error .brokenPipe) m (t.deliver pipeSignal)
        else if Pipe.capacity ≤ (m.pipes[index]?.getD {}).available then .later
        else .done (.ok ()) { m with pipes := m.pipes.modify index (·.put bytes) } t
      | .outlet index => .done (.ok ()) { m with outlets := m.outlets.modify index (·.put bytes) } t
      | .null => .done (.ok ()) m t
      | .zeros => .done (.ok ()) m t
      | .full => .done (.error .noSpace) m t
      | .directory _ => .done (.error .badDescriptor) m t
      | channel =>
        let content := m.contentOf channel
        let offset := if d.appending then content.size else d.offset
        let content :=
          if offset = content.size then content ++ bytes else overwrite content offset bytes
        .done (.ok ()) ((m.setContent channel content).setOffset n (offset + bytes.size)) t

/-- Makes bytes unread that came from a file. What came from elsewhere is gone. -/
def giveBack (m : State) (t : Task) (descriptor count : Nat) : State :=
  match m.description? t descriptor with
  | some (n, { channel := .file _, offset, .. }) => m.setOffset n (offset - count)
  | some (n, { channel := .nameless _, offset, .. }) => m.setOffset n (offset - count)
  | _ => m

/-- A signal for one process. -/
def kill (m : State) (t : Task) (target signal : Nat) : Reply Bool :=
  if target = t.number then
    let after := t.deliver signal
    match after.exit with
    | some (.signal signal) => .killed signal
    | _ => .done true m after
  else if m.others.any fun u => u.number = target then
    let others := m.others.map fun u =>
      if u.number = target then
        let after := u.deliver signal
        { after with time := max after.time (if after.exit.isSome then t.time else 0) }
      else u
    .done true { m with others } t
  else .done false m t

/-- Children that have ended are told of in the order in which they ended. -/
def await (m : State) (t : Task) (block : Bool) : Reply Awaited :=
  let children := m.others.filter (·.parent = t.number)
  let ended := children.filter (·.exit.isSome)
  let first := ended.foldl (fun (best : Option Task) u =>
    match best with
    | some b => if u.time < b.time then some u else best
    | none => some u) none
  match first with
  | some u =>
    .done (.ended u.number (u.exit.getD (.status 0)))
      { m with others := m.others.filter (·.number ≠ u.number) }
      { t with time := max t.time u.time }
  | none =>
    if children.isEmpty then .done .nobody m t
    else if !block then .done .nothing m t
    else if !t.noted.isEmpty then .done .interrupted m t
    else .later

/-- How long another program takes to begin. -/
def startMicros : Nat := 400

/-- Answers a request. -/
def answer (m : State) (t : Task) : (r : Request) → Reply r.Answer
  | .pause micros => .done () m { t with time := t.time + micros }
  | .identify => .done (t.number, t.parent) m t
  | .await block => m.await t block
  | .kill target signal => m.kill t target signal
  | .react signal reaction => .done (t.reaction signal) m (t.setReaction signal reaction)
  | .noted => .done t.noted m { t with noted := [] }
  | .openFile path access =>
    match m.openPath t path access with
    | .error e => .done (.error e) m t
    | .ok (d, m) =>
      let (n, m, t) := m.install t d
      .done (.ok n) m t
  | .makePipe =>
    let channel : Channel := .pipe m.pipes.size
    let m := { m with pipes := m.pipes.push {} }
    let (reading, m, t) := m.install t (opened channel .read)
    let (writing, m, t) := m.install t (opened channel .append)
    .done (reading, writing) m t
  | .close n => .done (t.slot? n).isSome m (t.close n)
  | .duplicate source target =>
    match t.slot? source with
    | none => .done false m t
    | some s => .done true m (t.put { descriptor := target, description := s.description })
  | .keep source least =>
    match t.slot? source with
    | none => .done none m t
    | some s =>
      let n := t.free least
      .done (some n) m (t.put { descriptor := n, description := s.description, kept := true })
  | .read n count last => m.read t n count last
  | .write n bytes => m.write t n bytes
  | .giveBack n count => .done () (m.giveBack t n count) t
  | .inspect n => .done ((m.description? t n).map (·.2.channel)) m t
  | .files => .done (m.filesOf t) m t
  | .change f =>
    let files := f (m.filesOf t)
    .done () (m.update files) { t with directory := files.current }
  | .become =>
    .done () m
      { t with
        slots := t.slots.filter (!·.kept)
        reactions := t.reactions.filter (·.2 = .ignore)
        noted := []
        time := t.time + startMicros }

end State

end TensorParity.Machine
