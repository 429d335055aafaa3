/-!
The names of signals, and what is said of a process that one of them ended.
-/
namespace TensorParity.Machine.Signal

/-- The names and descriptions of the signals from 1 on. -/
def table : List (String × String) :=
  [("HUP", "Hangup"), ("INT", "Interrupt"), ("QUIT", "Quit"), ("ILL", "Illegal instruction"),
    ("TRAP", "Trace/breakpoint trap"), ("ABRT", "Aborted"), ("BUS", "Bus error"),
    ("FPE", "Floating point exception"), ("KILL", "Killed"), ("USR1", "User defined signal 1"),
    ("SEGV", "Segmentation fault"), ("USR2", "User defined signal 2"), ("PIPE", "Broken pipe"),
    ("ALRM", "Alarm clock"), ("TERM", "Terminated"), ("16", "Stack fault"),
    ("CHLD", "Child exited"), ("CONT", "Continued"), ("STOP", "Stopped (signal)"),
    ("TSTP", "Stopped"), ("TTIN", "Stopped (tty input)"), ("TTOU", "Stopped (tty output)"),
    ("URG", "Urgent I/O condition"), ("XCPU", "CPU time limit exceeded"),
    ("XFSZ", "File size limit exceeded"), ("VTALRM", "Virtual timer expired"),
    ("PROF", "Profiling timer expired"), ("WINCH", "Window changed"), ("IO", "I/O possible"),
    ("PWR", "Power failure"), ("SYS", "Bad system call")]

/-- One more than the greatest number of a signal. -/
def count : Nat := 65

/-- The first of the signals that have numbers instead of names, and the last. -/
def firstRealTime : Nat := 34

def lastRealTime : Nat := 64

def name (signal : Nat) : String :=
  if signal = 0 then "EXIT"
  else
    match table[signal - 1]? with
    | some (name, _) => name
    | none =>
      if signal < firstRealTime then toString signal
      else if signal = firstRealTime then "RTMIN"
      else if signal < 50 then s!"RTMIN+{signal - firstRealTime}"
      else if signal < lastRealTime then s!"RTMAX-{lastRealTime - signal}"
      else "RTMAX"

def description (signal : Nat) : String :=
  match table[signal - 1]? with
  | some (_, text) => text
  | none =>
    if signal < firstRealTime then s!"Unknown signal {signal}"
    else s!"Real-time signal {signal - firstRealTime}"

/-- The signal that a text names by its number or its name, in whatever case. -/
def ofText? (least : Nat) (text : String) : Option Nat :=
  if text ≠ "" && text.toList.all Char.isDigit then
    let n := text.toList.foldl (fun n c => 10 * n + (c.toNat - 48)) 0
    if n < count then some n else none
  else
    (List.range count).find? fun n => least ≤ n && name n = text.map Char.toUpper

end TensorParity.Machine.Signal
