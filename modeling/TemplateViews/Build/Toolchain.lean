import TemplateViews.Files

/-! Toolchains. A compiler that is run may change files and ends with a status and
what it wrote to its error stream; what it makes of its arguments is its own affair. -/

namespace TemplateViews

/-- How a process ended: by itself with a code, or by a signal, which may have dumped its
memory. -/
inductive ExitStatus
  | code (n : Nat)
  | signal (number : Nat) (dumped : Bool)
  deriving DecidableEq, Repr

/-- The names of the signals from 1 on. -/
def signalNames : List String :=
  ["SIGHUP", "SIGINT", "SIGQUIT", "SIGILL", "SIGTRAP", "SIGABRT", "SIGBUS", "SIGFPE", "SIGKILL",
    "SIGUSR1", "SIGSEGV", "SIGUSR2", "SIGPIPE", "SIGALRM", "SIGTERM", "SIGSTKFLT", "SIGCHLD",
    "SIGCONT", "SIGSTOP", "SIGTSTP", "SIGTTIN", "SIGTTOU", "SIGURG", "SIGXCPU", "SIGXFSZ",
    "SIGVTALRM", "SIGPROF", "SIGWINCH", "SIGIO", "SIGPWR", "SIGSYS"]

def signalName? (number : Nat) : Option String :=
  if number = 0 then none else signalNames[number - 1]?

namespace ExitStatus

def killed : ExitStatus := .signal 9 false

def isSuccess (status : ExitStatus) : Bool := status == .code 0

def text : ExitStatus → String
  | code n => s!"exit status: {n}"
  | signal number dumped =>
    let name := (signalName? number).elim "" fun name => " (" ++ name ++ ")"
    let core := if dumped then " (core dumped)" else ""
    s!"signal: {number}" ++ name ++ core

example : killed.text = "signal: 9 (SIGKILL)" := by decide

end ExitStatus

structure Completion where
  status : ExitStatus
  stderr : List UInt8
  files : Files
  deriving DecidableEq, Repr

structure Toolchain where
  run : Path → List String → Files → Except SystemError Completion

structure Run where
  program : Path
  arguments : List String
  files : Files
  deriving DecidableEq, Repr

structure Host where
  files : Files
  runs : List Run := []
  deriving DecidableEq, Repr

def hasNul (text : String) : Bool := text.toList.contains '\x00'

/-- Starts a program; the system takes no text with a NUL. -/
def Toolchain.start (toolchain : Toolchain) (program : Path) (arguments : List String)
    (files : Files) : Except SystemError Completion :=
  if hasNul program.text || arguments.any hasNul then .error .nulInArgument
  else toolchain.run program arguments files

end TemplateViews
