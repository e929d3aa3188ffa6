import Mathlib.Logic.Function.Basic
import KernelLearning.Interaction.Executions
import KernelLearning.Interaction.Pipes
import KernelLearning.CSemantics.Input

/-!
# Two messages over two pipes

`main` of the pipe example from the `fork` on: the child types a message and sends it to
the parent, which types one and sends it back.  Both processes begin with both ends of
both pipes open.  The lines come from the terminal, one for each `gets`.
-/

namespace KernelLearning.IpcFifo

open CSemantics Interaction

def BUFSIZE : Nat := 100

inductive Pipe where
  | fd1
  | fd2
  deriving DecidableEq

inductive Side where
  | reading
  | writing
  deriving DecidableEq

/-- Where the child is: before the named call. -/
inductive ChildPlace where
  | gets
  | closeFd1
  | closeFd2
  | write
  | read
  | print
  | exit
  | gone
  | killed
  deriving DecidableEq

inductive ParentPlace where
  | closeFd1
  | closeFd2
  | read
  | print
  | gets
  | write
  | waitpid
  | gone
  | killed
  deriving DecidableEq

/-- A process: its place, its `buf`, the ends it has open, and the messages it printed. -/
structure Process (Place : Type) where
  place : Place
  buf : List Byte
  fds : Pipe → Side → Bool
  printed : List (List Byte)

structure System where
  content : Pipe → List Byte
  stdin : List (List Byte)
  child : Process ChildPlace
  parent : Process ParentPlace
  overrun : Bool

/-- After `fork`. -/
def System.init (lines : List (List Byte)) : System where
  content := fun _ => []
  stdin := lines
  child := ⟨.gets, List.replicate BUFSIZE 0, fun _ _ => true, []⟩
  parent := ⟨.closeFd1, List.replicate BUFSIZE 0, fun _ _ => true, []⟩
  overrun := false

namespace Process

variable {Place : Type}

def goto (process : Process Place) (place : Place) : Process Place := { process with place := place }

def close (process : Process Place) (pipe : Pipe) (side : Side) : Process Place :=
  { process with fds := Function.update process.fds pipe (Function.update (process.fds pipe) side false) }

/-- The end of a process closes all its descriptors. -/
def closeAll (process : Process Place) : Process Place := { process with fds := fun _ _ => false }

/-- Bytes that were read go to the start of `buf`. -/
def fill (process : Process Place) (bytes : List Byte) : Process Place :=
  { process with buf := bytes ++ process.buf.drop bytes.length }

end Process

namespace System

/-- Somebody has the end open. -/
def isOpen (system : System) (pipe : Pipe) (side : Side) : Bool :=
  system.child.fds pipe side || system.parent.fds pipe side

def put (system : System) (pipe : Pipe) (content : List Byte) : System :=
  { system with content := Function.update system.content pipe content }

def overran (system : System) : System := { system with overrun := true }

end System

/-- The next call of the child; `none` if it waits or is gone. -/
def child (system : System) : Option System :=
  let process := system.child
  match process.place with
  | .gets =>
    match gets process.buf system.stdin with
    | none => some system.overran
    | some (buf, stdin) =>
      some { system with stdin := stdin, child := { process with place := .closeFd1, buf := buf } }
  | .closeFd1 => some { system with child := (process.close .fd1 .reading).goto .closeFd2 }
  | .closeFd2 => some { system with child := (process.close .fd2 .writing).goto .write }
  | .write =>
    match stringAt process.buf with
    | none => some system.overran
    | some text =>
      match pipeWrite (system.isOpen .fd1 .reading) text (system.content .fd1) with
      | none => some { system with child := process.closeAll.goto .killed }
      | some content => some { system.put .fd1 content with child := process.goto .read }
  | .read =>
    (pipeRead BUFSIZE (system.isOpen .fd2 .writing) (system.content .fd2)).map fun result =>
      { system.put .fd2 result.2 with child := (process.fill result.1).goto .print }
  | .print =>
    match stringAt process.buf with
    | none => some system.overran
    | some text => some { system with child := { process with place := .exit, printed := process.printed ++ [text] } }
  | .exit => some { system with child := process.closeAll.goto .gone }
  | .gone => none
  | .killed => none

def parent (system : System) : Option System :=
  let process := system.parent
  match process.place with
  | .closeFd1 => some { system with parent := (process.close .fd1 .writing).goto .closeFd2 }
  | .closeFd2 => some { system with parent := (process.close .fd2 .reading).goto .read }
  | .read =>
    (pipeRead BUFSIZE (system.isOpen .fd1 .writing) (system.content .fd1)).map fun result =>
      { system.put .fd1 result.2 with parent := (process.fill result.1).goto .print }
  | .print =>
    match stringAt process.buf with
    | none => some system.overran
    | some text => some { system with parent := { process with place := .gets, printed := process.printed ++ [text] } }
  | .gets =>
    match gets process.buf system.stdin with
    | none => some system.overran
    | some (buf, stdin) =>
      some { system with stdin := stdin, parent := { process with place := .write, buf := buf } }
  | .write =>
    match stringAt process.buf with
    | none => some system.overran
    | some text =>
      match pipeWrite (system.isOpen .fd2 .reading) text (system.content .fd2) with
      | none => some { system with parent := process.closeAll.goto .killed }
      | some content => some { system.put .fd2 content with parent := process.goto .waitpid }
  | .waitpid =>
    if system.child.place = .gone ∨ system.child.place = .killed then
      some { system with parent := process.closeAll.goto .gone }
    else none
  | .gone => none
  | .killed => none

inductive Event where
  | child
  | parent

def step (system : System) : Event → Option System
  | .child => if system.overrun then none else IpcFifo.child system
  | .parent => if system.overrun then none else IpcFifo.parent system

end KernelLearning.IpcFifo
