import KernelLearning.Bytes.Residue
import KernelLearning.Interaction.Executions

/-!
# The epoll server

`do_epoll`, `handle_events`, `handle_accept` and `do_read`.  A step is one turn of
the loop of `handle_events`, with what the kernel answers in it, or the `memset` of
`do_epoll` between two batches.
-/

namespace KernelLearning.EpollServer

open Bytes

def MAXSIZE : Nat := 1024

/-- The descriptors that epoll watches, the buffer of `do_epoll`, and what was written to each
descriptor. -/
structure Server where
  interest : List Int
  buf : List UInt8
  written : List (Int × List UInt8)

def Server.init (listenfd : Int) : Server where
  interest := [listenfd]
  buf := List.replicate MAXSIZE 0
  written := []

/-- An event that `epoll_wait` reports, with what the calls return that it leads to: `accept` a
descriptor and `read` some bytes, none at the end of the stream; both `none` for -1.  `client` is
the connection behind the descriptor; the server does not know it, and a later connection can have
the same descriptor. -/
structure Event where
  fd : Int
  epollin : Bool
  client : Nat
  accepted : Option Int
  bytes : Option (List UInt8)

namespace Server

def addEvent (server : Server) (fd : Int) : Server :=
  { server with interest := List.insert fd server.interest }

def deleteEvent (server : Server) (fd : Int) : Server :=
  { server with interest := server.interest.filter (· ≠ fd) }

/-- `none` is `exit(1)`. -/
def handleAccept (server : Server) (accepted : Option Int) : Option Server :=
  match accepted with
  | none => none
  | some clifd => some (server.addEvent clifd)

/-- A buffer without a zero byte is read as a string up to its end. -/
def doRead (server : Server) (fd : Int) (bytes : Option (List UInt8)) : Server :=
  match bytes with
  | none => server.deleteEvent fd
  | some [] => server.deleteEvent fd  -- client close...
  | some bytes =>
    let buf := overlay server.buf 0 (bytes.take MAXSIZE)
    { server with buf := buf, written := server.written ++ [(fd, text 0 buf)] }

/-- One turn of the loop of `handle_events`. -/
def handleEvent (listenfd : Int) (server : Server) (event : Event) : Option Server :=
  if event.fd = listenfd ∧ event.epollin = true then server.handleAccept event.accepted
  else if event.epollin = true then some (server.doRead event.fd event.bytes)
  else some server

end Server

/-- A turn of `handle_events`, or the end of a batch. -/
inductive Step where
  | event (event : Event)
  | batchDone

/-- `none` if the process has exited, or the kernel does not report that event. -/
def step (listenfd : Int) (server : Server) : Step → Option Server
  | .event event => if event.fd ∈ server.interest then server.handleEvent listenfd event else none
  | .batchDone => some { server with buf := clearText 0 server.buf }

end KernelLearning.EpollServer
