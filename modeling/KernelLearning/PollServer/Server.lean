import KernelLearning.Bytes.Overlay

/-!
# The poll server

`do_poll` and `handle_connection`.  A step is one round of the loop of `do_poll`,
with what the kernel answers in it.  What the server prints is left out.
-/

namespace KernelLearning.PollServer

open Bytes

def MAXLINE : Nat := 1024
def OPEN_MAX : Nat := 1000

def POLLIN : UInt16 := 0x0001

/-- `struct pollfd`. -/
structure PollFd where
  fd : Int
  events : UInt16
  revents : UInt16

/-- The `POLLIN` bit of `revents`. -/
def PollFd.readable (entry : PollFd) : Bool := entry.revents &&& POLLIN ≠ 0

/-- The variables of `do_poll`, with the connections that were accepted and not closed, the read
calls of the last round by slot and descriptor, the bytes sent so far, each with the descriptor it
went to, and whether the process has not exited yet. -/
structure Server where
  clientfds : Nat → PollFd
  maxi : Nat
  clients : List Int
  reads : List (Nat × Int)
  sent : List (Int × UInt8)
  running : Bool

/-- `do_poll` before its loop.  What it does not set is found in the memory of the array. -/
def Server.init (listenfd : Int) (memory : Nat → PollFd) : Server where
  clientfds i :=
    if i = 0 then { memory i with fd := listenfd, events := POLLIN }
    else if i < OPEN_MAX then { memory i with fd := -1 }
    else memory i
  maxi := 0
  clients := []
  reads := []
  sent := []
  running := true

inductive ReadResult where
  | failed
  | got (bytes : List UInt8) (fits : bytes.length ≤ MAXLINE)

inductive Accepted where
  | connected (connfd : Int)
  | interrupted
  | failed

/-- What the kernel answers in one round: `poll` with the `revents` it writes, `none` if it failed;
`accept`; the `read` of each slot; and the bytes that a `write` with a count of more than the buffer
holds sends to the client of the slot. -/
structure Round where
  poll : Option (Nat → UInt16)
  accepted : Accepted
  reads : Nat → ReadResult
  overrun : Nat → Nat → List UInt8

/-- The return value of `read(fd, buf, MAXLINE)`, and the buffer after it. -/
def readInto (buf : List UInt8) : ReadResult → Int × List UInt8
  | .failed => (-1, buf)
  | .got bytes _ => (bytes.length, overlay buf 0 bytes)

/-- An `int` as a `size_t`. -/
def sizeT (n : Int) : Nat := (n % 0x10000000000000000).toNat

/-- What `write(fd, buf, count)` sends. -/
def writeFrom (buf : List UInt8) (count : Nat) (overrun : Nat → List UInt8) : List UInt8 :=
  if count ≤ buf.length then buf.take count else overrun count

namespace Server

def setSlot (server : Server) (i : Nat) (entry : PollFd) : Server :=
  { server with clientfds := fun j => if j = i then entry else server.clientfds j }

def exit (server : Server) : Server := { server with running := false }

/-! ## handle_connection -/

/-- `close(connfds[i].fd)`, and the slot is free. -/
def closeClient (server : Server) (i : Nat) : Server :=
  let entry := server.clientfds i
  { server with clients := server.clients.erase entry.fd }.setSlot i { entry with fd := -1 }

/-- One turn of the loop of `handle_connection`. -/
def handleTurn (round : Round) (state : Server × List UInt8) (i : Nat) : Server × List UInt8 :=
  let (server, buf) := state
  let entry := server.clientfds i
  if entry.fd < 0 then state
  else if entry.readable then
    let (n, buf) := readInto buf (round.reads i)
    let server := { server with reads := server.reads ++ [(i, entry.fd)] }
    if n = 0 then (server.closeClient i, buf)
    else
      let bytes := writeFrom buf (sizeT n) (round.overrun i)
      ({ server with sent := server.sent ++ bytes.map fun byte => (entry.fd, byte) }, buf)
  else state

def handleConnection (server : Server) (num : Nat) (round : Round) : Server :=
  ((List.range' 1 num).foldl (handleTurn round) (server, List.replicate MAXLINE 0)).1

/-! ## do_poll -/

/-- The indices of the entries that are given to `poll`. -/
def polledIndices (server : Server) : List Nat := List.range (server.maxi + 1)

/-- After `poll`, which writes the `revents` of these entries, 0 for a negative descriptor. -/
def polled (server : Server) (revents : Nat → UInt16) : Server :=
  { server with clientfds := fun i =>
      let entry := server.clientfds i
      if i ≤ server.maxi then { entry with revents := if entry.fd < 0 then 0 else revents i }
      else entry }

/-- The return value of that `poll`. -/
def nready (server : Server) : Int :=
  server.polledIndices.countP fun i => (server.clientfds i).revents ≠ 0

/-- The loop that looks for a free slot. -/
def freeSlot (server : Server) : Option Nat :=
  (List.range' 1 (OPEN_MAX - 1)).find? fun i => (server.clientfds i).fd < 0

def storeClient (server : Server) (i : Nat) (connfd : Int) : Server :=
  { server.setSlot i { server.clientfds i with fd := connfd, events := POLLIN } with
    maxi := if i > server.maxi then i else server.maxi }

/-- The kernel accepts a connection under a descriptor that is not in use. -/
def Accepts (server : Server) (listenfd connfd : Int) : Prop :=
  0 ≤ connfd ∧ connfd ≠ listenfd ∧ connfd ∉ server.clients

instance (server : Server) (listenfd connfd : Int) : Decidable (server.Accepts listenfd connfd) :=
  inferInstanceAs (Decidable (_ ∧ _ ∧ _))

/-- One round of the loop of `do_poll`; `none` if the process has exited, or the kernel does not
answer so. -/
def doPoll (listenfd : Int) (server : Server) (round : Round) : Option Server :=
  if server.running = false then none
  else
    let server := { server with reads := [] }
    match round.poll with
    | none => some server.exit  -- poll error:
    | some revents =>
      let server := server.polled revents
      let nready := server.nready
      if (server.clientfds 0).readable then
        match round.accepted with
        | .interrupted => some server
        | .failed => some server.exit  -- accept error:
        | .connected connfd =>
          if server.Accepts listenfd connfd then
            let server := { server with clients := connfd :: server.clients }
            match server.freeSlot with
            | none => some server.exit  -- too many clients.
            | some i =>
              let server := server.storeClient i connfd
              if nready - 1 ≤ 0 then some server
              else some (server.handleConnection server.maxi round)
          else none
      else some (server.handleConnection server.maxi round)

end Server

end KernelLearning.PollServer
