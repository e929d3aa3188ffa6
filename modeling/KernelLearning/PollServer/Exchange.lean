import Mathlib.Logic.Function.Basic
import KernelLearning.Interaction.Tagged
import KernelLearning.PollServer.Pass
import KernelLearning.PollServer.Table

/-!
# The poll server and its clients

`handle_connection` of the client, and the server in one system with any number of these.  A
connection is two streams of bytes.  Standard input comes to its end once, and is never read
with an error; `connect` succeeds.
-/

namespace KernelLearning.PollServer

open Bytes Interaction

/-- A connection: from `connect` it waits for `accept`, which gives it a descriptor of the server. -/
inductive Link where
  | apart
  | waiting
  | accepted (fd : Int)
  | closed
  deriving DecidableEq

/-- A client: the input that it has not read, its `sendline`, whether it has called `shutdown` and
`close`; the connection with the bytes that are on their way; and the bytes that it has read from
the server. -/
structure Peer where
  stdin : List UInt8
  sendline : List UInt8
  shutdown : Bool
  closed : Bool
  link : Link
  toServer : List UInt8
  toClient : List UInt8
  received : List UInt8

def Peer.init (input : List UInt8) : Peer where
  stdin := input
  sendline := List.replicate MAXLINE 0
  shutdown := false
  closed := false
  link := .apart
  toServer := []
  toClient := []
  received := []

/-- What a `read` can return for a stream: a part of it, or nothing at its end. -/
def ReadResult.possible (stream : List UInt8) (ended : Bool) : ReadResult → Bool
  | .failed => false
  | .got bytes _ => if bytes.isEmpty then stream.isEmpty && ended else bytes.isPrefixOf stream

namespace Peer

/-- The branch for the socket, if its `POLLIN` is set. -/
def readSocket (peer : Peer) : Option ReadResult → Option Peer
  | none => some peer
  | some result =>
    if peer.closed = false ∧ result.possible peer.toClient (peer.link = .closed) then
      let bytes := result.answer []
      let peer := { peer with toClient := peer.toClient.drop bytes.length, received := peer.received ++ bytes }
      some { peer with closed := bytes.isEmpty }  -- client: server is closed.
    else none

/-- The branch for the standard input, likewise. -/
def readStdin (peer : Peer) : Option ReadResult → Option Peer
  | none => some peer
  | some result =>
    if result.possible peer.stdin true then
      let (n, sendline) := readInto peer.sendline result
      if n = 0 then some { peer with sendline := sendline, shutdown := true }
      else
        some { peer with
          stdin := peer.stdin.drop n.toNat
          sendline := sendline
          toServer := peer.toServer ++ writeFrom sendline (sizeT n) fun _ => [] }
    else none

/-- One turn of the loop of the client, with the results of the reads that it makes. -/
def handleConnection (peer : Peer) (socket stdin : Option ReadResult) : Option Peer :=
  (peer.readSocket socket).bind fun peer => peer.readStdin stdin

/-- The reads of the server from this connection return what was sent to it. -/
def consistent (peer : Peer) (reads : List (Nat × Int)) (round : Round) : Bool :=
  match peer.link with
  | .accepted fd =>
    reads.all fun (i, other) => decide (other ≠ fd) || (round.reads i).possible peer.toServer peer.shutdown
  | _ => true

/-- The bytes that the server reads from a descriptor in a round. -/
def taken (reads : List (Nat × Int)) (round : Round) (fd : Int) : List UInt8 :=
  ((reads.find? fun read => read.2 = fd).map fun read => (round.reads read.1).answer []).getD []

/-- The connection after a round of the server. -/
def served (peer : Peer) (server : Server) (sent : List (Int × UInt8)) (round : Round) : Peer :=
  match peer.link with
  | .accepted fd =>
    { peer with
      toServer := peer.toServer.drop (taken server.reads round fd).length
      toClient := peer.toClient ++ addressedTo fd sent
      link := if fd ∈ server.clients then .accepted fd else .closed }
  | _ => peer

end Peer

/-- The descriptor that `accept` returns in a round, where it is called. -/
def Server.joined (server : Server) (round : Round) : Option Int :=
  match round.poll, round.accepted with
  | some revents, .connected connfd => if ((server.polled revents).clientfds 0).readable then some connfd else none
  | _, _ => none

structure System (clients : Nat) where
  server : Server
  peer : Fin clients → Peer

def System.init {clients : Nat} (listenfd : Int) (memory : Nat → PollFd) (input : Fin clients → List UInt8) :
    System clients :=
  ⟨.init listenfd memory, fun id => .init (input id)⟩

/-- A client connects, or makes one turn; the server makes one round, in which it may accept the
connection of a client. -/
inductive Event (clients : Nat) where
  | connect (id : Fin clients)
  | client (id : Fin clients) (socket stdin : Option ReadResult)
  | round (round : Round) (joins : Option (Fin clients))

variable {clients : Nat}

namespace System

def setPeer (system : System clients) (id : Fin clients) (peer : Peer) : System clients :=
  { system with peer := Function.update system.peer id peer }

/-- With the connection that `accept` returns in the round. -/
def accepted (system : System clients) (round : Round) (joins : Option (Fin clients)) : Option (System clients) :=
  match system.server.joined round, joins with
  | none, none => some system
  | some connfd, some id =>
    if (system.peer id).link = .waiting then
      some (system.setPeer id { system.peer id with link := .accepted connfd })
    else none
  | _, _ => none

/-- A round of the server, where its reads return what the clients have sent. -/
def serve (listenfd : Int) (system : System clients) (round : Round) : Option (System clients) :=
  (Server.doPoll listenfd system.server round).bind fun server =>
    if ∀ id, (system.peer id).consistent server.reads round then
      some ⟨server, fun id => (system.peer id).served server (server.sent.drop system.server.sent.length) round⟩
    else none

end System

def step (listenfd : Int) (system : System clients) : Event clients → Option (System clients)
  | .connect id =>
    if (system.peer id).link = .apart then some (system.setPeer id { system.peer id with link := .waiting }) else none
  | .client id socket stdin =>
    if (system.peer id).link = .apart then none
    else ((system.peer id).handleConnection socket stdin).map (system.setPeer id)
  | .round round joins => (system.accepted round joins).bind fun system => system.serve listenfd round

end KernelLearning.PollServer
