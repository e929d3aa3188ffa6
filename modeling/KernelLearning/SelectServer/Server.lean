import KernelLearning.Bytes.Overlay

/-!
# The select server

`server_init`, `accept_client_proc`, `handle_client_msg`, `recv_client_msg` and
the loop of `handle_client_proc`.  A step is one turn of the loop, with what the
kernel answers in it.  Indices past the end of `clifds` are read from the memory
behind it, which the step brings along, and not written.
-/

namespace KernelLearning.SelectServer

open Bytes

def MAXLINE : Nat := 1024
def SIZE : Nat := 10

/-! ## The server -/

/-- An `fd_set`, by its members. -/
abbrev FdSet : Type := List Int

def FdSet.set (fds : FdSet) (fd : Int) : FdSet := List.insert fd fds

def FdSet.clr (fds : FdSet) (fd : Int) : FdSet := fds.filter (· ≠ fd)

/-- `struct server_context_st`. -/
structure ServerContext where
  cliCnt : Nat
  clifds : Vector Int SIZE
  allfds : FdSet
  maxfd : Int

/-- The server with the descriptors that are open in its process, what it wrote to each, and
whether `handle_client_proc` has not returned yet. -/
structure Server where
  ctx : ServerContext
  opened : List Int
  written : List (Int × List UInt8)
  running : Bool

/-- After `server_init` and `create_server_proc`. -/
def Server.init (srvfd : Int) : Server where
  ctx := ⟨0, Vector.replicate SIZE (-1), [], 0⟩
  opened := [0, 1, 2, srvfd]
  written := []
  running := true

/-- What the kernel answers in one turn: `select` with the descriptors that are ready, `none` if
it failed; `accept` with a descriptor, `none` if it failed for good; and the `read` of the client
at each index with the bytes that it got, none if it returned 0 or -1.  `beyond` is the memory
behind `clifds`. -/
structure Turn where
  select : Option (List Int)
  accepted : Option Int
  reads : Nat → List UInt8
  beyond : Nat → Int

namespace Server

/-- `srv_ctx->clifds[i]`. -/
def slot (server : Server) (beyond : Nat → Int) (i : Nat) : Int := server.ctx.clifds[i]?.getD (beyond i)

/-- `srv_ctx->clifds[i] = fd`. -/
def setSlot (server : Server) (i : Nat) (fd : Int) : Server :=
  { server with ctx := { server.ctx with clifds := server.ctx.clifds.setIfInBounds i fd } }

/-! ## Accepting a client -/

/-- The loop over the table, which takes the first free slot.  A client that finds none is not
closed. -/
def acceptClientProc (server : Server) (accepted : Option Int) : Server :=
  match accepted with
  | none => server
  | some clifd =>
    let server := { server with opened := clifd :: server.opened }
    match (List.range SIZE).find? fun i => server.slot (fun _ => 0) i < 0 with
    | none => server  -- too many client.
    | some i =>
      let server := server.setSlot i clifd
      { server with ctx := { server.ctx with cliCnt := server.ctx.cliCnt + 1 } }

/-! ## Receiving messages -/

/-- `buf` as a string with its terminator.  In a buffer without a zero byte the string ends with
the buffer. -/
def cString (buf : List UInt8) : List UInt8 := buf.takeWhile (· ≠ 0) ++ [0]

def handleClientMsg (server : Server) (fd : Int) (buf : List UInt8) : Server :=
  { server with written := server.written ++ [(fd, cString buf)] }

/-- A client that is gone: `FD_CLR`, `close`, and its slot is free.  `cli_cnt` stays. -/
def dropClient (server : Server) (i : Nat) (clifd : Int) : Server :=
  let server := { server with
    ctx := { server.ctx with allfds := server.ctx.allfds.clr clifd }
    opened := server.opened.erase clifd }
  server.setSlot i (-1)

/-- One turn of the loop of `recv_client_msg`.  `readfds` is `allfds` itself. -/
def recvTurn (turn : Turn) (state : Server × List UInt8) (i : Nat) : Server × List UInt8 :=
  let (server, buf) := state
  let clifd := server.slot turn.beyond i
  if clifd < 0 then state
  else if clifd ∈ server.ctx.allfds then
    let bytes := (turn.reads i).take MAXLINE
    if bytes.length ≤ 0 then (server.dropClient i clifd, buf)
    else
      let buf := overlay buf 0 bytes
      (server.handleClientMsg clifd buf, buf)
  else state

/-- The indices of the loop of `recv_client_msg`: `i <= cli_cnt`. -/
def recvIndices (server : Server) : List Nat := List.range (server.ctx.cliCnt + 1)

def recvClientMsg (server : Server) (turn : Turn) : Server :=
  (server.recvIndices.foldl (recvTurn turn) (server, List.replicate MAXLINE 0)).1

/-! ## The loop -/

/-- One turn of the loop that fills the set for `select`. -/
def watchTurn (turn : Turn) (server : Server) (i : Nat) : Server :=
  let clifd := server.slot turn.beyond i
  let allfds := if clifd ≠ -1 then server.ctx.allfds.set clifd else server.ctx.allfds
  let maxfd := if clifd > server.ctx.maxfd then clifd else server.ctx.maxfd
  { server with ctx := { server.ctx with allfds := allfds, maxfd := maxfd } }

/-- The indices of that loop: `i < cli_cnt`. -/
def watchIndices (server : Server) : List Nat := List.range server.ctx.cliCnt

/-- The set that is given to `select`, with the largest descriptor in it. -/
def watch (srvfd : Int) (turn : Turn) (server : Server) : Server :=
  let server := { server with ctx := { server.ctx with allfds := FdSet.set [] srvfd, maxfd := srvfd } }
  server.watchIndices.foldl (watchTurn turn) server

/-- The kernel accepts a client under a descriptor that is not open. -/
def Accepts (server : Server) (accepted : Option Int) : Prop :=
  ∀ clifd, accepted = some clifd → 0 ≤ clifd ∧ clifd ∉ server.opened

instance (server : Server) (accepted : Option Int) : Decidable (server.Accepts accepted) :=
  match accepted with
  | none => isTrue (by simp [Accepts])
  | some clifd => decidable_of_iff (0 ≤ clifd ∧ clifd ∉ server.opened) (by simp [Accepts])

/-- One turn of the loop of `handle_client_proc`; `none` if the kernel does not answer so. -/
def handleClientProc (srvfd : Int) (server : Server) (turn : Turn) : Option Server :=
  if server.running = false then none
  else
    let server := server.watch srvfd turn
    match turn.select with
    | none => some { server with running := false }
    | some ready =>
      if ready ⊆ server.ctx.allfds then
        let server := { server with ctx := { server.ctx with allfds := ready } }
        if ready = [] then some server  -- select is timeout.
        else if srvfd ∈ ready then
          if server.Accepts turn.accepted then some (server.acceptClientProc turn.accepted) else none
        else some (server.recvClientMsg turn)
      else none

end Server

end KernelLearning.SelectServer
