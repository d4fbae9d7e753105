import Mathlib.Logic.Function.Basic
import Vayu.Socket

/-! # The server's state and its environment

The statics of `server.c` (`_sockets`, `_socketReadSet`, `_socketWriteSet`,
`_highestSocket`, `_callback`) as one record, `World`, together with what the
outside observes of a run: the system calls with their answers and the events
handed to the callback. The kernel and the callback are one oracle, `Env`; each
of its answers is a function of the world, whose trace grows at every question,
so any sequence of answers is the answer of some `Env`.
-/

namespace Vayu.Server
set_option autoImplicit false

open Vayu.Buffer Vayu.Socket

/-- `_socket_t`. -/
structure Socket where
  iBuf : Buf
  oBuf : Buf
  keepAlive : Bool
  isServer : Bool
deriving DecidableEq, Repr

def Socket.zero : Socket := ⟨Buf.empty, Buf.empty, false, false⟩

/-- `event_t`. -/
inductive Event
  | start
  | stop
  | idle
  | socketAccept
  | socketRead
  | socketWrite
  | socketClose
deriving DecidableEq, Repr

/-- `eventContext_t`; `buffers` says whether `iBuf` and `oBuf` point at the
buffers of `_sockets[cFd]` (otherwise they are `NULL`). -/
structure Ctx where
  event : Event
  sFd : Int
  cFd : Int
  buffers : Bool
deriving DecidableEq, Repr

/-- What `select` reports: its result, the descriptors it leaves set in the read
and write sets, and whether a failure was `EINTR`. -/
structure Selected where
  result : Int
  readable : List Int
  writable : List Int
  interrupted : Bool
deriving DecidableEq, Repr

/-- One of the two buffers of an event context. -/
inductive Target
  | iBuf
  | oBuf
deriving DecidableEq, Repr

/-- What a callback may do: close a client softly, open a server socket (the
descriptor `socketOpenServer` returned is part of the action), or use the
buffers of its own context. -/
inductive Action
  | closeSocket (fd : Int)
  | addServerSocket (opened : Int)
  | append (t : Target) (d : Bytes) (allocOk : Bool)
  | extract (t : Target)
  | clear (t : Target)
deriving DecidableEq, Repr

/-- The observable steps of a run: `recv` is the peeking call and `consume` the
second call of `socketRead`, made only when the bytes were buffered. `drop` is a
ghost: the unsent output that `_removeSocket` frees with the output buffer. -/
inductive Act
  | select (answer : Selected)
  | accept (sFd : Int) (answer : Accepted)
  | recv (fd : Int) (answer : Peeked) (allocOk : Bool)
  | consume (fd : Int) (n : Nat)
  | send (fd : Int) (data : Bytes) (answer : Sent) (allocOk : Bool)
  | close (fd : Int)
  | event (ctx : Ctx)
  | drop (fd : Int) (data : Bytes)
deriving DecidableEq, Repr

/-- The statics of `server.c`, the trace of the run, and the ghost flag `fault`:
a descriptor outside `[0, SOCKET_MAX)` was used as an index. -/
structure World where
  sockets : Int → Socket
  readSet : Int → Bool
  writeSet : Int → Bool
  highest : Int
  callback : Bool
  trace : List Act
  fault : Bool

def World.zero : World :=
  ⟨fun _ => Socket.zero, fun _ => false, fun _ => false, 0, false, [], false⟩

/-- The environment of the server: `SOCKET_MAX` (`FD_SETSIZE` of the C library)
and the answers of the kernel and of the callback. -/
structure Env where
  socketMax : Nat
  select : World → Selected
  accept : World → Int → Accepted
  recv : World → Int → Peeked × Bool
  send : World → Int → Sent × Bool
  callback : World → Ctx → List Action

variable (w : World)

def World.log (a : Act) : World := { w with trace := w.trace ++ [a] }

def World.setSocket (fd : Int) (s : Socket) : World :=
  { w with sockets := Function.update w.sockets fd s }

@[simp] theorem World.log_sockets (a : Act) : (w.log a).sockets = w.sockets := rfl
@[simp] theorem World.log_readSet (a : Act) : (w.log a).readSet = w.readSet := rfl
@[simp] theorem World.log_writeSet (a : Act) : (w.log a).writeSet = w.writeSet := rfl
@[simp] theorem World.log_highest (a : Act) : (w.log a).highest = w.highest := rfl
@[simp] theorem World.log_callback (a : Act) : (w.log a).callback = w.callback := rfl
@[simp] theorem World.log_trace (a : Act) : (w.log a).trace = w.trace ++ [a] := rfl
@[simp] theorem World.log_fault (a : Act) : (w.log a).fault = w.fault := rfl

@[simp] theorem World.setSocket_sockets (fd : Int) (s : Socket) :
    (w.setSocket fd s).sockets = Function.update w.sockets fd s := rfl
@[simp] theorem World.setSocket_readSet (fd : Int) (s : Socket) :
    (w.setSocket fd s).readSet = w.readSet := rfl
@[simp] theorem World.setSocket_writeSet (fd : Int) (s : Socket) :
    (w.setSocket fd s).writeSet = w.writeSet := rfl
@[simp] theorem World.setSocket_highest (fd : Int) (s : Socket) :
    (w.setSocket fd s).highest = w.highest := rfl
@[simp] theorem World.setSocket_callback (fd : Int) (s : Socket) :
    (w.setSocket fd s).callback = w.callback := rfl
@[simp] theorem World.setSocket_trace (fd : Int) (s : Socket) :
    (w.setSocket fd s).trace = w.trace := rfl
@[simp] theorem World.setSocket_fault (fd : Int) (s : Socket) :
    (w.setSocket fd s).fault = w.fault := rfl

end Vayu.Server
