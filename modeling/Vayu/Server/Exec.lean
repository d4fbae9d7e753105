import Vayu.Server.Registry

/-! # The event loop

The handlers of `server.c` and the API the host drives: `serverPrepare`,
`serverStart`, `serverExec`, `serverStop`, `serverSetCallback`,
`serverAddServerSocket` and `serverCloseSocket`. A run is any sequence of these
calls after `serverPrepare`; `Reachable` collects the worlds of all runs.
-/

namespace Vayu.Server
set_option autoImplicit false

open Vayu.Buffer Vayu.Socket

variable (e : Env)

/-- `_checkClientSocket`: arm the writer if there is output, otherwise drop a
socket that should not be kept alive. -/
def checkClientSocket (cFd : Int) (w : World) : World :=
  let w := touch e cFd w
  if bufHasData (w.sockets cFd).oBuf then enableSocketWrite e cFd w
  else if !(w.sockets cFd).keepAlive then removeSocket e cFd w
  else w

/-- `_handleServerInput`: accept, register and announce a client; on an
unregistrable descriptor close it; on an accept error remove the listener. -/
def handleServerInput (sFd : Int) (w : World) : World :=
  let answer := e.accept w sFd
  let w := w.log (.accept sFd answer)
  let cFd := socketAccept e.socketMax answer
  if cFd ≥ 0 then
    if (addSocket e cFd w).1 then
      checkClientSocket e cFd (invokeCallback e ⟨.socketAccept, sFd, cFd, true⟩ (addSocket e cFd w).2)
    else w.log (.close cFd)
  else removeSocket e sFd w

/-- `_handleClientInput`: read into the input buffer and announce it, or remove
the socket when nothing was read. -/
def handleClientInput (cFd : Int) (w : World) : World :=
  let w := touch e cFd w
  let answer := e.recv w cFd
  let w := w.log (.recv cFd answer.1 answer.2)
  let read := socketRead answer.1 answer.2 (w.sockets cFd).iBuf
  let consumed := socketReadConsumed answer.1 answer.2 (w.sockets cFd).iBuf
  let w := w.setSocket cFd { w.sockets cFd with iBuf := read.2 }
  if read.1 then
    let w := w.log (.consume cFd consumed)
    checkClientSocket e cFd (invokeCallback e ⟨.socketRead, invalidSocket, cFd, true⟩ w)
  else removeSocket e cFd w

/-- `_handleInput`. -/
def handleInput (fd : Int) (w : World) : World :=
  let w := touch e fd w
  if (w.sockets fd).isServer then handleServerInput e fd w else handleClientInput e fd w

/-- `socketWrite(cFd, &oBuf)` against the kernel: `send` is called, and logged,
only when the buffer has data. -/
def writeSocket (cFd : Int) (w : World) : Bool × World :=
  let oBuf := (w.sockets cFd).oBuf
  if bufHasData oBuf then
    let answer := e.send w cFd
    let written := socketWrite answer.1 answer.2 oBuf
    (written.1, (w.log (.send cFd oBuf.content answer.1 answer.2)).setSocket cFd
      { w.sockets cFd with oBuf := written.2 })
  else (true, w)

/-- `_handleOutput`: write, announce the write, and once the buffer is empty
disarm the writer and drop a socket that should not be kept alive. -/
def handleOutput (cFd : Int) (w : World) : World :=
  let w := touch e cFd w
  let written := writeSocket e cFd w
  if written.1 then
    let w := invokeCallback e ⟨.socketWrite, invalidSocket, cFd, true⟩ written.2
    if !bufHasData (w.sockets cFd).oBuf then
      let w := disableSocketWrite e cFd w
      if !(w.sockets cFd).keepAlive then removeSocket e cFd w else w
    else w
  else removeSocket e cFd written.2

/-- One turn of the loop of `serverExec` on `fd`: the input handler if `select`
reported it readable, then the output handler if it reported it writable. -/
def execTurn (readable writable : Int → Bool) (fd : Int) (w : World) : World :=
  let w := touch e fd w
  let w := if readable fd then handleInput e fd w else w
  if writable fd then handleOutput e fd w else w

/-- The loop of `serverExec`, `for(fd=0;fd<=_highestSocket;++fd)`, over the sets
`select` returned; the bound is read again at every turn. `fuel` counts the
descriptors up to `SOCKET_MAX`, where indexing the sets stops being defined. -/
def execLoop (readable writable : Int → Bool) : Nat → Int → World → World
  | 0, fd, w => if fd ≤ w.highest then touch e fd w else w
  | n + 1, fd, w =>
    if fd ≤ w.highest then execLoop readable writable n (fd + 1) (execTurn e readable writable fd w)
    else w

/-- The bits `select` leaves set in a copy of `set`: members below `nfds` that it
reports ready. -/
def selected (set : Int → Bool) (nfds : Int) (ready : List Int) (fd : Int) : Bool :=
  set fd && decide (fd < nfds) && ready.contains fd

/-- `serverExec`: `2` without sockets, `0` on a failed `select`, else `1`. -/
def serverExec (w : World) : Int × World :=
  if w.highest < 0 then (2, w) else
    let answer := e.select w
    let readable := selected w.readSet (w.highest + 1) answer.readable
    let writable := selected w.writeSet (w.highest + 1) answer.writable
    let w := w.log (.select answer)
    if answer.result > 0 then (1, execLoop e readable writable e.socketMax 0 w)
    else if answer.result < 0 then (if answer.interrupted then (1, w) else (0, w))
    else (1, invokeCallback e ⟨.idle, invalidSocket, invalidSocket, false⟩ w)

/-- The loop of `_removeAllSockets`, bounded like `execLoop`. -/
def removeAllSockets : Nat → Int → World → World
  | 0, fd, w => if fd ≤ w.highest then touch e fd w else w
  | n + 1, fd, w =>
    if fd ≤ w.highest then
      let w := touch e fd w
      removeAllSockets n (fd + 1) (if w.readSet fd then removeSocket e fd w else w)
    else w

/-- `serverStop`. -/
def serverStop (w : World) : World :=
  invokeCallback e ⟨.stop, invalidSocket, invalidSocket, false⟩ (removeAllSockets e e.socketMax 0 w)

/-- `serverStart`. -/
def serverStart (w : World) : World :=
  invokeCallback e ⟨.start, invalidSocket, invalidSocket, false⟩ w

/-- `serverPrepare`: no callback, zeroed sockets and sets, no highest socket. -/
def serverPrepare (w : World) : World :=
  { w with
    callback := false
    sockets := fun _ => Socket.zero
    readSet := fun _ => false
    writeSet := fun _ => false
    highest := invalidSocket }

/-- The calls the host makes; `addServerSocket` carries what `socketOpenServer` returned. -/
inductive Call
  | prepare
  | start
  | exec
  | stop
  | setCallback (set : Bool)
  | addServerSocket (opened : Int)
  | closeSocket (fd : Int)
deriving DecidableEq, Repr

/-- One call of the host. -/
def Call.run : Call → World → World
  | .prepare, w => serverPrepare w
  | .start, w => serverStart e w
  | .exec, w => (serverExec e w).2
  | .stop, w => serverStop e w
  | .setCallback set, w => { w with callback := set }
  | .addServerSocket opened, w => (serverAddServerSocket e opened w).2
  | .closeSocket fd, w => serverCloseSocket e fd w

/-- The worlds of all runs: `serverPrepare` on the zeroed statics, then any calls. -/
inductive Reachable : World → Prop
  | prepare : Reachable (serverPrepare World.zero)
  | step {w : World} (c : Call) : Reachable w → Reachable (c.run e w)

/-- A whole run of host calls. -/
def runCalls (cs : List Call) (w : World) : World := cs.foldl (fun w c => c.run e w) w

theorem reachable_runCalls (cs : List Call) {w : World} (h : Reachable e w) :
    Reachable e (runCalls e cs w) := by
  induction cs generalizing w with
  | nil => exact h
  | cons c cs ih => exact ih (.step c h)

end Vayu.Server
