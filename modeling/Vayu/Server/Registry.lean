import Vayu.Server.State

/-! # Registering and removing sockets

The functions of `server.c` that change the socket table and the two `fd_set`s:
`_addSocket`, `_findHighestSocket`, `_removeSocket`, the write-set switches, and
the API calls a callback may make, `serverCloseSocket` and
`serverAddServerSocket`. `_invokeCallback` runs the callback's actions, so
`_removeSocket`, which fires `socket_close` before it clears the slot, sees
whatever the callback did.
-/

namespace Vayu.Server
set_option autoImplicit false

open Vayu.Buffer Vayu.Socket

variable (e : Env)

/-- `_isValidSocket`. -/
def isValidSocket (fd : Int) : Bool := decide (fd > invalidSocket) && decide (fd < e.socketMax)

/-- Indexing `_sockets` or an `fd_set` with `fd` where no check of the code
bounds it: outside `[0, SOCKET_MAX)` the behaviour is undefined, and the ghost
`fault` is raised. -/
def touch (fd : Int) (w : World) : World :=
  if 0 ≤ fd ∧ fd < e.socketMax then w else { w with fault := true }

/-- `fd` indexes `_sockets` and the `fd_set`s. -/
def InRange (fd : Int) : Prop := 0 ≤ fd ∧ fd < e.socketMax

theorem touch_of_inRange {fd : Int} (h : InRange e fd) (w : World) : touch e fd w = w := if_pos h

section touch
variable (fd : Int) (w : World)
@[simp] theorem touch_sockets : (touch e fd w).sockets = w.sockets := by unfold touch; split <;> rfl
@[simp] theorem touch_readSet : (touch e fd w).readSet = w.readSet := by unfold touch; split <;> rfl
@[simp] theorem touch_writeSet : (touch e fd w).writeSet = w.writeSet := by unfold touch; split <;> rfl
@[simp] theorem touch_highest : (touch e fd w).highest = w.highest := by unfold touch; split <;> rfl
@[simp] theorem touch_callback : (touch e fd w).callback = w.callback := by unfold touch; split <;> rfl
@[simp] theorem touch_trace : (touch e fd w).trace = w.trace := by unfold touch; split <;> rfl
end touch

theorem inRange_of_isValidSocket {fd : Int} (h : isValidSocket e fd = true) : InRange e fd := by
  simp only [isValidSocket, invalidSocket, Bool.and_eq_true, decide_eq_true_eq] at h
  exact ⟨by omega, h.2⟩

/-- `_addSocket`: reset the slot, mark it as a client kept alive, and register it
for reading. The write set is left as it is. -/
def addSocket (fd : Int) (w : World) : Bool × World :=
  if isValidSocket e fd then
    let s := w.sockets fd
    (true, { w with
      sockets := Function.update w.sockets fd
        { s with keepAlive := true, isServer := false, iBuf := bufClear s.iBuf, oBuf := bufClear s.oBuf },
      readSet := Function.update w.readSet fd true,
      highest := if fd > w.highest then fd else w.highest })
  else (false, w)

theorem addSocket_fst (fd : Int) (w : World) : (addSocket e fd w).1 = isValidSocket e fd := by
  unfold addSocket; split <;> simp_all

/-- The loop of `_findHighestSocket`: the first `i` of `n - 1, …, 0` in `set`. -/
def scanDown (set : Int → Bool) : Nat → Int
  | 0 => invalidSocket
  | n + 1 => if set n then n else scanDown set n

/-- `_findHighestSocket`: the greatest member of the read set below `_highestSocket`. -/
def findHighestSocket (w : World) : Int := scanDown w.readSet w.highest.toNat

/-- `_enableSocketWrite`. -/
def enableSocketWrite (fd : Int) (w : World) : World :=
  let w := touch e fd w
  { w with writeSet := Function.update w.writeSet fd true }

/-- `_disableSocketWrite`. -/
def disableSocketWrite (fd : Int) (w : World) : World :=
  let w := touch e fd w
  { w with writeSet := Function.update w.writeSet fd false }

section writeSet
variable (fd : Int) (w : World)
@[simp] theorem enableSocketWrite_sockets : (enableSocketWrite e fd w).sockets = w.sockets := by
  simp [enableSocketWrite]
@[simp] theorem enableSocketWrite_trace : (enableSocketWrite e fd w).trace = w.trace := by
  simp [enableSocketWrite]
@[simp] theorem disableSocketWrite_sockets : (disableSocketWrite e fd w).sockets = w.sockets := by
  simp [disableSocketWrite]
@[simp] theorem disableSocketWrite_trace : (disableSocketWrite e fd w).trace = w.trace := by
  simp [disableSocketWrite]
end writeSet

/-- `serverCloseSocket`: only the range of `fd` and its server bit are checked. -/
def serverCloseSocket (fd : Int) (w : World) : World :=
  if isValidSocket e fd && !(w.sockets fd).isServer then
    enableSocketWrite e fd (w.setSocket fd { w.sockets fd with keepAlive := false })
  else w

/-- `serverAddServerSocket`, given the descriptor `socketOpenServer` returned. -/
def serverAddServerSocket (opened : Int) (w : World) : Int × World :=
  if (addSocket e opened w).1 then
    let w := (addSocket e opened w).2
    (opened, w.setSocket opened { w.sockets opened with isServer := true })
  else (invalidSocket, if opened ≥ 0 then w.log (.close opened) else w)

def Socket.buf (s : Socket) : Target → Buf
  | .iBuf => s.iBuf
  | .oBuf => s.oBuf

def Socket.setBuf (s : Socket) : Target → Buf → Socket
  | .iBuf, b => { s with iBuf := b }
  | .oBuf, b => { s with oBuf := b }

def withBuf (ctx : Ctx) (t : Target) (f : Buf → Buf) (w : World) : World :=
  if ctx.buffers then
    w.setSocket ctx.cFd ((w.sockets ctx.cFd).setBuf t (f ((w.sockets ctx.cFd).buf t)))
  else w

/-- One action of the callback. -/
def applyAction (ctx : Ctx) : Action → World → World
  | .closeSocket fd, w => serverCloseSocket e fd w
  | .addServerSocket opened, w => (serverAddServerSocket e opened w).2
  | .append t d ok, w => withBuf ctx t (fun b => (bufAppend b d ok).2) w
  | .extract t, w => withBuf ctx t (fun b => (bufExtract b).2) w
  | .clear t, w => withBuf ctx t bufClear w

/-- The callback's actions, in order. -/
def runActions (ctx : Ctx) : List Action → World → World
  | [], w => w
  | a :: as, w => runActions ctx as (applyAction e ctx a w)

/-- `_invokeCallback`: without a callback nothing happens; otherwise the event is
delivered and the callback acts. -/
def invokeCallback (ctx : Ctx) (w : World) : World :=
  if w.callback then
    let w := w.log (.event ctx)
    runActions e ctx (e.callback w ctx) w
  else w

/-- The context of `socket_close` for `fd`: the server field for a listening
socket, the client field otherwise. -/
def closeCtx (fd : Int) (s : Socket) : Ctx :=
  if s.isServer then ⟨.socketClose, fd, invalidSocket, false⟩
  else ⟨.socketClose, invalidSocket, fd, false⟩

/-- Ghost: record the output that `_removeSocket` frees unsent. -/
def logDrop (fd : Int) (w : World) : World :=
  if bufHasData (w.sockets fd).oBuf then w.log (.drop fd (w.sockets fd).oBuf.content) else w

/-- Reset the slot of `fd` (`keepAlive`, `isServer`, both buffers) and clear its
bits in both sets. -/
def clearSlot (fd : Int) (w : World) : World :=
  let s := w.sockets fd
  { w with
    sockets := Function.update w.sockets fd
      { s with keepAlive := false, isServer := false, iBuf := bufClear s.iBuf, oBuf := bufClear s.oBuf },
    readSet := Function.update w.readSet fd false,
    writeSet := Function.update w.writeSet fd false }

/-- `if(fd == _highestSocket) _highestSocket = _findHighestSocket();` -/
def rescanHighest (fd : Int) (w : World) : World :=
  if fd = w.highest then { w with highest := findHighestSocket w } else w

/-- The part of `_removeSocket` after the callback: clear the slot and both set
bits, rescan for the highest descriptor if `fd` was it, and close `fd`. -/
def releaseSocket (fd : Int) (w : World) : World :=
  (rescanHighest fd (clearSlot fd (logDrop fd w))).log (.close fd)

section release
variable (fd : Int) (w : World)
@[simp] theorem logDrop_sockets : (logDrop fd w).sockets = w.sockets := by unfold logDrop; split <;> rfl
@[simp] theorem logDrop_readSet : (logDrop fd w).readSet = w.readSet := by unfold logDrop; split <;> rfl
@[simp] theorem logDrop_writeSet : (logDrop fd w).writeSet = w.writeSet := by
  unfold logDrop; split <;> rfl
@[simp] theorem logDrop_highest : (logDrop fd w).highest = w.highest := by unfold logDrop; split <;> rfl
@[simp] theorem logDrop_callback : (logDrop fd w).callback = w.callback := by
  unfold logDrop; split <;> rfl
@[simp] theorem logDrop_fault : (logDrop fd w).fault = w.fault := by unfold logDrop; split <;> rfl
@[simp] theorem clearSlot_readSet : (clearSlot fd w).readSet = Function.update w.readSet fd false := rfl
@[simp] theorem clearSlot_writeSet :
    (clearSlot fd w).writeSet = Function.update w.writeSet fd false := rfl
@[simp] theorem clearSlot_highest : (clearSlot fd w).highest = w.highest := rfl
@[simp] theorem clearSlot_callback : (clearSlot fd w).callback = w.callback := rfl
@[simp] theorem clearSlot_trace : (clearSlot fd w).trace = w.trace := rfl
@[simp] theorem clearSlot_fault : (clearSlot fd w).fault = w.fault := rfl
@[simp] theorem rescanHighest_sockets : (rescanHighest fd w).sockets = w.sockets := by
  unfold rescanHighest; split <;> rfl
@[simp] theorem rescanHighest_readSet : (rescanHighest fd w).readSet = w.readSet := by
  unfold rescanHighest; split <;> rfl
@[simp] theorem rescanHighest_writeSet : (rescanHighest fd w).writeSet = w.writeSet := by
  unfold rescanHighest; split <;> rfl
@[simp] theorem rescanHighest_callback : (rescanHighest fd w).callback = w.callback := by
  unfold rescanHighest; split <;> rfl
@[simp] theorem rescanHighest_trace : (rescanHighest fd w).trace = w.trace := by
  unfold rescanHighest; split <;> rfl
@[simp] theorem rescanHighest_fault : (rescanHighest fd w).fault = w.fault := by
  unfold rescanHighest; split <;> rfl
theorem rescanHighest_highest : (rescanHighest fd w).highest =
    if fd = w.highest then scanDown w.readSet w.highest.toNat else w.highest := by
  unfold rescanHighest; split <;> rfl
end release

/-- `_removeSocket`: fire `socket_close`, then release the slot. -/
def removeSocket (fd : Int) (w : World) : World :=
  let w := touch e fd w
  releaseSocket fd (invokeCallback e (closeCtx fd (w.sockets fd)) w)

end Vayu.Server
