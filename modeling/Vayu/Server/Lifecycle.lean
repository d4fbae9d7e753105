import Vayu.Server.Output

/-! # The life of a descriptor

`_removeSocket` resets the slot of its descriptor whatever the callback did, but
the round that removed it goes on with the sets `select` returned: a descriptor
removed while reading is then written, announced and closed once more. The
sentinel `socketAccept` returns on `EAGAIN` reaches `socketClose`, and
`serverCloseSocket` arms the writer of any client slot in range, active or not.
-/

namespace Vayu.Server
set_option autoImplicit false

open Vayu.Buffer Vayu.Socket

def Act.eventOn (fd : Int) : Act → Option Event
  | .event ctx => if ctx.cFd = fd then some ctx.event else none
  | _ => none

variable (e : Env)

theorem addSocket_callback (fd : Int) (w : World) : (addSocket e fd w).2.callback = w.callback := by
  unfold addSocket; split <;> rfl

theorem applyAction_callback (ctx : Ctx) (a : Action) (w : World) :
    (applyAction e ctx a w).callback = w.callback := by
  cases a with
  | closeSocket fd =>
    simp only [applyAction, serverCloseSocket]
    split <;> simp [enableSocketWrite]
  | addServerSocket opened =>
    simp only [applyAction, serverAddServerSocket]
    split
    · simp [addSocket_callback]
    · split <;> rfl
  | append t => simp only [applyAction, withBuf]; split <;> rfl
  | extract t => simp only [applyAction, withBuf]; split <;> rfl
  | clear t => simp only [applyAction, withBuf]; split <;> rfl

theorem runActions_callback (ctx : Ctx) (as : List Action) (w : World) :
    (runActions e ctx as w).callback = w.callback := by
  induction as generalizing w with
  | nil => rfl
  | cons a as ih => exact (ih _).trans (applyAction_callback e ctx a w)

theorem invokeCallback_callback (ctx : Ctx) (w : World) :
    (invokeCallback e ctx w).callback = w.callback := by
  unfold invokeCallback
  split
  · exact runActions_callback e ctx _ _
  · rfl

theorem removeSocket_callback (fd : Int) (w : World) : (removeSocket e fd w).callback = w.callback := by
  simp [removeSocket, releaseSocket, invokeCallback_callback]

theorem removeSocket_sockets_self (fd : Int) (w : World) : (removeSocket e fd w).sockets fd = Socket.zero := by
  simp [removeSocket, releaseSocket, clearSlot, Socket.zero]

/-- A descriptor removed in a round is written in the same round when `select`
reported it writable: `socket_write` follows its `socket_close`. -/
theorem handleOutput_after_removeSocket {fd : Int} {w : World} (hcb : w.callback = true) :
    ∃ rest, (handleOutput e fd (removeSocket e fd w)).trace =
      (removeSocket e fd w).trace ++ .event ⟨.socketWrite, invalidSocket, fd, true⟩ :: rest :=
  handleOutput_noData_event e (by rw [removeSocket_callback, hcb])
    (by rw [removeSocket_sockets_self]; rfl)

/-- In `eofRun` the client `4` gets `socket_close`, then `socket_write` and a
second `socket_close`. -/
theorem eofRun_events_after_close : Reachable eofEnv eofRun ∧
    eofRun.trace.filterMap (Act.eventOn 4) = [.socketAccept, .socketClose, .socketWrite, .socketClose] :=
  ⟨reachable_runCalls _ _ .prepare, by decide⟩

theorem handleOutput_after_removeSocket_closes {fd : Int} (w : World)
    (hq : ∀ w', e.callback w' ⟨.socketWrite, invalidSocket, fd, true⟩ = []) :
    ∃ mid, (handleOutput e fd (removeSocket e fd w)).trace = (removeSocket e fd w).trace ++ mid ++ [.close fd] := by
  let ctx : Ctx := ⟨.socketWrite, invalidSocket, fd, true⟩
  let w0 := touch e fd (removeSocket e fd w)
  have hw : writeSocket e fd w0 = (true, w0) := by
    simp [w0, Server.writeSocket, removeSocket_sockets_self, Socket.zero]
  obtain ⟨q, ht, hs⟩ : ∃ q, (invokeCallback e ctx w0).trace = (removeSocket e fd w).trace ++ q ∧
      (invokeCallback e ctx w0).sockets fd = Socket.zero := by
    unfold invokeCallback
    split
    · exact ⟨[.event ctx], by simp [w0, hq, runActions, removeSocket_sockets_self]⟩
    · exact ⟨[], by simp [w0, removeSocket_sockets_self]⟩
  obtain ⟨q', hq'⟩ := removeSocket_trace e fd (disableSocketWrite e fd (invokeCallback e ctx w0))
  refine ⟨q ++ q', ?_⟩
  simp only [Server.handleOutput, hw, ↓reduceIte]
  simp [hs, Socket.zero, hq', ht]

/-- On `EAGAIN`, `_handleServerInput` hands the sentinel `SOCKET_MAX` to `socketClose`. -/
theorem handleServerInput_again {sFd : Int} {w : World} (h : e.accept w sFd = .again) :
    (handleServerInput e sFd w).trace = w.trace ++ [.accept sFd .again, .close e.socketMax] := by
  simp [Server.handleServerInput, h, socketAccept, addSocket_fst, isValidSocket, Int.ofNat_nonneg]

/-- A listener `3` whose `accept` fails with `EAGAIN`. -/
def againEnv : Env where
  socketMax := 1024
  select _ := ⟨1, [3], [], false⟩
  accept _ _ := .again
  recv _ _ := (.failed, true)
  send _ _ := (.failed, true)
  callback _ _ := []

def againRun : World := runCalls againEnv [.addServerSocket 3, .exec] (serverPrepare World.zero)

/-- The server closes `1024`, which no `accept` returned; in `eofRun` it closes
the client `4`, accepted once, twice. -/
theorem againRun_closes_unowned : Reachable againEnv againRun ∧ Reachable eofEnv eofRun ∧
    againRun.trace = [.select ⟨1, [3], [], false⟩, .accept 3 .again, .close 1024] ∧
    eofRun.trace.count (.accept 3 (.fd 4)) = 1 ∧ eofRun.trace.count (.close 4) = 2 :=
  ⟨reachable_runCalls _ _ .prepare, reachable_runCalls _ _ .prepare, by decide⟩

theorem serverCloseSocket_writeSet_self {fd : Int} {w : World} (hv : isValidSocket e fd = true)
    (hs : (w.sockets fd).isServer = false) :
    (serverCloseSocket e fd w).writeSet fd = true ∧ (serverCloseSocket e fd w).readSet = w.readSet := by
  simp [serverCloseSocket, hv, hs, enableSocketWrite]

/-- `serverCloseSocket(5)` on the prepared server, and `serverCloseSocket(3)`
before `3` is opened as a listener. -/
def staleWriters : World :=
  runCalls (Env.silent 1024) [.closeSocket 5, .closeSocket 3, .addServerSocket 3] (serverPrepare World.zero)

/-- The write set holds `5`, which is not active, and the listener `3`. -/
theorem staleWriters_writeSet : Reachable (Env.silent 1024) staleWriters ∧
    staleWriters.writeSet 5 = true ∧ staleWriters.readSet 5 = false ∧
    staleWriters.writeSet 3 = true ∧ (staleWriters.sockets 3).isServer = true :=
  ⟨reachable_runCalls _ _ .prepare, by decide⟩

end Vayu.Server
