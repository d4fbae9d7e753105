import Mathlib.Order.Bounds.Basic
import Vayu.Server.Exec

/-! # The registry invariant

Along every run the read set holds only descriptors of `[0, SOCKET_MAX)`,
`_highestSocket` is its greatest member or `INVALID_SOCKET`, and no descriptor
outside `[0, SOCKET_MAX)` is ever used as an index. Each function keeps the
invariant, callbacks included; the two loops and the runs follow by induction.
-/

namespace Vayu.Server
set_option autoImplicit false

open Vayu.Buffer Vayu.Socket

/-- The registry invariant. -/
structure Registry (e : Env) (w : World) : Prop where
  active_range : ∀ fd, w.readSet fd = true → InRange e fd
  le_highest : ∀ fd, w.readSet fd = true → fd ≤ w.highest
  highest_active : w.highest = invalidSocket ∨ w.readSet w.highest = true
  no_fault : w.fault = false

variable {e : Env} {w : World}

theorem Registry.congr (h : Registry e w) {w' : World} (hr : w'.readSet = w.readSet)
    (hh : w'.highest = w.highest) (hf : w'.fault = w.fault) : Registry e w' where
  active_range := by rw [hr]; exact h.active_range
  le_highest := by rw [hr, hh]; exact h.le_highest
  highest_active := by rw [hr, hh]; exact h.highest_active
  no_fault := by rw [hf]; exact h.no_fault

theorem Registry.highest_lt (h : Registry e w) : w.highest < e.socketMax := by
  rcases h.highest_active with hh | hh
  · rw [hh, invalidSocket]; omega
  · exact (h.active_range _ hh).2

theorem Registry.log (h : Registry e w) (a : Act) : Registry e (w.log a) := h.congr rfl rfl rfl

theorem Registry.setSocket (h : Registry e w) (fd : Int) (s : Socket) :
    Registry e (w.setSocket fd s) := h.congr rfl rfl rfl

theorem Registry.touch (h : Registry e w) {fd : Int} (hfd : InRange e fd) :
    Registry e (touch e fd w) := by
  rwa [touch_of_inRange e hfd]

theorem Registry.enableSocketWrite (h : Registry e w) {fd : Int} (hfd : InRange e fd) :
    Registry e (enableSocketWrite e fd w) := (h.touch hfd).congr rfl rfl rfl

theorem Registry.disableSocketWrite (h : Registry e w) {fd : Int} (hfd : InRange e fd) :
    Registry e (disableSocketWrite e fd w) := (h.touch hfd).congr rfl rfl rfl

theorem Registry.serverCloseSocket (h : Registry e w) (fd : Int) :
    Registry e (serverCloseSocket e fd w) := by
  unfold Server.serverCloseSocket
  split
  · rename_i hv
    simp only [Bool.and_eq_true] at hv
    exact (h.setSocket _ _).enableSocketWrite (inRange_of_isValidSocket e hv.1)
  · exact h

theorem Registry.addSocket (h : Registry e w) (fd : Int) : Registry e (addSocket e fd w).2 := by
  unfold Server.addSocket
  split
  · rename_i hv
    have hfd := inRange_of_isValidSocket e hv
    refine ⟨fun g hg => ?_, fun g hg => ?_, ?_, h.no_fault⟩
    · rcases eq_or_ne g fd with rfl | hne
      · exact hfd
      · exact h.active_range g (by simpa [Function.update_noteq hne] using hg)
    · dsimp only
      rcases eq_or_ne g fd with rfl | hne
      · split <;> omega
      · have := h.le_highest g (by simpa [Function.update_noteq hne] using hg)
        split <;> omega
    · dsimp only
      by_cases hgt : fd > w.highest
      · rw [if_pos hgt]
        simp
      · rw [if_neg hgt]
        rcases h.highest_active with hh | hh
        · rw [hh, invalidSocket] at hgt; omega
        · right; rw [Function.update_apply]; split <;> simp_all
  · exact h

theorem Registry.serverAddServerSocket (h : Registry e w) (opened : Int) :
    Registry e (serverAddServerSocket e opened w).2 := by
  unfold Server.serverAddServerSocket
  split
  · exact (h.addSocket opened).setSocket _ _
  · dsimp only
    split
    · exact h.log _
    · exact h

theorem Registry.withBuf (h : Registry e w) (ctx : Ctx) (t : Target) (f : Buf → Buf) :
    Registry e (withBuf ctx t f w) := by
  unfold Server.withBuf
  split
  · exact h.setSocket _ _
  · exact h

theorem Registry.applyAction (h : Registry e w) (ctx : Ctx) (a : Action) :
    Registry e (Server.applyAction e ctx a w) := by
  cases a with
  | closeSocket fd => exact h.serverCloseSocket fd
  | addServerSocket opened => exact h.serverAddServerSocket opened
  | append t d ok => exact h.withBuf ctx t (fun b => (bufAppend b d ok).2)
  | extract t => exact h.withBuf ctx t (fun b => (bufExtract b).2)
  | clear t => exact h.withBuf ctx t bufClear

theorem Registry.runActions (h : Registry e w) (ctx : Ctx) (as : List Action) :
    Registry e (Server.runActions e ctx as w) := by
  induction as generalizing w with
  | nil => exact h
  | cons a as ih => exact ih (h.applyAction ctx a)

theorem Registry.invokeCallback (h : Registry e w) (ctx : Ctx) :
    Registry e (invokeCallback e ctx w) := by
  unfold Server.invokeCallback
  split
  · exact (h.log _).runActions ctx _
  · exact h

theorem scanDown_ge (set : Int → Bool) (n : Nat) (g : Int) (hg : 0 ≤ g) (hgn : g < n)
    (hset : set g = true) : g ≤ scanDown set n := by
  induction n with
  | zero => omega
  | succ n ih =>
    unfold scanDown
    split
    · omega
    · rcases eq_or_lt_of_le (show g ≤ n by omega) with rfl | hlt
      · simp_all
      · exact ih hlt

theorem scanDown_active (set : Int → Bool) (n : Nat) :
    scanDown set n = invalidSocket ∨ set (scanDown set n) = true := by
  induction n with
  | zero => exact .inl rfl
  | succ n ih =>
    unfold scanDown
    split
    · exact .inr ‹_›
    · exact ih

theorem releaseSocket_readSet (fd : Int) :
    (releaseSocket fd w).readSet = Function.update w.readSet fd false := by
  simp [releaseSocket]

theorem releaseSocket_highest (fd : Int) :
    (releaseSocket fd w).highest = if fd = w.highest then
      scanDown (Function.update w.readSet fd false) w.highest.toNat else w.highest := by
  simp [releaseSocket, rescanHighest_highest]

theorem releaseSocket_fault (fd : Int) : (releaseSocket fd w).fault = w.fault := by
  simp [releaseSocket]

theorem Registry.releaseSocket (h : Registry e w) (fd : Int) :
    Registry e (Server.releaseSocket fd w) := by
  have hset : ∀ g, (Server.releaseSocket fd w).readSet g = true → g ≠ fd ∧ w.readSet g = true := by
    intro g hg
    rw [releaseSocket_readSet, Function.update_apply] at hg
    split at hg
    · cases hg
    · exact ⟨‹_›, hg⟩
  refine ⟨fun g hg => h.active_range g (hset g hg).2, fun g hg => ?_, ?_, ?_⟩
  · obtain ⟨hne, hact⟩ := hset g hg
    have hle := h.le_highest g hact
    rw [releaseSocket_highest]
    split
    · subst fd
      exact scanDown_ge _ _ g (h.active_range g hact).1 (by omega)
        (by rw [Function.update_noteq hne]; exact hact)
    · exact hle
  · rw [releaseSocket_highest, releaseSocket_readSet]
    by_cases hfd : fd = w.highest
    · rw [if_pos hfd]
      exact scanDown_active _ _
    · rw [if_neg hfd]
      rcases h.highest_active with hh | hh
      · exact .inl hh
      · exact .inr (by rw [Function.update_noteq (Ne.symm hfd)]; exact hh)
  · rw [releaseSocket_fault]; exact h.no_fault

theorem Registry.removeSocket (h : Registry e w) {fd : Int} (hfd : InRange e fd) :
    Registry e (removeSocket e fd w) :=
  ((h.touch hfd).invokeCallback _).releaseSocket fd

theorem Registry.checkClientSocket (h : Registry e w) {fd : Int} (hfd : InRange e fd) :
    Registry e (checkClientSocket e fd w) := by
  simp only [Server.checkClientSocket, touch_of_inRange e hfd]
  split
  · exact h.enableSocketWrite hfd
  · split
    · exact h.removeSocket hfd
    · exact h

theorem Registry.handleServerInput (h : Registry e w) {fd : Int} (hfd : InRange e fd) :
    Registry e (handleServerInput e fd w) := by
  simp only [Server.handleServerInput]
  split
  · split
    · rename_i hadd
      rw [addSocket_fst] at hadd
      exact (((h.log _).addSocket _).invokeCallback _).checkClientSocket
        (inRange_of_isValidSocket e hadd)
    · exact (h.log _).log _
  · exact (h.log _).removeSocket hfd

theorem Registry.handleClientInput (h : Registry e w) {fd : Int} (hfd : InRange e fd) :
    Registry e (handleClientInput e fd w) := by
  simp only [Server.handleClientInput, touch_of_inRange e hfd]
  split
  · exact ((((h.log _).setSocket _ _).log _).invokeCallback _).checkClientSocket hfd
  · exact ((h.log _).setSocket _ _).removeSocket hfd

theorem Registry.handleInput (h : Registry e w) {fd : Int} (hfd : InRange e fd) :
    Registry e (handleInput e fd w) := by
  simp only [Server.handleInput, touch_of_inRange e hfd]
  split
  · exact h.handleServerInput hfd
  · exact h.handleClientInput hfd

theorem Registry.writeSocket (h : Registry e w) (fd : Int) : Registry e (writeSocket e fd w).2 := by
  simp only [Server.writeSocket]
  split
  · exact (h.log _).setSocket _ _
  · exact h

theorem Registry.handleOutput (h : Registry e w) {fd : Int} (hfd : InRange e fd) :
    Registry e (handleOutput e fd w) := by
  simp only [Server.handleOutput, touch_of_inRange e hfd]
  split
  · have h1 := (h.writeSocket fd).invokeCallback ⟨.socketWrite, invalidSocket, fd, true⟩
    split
    · split
      · exact (h1.disableSocketWrite hfd).removeSocket hfd
      · exact h1.disableSocketWrite hfd
    · exact h1
  · exact (h.writeSocket fd).removeSocket hfd

theorem Registry.execTurn (h : Registry e w) (readable writable : Int → Bool) {fd : Int}
    (hfd : InRange e fd) : Registry e (execTurn e readable writable fd w) := by
  have h1 : Registry e (if readable fd then Server.handleInput e fd w else w) := by
    split
    · exact h.handleInput hfd
    · exact h
  simp only [Server.execTurn, touch_of_inRange e hfd]
  split
  · exact h1.handleOutput hfd
  · exact h1

/-- A turn of a loop over descriptors visits `fd ≤ _highestSocket`, which the
invariant keeps below `SOCKET_MAX`; so the fuel never runs out with `fd` in range. -/
theorem Registry.execLoop (h : Registry e w) (readable writable : Int → Bool) {n : Nat} {fd : Int}
    (h0 : 0 ≤ fd) (hn : fd + n = e.socketMax) :
    Registry e (execLoop e readable writable n fd w) := by
  induction n generalizing fd w with
  | zero =>
    unfold Server.execLoop
    split
    · have := h.highest_lt; omega
    · exact h
  | succ n ih =>
    unfold Server.execLoop
    split
    · have hfd : InRange e fd := ⟨h0, by have := h.highest_lt; omega⟩
      exact ih (h.execTurn _ _ hfd) (by omega) (by omega)
    · exact h

theorem Registry.serverExec (h : Registry e w) : Registry e (serverExec e w).2 := by
  unfold Server.serverExec
  split
  · exact h
  · dsimp only
    split
    · exact (h.log _).execLoop _ _ le_rfl (by simp)
    · split
      · split <;> exact h.log _
      · exact (h.log _).invokeCallback _

theorem Registry.removeAllSockets (h : Registry e w) {n : Nat} {fd : Int}
    (h0 : 0 ≤ fd) (hn : fd + n = e.socketMax) : Registry e (removeAllSockets e n fd w) := by
  induction n generalizing fd w with
  | zero =>
    unfold Server.removeAllSockets
    split
    · have := h.highest_lt; omega
    · exact h
  | succ n ih =>
    unfold Server.removeAllSockets
    split
    · have hfd : InRange e fd := ⟨h0, by have := h.highest_lt; omega⟩
      simp only [touch_of_inRange e hfd]
      refine ih ?_ (by omega) (by omega)
      split
      · exact h.removeSocket hfd
      · exact h
    · exact h

theorem Registry.serverStop (h : Registry e w) : Registry e (serverStop e w) :=
  (h.removeAllSockets le_rfl (by simp)).invokeCallback _

theorem registry_serverPrepare (hf : w.fault = false) : Registry e (serverPrepare w) where
  active_range := by simp [serverPrepare]
  le_highest := by simp [serverPrepare]
  highest_active := .inl rfl
  no_fault := hf

theorem Registry.run (h : Registry e w) (c : Call) : Registry e (c.run e w) := by
  cases c with
  | prepare => exact registry_serverPrepare h.no_fault
  | start => exact h.invokeCallback _
  | exec => exact h.serverExec
  | stop => exact h.serverStop
  | setCallback set => exact h.congr rfl rfl rfl
  | addServerSocket opened => exact h.serverAddServerSocket opened
  | closeSocket fd => exact h.serverCloseSocket fd

theorem Reachable.registry {w : World} (h : Reachable e w) : Registry e w := by
  induction h with
  | prepare => exact registry_serverPrepare rfl
  | step c _ ih => exact ih.run c

theorem Registry.highest_neg_iff (h : Registry e w) :
    w.highest < 0 ↔ ∀ fd, w.readSet fd = false := by
  constructor
  · intro hneg fd
    by_contra hfd
    have hact := Bool.eq_true_of_not_eq_false hfd
    have := h.le_highest fd hact
    have := (h.active_range fd hact).1
    omega
  · intro hnone
    rcases h.highest_active with hh | hh
    · rw [hh, invalidSocket]; omega
    · simp [hnone] at hh

theorem serverExec_fst_eq_two : (serverExec e w).1 = 2 ↔ w.highest < 0 := by
  unfold serverExec
  split
  · simpa
  · dsimp only
    split_ifs <;> simp_all

/-- `_highestSocket` is the greatest active descriptor, or `INVALID_SOCKET` when
none is active. Hence `serverExec` returns `2` exactly when no socket is active,
and the first argument of `select` covers every active descriptor. -/
theorem highestSocket_greatest {w : World} (h : Reachable e w) :
    (IsGreatest {fd | w.readSet fd = true} w.highest ∨
      (w.highest = invalidSocket ∧ ∀ fd, w.readSet fd = false)) ∧
    ((serverExec e w).1 = 2 ↔ ∀ fd, w.readSet fd = false) ∧
    ∀ fd, w.readSet fd = true → fd < w.highest + 1 := by
  have hr := h.registry
  refine ⟨?_, serverExec_fst_eq_two.trans hr.highest_neg_iff,
    fun fd hfd => Int.lt_add_one_of_le (hr.le_highest fd hfd)⟩
  rcases hr.highest_active with hh | hh
  · exact .inr ⟨hh, hr.highest_neg_iff.mp (by rw [hh, invalidSocket]; omega)⟩
  · exact .inl ⟨hh, hr.le_highest⟩

/-- A server that is never contacted: `select` times out, every other call fails,
and the callback does nothing. -/
def Env.silent (socketMax : Nat) : Env :=
  ⟨socketMax, fun _ => ⟨0, [], [], false⟩, fun _ _ => .failed, fun _ _ => (.failed, false),
    fun _ _ => (.failed, false), fun _ _ => []⟩

/-- The number of `select` calls so far. -/
def World.round (w : World) : Nat :=
  (w.trace.filter fun a => match a with | .select _ => true | _ => false).length

/-- An echo service on the listener `3`: the first round accepts `4`, the second
reads `hi` from it, and the `socket_read` callback queues the reply and empties
the input buffer. -/
def echoEnv : Env where
  socketMax := 1024
  select w := if w.round = 0 then ⟨1, [3], [], false⟩ else ⟨1, [4], [], false⟩
  accept _ _ := .fd 4
  recv _ _ := (.bytes [104, 105], true)
  send _ _ := (.count 2, true)
  callback _ ctx := if ctx.event = .socketRead then [.append .oBuf [104, 105] true, .clear .iBuf] else []

def echoRun : World :=
  runCalls echoEnv [.setCallback true, .addServerSocket 3, .exec, .exec] (serverPrepare World.zero)

theorem echoRun_sockets : echoRun.readSet 3 = true ∧ (echoRun.sockets 3).isServer = true ∧
    echoRun.readSet 4 = true ∧ (echoRun.sockets 4).isServer = false ∧ echoRun.highest = 4 := by
  decide

theorem highestSocket_greatest_echo :
    echoRun.readSet 3 = true ∧ echoRun.readSet 4 = true ∧ Reachable echoEnv echoRun ∧
    (IsGreatest {fd | echoRun.readSet fd = true} echoRun.highest ∨
      (echoRun.highest = invalidSocket ∧ ∀ fd, echoRun.readSet fd = false)) ∧
    ((serverExec echoEnv echoRun).1 = 2 ↔ ∀ fd, echoRun.readSet fd = false) ∧
    ∀ fd, echoRun.readSet fd = true → fd < echoRun.highest + 1 :=
  ⟨echoRun_sockets.1, echoRun_sockets.2.2.1, reachable_runCalls _ _ .prepare,
    highestSocket_greatest (reachable_runCalls _ _ .prepare)⟩

/-- No run indexes `_sockets` or an `fd_set` outside `[0, SOCKET_MAX)`: the ghost
`fault`, raised by every such use and never lowered, stays down; and
`_highestSocket` stays in `[INVALID_SOCKET, SOCKET_MAX)`. -/
theorem indices_in_range {w : World} (h : Reachable e w) :
    w.fault = false ∧ invalidSocket ≤ w.highest ∧ w.highest < e.socketMax := by
  have hr := h.registry
  refine ⟨hr.no_fault, ?_, hr.highest_lt⟩
  rcases hr.highest_active with hh | hh
  · exact hh.ge
  · have := (hr.active_range _ hh).1
    rw [invalidSocket]; omega

theorem indices_in_range_echo :
    echoRun.readSet 3 = true ∧ echoRun.readSet 4 = true ∧ Reachable echoEnv echoRun ∧ echoRun.fault = false ∧
      invalidSocket ≤ echoRun.highest ∧ echoRun.highest < echoEnv.socketMax :=
  ⟨echoRun_sockets.1, echoRun_sockets.2.2.1, reachable_runCalls _ _ .prepare,
    indices_in_range (reachable_runCalls _ _ .prepare)⟩

end Vayu.Server
