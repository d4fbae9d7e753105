import Vayu.Server.Lifecycle

/-! # Stopping the server

`serverStop` removes every socket with `_removeAllSockets` and then announces
`stop`. The loop reads `_highestSocket` again at every turn while its own body
lowers it; it still reaches every active descriptor, in increasing order, since
`_removeSocket` lowers the bound only when it removes the highest one. A
`socket_close` callback may close clients, which changes no bit the loop reads;
one that opens a server socket is excluded, and so must be a `stop` callback
that does, or the server is not empty when `serverStop` returns.
-/

namespace Vayu.Server
set_option autoImplicit false

open Vayu.Buffer Vayu.Socket

/-- The actions that open no server socket. -/
def Action.opensNone : Action → Bool
  | .addServerSocket _ => false
  | _ => true

/-- On the event `ev` the callback opens no server socket. -/
def Env.OpensNoneOn (e : Env) (ev : Event) : Prop :=
  ∀ w ctx, ctx.event = ev → ∀ a ∈ e.callback w ctx, a.opensNone = true

def Act.eventCtx : Act → Option Ctx
  | .event ctx => some ctx
  | _ => none

/-- The context of `stop`. -/
def stopCtx : Ctx := ⟨.stop, invalidSocket, invalidSocket, false⟩

def activeFrom (w : World) (fd : Int) (n : Nat) : List Int :=
  ((List.range n).map fun i : Nat => fd + i).filter (w.readSet ·)

section activeFrom
variable {w w' : World} {fd : Int}

theorem mem_activeFrom {n : Nat} {g : Int} :
    g ∈ activeFrom w fd n ↔ fd ≤ g ∧ g < fd + n ∧ w.readSet g = true := by
  simp only [activeFrom, List.mem_filter, List.mem_map, List.mem_range]
  constructor
  · rintro ⟨⟨i, hi, rfl⟩, hg⟩
    exact ⟨by omega, by omega, hg⟩
  · rintro ⟨h1, h2, hg⟩
    exact ⟨⟨(g - fd).toNat, by omega, by omega⟩, hg⟩

theorem activeFrom_pairwise (n : Nat) : (activeFrom w fd n).Pairwise (· < ·) :=
  ((List.pairwise_lt_range n).map (fun i : Nat => fd + i) fun a b h => by dsimp only; omega).filter _

theorem activeFrom_succ (n : Nat) :
    activeFrom w fd (n + 1) = (if w.readSet fd then [fd] else []) ++ activeFrom w (fd + 1) n := by
  have hmap : ((List.range n).map Nat.succ).map (fun i : Nat => fd + i) =
      (List.range n).map fun i : Nat => fd + 1 + i := by
    rw [List.map_map]
    exact List.map_congr_left fun i _ => by simp only [Function.comp, Nat.cast_succ]; omega
  simp only [activeFrom, List.range_succ_eq_map, List.map_cons, hmap, List.filter_cons, Nat.cast_zero,
    add_zero]
  split <;> simp_all

theorem activeFrom_congr (n : Nat) (h : ∀ g, fd ≤ g → w'.readSet g = w.readSet g) :
    activeFrom w' fd n = activeFrom w fd n := by
  refine List.filter_congr fun g hg => ?_
  obtain ⟨i, -, rfl⟩ := List.mem_map.mp hg
  rw [h _ (by omega)]

theorem activeFrom_eq_nil (n : Nat) (h : ∀ g, w.readSet g = false) : activeFrom w fd n = [] := by
  simp [activeFrom, h]

end activeFrom

theorem closeCtx_event (fd : Int) (s : Socket) : (closeCtx fd s).event = .socketClose := by
  unfold closeCtx; split <;> rfl

theorem closeCtx_congr (fd : Int) {s s' : Socket} (h : s'.isServer = s.isServer) :
    closeCtx fd s' = closeCtx fd s := by
  simp [closeCtx, h]

/-! ## Callbacks that open nothing, without buffers -/

/-- What the actions of a callback that opens no server socket leave alone when
its context passes no buffers: what the loop of `_removeAllSockets` reads and
the trace. -/
structure CloseFrame (w w' : World) : Prop where
  readSet : w'.readSet = w.readSet
  highest : w'.highest = w.highest
  trace : w'.trace = w.trace
  isServer : ∀ g, (w'.sockets g).isServer = (w.sockets g).isServer

namespace CloseFrame

variable {w w' w'' : World}

theorem refl (w : World) : CloseFrame w w := ⟨rfl, rfl, rfl, fun _ => rfl⟩

theorem trans (h : CloseFrame w w') (h' : CloseFrame w' w'') : CloseFrame w w'' :=
  ⟨h'.readSet.trans h.readSet, h'.highest.trans h.highest, h'.trace.trans h.trace,
    fun g => (h'.isServer g).trans (h.isServer g)⟩

end CloseFrame

section frame
variable (e : Env)

theorem closeFrame_serverCloseSocket (fd : Int) (w : World) : CloseFrame w (serverCloseSocket e fd w) := by
  unfold serverCloseSocket
  split
  · refine ⟨by simp [enableSocketWrite], by simp [enableSocketWrite], by simp, fun g => ?_⟩
    rw [enableSocketWrite_sockets, World.setSocket_sockets, Function.update_apply]
    split <;> simp_all
  · exact .refl w

theorem closeFrame_runActions {ctx : Ctx} (hb : ctx.buffers = false) (as : List Action)
    (has : ∀ a ∈ as, a.opensNone = true) (w : World) : CloseFrame w (runActions e ctx as w) := by
  induction as generalizing w with
  | nil => exact .refl w
  | cons a as ih =>
    refine CloseFrame.trans ?_ (ih (fun b hb' => has b (.tail a hb')) _)
    have ha := has a (.head as)
    cases a with
    | closeSocket fd => exact closeFrame_serverCloseSocket e fd w
    | addServerSocket => cases ha
    | append | extract | clear => simpa [applyAction, withBuf, hb] using CloseFrame.refl w

theorem invokeCallback_of_opensNone {ctx : Ctx} (hc : e.OpensNoneOn ctx.event) (hb : ctx.buffers = false)
    (w : World) :
    (invokeCallback e ctx w).readSet = w.readSet ∧ (invokeCallback e ctx w).highest = w.highest ∧
    (∀ g, ((invokeCallback e ctx w).sockets g).isServer = (w.sockets g).isServer) ∧
    (invokeCallback e ctx w).trace = w.trace ++ if w.callback then [.event ctx] else [] := by
  unfold invokeCallback
  split
  · next hcb =>
    have hf := closeFrame_runActions e hb _ (hc (w.log (.event ctx)) ctx rfl) (w.log (.event ctx))
    simp [hf.readSet, hf.highest, hf.isServer, hf.trace, hcb]
  · next hcb => simp [hcb]

theorem releaseSocket_sockets_ne {fd g : Int} (hg : g ≠ fd) (w : World) :
    (releaseSocket fd w).sockets g = w.sockets g := by
  simp [releaseSocket, clearSlot, Function.update_noteq hg]

theorem releaseSocket_events (fd : Int) (w : World) :
    ∃ q, (releaseSocket fd w).trace = w.trace ++ q ∧ q.filterMap Act.eventCtx = [] := by
  unfold releaseSocket logDrop
  split
  · exact ⟨[.drop fd (w.sockets fd).oBuf.content, .close fd], by simp, rfl⟩
  · exact ⟨[.close fd], by simp, rfl⟩

theorem removeSocket_of_opensNone (hc : e.OpensNoneOn .socketClose) (fd : Int) (w : World) :
    (removeSocket e fd w).readSet = Function.update w.readSet fd false ∧
    (∀ g, g ≠ fd → ((removeSocket e fd w).sockets g).isServer = (w.sockets g).isServer) ∧
    ∃ q, (removeSocket e fd w).trace = w.trace ++ q ∧
      q.filterMap Act.eventCtx = if w.callback then [closeCtx fd (w.sockets fd)] else [] := by
  obtain ⟨hr, -, hs, ht⟩ := invokeCallback_of_opensNone e (by rw [closeCtx_event]; exact hc)
    (closeCtx_buffers fd (w.sockets fd)) (touch e fd w)
  obtain ⟨q, hq, hqe⟩ :=
    releaseSocket_events fd (invokeCallback e (closeCtx fd (w.sockets fd)) (touch e fd w))
  simp only [removeSocket, touch_sockets]
  refine ⟨by rw [releaseSocket_readSet, hr, touch_readSet],
    fun g hg => by rw [releaseSocket_sockets_ne hg, hs, touch_sockets],
    (if w.callback then [.event (closeCtx fd (w.sockets fd))] else []) ++ q,
    by rw [hq, ht, touch_trace, touch_callback, List.append_assoc], ?_⟩
  rw [List.filterMap_append, hqe]
  split <;> rfl

end frame

/-! ## The loop of `_removeAllSockets` -/

section loop
variable {e : Env} {w w' : World}

theorem Registry.invalid_le (h : Registry e w) : invalidSocket ≤ w.highest := by
  rcases h.highest_active with hh | hh
  · exact hh.ge
  · have := (h.active_range _ hh).1
    rw [invalidSocket]; omega

theorem Registry.highest_le (h' : Registry e w') (h : Registry e w)
    (hsub : ∀ g, w'.readSet g = true → w.readSet g = true) : w'.highest ≤ w.highest := by
  rcases h'.highest_active with hh | hh
  · exact hh ▸ h.invalid_le
  · exact h.le_highest _ (hsub _ hh)

theorem Registry.empty_of_below (h : Registry e w) {fd : Int} (hbelow : ∀ g, w.readSet g = true → fd ≤ g)
    (hn : w.highest < fd) : (∀ g, w.readSet g = false) ∧ w.highest = invalidSocket := by
  have hnone : ∀ g, w.readSet g = false := fun g => Bool.eq_false_iff.mpr fun hg =>
    absurd (h.le_highest g hg) (by have := hbelow g hg; omega)
  refine ⟨hnone, ?_⟩
  rcases h.highest_active with hh | hh
  · exact hh
  · simp [hnone] at hh

/-- The loop from `fd`, with nothing active below `fd` and `_highestSocket`
below `fd + n`: it ends with no socket, and delivers `socket_close` for each
active descriptor from `fd` on, in increasing order. -/
theorem removeAllSockets_spec (hc : e.OpensNoneOn .socketClose) (n : Nat) {fd : Int}
    (hr : Registry e w) (h0 : 0 ≤ fd) (hbelow : ∀ g, w.readSet g = true → fd ≤ g)
    (hn : w.highest < fd + n) :
    (∀ g, (removeAllSockets e n fd w).readSet g = false) ∧
    (removeAllSockets e n fd w).highest = invalidSocket ∧
    (removeAllSockets e n fd w).callback = w.callback ∧
    ∃ seg, (removeAllSockets e n fd w).trace = w.trace ++ seg ∧
      seg.filterMap Act.eventCtx =
        if w.callback then (activeFrom w fd n).map fun g => closeCtx g (w.sockets g) else [] := by
  induction n generalizing fd w with
  | zero =>
    obtain ⟨hnone, hh⟩ := hr.empty_of_below hbelow (by simpa using hn)
    have hstop : removeAllSockets e 0 fd w = w := if_neg (by rw [hh, invalidSocket]; omega)
    rw [hstop, activeFrom_eq_nil 0 hnone]
    exact ⟨hnone, hh, rfl, [], by simp, by simp⟩
  | succ n ih =>
    by_cases hle : fd ≤ w.highest
    · have hfd : InRange e fd := ⟨h0, by have := hr.highest_lt; omega⟩
      rw [removeAllSockets, if_pos hle, touch_of_inRange e hfd, activeFrom_succ]
      dsimp only
      by_cases hact : w.readSet fd = true
      · -- `fd` is removed: one `socket_close`, then the loop from `fd + 1`
        obtain ⟨hrs, his, q, hq, hqe⟩ := removeSocket_of_opensNone e hc fd w
        have hr' := hr.removeSocket hfd
        have hsub : ∀ g, (removeSocket e fd w).readSet g = true → g ≠ fd ∧ w.readSet g = true := by
          intro g hg
          rw [hrs, Function.update_apply] at hg
          split at hg
          · cases hg
          · exact ⟨‹_›, hg⟩
        have hcb := removeSocket_callback e fd w
        obtain ⟨h1, h2, h3, seg, hseg, hsege⟩ := @ih _ (fd + 1) hr' (by omega)
          (fun g hg => by have := hbelow g (hsub g hg).2; have := (hsub g hg).1; omega)
          (by have := hr'.highest_le hr fun g hg => (hsub g hg).2; omega)
        rw [if_pos hact] at *
        refine ⟨h1, h2, h3.trans hcb, q ++ seg, by rw [hseg, hq, List.append_assoc], ?_⟩
        have hrest : ∀ g ∈ activeFrom w (fd + 1) n,
            closeCtx g ((removeSocket e fd w).sockets g) = closeCtx g (w.sockets g) := fun g hg =>
          closeCtx_congr g (his g (by have := (mem_activeFrom.mp hg).1; omega))
        have hsame : activeFrom (removeSocket e fd w) (fd + 1) n = activeFrom w (fd + 1) n :=
          activeFrom_congr n fun g hg => by rw [hrs, Function.update_noteq (by omega)]
        rw [List.filterMap_append, hqe, hsege, hcb, hsame, List.map_congr_left hrest]
        split <;> simp
      · -- `fd` is not active: the loop goes on from `fd + 1`
        simp only [hact, Bool.false_eq_true, if_false, List.nil_append]
        exact @ih _ (fd + 1) hr (by omega)
          (fun g hg => by have := hbelow g hg; have : g ≠ fd := fun h => hact (h ▸ hg); omega)
          (by omega)
    · have hstop : removeAllSockets e (n + 1) fd w = w := if_neg hle
      obtain ⟨hnone, hh⟩ := hr.empty_of_below hbelow (by omega)
      rw [hstop, activeFrom_eq_nil _ hnone]
      exact ⟨hnone, hh, rfl, [], by simp, by simp⟩

end loop

/-! ## `serverStop` -/

/-- From every reachable state, when neither `socket_close` nor `stop` opens a
server socket, `serverStop` leaves no socket and `_highestSocket` invalid; the
events it delivers are one `socket_close` for each socket active at the call,
in increasing order, then one `stop`, and none without a callback. -/
theorem serverStop_spec {e : Env} (hc : e.OpensNoneOn .socketClose) (hs : e.OpensNoneOn .stop)
    {w : World} (h : Reachable e w) :
    (∀ fd, (serverStop e w).readSet fd = false) ∧ (serverStop e w).highest = invalidSocket ∧
    ∃ (fds : List Int) (seg : List Act), fds.Pairwise (· < ·) ∧ (∀ fd, fd ∈ fds ↔ w.readSet fd = true) ∧
      (serverStop e w).trace = w.trace ++ seg ∧
      seg.filterMap Act.eventCtx =
        if w.callback then fds.map (fun fd => closeCtx fd (w.sockets fd)) ++ [stopCtx] else [] := by
  have hr := h.registry
  obtain ⟨h1, h2, h3, seg, hseg, hsege⟩ := removeAllSockets_spec hc e.socketMax hr le_rfl
    (fun g hg => (hr.active_range g hg).1) (by simpa using hr.highest_lt)
  have hstop : serverStop e w = invokeCallback e stopCtx (removeAllSockets e e.socketMax 0 w) := rfl
  obtain ⟨hr', hh', -, ht'⟩ := invokeCallback_of_opensNone e (show e.OpensNoneOn stopCtx.event from hs) rfl
    (removeAllSockets e e.socketMax 0 w)
  refine ⟨fun fd => by rw [hstop, hr']; exact h1 fd, by rw [hstop, hh']; exact h2,
    activeFrom w 0 e.socketMax, seg ++ if w.callback then [.event stopCtx] else [],
    activeFrom_pairwise _, fun fd => ?_, by rw [hstop, ht', hseg, h3, List.append_assoc], ?_⟩
  · rw [mem_activeFrom]
    exact ⟨fun hg => hg.2.2, fun hg => ⟨(hr.active_range fd hg).1,
      by have := (hr.active_range fd hg).2; omega, hg⟩⟩
  · rw [List.filterMap_append, hsege]
    split <;> rfl

/-- The echo server with its callback set: `serverStop` closes the listener `3`
and the client `4`, announcing each, then announces the stop. -/
theorem serverStop_spec_echo :
    echoEnv.OpensNoneOn .socketClose ∧ echoEnv.OpensNoneOn .stop ∧ Reachable echoEnv echoRun ∧
    echoRun.callback = true ∧ echoRun.readSet 3 = true ∧ echoRun.readSet 4 = true ∧
    (∀ fd, (serverStop echoEnv echoRun).readSet fd = false) ∧ (serverStop echoEnv echoRun).highest = invalidSocket ∧
    ∃ (fds : List Int) (seg : List Act), fds.Pairwise (· < ·) ∧ (∀ fd, fd ∈ fds ↔ echoRun.readSet fd = true) ∧
      (serverStop echoEnv echoRun).trace = echoRun.trace ++ seg ∧
      seg.filterMap Act.eventCtx =
        if echoRun.callback then fds.map (fun fd => closeCtx fd (echoRun.sockets fd)) ++ [stopCtx] else [] :=
  have hc : echoEnv.OpensNoneOn .socketClose := fun _ _ hctx _ ha => by simp [echoEnv, hctx] at ha
  have hs : echoEnv.OpensNoneOn .stop := fun _ _ hctx _ ha => by simp [echoEnv, hctx] at ha
  ⟨hc, hs, reachable_runCalls _ _ .prepare, by decide, echoRun_sockets.1, echoRun_sockets.2.2.1,
    serverStop_spec hc hs (reachable_runCalls _ _ .prepare)⟩

/-- A server whose `stop` callback opens a listener on `5`; `socket_close`
opens nothing. -/
def reopenEnv : Env where
  socketMax := 1024
  select _ := ⟨0, [], [], false⟩
  accept _ _ := .failed
  recv _ _ := (.failed, false)
  send _ _ := (.failed, false)
  callback _ ctx := if ctx.event = .stop then [.addServerSocket 5] else []

def reopenRun : World :=
  runCalls reopenEnv [.setCallback true, .addServerSocket 3] (serverPrepare World.zero)

/-- After `serverStop` the listener `5` is active and `_highestSocket` is `5`. -/
theorem serverStop_reopens : reopenEnv.OpensNoneOn .socketClose ∧ Reachable reopenEnv reopenRun ∧
    reopenRun.readSet 3 = true ∧ (serverStop reopenEnv reopenRun).readSet 5 = true ∧
    (serverStop reopenEnv reopenRun).highest = 5 :=
  ⟨fun _ _ hctx _ ha => by simp [reopenEnv, hctx] at ha, reachable_runCalls _ _ .prepare, by decide⟩

end Vayu.Server
