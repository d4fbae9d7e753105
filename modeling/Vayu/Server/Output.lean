import Vayu.Server.Invariant

/-! # Pending output and removal

When `_removeSocket` frees an output buffer that still holds data, the ghost act
`drop` records it. Within a round of `serverExec` this happens only right after
an I/O call on the same descriptor failed: a `recv` that buffered nothing (end
of file, an error, or no room for the bytes), a `send` that sent nothing, or an
`accept` error. Every other removal in the loop is reached only with an empty
output buffer.
-/

namespace Vayu.Server
set_option autoImplicit false

open Vayu.Buffer Vayu.Socket

def Act.ioOn (fd : Int) : Act → Option Bool
  | .recv g _ _ => if g = fd then some false else none
  | .consume g _ => if g = fd then some true else none
  | .send g _ s _ => if g = fd then some (s.written ≠ 0) else none
  | .accept g a => if g = fd then some (a ≠ .failed) else none
  | _ => none

def Act.quiet : Act → Bool
  | .event _ => true
  | .close _ => true
  | _ => false

/-- The outcome of the last I/O call on `fd` in a trace. -/
def lastOutcome (fd : Int) (t : List Act) : Option Bool := (t.filterMap (Act.ioOn fd)).getLast?

/-- Read after `pre`, every `drop` of `seg` follows a failed I/O call on its
descriptor, with no other I/O call on it in between. -/
def Justified : List Act → List Act → Prop
  | _, [] => True
  | pre, a :: seg => (∀ fd d, a = .drop fd d → lastOutcome fd pre = some false) ∧ Justified (pre ++ [a]) seg

theorem justified_append (pre s1 s2 : List Act) :
    Justified pre (s1 ++ s2) ↔ Justified pre s1 ∧ Justified (pre ++ s1) s2 := by
  induction s1 generalizing pre with
  | nil => simp [Justified]
  | cons a s1 ih => simp [Justified, ih, and_assoc]

theorem justified_iff (pre seg : List Act) : Justified pre seg ↔
    ∀ p fd d post, seg = p ++ .drop fd d :: post → lastOutcome fd (pre ++ p) = some false := by
  induction seg generalizing pre with
  | nil => simp [Justified]
  | cons a seg ih =>
    simp only [Justified, ih]
    constructor
    · rintro ⟨ha, hs⟩ p fd d post hp
      cases p with
      | nil => simpa using ha fd d (List.cons.inj hp).1
      | cons b p =>
        simp only [List.cons_append, List.cons.injEq] at hp
        obtain ⟨rfl, hp⟩ := hp
        simpa using hs p fd d post hp
    · intro h
      exact ⟨fun fd d ha => by simpa using h [] fd d seg (by rw [ha]; rfl),
        fun p fd d post hp => by simpa using h (a :: p) fd d post (by rw [hp]; rfl)⟩

theorem lastOutcome_append_quiet (fd : Int) (t q : List Act) (hq : ∀ a ∈ q, a.quiet = true) :
    lastOutcome fd (t ++ q) = lastOutcome fd t := by
  have : q.filterMap (Act.ioOn fd) = [] := List.filterMap_eq_nil_iff.mpr fun a ha => by
    have := hq a ha
    cases a <;> first | rfl | cases this
  simp [lastOutcome, this]

theorem justified_quiet (pre q : List Act) (hq : ∀ a ∈ q, a.quiet = true) : Justified pre q := by
  induction q generalizing pre with
  | nil => trivial
  | cons a q ih =>
    refine ⟨fun fd d ha => ?_, ih _ fun b hb => hq b (List.mem_cons_of_mem a hb)⟩
    have := hq a (List.mem_cons_self a q)
    simp [ha, Act.quiet] at this

/-- `w'` extends the trace of `w` by events and `close` calls only. -/
def Quiet (w w' : World) : Prop := ∃ q, w'.trace = w.trace ++ q ∧ ∀ a ∈ q, a.quiet = true

theorem Quiet.refl (w : World) : Quiet w w := ⟨[], by simp, by simp⟩

theorem Quiet.of_trace {w w' : World} (h : w'.trace = w.trace) : Quiet w w' := ⟨[], by simp [h], by simp⟩

theorem Quiet.trans {w1 w2 w3 : World} (h1 : Quiet w1 w2) (h2 : Quiet w2 w3) : Quiet w1 w3 := by
  obtain ⟨q1, ht1, hq1⟩ := h1
  obtain ⟨q2, ht2, hq2⟩ := h2
  exact ⟨q1 ++ q2, by rw [ht2, ht1, List.append_assoc], fun a ha => by
    rcases List.mem_append.mp ha with ha | ha
    · exact hq1 a ha
    · exact hq2 a ha⟩

theorem Quiet.log (w : World) (a : Act) (ha : a.quiet = true) : Quiet w (w.log a) :=
  ⟨[a], rfl, by simpa using ha⟩

/-- Since the trace `t0`, every `drop` is justified. -/
def DropsJustified (t0 : List Act) (w : World) : Prop :=
  ∃ seg, w.trace = t0 ++ seg ∧ Justified [] seg

/-- Since the trace `t0`, the last I/O call on `fd` failed. -/
def FailedSince (t0 : List Act) (w : World) (fd : Int) : Prop :=
  ∃ seg, w.trace = t0 ++ seg ∧ lastOutcome fd seg = some false

variable {t0 : List Act} {w w' : World}

theorem DropsJustified.quiet (h : DropsJustified t0 w) (hq : Quiet w w') : DropsJustified t0 w' := by
  obtain ⟨seg, ht, hj⟩ := h
  obtain ⟨q, ht', hq⟩ := hq
  exact ⟨seg ++ q, by rw [ht', ht, List.append_assoc],
    (justified_append _ _ _).mpr ⟨hj, justified_quiet _ _ hq⟩⟩

theorem FailedSince.quiet {fd : Int} (h : FailedSince t0 w fd) (hq : Quiet w w') :
    FailedSince t0 w' fd := by
  obtain ⟨seg, ht, hl⟩ := h
  obtain ⟨q, ht', hq⟩ := hq
  exact ⟨seg ++ q, by rw [ht', ht, List.append_assoc], by rw [lastOutcome_append_quiet _ _ _ hq, hl]⟩

theorem DropsJustified.log (h : DropsJustified t0 w) {a : Act} (ha : ∀ fd d, a ≠ .drop fd d) :
    DropsJustified t0 (w.log a) := by
  obtain ⟨seg, ht, hj⟩ := h
  refine ⟨seg ++ [a], by simp [ht], (justified_append _ _ _).mpr ⟨hj, ?_, trivial⟩⟩
  intro fd d had
  exact absurd had (ha fd d)

theorem DropsJustified.logDrop (h : DropsJustified t0 w) {fd : Int} (hf : FailedSince t0 w fd)
    (d : Bytes) : DropsJustified t0 (w.log (.drop fd d)) := by
  obtain ⟨seg, ht, hj⟩ := h
  obtain ⟨seg', ht', hl⟩ := hf
  rw [List.append_cancel_left (ht'.symm.trans ht)] at hl
  refine ⟨seg ++ [.drop fd d], by simp [ht], (justified_append _ _ _).mpr ⟨hj, ?_, trivial⟩⟩
  rintro g d' ⟨⟩
  simpa using hl

theorem FailedSince.log_io {fd : Int} (hw : ∃ seg, w.trace = t0 ++ seg) {a : Act}
    (ha : a.ioOn fd = some false) : FailedSince t0 (w.log a) fd := by
  obtain ⟨seg, ht⟩ := hw
  exact ⟨seg ++ [a], by simp [ht], by simp [lastOutcome, List.filterMap_append, ha]⟩

theorem DropsJustified.extends (h : DropsJustified t0 w) : ∃ seg, w.trace = t0 ++ seg :=
  let ⟨seg, ht, _⟩ := h
  ⟨seg, ht⟩

/-! ## Which functions only log events and closes -/

section quiet
variable (e : Env)

theorem quiet_touch (fd : Int) (w : World) : Quiet w (touch e fd w) := Quiet.of_trace (touch_trace e fd w)

theorem quiet_serverCloseSocket (fd : Int) (w : World) : Quiet w (serverCloseSocket e fd w) := by
  unfold serverCloseSocket enableSocketWrite
  split
  · exact Quiet.of_trace (by simp)
  · exact Quiet.refl w

theorem addSocket_trace (fd : Int) (w : World) : (addSocket e fd w).2.trace = w.trace := by
  unfold addSocket; split <;> rfl

theorem quiet_serverAddServerSocket (opened : Int) (w : World) :
    Quiet w (serverAddServerSocket e opened w).2 := by
  unfold serverAddServerSocket
  split
  · exact Quiet.of_trace (addSocket_trace e opened w)
  · dsimp only
    split
    · exact Quiet.log w (.close opened) rfl
    · exact Quiet.refl w

theorem withBuf_trace (ctx : Ctx) (t : Target) (f : Buf → Buf) (w : World) :
    (withBuf ctx t f w).trace = w.trace := by
  unfold withBuf; split <;> rfl

theorem quiet_applyAction (ctx : Ctx) (a : Action) (w : World) : Quiet w (applyAction e ctx a w) := by
  cases a with
  | closeSocket fd => exact quiet_serverCloseSocket e fd w
  | addServerSocket opened => exact quiet_serverAddServerSocket e opened w
  | append t => exact Quiet.of_trace (withBuf_trace ctx t _ w)
  | extract t => exact Quiet.of_trace (withBuf_trace ctx t _ w)
  | clear t => exact Quiet.of_trace (withBuf_trace ctx t _ w)

theorem quiet_runActions (ctx : Ctx) (as : List Action) (w : World) :
    Quiet w (runActions e ctx as w) := by
  induction as generalizing w with
  | nil => exact Quiet.refl w
  | cons a as ih => exact (quiet_applyAction e ctx a w).trans (ih _)

theorem quiet_invokeCallback (ctx : Ctx) (w : World) : Quiet w (invokeCallback e ctx w) := by
  unfold invokeCallback
  split
  · exact (Quiet.log w (.event ctx) rfl).trans (quiet_runActions e ctx _ _)
  · exact Quiet.refl w

end quiet

/-! ## Callbacks of `socket_close` keep an empty output buffer empty -/

section noData
variable (e : Env) (fd : Int)

theorem serverCloseSocket_oBuf (g : Int) (w : World) :
    ((serverCloseSocket e g w).sockets fd).oBuf = (w.sockets fd).oBuf := by
  unfold serverCloseSocket enableSocketWrite
  split
  · rcases eq_or_ne fd g with rfl | hne <;> simp [*]
  · rfl

theorem serverAddServerSocket_noData (opened : Int) {w : World}
    (hw : bufHasData (w.sockets fd).oBuf = false) :
    bufHasData (((serverAddServerSocket e opened w).2).sockets fd).oBuf = false := by
  unfold serverAddServerSocket
  rw [addSocket_fst]
  split
  · rename_i hv
    simp only [addSocket, hv, if_true, World.setSocket_sockets]
    rcases eq_or_ne fd opened with rfl | hne <;> simp [*]
  · dsimp only
    split <;> exact hw

theorem runActions_noData {ctx : Ctx} (hb : ctx.buffers = false) (as : List Action) {w : World}
    (hw : bufHasData (w.sockets fd).oBuf = false) :
    bufHasData ((runActions e ctx as w).sockets fd).oBuf = false := by
  induction as generalizing w with
  | nil => exact hw
  | cons a as ih =>
    refine ih ?_
    cases a with
    | closeSocket g => exact (serverCloseSocket_oBuf e fd g w).symm ▸ hw
    | addServerSocket opened => exact serverAddServerSocket_noData e fd opened hw
    | append | extract | clear => simpa [applyAction, withBuf, hb] using hw

theorem invokeCallback_noData {ctx : Ctx} (hb : ctx.buffers = false) {w : World}
    (hw : bufHasData (w.sockets fd).oBuf = false) :
    bufHasData ((invokeCallback e ctx w).sockets fd).oBuf = false := by
  unfold invokeCallback
  split
  · exact runActions_noData e fd hb _ hw
  · exact hw

theorem closeCtx_buffers (s : Socket) : (closeCtx fd s).buffers = false := by
  unfold closeCtx; split <;> rfl

end noData

/-! ## Drops within a round -/

section round
variable (e : Env)

theorem DropsJustified.removeSocket (h : DropsJustified t0 w) {fd : Int}
    (hfd : FailedSince t0 w fd ∨ bufHasData (w.sockets fd).oBuf = false) :
    DropsJustified t0 (removeSocket e fd w) := by
  dsimp only [Server.removeSocket, releaseSocket]
  have hq := (quiet_touch e fd w).trans (quiet_invokeCallback e (closeCtx fd ((touch e fd w).sockets fd)) _)
  have hd : DropsJustified t0 (Server.logDrop fd (invokeCallback e (closeCtx fd ((touch e fd w).sockets fd))
      (touch e fd w))) := by
    unfold Server.logDrop
    split
    · rcases hfd with hf | hempty
      · exact (h.quiet hq).logDrop (hf.quiet hq) _
      · rename_i hdata
        rw [invokeCallback_noData e fd (closeCtx_buffers fd _) (by simpa using hempty)] at hdata
        cases hdata
    · exact h.quiet hq
  exact (hd.quiet (Quiet.of_trace (by simp))).log (by simp)

theorem DropsJustified.checkClientSocket (h : DropsJustified t0 w) (fd : Int) :
    DropsJustified t0 (checkClientSocket e fd w) := by
  have ht := h.quiet (quiet_touch e fd w)
  dsimp only [Server.checkClientSocket]
  split
  · exact ht.quiet (Quiet.of_trace (enableSocketWrite_trace e fd _))
  · rename_i hempty
    split
    · exact ht.removeSocket e (.inr (by simpa using hempty))
    · exact ht

theorem DropsJustified.handleServerInput (h : DropsJustified t0 w) (fd : Int) :
    DropsJustified t0 (handleServerInput e fd w) := by
  have hl := h.log (a := .accept fd (e.accept w fd)) (by simp)
  dsimp only [Server.handleServerInput]
  split
  · split
    · exact ((hl.quiet (Quiet.of_trace (addSocket_trace e _ _))).quiet
        (quiet_invokeCallback e _ _)).checkClientSocket e _
    · exact hl.log (by simp)
  · rename_i hneg
    have hfail := socketAccept_eq_failed (lt_of_not_le hneg)
    exact hl.removeSocket e (.inl (FailedSince.log_io h.extends (by simp [Act.ioOn, hfail])))

theorem DropsJustified.handleClientInput (h : DropsJustified t0 w) (fd : Int) :
    DropsJustified t0 (handleClientInput e fd w) := by
  have ht := h.quiet (quiet_touch e fd w)
  have hr : ∀ (a : Peeked × Bool) s,
      DropsJustified t0 (((touch e fd w).log (.recv fd a.1 a.2)).setSocket fd s) :=
    fun _ _ => (ht.log (by simp)).quiet (Quiet.of_trace rfl)
  have hf : ∀ (a : Peeked × Bool) s,
      FailedSince t0 (((touch e fd w).log (.recv fd a.1 a.2)).setSocket fd s) fd :=
    fun _ _ => (FailedSince.log_io ht.extends (by simp [Act.ioOn])).quiet (Quiet.of_trace rfl)
  dsimp only [Server.handleClientInput]
  split
  · exact (((hr _ _).log (by simp)).quiet (quiet_invokeCallback e _ _)).checkClientSocket e fd
  · exact (hr _ _).removeSocket e (.inl (hf _ _))

theorem DropsJustified.handleInput (h : DropsJustified t0 w) (fd : Int) :
    DropsJustified t0 (handleInput e fd w) := by
  have ht := h.quiet (quiet_touch e fd w)
  dsimp only [Server.handleInput]
  split
  · exact ht.handleServerInput e fd
  · exact ht.handleClientInput e fd

theorem DropsJustified.writeSocket (h : DropsJustified t0 w) (fd : Int) :
    DropsJustified t0 (writeSocket e fd w).2 := by
  dsimp only [Server.writeSocket]
  split
  · exact (h.log (by simp)).quiet (Quiet.of_trace rfl)
  · exact h

theorem failedSince_writeSocket (h : ∃ seg, w.trace = t0 ++ seg) (fd : Int)
    (hw : (writeSocket e fd w).1 = false) : FailedSince t0 (writeSocket e fd w).2 fd := by
  dsimp only [Server.writeSocket] at hw ⊢
  by_cases hdata : bufHasData (w.sockets fd).oBuf
  · simp only [hdata, if_true, socketWrite_fst_of_hasData _ _ hdata] at hw ⊢
    exact (FailedSince.log_io (a := .send fd _ (e.send w fd).1 _) h (by simpa [Act.ioOn] using hw)).quiet
      (Quiet.of_trace rfl)
  · simp [hdata] at hw

theorem DropsJustified.handleOutput (h : DropsJustified t0 w) (fd : Int) :
    DropsJustified t0 (handleOutput e fd w) := by
  have ht := h.quiet (quiet_touch e fd w)
  dsimp only [Server.handleOutput]
  split
  · have hc := (ht.writeSocket e fd).quiet (quiet_invokeCallback e ⟨.socketWrite, invalidSocket, fd, true⟩ _)
    split
    · rename_i hempty
      have hd := hc.quiet (Quiet.of_trace (disableSocketWrite_trace e fd _))
      split
      · exact hd.removeSocket e (.inr (by simpa using hempty))
      · exact hd
    · exact hc
  · rename_i hw
    exact (ht.writeSocket e fd).removeSocket e
      (.inl (failedSince_writeSocket e ht.extends fd (by simpa using hw)))

theorem DropsJustified.execTurn (h : DropsJustified t0 w) (readable writable : Int → Bool) (fd : Int) :
    DropsJustified t0 (execTurn e readable writable fd w) := by
  have ht := h.quiet (quiet_touch e fd w)
  have hi : DropsJustified t0
      (if readable fd then Server.handleInput e fd (touch e fd w) else touch e fd w) := by
    split
    · exact ht.handleInput e fd
    · exact ht
  simp only [Server.execTurn]
  split
  · exact hi.handleOutput e fd
  · exact hi

theorem DropsJustified.execLoop (h : DropsJustified t0 w) (readable writable : Int → Bool) (n : Nat)
    (fd : Int) : DropsJustified t0 (execLoop e readable writable n fd w) := by
  induction n generalizing fd w with
  | zero =>
    unfold Server.execLoop
    split
    · exact h.quiet (quiet_touch e fd w)
    · exact h
  | succ n ih =>
    unfold Server.execLoop
    split
    · exact ih (h.execTurn e readable writable fd) (fd + 1)
    · exact h

/-- Within a round of `serverExec`, `_removeSocket` frees unsent output of `fd`
only right after an I/O call on `fd` failed, with no I/O call on `fd` between. -/
theorem serverExec_drops_after_failure (w : World) :
    ∃ seg, (serverExec e w).2.trace = w.trace ++ seg ∧
      ∀ pre fd d post, seg = pre ++ .drop fd d :: post → lastOutcome fd pre = some false := by
  have h0 : DropsJustified w.trace w := ⟨[], by simp, trivial⟩
  have h : DropsJustified w.trace (serverExec e w).2 := by
    unfold serverExec
    split
    · exact h0
    · dsimp only
      have hs := h0.log (a := .select (e.select w)) (by simp)
      split
      · exact hs.execLoop e _ _ _ _
      · split
        · split <;> exact hs
        · exact hs.quiet (quiet_invokeCallback e _ _)
  obtain ⟨seg, ht, hj⟩ := h
  exact ⟨seg, ht, fun pre fd d post hp => by simpa using (justified_iff [] seg).mp hj pre fd d post hp⟩

theorem logDrop_trace_extends (fd : Int) (w : World) : ∃ q, (logDrop fd w).trace = w.trace ++ q := by
  unfold logDrop
  split
  · exact ⟨_, rfl⟩
  · exact ⟨[], by simp⟩

theorem removeSocket_trace (fd : Int) (w : World) :
    ∃ q, (removeSocket e fd w).trace = w.trace ++ q ++ [.close fd] := by
  obtain ⟨q1, h1, -⟩ := (quiet_touch e fd w).trans (quiet_invokeCallback e (closeCtx fd (w.sockets fd)) _)
  obtain ⟨q2, h2⟩ := logDrop_trace_extends fd (invokeCallback e (closeCtx fd (w.sockets fd)) (touch e fd w))
  exact ⟨q1 ++ q2, by simp [Server.removeSocket, releaseSocket, h2, h1]⟩

/-- With nothing to send, `_handleOutput` calls no `send` and still fires
`socket_write`. -/
theorem handleOutput_noData_event {fd : Int} {w : World} (hcb : w.callback = true)
    (hd : bufHasData (w.sockets fd).oBuf = false) : ∃ rest,
    (handleOutput e fd w).trace = w.trace ++ .event ⟨.socketWrite, invalidSocket, fd, true⟩ :: rest := by
  let ctx : Ctx := ⟨.socketWrite, invalidSocket, fd, true⟩
  have hw : writeSocket e fd (touch e fd w) = (true, touch e fd w) := by simp [Server.writeSocket, hd]
  obtain ⟨q, hq⟩ : ∃ q, (invokeCallback e ctx (touch e fd w)).trace = w.trace ++ .event ctx :: q := by
    obtain ⟨q, hq, -⟩ := quiet_runActions e ctx (e.callback ((touch e fd w).log (.event ctx)) ctx)
      ((touch e fd w).log (.event ctx))
    exact ⟨q, by simp [invokeCallback, hcb, hq]⟩
  simp only [Server.handleOutput, hw, ↓reduceIte]
  split
  · split
    · obtain ⟨q', hq'⟩ := removeSocket_trace e fd (disableSocketWrite e fd (invokeCallback e ctx (touch e fd w)))
      exact ⟨q ++ q' ++ [.close fd], by simp [ctx, hq', hq]⟩
    · exact ⟨q, by simp [ctx, hq]⟩
  · exact ⟨q, hq⟩

end round

/-- A client accepted by the listener `3` gets a response of one byte and
`serverCloseSocket`; then its peer shuts down before the response is sent, so
`select` reports it both readable (end of file) and writable. -/
def eofEnv : Env where
  socketMax := 1024
  select w := if w.round = 0 then ⟨1, [3], [], false⟩ else ⟨2, [4], [4], false⟩
  accept _ _ := .fd 4
  recv _ _ := (.bytes [], true)
  send _ _ := (.count 1, true)
  callback _ ctx :=
    if ctx.event = .socketAccept then [.append .oBuf [120] true, .closeSocket ctx.cFd] else []

def eofRun : World :=
  runCalls eofEnv [.setCallback true, .addServerSocket 3, .exec, .exec] (serverPrepare World.zero)

/-- The byte queued before `serverCloseSocket(4)` is freed unsent although no
`send` on `4` ever failed: `4` is removed on the end of file. -/
theorem eofRun_drops_unsent : Reachable eofEnv eofRun ∧ eofRun.trace =
    [.select ⟨1, [3], [], false⟩, .accept 3 (.fd 4), .event ⟨.socketAccept, 3, 4, true⟩,
      .select ⟨2, [4], [4], false⟩, .recv 4 (.bytes []) true,
      .event ⟨.socketClose, invalidSocket, 4, false⟩, .drop 4 [120], .close 4,
      .event ⟨.socketWrite, invalidSocket, 4, true⟩,
      .event ⟨.socketClose, invalidSocket, 4, false⟩, .close 4] :=
  ⟨reachable_runCalls _ _ .prepare, by decide⟩

/-- A client accepted by the listener `3` and closed by the host with
`serverCloseSocket` before anything was queued for it; `select` then reports it
writable. -/
def closeEnv : Env where
  socketMax := 1024
  select w := if w.round = 0 then ⟨1, [3], [], false⟩ else ⟨1, [], [4], false⟩
  accept _ _ := .fd 4
  recv _ _ := (.failed, true)
  send _ _ := (.failed, true)
  callback _ _ := []

def closeRun : World :=
  runCalls closeEnv [.setCallback true, .addServerSocket 3, .exec, .closeSocket 4, .exec]
    (serverPrepare World.zero)

/-- `socket_write` for `4` is delivered although no `send` was ever made. -/
theorem closeRun_write_without_send : Reachable closeEnv closeRun ∧ closeRun.trace =
    [.select ⟨1, [3], [], false⟩, .accept 3 (.fd 4), .event ⟨.socketAccept, 3, 4, true⟩,
      .select ⟨1, [], [4], false⟩, .event ⟨.socketWrite, invalidSocket, 4, true⟩,
      .event ⟨.socketClose, invalidSocket, 4, false⟩, .close 4] :=
  ⟨reachable_runCalls _ _ .prepare, by decide⟩

end Vayu.Server
