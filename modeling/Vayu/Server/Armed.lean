import Vayu.Server.Output

/-! # Armed writers

When the callback uses nothing but the buffers of its own event context, every
active client that holds output is in `_socketWriteSet`: after each API call,
and right after each call of `_handleInput` and `_handleOutput` in the loop of
`serverExec`. `_checkClientSocket` arms the writer after an accept or a read,
and `_handleOutput` disarms it only once the buffer is empty. Within a round no
handler clears the write bit of another descriptor, and the input handler of
`fd` keeps its bit or removes `fd`, so every writer armed when `select` returned
is still armed when the loop reaches it.
-/

namespace Vayu.Server
set_option autoImplicit false

open Vayu.Buffer Vayu.Socket

/-- The actions on the buffers of the callback's own context. -/
def Action.onBuffers : Action → Bool
  | .append _ _ _ => true
  | .extract _ => true
  | .clear _ => true
  | .closeSocket _ => false
  | .addServerSocket _ => false

/-- The callback acts only on the buffers its event context passes. -/
def Env.BuffersOnly (e : Env) : Prop := ∀ w ctx, ∀ a ∈ e.callback w ctx, a.onBuffers = true

/-- The writer of `fd` is armed if `fd` is an active client with output. -/
def ArmedAt (w : World) (fd : Int) : Prop :=
  w.readSet fd = true → (w.sockets fd).isServer = false → bufHasData (w.sockets fd).oBuf = true →
    w.writeSet fd = true

/-- Every active client whose output buffer has data is in the write set. -/
def Armed (w : World) : Prop := ∀ fd, ArmedAt w fd

/-- `Armed` for every descriptor but `c`. -/
def ArmedBut (c : Int) (w : World) : Prop := ∀ fd, fd ≠ c → ArmedAt w fd

variable {w w' w'' : World}

theorem Armed.congr (h : Armed w) (hr : w'.readSet = w.readSet) (hw : w'.writeSet = w.writeSet)
    (hs : w'.sockets = w.sockets) : Armed w' := by
  intro g
  rw [ArmedAt, hr, hw, hs]
  exact h g

theorem Armed.log (h : Armed w) (a : Act) : Armed (w.log a) := h.congr rfl rfl rfl

theorem Armed.touch (e : Env) (h : Armed w) (fd : Int) : Armed (touch e fd w) :=
  h.congr (by simp) (by simp) (by simp)

theorem Armed.but (h : Armed w) (c : Int) : ArmedBut c w := fun fd _ => h fd

theorem ArmedBut.frame {c : Int} (h : ArmedBut c w) (hs : ∀ g, g ≠ c →
    w'.readSet g = w.readSet g ∧ w'.writeSet g = w.writeSet g ∧ w'.sockets g = w.sockets g) :
    ArmedBut c w' := by
  intro g hg
  obtain ⟨hr, hw, hso⟩ := hs g hg
  rw [ArmedAt, hr, hw, hso]
  exact h g hg

theorem ArmedBut.armed {c : Int} (h : ArmedBut c w) (hc : ArmedAt w c) : Armed w := by
  intro g
  rcases eq_or_ne g c with rfl | hg
  · exact hc
  · exact h g hg

/-! ## What a callback on its own buffers can change -/

/-- What a step that only uses the buffers of `ctx` leaves alone: both sets, the
flags of every record, and every record but that of `ctx`'s client when `ctx`
passes buffers. -/
structure BufferFrame (ctx : Ctx) (w w' : World) : Prop where
  readSet : w'.readSet = w.readSet
  writeSet : w'.writeSet = w.writeSet
  flags : ∀ g, (w'.sockets g).keepAlive = (w.sockets g).keepAlive ∧
    (w'.sockets g).isServer = (w.sockets g).isServer
  others : ∀ g, (ctx.buffers = false ∨ g ≠ ctx.cFd) → w'.sockets g = w.sockets g

namespace BufferFrame

variable {ctx : Ctx}

theorem refl (ctx : Ctx) (w : World) : BufferFrame ctx w w :=
  ⟨rfl, rfl, fun _ => ⟨rfl, rfl⟩, fun _ _ => rfl⟩

theorem trans (h : BufferFrame ctx w w') (h' : BufferFrame ctx w' w'') : BufferFrame ctx w w'' :=
  ⟨h'.readSet.trans h.readSet, h'.writeSet.trans h.writeSet,
    fun g => ⟨(h'.flags g).1.trans (h.flags g).1, (h'.flags g).2.trans (h.flags g).2⟩,
    fun g hg => (h'.others g hg).trans (h.others g hg)⟩

theorem log (ctx : Ctx) (w : World) (a : Act) : BufferFrame ctx w (w.log a) :=
  ⟨rfl, rfl, fun _ => ⟨rfl, rfl⟩, fun _ _ => rfl⟩

theorem touch (e : Env) (ctx : Ctx) (fd : Int) (w : World) : BufferFrame ctx w (Server.touch e fd w) :=
  ⟨by simp, by simp, fun _ => by simp, fun _ _ => by simp⟩

theorem setSocket (hb : ctx.buffers = true) (w : World) {s : Socket}
    (hk : s.keepAlive = (w.sockets ctx.cFd).keepAlive) (hs : s.isServer = (w.sockets ctx.cFd).isServer) :
    BufferFrame ctx w (w.setSocket ctx.cFd s) := by
  refine ⟨rfl, rfl, fun g => ?_, fun g hg => ?_⟩
  · rcases eq_or_ne g ctx.cFd with rfl | hne <;> simp [*]
  · have hne : g ≠ ctx.cFd := by simpa [hb] using hg
    simp [hne]

theorem armed (h : BufferFrame ctx w w') (hb : ctx.buffers = false) (ha : Armed w) : Armed w' := by
  intro g
  rw [ArmedAt, h.readSet, h.writeSet, h.others g (.inl hb)]
  exact ha g

theorem armedBut (h : BufferFrame ctx w w') (ha : ArmedBut ctx.cFd w) : ArmedBut ctx.cFd w' :=
  ha.frame fun g hg => ⟨by rw [h.readSet], by rw [h.writeSet], h.others g (.inr hg)⟩

end BufferFrame

section frame
variable (e : Env)

@[simp] theorem Socket.setBuf_keepAlive (s : Socket) (t : Target) (b : Buf) :
    (s.setBuf t b).keepAlive = s.keepAlive := by
  cases t <;> rfl

@[simp] theorem Socket.setBuf_isServer (s : Socket) (t : Target) (b : Buf) :
    (s.setBuf t b).isServer = s.isServer := by
  cases t <;> rfl

theorem bufferFrame_withBuf (ctx : Ctx) (t : Target) (f : Buf → Buf) (w : World) :
    BufferFrame ctx w (withBuf ctx t f w) := by
  unfold withBuf
  split
  · exact .setSocket ‹_› w (by simp) (by simp)
  · exact .refl ctx w

theorem bufferFrame_runActions (ctx : Ctx) (as : List Action) (has : ∀ a ∈ as, a.onBuffers = true)
    (w : World) : BufferFrame ctx w (runActions e ctx as w) := by
  induction as generalizing w with
  | nil => exact .refl ctx w
  | cons a as ih =>
    refine BufferFrame.trans ?_ (ih (fun b hb => has b (.tail a hb)) _)
    have ha := has a (.head as)
    cases a with
    | closeSocket | addServerSocket => cases ha
    | append t d ok => exact bufferFrame_withBuf ctx t (fun b => (bufAppend b d ok).2) w
    | extract t => exact bufferFrame_withBuf ctx t (fun b => (bufExtract b).2) w
    | clear t => exact bufferFrame_withBuf ctx t _ w

theorem bufferFrame_invokeCallback (hb : e.BuffersOnly) (ctx : Ctx) (w : World) :
    BufferFrame ctx w (invokeCallback e ctx w) := by
  unfold invokeCallback
  split
  · exact (BufferFrame.log ctx w _).trans (bufferFrame_runActions e ctx _ (hb _ ctx) _)
  · exact .refl ctx w

theorem bufferFrame_writeSocket (ctx : Ctx) (hb : ctx.buffers = true) (w : World) :
    BufferFrame ctx w (writeSocket e ctx.cFd w).2 := by
  dsimp only [writeSocket]
  split
  · exact (BufferFrame.log ctx w _).trans (.setSocket hb _ rfl rfl)
  · exact .refl ctx w

theorem removeSocket_frame (hb : e.BuffersOnly) (fd : Int) (w : World) :
    (removeSocket e fd w).readSet = Function.update w.readSet fd false ∧
    (removeSocket e fd w).writeSet = Function.update w.writeSet fd false ∧
    ∀ g, g ≠ fd → (removeSocket e fd w).sockets g = w.sockets g := by
  have hf := bufferFrame_invokeCallback e hb (closeCtx fd (w.sockets fd)) (touch e fd w)
  have hc := closeCtx_buffers fd (w.sockets fd)
  refine ⟨?_, ?_, fun g hg => ?_⟩
  · simp [removeSocket, releaseSocket, hf.readSet]
  · simp [removeSocket, releaseSocket, hf.writeSet]
  · simp [removeSocket, releaseSocket, clearSlot, hg, hf.others g (.inl hc)]

theorem addSocket_writeSet (fd : Int) (w : World) : (addSocket e fd w).2.writeSet = w.writeSet := by
  unfold addSocket; split <;> rfl

theorem addSocket_keepAlive {fd : Int} (h : (addSocket e fd w).1 = true) :
    ((addSocket e fd w).2.sockets fd).keepAlive = true := by
  rw [addSocket_fst] at h
  simp [addSocket, h]

end frame

/-! ## Each function keeps the writers armed -/

section armed
variable (e : Env)

theorem ArmedBut.removeSocket (hb : e.BuffersOnly) {fd : Int} (h : ArmedBut fd w) :
    Armed (removeSocket e fd w) := by
  obtain ⟨hr, hw, hs⟩ := removeSocket_frame e hb fd w
  exact (h.frame fun g hg => by simp [hr, hw, hs g hg, hg]).armed fun hact => by simp [hr] at hact

theorem ArmedBut.enableSocketWrite {fd : Int} (h : ArmedBut fd w) : Armed (enableSocketWrite e fd w) :=
  (h.frame fun g hg => by simp [Server.enableSocketWrite, hg]).armed
    fun _ _ _ => by simp [Server.enableSocketWrite]

theorem ArmedBut.checkClientSocket (hb : e.BuffersOnly) {c : Int} (h : ArmedBut c w) :
    Armed (checkClientSocket e c w) := by
  have ht : ArmedBut c (touch e c w) := h.frame fun g _ => by simp
  dsimp only [Server.checkClientSocket]
  split
  · exact ht.enableSocketWrite e
  · split
    · exact ht.removeSocket e hb
    · exact ht.armed fun _ _ hd => absurd hd ‹_›

theorem Armed.addSocket (h : Armed w) (c : Int) : Armed (addSocket e c w).2 := by
  unfold Server.addSocket
  split
  · exact ((h.but c).frame fun g hg => by simp [hg]).armed fun _ _ hd => by simp at hd
  · exact h

theorem Armed.handleServerInput (hb : e.BuffersOnly) (h : Armed w) (i : Int) :
    Armed (handleServerInput e i w) := by
  dsimp only [Server.handleServerInput]
  split
  · split
    · exact ArmedBut.checkClientSocket e hb
        ((bufferFrame_invokeCallback e hb ⟨.socketAccept, i, _, true⟩ _).armedBut
          (((h.log _).addSocket e _).but _))
    · exact (h.log _).log _
  · exact ArmedBut.removeSocket e hb ((h.log _).but i)

theorem Armed.handleClientInput (hb : e.BuffersOnly) (h : Armed w) (i : Int) :
    Armed (handleClientInput e i w) := by
  dsimp only [Server.handleClientInput]
  split
  · exact ArmedBut.checkClientSocket e hb
      ((bufferFrame_invokeCallback e hb ⟨.socketRead, invalidSocket, i, true⟩ _).armedBut
        ((h.but i).frame fun g hg => by simp [hg]))
  · exact ArmedBut.removeSocket e hb ((h.but i).frame fun g hg => by simp [hg])

theorem Armed.handleInput (hb : e.BuffersOnly) (h : Armed w) (i : Int) : Armed (handleInput e i w) := by
  dsimp only [Server.handleInput]
  split
  · exact (h.touch e i).handleServerInput e hb i
  · exact (h.touch e i).handleClientInput e hb i

theorem Armed.handleOutput (hb : e.BuffersOnly) (h : Armed w) {i : Int}
    (hi : w.readSet i = true → (w.sockets i).isServer = false → w.writeSet i = true) :
    Armed (handleOutput e i w) := by
  let ctx : Ctx := ⟨.socketWrite, invalidSocket, i, true⟩
  have hw : BufferFrame ctx w (writeSocket e i (Server.touch e i w)).2 :=
    (BufferFrame.touch e ctx i w).trans (bufferFrame_writeSocket e ctx rfl _)
  dsimp only [Server.handleOutput]
  split
  · have hc := hw.trans (bufferFrame_invokeCallback e hb ctx _)
    have hbut := hc.armedBut (h.but i)
    split
    · have hdis : Armed (disableSocketWrite e i
          (invokeCallback e ctx (writeSocket e i (Server.touch e i w)).2)) :=
        (hbut.frame fun g hg => by simp [disableSocketWrite, hg]).armed fun _ _ hd => by simp_all
      split
      · exact ArmedBut.removeSocket e hb (hdis.but i)
      · exact hdis
    · refine hbut.armed fun hr hs _ => ?_
      rw [hc.readSet] at hr
      rw [(hc.flags i).2] at hs
      rw [hc.writeSet]
      exact hi hr hs
  · exact ArmedBut.removeSocket e hb (hw.armedBut (h.but i))

theorem Armed.serverCloseSocket (h : Armed w) (fd : Int) : Armed (serverCloseSocket e fd w) := by
  unfold Server.serverCloseSocket
  split
  · exact ArmedBut.enableSocketWrite e ((h.but fd).frame fun g hg => by simp [hg])
  · exact h

theorem Armed.serverAddServerSocket (h : Armed w) (opened : Int) :
    Armed (serverAddServerSocket e opened w).2 := by
  unfold Server.serverAddServerSocket
  split
  · exact (((h.addSocket e opened).but opened).frame fun g hg => by simp [hg]).armed
      fun _ hs _ => by simp at hs
  · dsimp only
    split
    · exact h.log _
    · exact h

theorem Armed.removeAllSockets (hb : e.BuffersOnly) (n : Nat) {i : Int} (h : Armed w) :
    Armed (removeAllSockets e n i w) := by
  induction n generalizing i w with
  | zero =>
    dsimp only [Server.removeAllSockets]
    split
    · exact h.touch e i
    · exact h
  | succ n ih =>
    dsimp only [Server.removeAllSockets]
    split
    · apply ih
      split
      · exact ArmedBut.removeSocket e hb ((h.touch e i).but i)
      · exact h.touch e i
    · exact h

end armed

/-! ## Rounds of `serverExec` -/

section round
variable (e : Env)

/-- Every write bit of `w` is still set in `w'`, or it is the bit of `i` and `i`
is no longer active. -/
def KeepsWriters (i : Int) (w w' : World) : Prop :=
  ∀ g, w.writeSet g = true → w'.writeSet g = true ∨ (g = i ∧ w'.readSet i = false)

theorem KeepsWriters.others {i g : Int} (h : KeepsWriters i w w') (hg : g ≠ i)
    (hw : w.writeSet g = true) : w'.writeSet g = true :=
  (h g hw).resolve_right fun h' => hg h'.1

theorem KeepsWriters.of_writeSet {i : Int} (h : KeepsWriters i w' w'') (hw : w'.writeSet = w.writeSet) :
    KeepsWriters i w w'' :=
  fun g hg => h g (hw ▸ hg)

theorem keepsWriters_removeSocket (hb : e.BuffersOnly) (fd : Int) (w : World) :
    KeepsWriters fd w (removeSocket e fd w) := by
  obtain ⟨hr, hw, -⟩ := removeSocket_frame e hb fd w
  intro g hg
  rcases eq_or_ne g fd with rfl | hne
  · exact .inr ⟨rfl, by simp [hr]⟩
  · exact .inl (by simp [hw, hne, hg])

theorem keepsWriters_checkClientSocket (hb : e.BuffersOnly) (c : Int) (w : World) :
    KeepsWriters c w (checkClientSocket e c w) := by
  dsimp only [checkClientSocket]
  split
  · exact fun g hg => .inl (by simp [enableSocketWrite, Function.update_apply, hg])
  · split
    · exact (keepsWriters_removeSocket e hb c _).of_writeSet (by simp)
    · exact fun g hg => .inl (by simpa using hg)

theorem checkClientSocket_writeSet {c g : Int} (hk : (w.sockets c).keepAlive = true)
    (hg : w.writeSet g = true) : (checkClientSocket e c w).writeSet g = true := by
  dsimp only [checkClientSocket]
  split
  · simp [enableSocketWrite, Function.update_apply, hg]
  · rw [if_neg (by simp [hk])]
    simpa using hg

theorem keepsWriters_handleServerInput (hb : e.BuffersOnly) (i : Int) (w : World) :
    KeepsWriters i w (handleServerInput e i w) := by
  dsimp only [handleServerInput]
  split
  · split
    · next hadd =>
      refine fun g hg => .inl (checkClientSocket_writeSet e ?_ ?_)
      · rw [((bufferFrame_invokeCallback e hb _ _).flags _).1]
        exact addSocket_keepAlive e hadd
      · rw [(bufferFrame_invokeCallback e hb _ _).writeSet, addSocket_writeSet]
        exact hg
    · exact fun g hg => .inl hg
  · exact (keepsWriters_removeSocket e hb i _).of_writeSet rfl

theorem keepsWriters_handleClientInput (hb : e.BuffersOnly) (i : Int) (w : World) :
    KeepsWriters i w (handleClientInput e i w) := by
  dsimp only [handleClientInput]
  split
  · exact (keepsWriters_checkClientSocket e hb i _).of_writeSet
      (by rw [(bufferFrame_invokeCallback e hb _ _).writeSet]; simp)
  · exact (keepsWriters_removeSocket e hb i _).of_writeSet (by simp)

theorem keepsWriters_handleInput (hb : e.BuffersOnly) (i : Int) (w : World) :
    KeepsWriters i w (handleInput e i w) := by
  dsimp only [handleInput]
  split
  · exact (keepsWriters_handleServerInput e hb i _).of_writeSet (by simp)
  · exact (keepsWriters_handleClientInput e hb i _).of_writeSet (by simp)

theorem handleOutput_writeSet_ne (hb : e.BuffersOnly) {i g : Int} (hg : g ≠ i) (w : World) :
    (handleOutput e i w).writeSet g = w.writeSet g := by
  have hf := bufferFrame_writeSocket e ⟨.socketWrite, invalidSocket, i, true⟩ rfl (touch e i w)
  have hr : ∀ w, (removeSocket e i w).writeSet g = w.writeSet g := fun w => by
    simp [(removeSocket_frame e hb i w).2.1, hg]
  have hc := fun w => (bufferFrame_invokeCallback e hb ⟨.socketWrite, invalidSocket, i, true⟩ w).writeSet
  dsimp only [handleOutput]
  split
  · split
    · split <;> simp [hr, disableSocketWrite, hg, hc, hf.writeSet]
    · simp [hc, hf.writeSet]
  · simp [hr, hf.writeSet]

/-- Before the turn on `i`: every descriptor from `i` on that `select` reported
writable is still in the write set. -/
def Pending (writable : Int → Bool) (i : Int) (w : World) : Prop :=
  ∀ fd, i ≤ fd → writable fd = true → w.writeSet fd = true

theorem pending_selected (w : World) (nfds : Int) (ready : List Int) (a : Act) :
    Pending (selected w.writeSet nfds ready) 0 (w.log a) := by
  intro fd _ hs
  simp only [selected, Bool.and_eq_true] at hs
  exact hs.1.1

/-- One turn keeps the writers armed, and the writers that `select` reported
beyond `i` still in the write set. -/
theorem Armed.execTurn (hb : e.BuffersOnly) (readable writable : Int → Bool) {i : Int} (h : Armed w)
    (hp : Pending writable i w) :
    Armed (execTurn e readable writable i w) ∧ Pending writable (i + 1) (execTurn e readable writable i w) := by
  have hin : Armed (if readable i then Server.handleInput e i (Server.touch e i w) else Server.touch e i w) ∧
      KeepsWriters i w
        (if readable i then Server.handleInput e i (Server.touch e i w) else Server.touch e i w) := by
    split
    · exact ⟨(h.touch e i).handleInput e hb i, (keepsWriters_handleInput e hb i _).of_writeSet (by simp)⟩
    · exact ⟨h.touch e i, fun g hg => .inl (by simpa using hg)⟩
  obtain ⟨ha, hk⟩ := hin
  dsimp only [Server.execTurn]
  split
  · next hw =>
    refine ⟨ha.handleOutput e hb fun hr _ => ?_, fun g hg hwg => ?_⟩
    · rcases hk i (hp i le_rfl hw) with hwi | ⟨-, hri⟩
      · exact hwi
      · simp [hri] at hr
    · rw [handleOutput_writeSet_ne e hb (by omega)]
      exact hk.others (by omega) (hp g (by omega) hwg)
  · exact ⟨ha, fun g hg hwg => hk.others (by omega) (hp g (by omega) hwg)⟩

theorem Armed.execLoop (hb : e.BuffersOnly) (readable writable : Int → Bool) (n : Nat) {i : Int}
    (h : Armed w) (hp : Pending writable i w) : Armed (execLoop e readable writable n i w) := by
  induction n generalizing i w with
  | zero =>
    dsimp only [Server.execLoop]
    split
    · exact h.touch e i
    · exact h
  | succ n ih =>
    dsimp only [Server.execLoop]
    split
    · obtain ⟨ha, hp'⟩ := h.execTurn e hb readable writable hp
      exact ih ha hp'
    · exact h

/-- The worlds right after each handler call of `execLoop readable writable n fd w`. -/
inductive LoopVisit (readable writable : Int → Bool) : Nat → Int → World → World → Prop
  | input {n : Nat} {fd : Int} {w : World} : fd ≤ w.highest → readable fd = true →
      LoopVisit readable writable (n + 1) fd w (handleInput e fd (touch e fd w))
  | output {n : Nat} {fd : Int} {w : World} : fd ≤ w.highest → writable fd = true →
      LoopVisit readable writable (n + 1) fd w (execTurn e readable writable fd w)
  | next {n : Nat} {fd : Int} {w w' : World} : fd ≤ w.highest →
      LoopVisit readable writable n (fd + 1) (execTurn e readable writable fd w) w' →
      LoopVisit readable writable (n + 1) fd w w'

/-- A world right after a handler call in the round that `serverExec` runs on `w`. -/
def AfterHandler (w w' : World) : Prop :=
  0 ≤ w.highest ∧ 0 < (e.select w).result ∧
    LoopVisit e (selected w.readSet (w.highest + 1) (e.select w).readable)
      (selected w.writeSet (w.highest + 1) (e.select w).writable) e.socketMax 0
      (w.log (.select (e.select w))) w'

theorem Armed.loopVisit (hb : e.BuffersOnly) {readable writable : Int → Bool} {n : Nat} {i : Int}
    (h : Armed w) (hp : Pending writable i w) (hv : LoopVisit e readable writable n i w w') : Armed w' := by
  induction hv with
  | input => exact (h.touch e _).handleInput e hb _
  | output => exact (h.execTurn e hb _ _ hp).1
  | next _ _ ih => exact ih (h.execTurn e hb _ _ hp).1 (h.execTurn e hb _ _ hp).2

theorem Armed.serverExec (hb : e.BuffersOnly) (h : Armed w) : Armed (serverExec e w).2 := by
  unfold Server.serverExec
  split
  · exact h
  · dsimp only
    split
    · exact (h.log _).execLoop e hb _ _ _ (pending_selected _ _ _ _)
    · split
      · split <;> exact h.log _
      · exact (bufferFrame_invokeCallback e hb _ _).armed rfl (h.log _)

theorem armed_serverPrepare (w : World) : Armed (serverPrepare w) :=
  fun _ hr => by simp [serverPrepare] at hr

theorem Armed.run (hb : e.BuffersOnly) (h : Armed w) (c : Call) : Armed (c.run e w) := by
  cases c with
  | prepare => exact armed_serverPrepare w
  | start => exact (bufferFrame_invokeCallback e hb _ w).armed rfl h
  | exec => exact h.serverExec e hb
  | stop => exact (bufferFrame_invokeCallback e hb _ _).armed rfl (h.removeAllSockets e hb _)
  | setCallback => exact h.congr rfl rfl rfl
  | addServerSocket opened => exact h.serverAddServerSocket e opened
  | closeSocket fd => exact h.serverCloseSocket e fd

theorem armed_of_reachable (hb : e.BuffersOnly) (h : Reachable e w) : Armed w := by
  induction h with
  | prepare => exact armed_serverPrepare _
  | step c _ ih => exact ih.run e hb c

/-- With callbacks that use only their own buffers, every active client holding
output is in the write set after every API call and after every handler call
of `serverExec`. -/
theorem writers_armed (hb : e.BuffersOnly) {w : World} (h : Reachable e w) :
    Armed w ∧ ∀ w', AfterHandler e w w' → Armed w' := by
  have ha := armed_of_reachable e hb h
  exact ⟨ha, fun w' hw' => (ha.log _).loopVisit e hb (pending_selected _ _ _ _) hw'.2.2⟩

end round

theorem writers_armed_echo : echoEnv.BuffersOnly ∧ Reachable echoEnv echoRun ∧
    Armed echoRun ∧ ∀ w', AfterHandler echoEnv echoRun w' → Armed w' :=
  have hb : echoEnv.BuffersOnly := fun _ ctx a ha => by
    by_cases hr : ctx.event = .socketRead <;> simp [echoEnv, hr] at ha
    rcases ha with rfl | rfl <;> rfl
  have hr : Reachable echoEnv echoRun := reachable_runCalls _ _ .prepare
  ⟨hb, hr, writers_armed echoEnv hb hr⟩

/-- After the second round the reply waits in the output buffer of `4`, and `4`
is in the write set. -/
example : (echoRun.sockets 4).oBuf.content = [104, 105] ∧ echoRun.readSet 4 = true ∧
    echoRun.writeSet 4 = true := by
  decide

/-- A callback that closes a client is not `BuffersOnly`, and with one the writers
can be left unarmed. Listeners `3`, `4` and `7`; the host has called
`serverCloseSocket(6)` while `6` was no client. In one round `3` and `4` are
readable and `6` writable; both listeners accept `6`, the accept callback of `3`
closes the first client, and the write event of the second queues a byte. -/
def staleEnv : Env where
  socketMax := 1024
  select _ := ⟨3, [3, 4], [6], false⟩
  accept _ _ := .fd 6
  recv _ _ := (.failed, true)
  send _ _ := (.failed, true)
  callback _ ctx := match ctx.event with
    | .socketAccept => if ctx.sFd = 3 then [.closeSocket ctx.cFd] else []
    | .socketWrite => [.append .oBuf [120] true]
    | _ => []

def staleRun : World :=
  runCalls staleEnv [.setCallback true, .addServerSocket 3, .addServerSocket 4, .addServerSocket 7,
    .closeSocket 6, .exec] (serverPrepare World.zero)

example : ¬ staleEnv.BuffersOnly ∧ Reachable staleEnv staleRun ∧ ¬ Armed staleRun := by
  refine ⟨fun hb => ?_, reachable_runCalls _ _ .prepare, fun h => ?_⟩
  · exact absurd (hb World.zero ⟨.socketAccept, 3, 6, true⟩ (.closeSocket 6) (by simp [staleEnv]))
      (by decide)
  · have hs : staleRun.readSet 6 = true ∧ (staleRun.sockets 6).isServer = false ∧
        bufHasData (staleRun.sockets 6).oBuf = true ∧ staleRun.writeSet 6 = false := by
      decide
    exact absurd (h 6 hs.1 hs.2.1 hs.2.2.1) (by simp [hs.2.2.2])

end Vayu.Server
