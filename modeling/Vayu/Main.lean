import Vayu.Http.Provider

/-! # The main loop and its signals

`main` prepares the server and the provider, then runs `_exec` until no restart
is asked: each round sets `_active = 1` and `_restart = 0`, starts the server,
calls `serverExec` while `_active` holds and the result maps to `EXIT_OK`, and
stops the server. The handlers of SIGTERM, SIGINT and SIGHUP clear `_active` and
`_restart`; those of SIGUSR1 and SIGUSR2 clear `_active` and set `_restart`.

A handler runs between two statements of `main`, so a run is any interleaving of
its statements with handler calls. A signal delivered where main writes a flag
before it reads it again has no effect at all: in `_prepare`, at the check of
`_exitCode`, and at `_active = 1`. A restart asked between `_active = 1` and
`_restart = 0` ends the program. Anywhere else in the loop a restart request
brings main back to `_active = 1` within four statements, and a termination
request ends `main` within six. `_prepare` overwrites the provider's failure with
`EXIT_OK`, so `main` never returns `EXIT_ERROR_PROVIDER`, and runs the server
anyway. Main drives the server only through its calls, so every server world of
a run is one of the server model, and when `main` returns the server holds no
socket.

`main.c` reads a result of `serverStart()`, which `server.c` declares `void`;
the branch taken there is an answer of the environment, like the result of
`providerPrepare` and the host calls the script makes while it runs.
-/

namespace Vayu.Main
set_option autoImplicit false

open Vayu.Socket Vayu.Server

/-- `exitCode_t`. -/
inductive ExitCode
  | ok
  | errorServer
  | errorNoConnections
  | errorProvider
deriving DecidableEq, Repr

/-- `resultMapping[r]` in `_exec`. `serverExec` returns only 0, 1 or 2
(`serverExec_result`), so the last branch reads index 0. -/
def resultMapping (r : Int) : ExitCode :=
  if r = 1 then .ok else if r = 2 then .errorNoConnections else .errorServer

theorem resultMapping_ne_errorProvider (r : Int) : resultMapping r ≠ .errorProvider := by
  unfold resultMapping
  split_ifs <;> decide

theorem serverExec_result (e : Env) (w : World) :
    (serverExec e w).1 = 0 ∨ (serverExec e w).1 = 1 ∨ (serverExec e w).1 = 2 := by
  unfold serverExec
  dsimp only
  split_ifs <;> simp

/-- The statements of `main`, with `_prepare`, `_exec` and `_shutdown` inlined,
from `serverPrepare()` on: `_prepareSignals()` has installed the handlers. -/
inductive Pc
  | serverPrepare    -- serverPrepare();
  | providerPrepare  -- if(!providerPrepare(argc, argv)) _exitCode = EXIT_ERROR_PROVIDER;
  | prepared         -- _exitCode = EXIT_OK; at the end of _prepare
  | checkPrepared    -- if(_exitCode == EXIT_OK)
  | setActive        -- _active = 1;
  | clearRestart     -- _restart = 0;
  | start            -- if(serverStart())
  | loop             -- the read of _active in while(_active && ...)
  | exec             -- (_exitCode = resultMapping[serverExec()]) == EXIT_OK
  | stop             -- serverStop();
  | again            -- while(_restart);
  | shutdown         -- _shutdown(): providerShutdown(); serverShutdown(); the latter does nothing
  | exit             -- return _exitCode;
deriving DecidableEq, Repr

/-- The statics of `main.c`, the server's world, and the statement main runs next. -/
structure Process where
  pc : Pc
  active : Bool
  restart : Bool
  exitCode : ExitCode
  world : World

/-- `_exitCode = EXIT_OK`, `_restart = 0` and `_active = 1`, with the server's statics `w`. -/
def Process.init (w : World) : Process := ⟨.serverPrepare, true, false, .ok, w⟩

/-- What main reads from outside the model at a statement: the host calls the
script makes while `providerPrepare` runs it, and what `providerPrepare` or
`serverStart()` returned. -/
structure Answer where
  calls : List Call
  ok : Bool

/-- A turn: main runs its next statement, or a handler runs. -/
inductive Turn
  | next (a : Answer)
  | term     -- SIGTERM, SIGINT, SIGHUP
  | restart  -- SIGUSR1, SIGUSR2

/-- Both handlers clear `_active`; `_restart` is what they leave. -/
def handleSignal (restart : Bool) (m : Process) : Process := { m with active := false, restart := restart }

/-- `_termSignalHandler`. -/
def termSignalHandler : Process → Process := handleSignal false

/-- `_restartSignalHandler`. -/
def restartSignalHandler : Process → Process := handleSignal true

section run
variable (e : Env)

/-- The next statement of `main`. -/
def Process.next (m : Process) (a : Answer) : Process :=
  match m.pc with
  | .serverPrepare => { m with pc := .providerPrepare, world := serverPrepare m.world }
  | .providerPrepare =>
    { m with
      pc := .prepared
      exitCode := if a.ok then m.exitCode else .errorProvider
      world := runCalls e a.calls m.world }
  | .prepared => { m with pc := .checkPrepared, exitCode := .ok }
  | .checkPrepared => { m with pc := if m.exitCode = .ok then .setActive else .shutdown }
  | .setActive => { m with pc := .clearRestart, active := true }
  | .clearRestart => { m with pc := .start, restart := false }
  | .start => { m with pc := if a.ok then .loop else .stop, world := serverStart e m.world }
  | .loop => { m with pc := if m.active then .exec else .stop }
  | .exec =>
    { m with
      pc := if resultMapping (serverExec e m.world).1 = .ok then .loop else .stop
      exitCode := resultMapping (serverExec e m.world).1
      world := (serverExec e m.world).2 }
  | .stop => { m with pc := .again, world := serverStop e m.world }
  | .again => { m with pc := if m.restart then .setActive else .shutdown }
  | .shutdown => { m with pc := .exit }
  | .exit => m

/-- One turn; once main has returned, a signal finds no process. -/
def Process.step (m : Process) : Turn → Process
  | .next a => m.next e a
  | .term => if m.pc = .exit then m else termSignalHandler m
  | .restart => if m.pc = .exit then m else restartSignalHandler m

/-- A run: the turns in order. -/
def Process.run (ts : List Turn) (m : Process) : Process := ts.foldl (Process.step e) m

@[simp] theorem Process.run_nil (m : Process) : Process.run e [] m = m := rfl

@[simp] theorem Process.run_cons (t : Turn) (ts : List Turn) (m : Process) :
    Process.run e (t :: ts) m = Process.run e ts (m.step e t) := rfl

theorem Process.step_signal (m : Process) {t : Turn} (ht : t = .term ∨ t = .restart) :
    ∃ act rst : Bool, m.step e t = { m with active := act, restart := rst } := by
  by_cases h : m.pc = .exit
  · rcases ht with rfl | rfl <;> exact ⟨m.active, m.restart, if_pos h⟩
  · rcases ht with rfl | rfl
    exacts [⟨false, false, if_neg h⟩, ⟨false, true, if_neg h⟩]

theorem Process.step_cases (m : Process) (t : Turn) :
    (∃ a, m.step e t = m.next e a) ∨ ∃ act rst : Bool, m.step e t = { m with active := act, restart := rst } := by
  cases t with
  | next a => exact .inl ⟨a, rfl⟩
  | term => exact .inr (m.step_signal e (.inl rfl))
  | restart => exact .inr (m.step_signal e (.inr rfl))

/-- What an invariant kept by every turn holds along every run. -/
theorem Process.run_invariant {P : Process → Prop} (hP : ∀ m t, P m → P (m.step e t))
    (ts : List Turn) {m : Process} (h : P m) : P (Process.run e ts m) := by
  induction ts generalizing m with
  | nil => exact h
  | cons t ts ih => exact ih (hP m t h)

/-! ## Signals where no flag is read -/

/-- From this statement main reads `_active` before it writes it again. -/
def Pc.activeLive : Pc → Bool
  | .clearRestart | .start | .loop | .exec => true
  | _ => false

/-- From this statement main reads `_restart` before it writes it again. -/
def Pc.restartLive : Pc → Bool
  | .start | .loop | .exec | .stop | .again => true
  | _ => false

def Process.shown (m : Process) : Pc × ExitCode × World := (m.pc, m.exitCode, m.world)

/-- The process with each flag that main writes before it reads it cleared. -/
def Process.live (m : Process) : Process :=
  { m with
    active := m.pc.activeLive && m.active
    restart := m.pc.restartLive && m.restart }

theorem Process.shown_live (m : Process) : m.live.shown = m.shown := rfl

theorem Process.live_next (m : Process) (a : Answer) : (m.next e a).live = (m.live.next e a).live := by
  obtain ⟨pc, act, rst, code, w⟩ := m
  cases pc <;> try rfl
  case checkPrepared => cases code <;> rfl
  case again => cases rst <;> rfl

theorem Process.live_step {m m' : Process} (h : m.live = m'.live) (t : Turn) :
    (m.step e t).live = (m'.step e t).live := by
  cases t with
  | next a =>
    calc (m.next e a).live = (m.live.next e a).live := m.live_next e a
      _ = (m'.live.next e a).live := by rw [h]
      _ = (m'.next e a).live := (m'.live_next e a).symm
  | term | restart =>
    have hpc : m'.pc = m.pc := (congrArg Process.pc h).symm
    simp only [Process.step, hpc]
    split
    · exact h
    · show (handleSignal _ m.live).live = (handleSignal _ m'.live).live
      rw [h]

theorem Process.live_run {m m' : Process} (h : m.live = m'.live) (ts : List Turn) :
    (Process.run e ts m).live = (Process.run e ts m').live := by
  induction ts generalizing m m' with
  | nil => exact h
  | cons t ts ih => exact ih (Process.live_step e h t)

/-- A signal delivered where main reads neither flag before writing it (in
`_prepare`, at the check of `_exitCode`, at `_active = 1`, or once the loop is
left) is lost: whatever follows, the run shows the same statements, exit code
and server as without it. -/
theorem signal_lost {m : Process} (ha : m.pc.activeLive = false) (hr : m.pc.restartLive = false)
    {t : Turn} (ht : t = .term ∨ t = .restart) (ts : List Turn) :
    (Process.run e (t :: ts) m).shown = (Process.run e ts m).shown := by
  obtain ⟨act, rst, hs⟩ := m.step_signal e ht
  have h : (m.step e t).live = m.live := by
    rw [hs]
    simp [Process.live, ha, hr]
  rw [Process.run_cons, ← Process.shown_live, Process.live_run e h, Process.shown_live]

/-- Term at the start, followed by the preparation, a start that answers yes and
a round of `serverExec`. -/
theorem signal_lost_at_start :
    (Process.init World.zero).pc.activeLive = false ∧ (Process.init World.zero).pc.restartLive = false ∧
      (Process.run (Env.silent 1024) (.term :: List.replicate 9 (.next ⟨[], true⟩)) (Process.init World.zero)).shown =
        (Process.run (Env.silent 1024) (List.replicate 9 (.next ⟨[], true⟩)) (Process.init World.zero)).shown :=
  ⟨rfl, rfl, signal_lost (Env.silent 1024) (m := Process.init World.zero) rfl rfl (.inl rfl) _⟩

/-! ## What a signal does -/

/-- Statements main runs before `return` once both flags are clear, from
`_restart = 0` on; 7 stands for the statements before it. -/
def Pc.toExit : Pc → Nat
  | .exit => 0
  | .shutdown => 1
  | .again => 2
  | .stop => 3
  | .loop => 4
  | .start | .exec => 5
  | .clearRestart => 6
  | _ => 7

theorem Pc.toExit_le_of_live {pc : Pc} (h : pc.activeLive = true ∨ pc.restartLive = true) : pc.toExit ≤ 6 := by
  revert h
  cases pc <;> decide

theorem Pc.eq_exit_of_toExit {pc : Pc} (h : pc.toExit = 0) : pc = .exit := by
  revert h
  cases pc <;> decide

/-- Both flags clear, from `_restart = 0` on: main is on its way to `return`. -/
structure Process.Winding (m : Process) : Prop where
  active : m.active = false
  restart : m.restart = false
  toExit : m.pc.toExit ≤ 6

theorem Process.Winding.next {m : Process} (h : m.Winding) (a : Answer) :
    (m.next e a).Winding ∧ (m.next e a).pc.toExit ≤ m.pc.toExit - 1 := by
  obtain ⟨pc, act, rst, code, w⟩ := m
  obtain ⟨h1, h2, h3⟩ := h
  dsimp only at h1 h2 h3
  subst h1 h2
  cases pc <;> simp only [Pc.toExit] at h3 <;> (try omega) <;>
    simp only [Process.next, Bool.false_eq_true, ↓reduceIte] <;> (try split_ifs) <;>
    exact ⟨⟨rfl, rfl, by simp [Pc.toExit]⟩, by simp [Pc.toExit]⟩

theorem Process.Winding.run {m : Process} (h : m.Winding) (as : List Answer) (hn : m.pc.toExit ≤ as.length) :
    (Process.run e (as.map .next) m).pc = .exit := by
  induction as generalizing m with
  | nil => exact Pc.eq_exit_of_toExit (by simpa using hn)
  | cons a as ih =>
    obtain ⟨h', hle⟩ := h.next e a
    have hn' : (m.next e a).pc.toExit ≤ as.length := by simp only [List.length_cons] at hn; omega
    exact ih h' hn'

/-- A termination request delivered where main reads a flag before writing it
ends `main` within six statements, whatever the server answers. -/
theorem term_ends_main {m : Process} (hm : m.pc.activeLive = true ∨ m.pc.restartLive = true)
    (as : List Answer) (hn : 6 ≤ as.length) :
    (Process.run e (.term :: as.map .next) m).pc = .exit := by
  have hexit : m.pc ≠ .exit := by rintro h; simp [h, Pc.activeLive, Pc.restartLive] at hm
  have h6 := Pc.toExit_le_of_live hm
  rw [Process.run_cons, Process.step, if_neg hexit]
  exact Process.Winding.run e (m := termSignalHandler m) ⟨rfl, rfl, h6⟩ as (h6.trans hn)

/-- SIGTERM in `serverExec` ends main within six statements for any answers. -/
theorem term_ends_main_exec :
    (Pc.exec.activeLive = true ∨ Pc.exec.restartLive = true) ∧ 6 ≤ (List.replicate 6 (⟨[], true⟩ : Answer)).length ∧
      (Process.run (Env.silent 1024) (.term :: (List.replicate 6 ⟨[], true⟩).map .next)
        { Process.init World.zero with pc := .exec }).pc = .exit :=
  ⟨.inl rfl, le_rfl, term_ends_main (Env.silent 1024) (m := { Process.init World.zero with pc := .exec }) (.inl rfl) _ le_rfl⟩

/-- A restart asked between `_active = 1` and `_restart = 0` is cleared by
`_restart = 0` while `_active` stays clear: main leaves the loop and returns
within six statements instead of restarting the server. -/
theorem restart_lost_ends_main {m : Process} (hm : m.pc = .clearRestart) (as : List Answer) (hn : 6 ≤ as.length) :
    (Process.run e (.restart :: as.map .next) m).pc = .exit := by
  obtain _ | ⟨a, as⟩ := as
  · simp at hn
  have hexit : m.pc ≠ .exit := by simp [hm]
  have hw : ((restartSignalHandler m).next e a).Winding := by
    simp only [Process.next, restartSignalHandler, handleSignal, hm]
    exact ⟨rfl, rfl, by simp [Pc.toExit]⟩
  rw [Process.run_cons, Process.step, if_neg hexit, List.map_cons, Process.run_cons]
  refine Process.Winding.run e hw as ?_
  simp only [Process.next, restartSignalHandler, handleSignal, hm, Pc.toExit, List.length_cons] at hn ⊢
  omega

theorem restart_lost_ends_main_clearRestart :
    ({ Process.init World.zero with pc := .clearRestart } : Process).pc = .clearRestart ∧ 6 ≤ (List.replicate 6 (⟨[], true⟩ : Answer)).length ∧
      (Process.run (Env.silent 1024) (.restart :: (List.replicate 6 ⟨[], true⟩).map .next)
        { Process.init World.zero with pc := .clearRestart }).pc = .exit :=
  ⟨rfl, le_rfl, restart_lost_ends_main (Env.silent 1024) (m := { Process.init World.zero with pc := .clearRestart })
    rfl _ le_rfl⟩

/-- The server running simple_http, each call of the callback on a fresh `_socketList`. -/
def scriptEnv : Env :=
  { Env.silent 1024 with
    callback := fun w ctx =>
      (Http.luaCallback Http.silentRender true Http.SocketList.empty ctx (Http.contextInput w ctx)).2 }

theorem scriptEnv_runsScript : Http.RunsScript scriptEnv Http.silentRender true := fun _ _ => ⟨_, rfl⟩

/-- Main up to its first `serverExec()`: while `providerPrepare` runs it, the
script sets the callback and opens a listener on `3`; the server starts. -/
def startedRun : List Turn :=
  .next ⟨[], true⟩ :: .next ⟨[.setCallback true, .addServerSocket 3], true⟩ :: List.replicate 6 (.next ⟨[], true⟩)

def started : Process := Process.run scriptEnv startedRun (Process.init World.zero)

/-- Statements main runs before `_active = 1` once `_active` is clear and
`_restart` set, from `serverStart()` on; 5 stands for the others. -/
def Pc.toActive : Pc → Nat
  | .setActive => 0
  | .again => 1
  | .stop => 2
  | .loop => 3
  | .start | .exec => 4
  | _ => 5

theorem Pc.toActive_le_of_live {pc : Pc} (h : pc.restartLive = true) : pc.toActive ≤ 4 := by
  revert h
  cases pc <;> decide

/-- `_active` clear and `_restart` set, from `serverStart()` on: main is on its
way back to `_active = 1`. -/
structure Process.Rewinding (m : Process) : Prop where
  active : m.active = false
  restart : m.restart = true
  toActive : m.pc.toActive ≤ 4

theorem Pc.eq_again_of_toActive {pc : Pc} (h : pc.restartLive = true) (h1 : pc.toActive ≤ 1) : pc = .again := by
  revert h h1
  cases pc <;> decide

theorem Process.Rewinding.next {m : Process} (h : m.Rewinding) (hpc : m.pc ≠ .setActive) (a : Answer) :
    (m.next e a).Rewinding ∧ (m.next e a).pc.toActive < m.pc.toActive ∧
      ((m.next e a).pc.toActive ≤ 1 →
        m.pc = .stop ∧ (m.next e a).world = serverStop e m.world ∨ m.pc = .again ∧ (m.next e a).world = m.world) := by
  obtain ⟨pc, act, rst, code, w⟩ := m
  obtain ⟨h1, h2, h3⟩ := h
  dsimp only at h1 h2 h3 hpc
  subst h1 h2
  cases pc <;> simp only [Pc.toActive] at h3 <;> (try omega) <;> (try exact absurd rfl hpc) <;>
    simp only [Process.next, Bool.false_eq_true, ↓reduceIte] <;> (try split_ifs) <;>
    exact ⟨⟨rfl, rfl, by simp [Pc.toActive]⟩, by simp [Pc.toActive], by simp [Pc.toActive]⟩

/-- On the way back main reaches `_active = 1` within the measure; the server it
holds there is the one it held, if it started at `while(_restart)`, or else the
result of a `serverStop()` run on the way. -/
theorem Process.Rewinding.run {m : Process} (h : m.Rewinding) (as : List Answer) (hn : m.pc.toActive ≤ as.length) :
    ∃ k ≤ m.pc.toActive, (Process.run e ((as.take k).map .next) m).pc = .setActive ∧
      (m.pc.toActive ≤ 1 ∧ (Process.run e ((as.take k).map .next) m).world = m.world ∨
        ∃ j < k, (Process.run e ((as.take j).map .next) m).pc = .stop ∧
          (Process.run e ((as.take k).map .next) m).world =
            serverStop e (Process.run e ((as.take j).map .next) m).world) := by
  induction as generalizing m with
  | nil =>
    have h0 : m.pc.toActive = 0 := by simpa using hn
    exact ⟨0, Nat.zero_le _, by cases hpc : m.pc <;> simp_all [Pc.toActive], .inl ⟨by omega, rfl⟩⟩
  | cons a as ih =>
    by_cases hpc : m.pc = .setActive
    · exact ⟨0, Nat.zero_le _, hpc, .inl ⟨by simp [hpc, Pc.toActive], rfl⟩⟩
    obtain ⟨h', hlt, hlast⟩ := h.next e hpc a
    have hn' : (m.next e a).pc.toActive ≤ as.length := by simp only [List.length_cons] at hn; omega
    obtain ⟨k, hk, hrun, hw⟩ := ih h' hn'
    refine ⟨k + 1, by omega, hrun, ?_⟩
    rcases hw with ⟨h1, hw⟩ | ⟨j, hj, hstop, hw⟩
    · rcases hlast h1 with ⟨hs, hw'⟩ | ⟨ha, hw'⟩
      · exact .inr ⟨0, by omega, hs, hw.trans hw'⟩
      · exact .inl ⟨by simp [ha, Pc.toActive], hw.trans hw'⟩
    · exact .inr ⟨j + 1, by omega, hstop, hw⟩

/-- A restart request delivered where main reads `_restart` before writing it
brings main back to `_active = 1` within four statements, whatever the server
answers. On the way main runs `serverStop()` and leaves the server as that call
left it; delivered at `while(_restart)`, after the stop, the request leaves the
server as it is. -/
theorem restart_restarts_main {m : Process} (hm : m.pc.restartLive = true) (as : List Answer) (hn : 4 ≤ as.length) :
    ∃ k ≤ 4, (Process.run e (.restart :: (as.take k).map .next) m).pc = .setActive ∧
      (m.pc = .again ∧ (Process.run e (.restart :: (as.take k).map .next) m).world = m.world ∨
        ∃ j < k, (Process.run e (.restart :: (as.take j).map .next) m).pc = .stop ∧
          (Process.run e (.restart :: (as.take k).map .next) m).world =
            serverStop e (Process.run e (.restart :: (as.take j).map .next) m).world) := by
  have hexit : m.pc ≠ .exit := by rintro h; simp [h, Pc.restartLive] at hm
  have h4 := Pc.toActive_le_of_live hm
  have hs : ∀ ts, Process.run e (.restart :: ts) m = Process.run e ts (restartSignalHandler m) := fun ts => by
    rw [Process.run_cons, Process.step, if_neg hexit]
  obtain ⟨k, hk, hrun, hw⟩ := Process.Rewinding.run e (m := restartSignalHandler m) ⟨rfl, rfl, h4⟩ as (h4.trans hn)
  simp only [hs]
  refine ⟨k, hk.trans h4, hrun, hw.imp (fun ⟨h1, hw⟩ => ⟨Pc.eq_again_of_toActive hm h1, hw⟩) id⟩

/-- SIGUSR1 in the first `serverExec()` of a server with a listener and a
callback: main stops the server and is back at `_active = 1`. -/
theorem restart_restarts_main_exec :
    started.pc.restartLive = true ∧ 4 ≤ (List.replicate 4 (⟨[], true⟩ : Answer)).length ∧
      ∃ k ≤ 4, (Process.run scriptEnv (.restart :: ((List.replicate 4 ⟨[], true⟩).take k).map .next) started).pc =
          .setActive ∧
        (started.pc = .again ∧
            (Process.run scriptEnv (.restart :: ((List.replicate 4 ⟨[], true⟩).take k).map .next) started).world =
              started.world ∨
          ∃ j < k, (Process.run scriptEnv (.restart :: ((List.replicate 4 ⟨[], true⟩).take j).map .next)
              started).pc = .stop ∧
            (Process.run scriptEnv (.restart :: ((List.replicate 4 ⟨[], true⟩).take k).map .next) started).world =
              serverStop scriptEnv
                (Process.run scriptEnv (.restart :: ((List.replicate 4 ⟨[], true⟩).take j).map .next) started).world) :=
  ⟨rfl, le_rfl, restart_restarts_main scriptEnv (m := started) rfl _ le_rfl⟩

/-! ## Invariants of whole runs -/

/-- `_exitCode` is `EXIT_OK` at the check in `main`, and `EXIT_ERROR_PROVIDER`
only right after a failed `providerPrepare`. -/
def Process.ExitSound (m : Process) : Prop :=
  (m.pc = .checkPrepared → m.exitCode = .ok) ∧ (m.exitCode = .errorProvider → m.pc = .prepared)

theorem Process.exitSound_init (w : World) : (Process.init w).ExitSound :=
  ⟨fun _ => rfl, fun h => by cases h⟩

theorem Process.ExitSound.next {m : Process} (h : m.ExitSound) (a : Answer) : (m.next e a).ExitSound := by
  obtain ⟨pc, act, rst, code, w⟩ := m
  obtain ⟨h1, h2⟩ := h
  dsimp only at h1 h2
  cases pc
  case prepared => exact ⟨fun _ => rfl, fun h => by cases h⟩
  case checkPrepared =>
    rw [Process.next, h1 rfl, if_pos rfl]
    exact ⟨fun h => (by cases h), fun h => (by cases h)⟩
  all_goals
    refine ⟨fun hp => ?_, fun hc => ?_⟩
    · simp only [Process.next] at hp
      (try split_ifs at hp) <;> cases hp
    · simp only [Process.next] at hc
      first
        | exact absurd hc (resultMapping_ne_errorProvider _)
        | cases h2 hc
        | rfl

theorem Process.ExitSound.step {m : Process} (h : m.ExitSound) (t : Turn) : (m.step e t).ExitSound := by
  rcases m.step_cases e t with ⟨a, hs⟩ | ⟨act, rst, hs⟩ <;> rw [hs]
  exacts [h.next e a, h]

/-- Main has not run yet on the zeroed statics, or the server's world is one of
the server model. -/
def Process.Driven (m : Process) : Prop :=
  m.pc = .serverPrepare ∧ m.world = World.zero ∨ Reachable e m.world

theorem Process.Driven.next {m : Process} (h : m.Driven e) (a : Answer) : (m.next e a).Driven e := by
  obtain ⟨pc, act, rst, code, w⟩ := m
  refine .inr ?_
  rcases h with ⟨hpc, hw⟩ | hr
  · dsimp only at hpc hw
    subst hpc hw
    exact .prepare
  · cases pc <;> simp only [Process.next] <;> first
      | exact hr
      | exact .step .prepare hr
      | exact .step .start hr
      | exact .step .exec hr
      | exact .step .stop hr
      | exact reachable_runCalls e _ hr

theorem Process.Driven.step {m : Process} (h : m.Driven e) (t : Turn) : (m.step e t).Driven e := by
  rcases m.step_cases e t with ⟨a, hs⟩ | ⟨act, rst, hs⟩ <;> rw [hs]
  exacts [h.next e a, h]

/-- Main drives the server only through the calls of its API: from
`serverPrepare` on, every server world of every run is a world of the server
model, so every invariant of the server holds along the whole program. -/
theorem main_worlds_reachable (ts : List Turn)
    (h : (Process.run e ts (Process.init World.zero)).pc ≠ .serverPrepare) :
    Reachable e (Process.run e ts (Process.init World.zero)).world := by
  rcases Process.run_invariant e (P := Process.Driven e) (fun m t hm => hm.step e t) ts
    (m := Process.init World.zero) (.inl ⟨rfl, rfl⟩) with ⟨hpc, -⟩ | hr
  · exact absurd hpc h
  · exact hr

theorem main_worlds_reachable_first :
    (Process.run (Env.silent 1024) [.next ⟨[.addServerSocket 3], true⟩] (Process.init World.zero)).pc ≠
        .serverPrepare ∧
      Reachable (Env.silent 1024)
        (Process.run (Env.silent 1024) [.next ⟨[.addServerSocket 3], true⟩] (Process.init World.zero)).world :=
  ⟨by decide, main_worlds_reachable (Env.silent 1024) _ (by decide)⟩

/-- From `while(_restart)` on, the server holds no socket and `_highestSocket` is invalid. -/
def Process.Emptied (m : Process) : Prop :=
  m.pc = .again ∨ m.pc = .shutdown ∨ m.pc = .exit →
    (∀ fd, m.world.readSet fd = false) ∧ m.world.highest = invalidSocket

section stop
variable {e} (hc : e.OpensNoneOn .socketClose) (hs : e.OpensNoneOn .stop)
include hc hs

theorem serverStop_empty {w : World} (h : Reachable e w) :
    (∀ fd, (serverStop e w).readSet fd = false) ∧ (serverStop e w).highest = invalidSocket := by
  have hr := h.registry
  obtain ⟨h1, h2, -⟩ := removeAllSockets_spec hc e.socketMax hr le_rfl
    (fun g hg => (hr.active_range g hg).1) (by simpa using hr.highest_lt)
  obtain ⟨hr', hh', -⟩ := invokeCallback_of_opensNone e (show e.OpensNoneOn stopCtx.event from hs) rfl
    (removeAllSockets e e.socketMax 0 w)
  exact ⟨fun fd => (congrFun hr' fd).trans (h1 fd), hh'.trans h2⟩

theorem Process.Emptied.next {m : Process} (hx : m.ExitSound) (hd : m.Driven e) (h : m.Emptied) (a : Answer) :
    (m.next e a).Emptied := by
  obtain ⟨pc, act, rst, code, w⟩ := m
  cases pc
  case stop => exact fun _ => serverStop_empty hc hs (hd.resolve_left (by simp))
  case checkPrepared =>
    rw [Process.next, hx.1 rfl, if_pos rfl]
    simp [Process.Emptied]
  all_goals
    intro hp
    simp only [Process.next] at hp
    (try split_ifs at hp) <;> simp at hp <;> exact h (by simp)

theorem Process.Emptied.step {m : Process} (hx : m.ExitSound) (hd : m.Driven e) (h : m.Emptied) (t : Turn) :
    (m.step e t).Emptied := by
  rcases m.step_cases e t with ⟨a, hs'⟩ | ⟨act, rst, hs'⟩ <;> rw [hs']
  exacts [h.next hc hs hx hd a, h]

/-- When `main` returns, after any interleaving of signals and whatever the
provider and the kernel answered, the server holds no socket and
`_highestSocket` is invalid, as long as no `socket_close` or `stop` callback
opens a server socket. -/
theorem main_exit_empty (ts : List Turn) (h : (Process.run e ts (Process.init World.zero)).pc = .exit) :
    (∀ fd, (Process.run e ts (Process.init World.zero)).world.readSet fd = false) ∧
      (Process.run e ts (Process.init World.zero)).world.highest = invalidSocket := by
  have hinv := Process.run_invariant e (P := fun m => m.ExitSound ∧ m.Driven e ∧ m.Emptied)
    (fun m t ⟨hx, hd, he⟩ => ⟨hx.step e t, hd.step e t, he.step hc hs hx hd t⟩) ts
    ⟨Process.exitSound_init _, .inl ⟨rfl, rfl⟩, fun hp => by simp [Process.init] at hp⟩
  exact hinv.2.2 (.inr (.inr h))

end stop

/-- SIGTERM in the first `serverExec()`: main stops the server and returns. -/
def termInLoop : List Turn := startedRun ++ .term :: List.replicate 5 (.next ⟨[], true⟩)

theorem main_exit_empty_termInLoop :
    scriptEnv.OpensNoneOn .socketClose ∧ scriptEnv.OpensNoneOn .stop ∧
      (Process.run scriptEnv termInLoop (Process.init World.zero)).pc = .exit ∧
      (∀ fd, (Process.run scriptEnv termInLoop (Process.init World.zero)).world.readSet fd = false) ∧
      (Process.run scriptEnv termInLoop (Process.init World.zero)).world.highest = invalidSocket :=
  ⟨scriptEnv_runsScript.opensNoneOn _, scriptEnv_runsScript.opensNoneOn _, rfl,
    main_exit_empty (scriptEnv_runsScript.opensNoneOn _) (scriptEnv_runsScript.opensNoneOn _) termInLoop rfl⟩

end run

end Vayu.Main
