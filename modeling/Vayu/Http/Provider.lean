import Vayu.Http.Accept
import Vayu.Server.Stop

/-! # The Lua provider under simple_http

`_luaCallback` of the Lua provider calls the script's callback under
`lua_pcall` with the event context as a table: `iBuf` and `oBuf` are `nil`
without buffers (`_pushBuf`), and `iBuf:extract()` returns `nil` when the buffer
has no data (`_luaBufExtract`). When the script raises, the provider logs the
message and closes the client softly with `serverCloseSocket(cFd)`. A request
that the parser rejects is therefore never answered with its error code: the
script raises on the missing request, and the provider closes the connection.
-/

namespace Vayu.Http
set_option autoImplicit false

open Vayu.Buffer Vayu.Lua Vayu.Socket Vayu.Server

/-- `context.iBuf:extract()` of the script: `_luaBufExtract` hands the bytes of
a buffer with data, `nil` otherwise, and `context.iBuf` is `nil` itself without
buffers. -/
def extractInput (iBuf : Option Buf) : Option Bytes :=
  (iBuf.filter bufHasData).map fun b => (bufExtract b).1

/-- The script's callback as the provider runs it. On `socket_read` the parser
of the client is stored first; without input bytes `parser.exec(nil)` (or the
index of a `nil` `iBuf`) raises before any API call. -/
def scriptCallback (R : Render) (allocOk : Bool) (sl : SocketList) (ctx : Ctx) (iBuf : Option Buf) :
    SocketList × Effect :=
  if ctx.event = .socketRead then
    match extractInput iBuf with
    | some d => callback R allocOk sl ctx d
    | none => (Function.update sl ctx.cFd (some ((sl ctx.cFd).getD (Parser.new none))), ⟨[], [], true⟩)
  else callback R allocOk sl ctx []

/-- `_luaCallback`: the script's API calls, then `serverCloseSocket(cFd)` when
it raised. -/
def luaCallback (R : Render) (allocOk : Bool) (sl : SocketList) (ctx : Ctx) (iBuf : Option Buf) :
    SocketList × List Action :=
  let r := scriptCallback R allocOk sl ctx iBuf
  (r.1, r.2.actions ++ if r.2.raised then [.closeSocket ctx.cFd] else [])

/-- The buffers `_pushContext` passes for an event of the server. -/
def contextInput (w : World) (ctx : Ctx) : Option Buf :=
  if ctx.buffers then some (w.sockets ctx.cFd).iBuf else none

/-- The server runs simple_http: every answer of its callback is that of
`_luaCallback` for some state of `_socketList`. -/
def RunsScript (e : Env) (R : Render) (allocOk : Bool) : Prop :=
  ∀ w ctx, ∃ sl, e.callback w ctx = (luaCallback R allocOk sl ctx (contextInput w ctx)).2

section provider
variable (R : Render) (allocOk : Bool) (sl : SocketList)

theorem extractInput_eq_some {iBuf : Option Buf} {d : Bytes} (h : extractInput iBuf = some d) :
    ∃ b, iBuf = some b ∧ bufHasData b = true ∧ d = b.content := by
  rcases iBuf with _ | b
  · cases h
  · by_cases hb : bufHasData b = true
    · simp [extractInput, Option.filter, hb, bufExtract] at h
      exact ⟨b, rfl, hb, h.symm⟩
    · simp [extractInput, Option.filter, hb] at h

theorem extractInput_some {b : Buf} (hb : bufHasData b = true) : extractInput (some b) = some b.content := by
  simp [extractInput, Option.filter, hb, bufExtract]

theorem scriptCallback_of_data {ctx : Ctx} {b : Buf} (hb : bufHasData b = true) :
    scriptCallback R allocOk sl ctx (some b) = callback R allocOk sl ctx b.content := by
  unfold scriptCallback
  split
  · rw [extractInput_some hb]
  · rw [callback_of_ne R allocOk sl ‹_›, callback_of_ne R allocOk sl ‹_›]

theorem luaCallback_of_none {ctx : Ctx} (hread : ctx.event = .socketRead) {iBuf : Option Buf}
    (hi : extractInput iBuf = none) :
    luaCallback R allocOk sl ctx iBuf =
      (Function.update sl ctx.cFd (some ((sl ctx.cFd).getD (Parser.new none))), [.closeSocket ctx.cFd]) := by
  simp [luaCallback, scriptCallback, hread, hi]

theorem luaCallback_of_ne {ctx : Ctx} (h : ctx.event ≠ .socketRead) (iBuf : Option Buf) :
    luaCallback R allocOk sl ctx iBuf = (sl, []) := by
  simp [luaCallback, scriptCallback, h, callback_of_ne R allocOk sl h]

theorem exec_fst_of_error {d : Bytes} {p : Parser} (h : (exec d p).2.status = .error) : (exec d p).1 = false := by
  revert h
  unfold exec
  dsimp only
  split
  · intro; rfl
  · split
    · next hne => intro h; exact absurd h hne.2
    · intro; rfl

theorem luaCallback_rejected {ctx : Ctx} (hread : ctx.event = .socketRead) {b : Buf} (hb : bufHasData b = true)
    (herr : (exec b.content ((sl ctx.cFd).getD (Parser.new none))).2.status = .error) :
    luaCallback R allocOk sl ctx (some b) =
      (Function.update sl ctx.cFd (some (exec b.content ((sl ctx.cFd).getD (Parser.new none))).2),
        [.extract .iBuf, .closeSocket ctx.cFd]) := by
  have hnone : (exec b.content ((sl ctx.cFd).getD (Parser.new none))).2.getRequest = none := by
    simp [Parser.getRequest, herr]
  simp only [luaCallback, scriptCallback_of_data R allocOk sl hb]
  rw [callback_stop R allocOk sl hread (exec_fst_of_error herr)]
  simp only [handleRequest_of_none R allocOk _ hnone]
  rfl

/-- Whatever the state of the script, a request that the parser rejects, with
any of its error codes, is not answered: no bytes are appended to the output,
the client is closed, and its failed parser stays in `_socketList`. -/
theorem luaCallback_error_closes {ctx : Ctx} (hread : ctx.event = .socketRead) {b : Buf}
    (hb : bufHasData b = true)
    (herr : (exec b.content ((sl ctx.cFd).getD (Parser.new none))).2.status = .error) :
    (∀ d ok, Action.append .oBuf d ok ∉ (luaCallback R allocOk sl ctx (some b)).2) ∧
      Action.closeSocket ctx.cFd ∈ (luaCallback R allocOk sl ctx (some b)).2 ∧
      Poisoned (luaCallback R allocOk sl ctx (some b)).1 ctx.cFd := by
  rw [luaCallback_rejected R allocOk sl hread hb herr]
  exact ⟨by simp, by simp, ⟨_, Function.update_same _ _ _, herr⟩⟩

theorem luaCallback_poisoned {fd : Int} (h : Poisoned sl fd) (ctx : Ctx) (iBuf : Option Buf) :
    Poisoned (luaCallback R allocOk sl ctx iBuf).1 fd ∧
      (ctx.cFd = fd → ctx.event = .socketRead →
        (luaCallback R allocOk sl ctx iBuf).2 = [.closeSocket fd] ∨
          (luaCallback R allocOk sl ctx iBuf).2 = [.extract .iBuf, .closeSocket fd]) := by
  obtain ⟨p, hp, herr⟩ := h
  by_cases hread : ctx.event = .socketRead
  swap
  · rw [luaCallback_of_ne R allocOk sl hread]
    exact ⟨⟨p, hp, herr⟩, fun _ h => absurd h hread⟩
  cases hi : extractInput iBuf with
  | none =>
    rw [luaCallback_of_none R allocOk sl hread hi]
    refine ⟨⟨p, ?_, herr⟩, fun hfd _ => .inl (by rw [hfd])⟩
    rcases eq_or_ne ctx.cFd fd with rfl | hfd
    · simp [hp]
    · exact (Function.update_noteq (Ne.symm hfd) _ _).trans hp
  | some d =>
    obtain ⟨b, rfl, hb, rfl⟩ := extractInput_eq_some hi
    rcases eq_or_ne ctx.cFd fd with rfl | hfd
    · have herr' : (exec b.content ((sl ctx.cFd).getD (Parser.new none))).2.status = .error := by
        rw [hp]; exact (exec_of_error herr b.content).2.1
      rw [luaCallback_rejected R allocOk sl hread hb herr']
      exact ⟨⟨_, Function.update_same _ _ _, herr'⟩, fun _ _ => .inr rfl⟩
    · refine ⟨⟨p, ?_, herr⟩, fun h => absurd h hfd⟩
      simp only [luaCallback, scriptCallback_of_data R allocOk sl hb]
      rw [callback_other R allocOk sl _ (Ne.symm hfd), hp]

theorem handleRequest_opensNone {cFd : Int} {p : Parser} :
    ∀ a ∈ (handleRequest R allocOk cFd p sl).2.1, a.opensNone = true := by
  unfold handleRequest
  dsimp only
  split
  · simp
  · split_ifs <;> simp [Action.opensNone]

theorem callback_opensNone {ctx : Ctx} {d : Bytes} :
    ∀ a ∈ (callback R allocOk sl ctx d).2.actions, a.opensNone = true := by
  unfold callback
  split
  · dsimp only
    split
    · intro a ha
      rcases List.mem_cons.mp ha with rfl | ha
      · rfl
      · exact handleRequest_opensNone R allocOk _ a ha
    · simp [Action.opensNone]
  · simp

theorem luaCallback_opensNone {ctx : Ctx} {iBuf : Option Buf} :
    ∀ a ∈ (luaCallback R allocOk sl ctx iBuf).2, a.opensNone = true := by
  intro a ha
  simp only [luaCallback, List.mem_append] at ha
  rcases ha with ha | ha
  · unfold scriptCallback at ha
    split at ha
    · split at ha
      · exact callback_opensNone R allocOk sl a ha
      · cases ha
    · exact callback_opensNone R allocOk sl a ha
  · split at ha <;> simp_all [Action.opensNone]

end provider

theorem RunsScript.opensNoneOn {e : Env} {R : Render} {allocOk : Bool} (h : RunsScript e R allocOk)
    (ev : Event) : e.OpensNoneOn ev := by
  intro w ctx _ a ha
  obtain ⟨sl, hsl⟩ := h w ctx
  rw [hsl] at ha
  exact luaCallback_opensNone R allocOk sl a ha

/-- The provider over a history of events, each with the input buffer
`_pushContext` passes: the final `_socketList` and the host calls of each
event. -/
def runProvider (R : Render) (allocOk : Bool) : List (Ctx × Option Buf) → SocketList → SocketList × List (List Action)
  | [], sl => (sl, [])
  | (ctx, iBuf) :: ds, sl =>
    let r := luaCallback R allocOk sl ctx iBuf
    let rest := runProvider R allocOk ds r.1
    (rest.1, r.2 :: rest.2)

/-- Once the parser of a descriptor has failed, every later read on it, in this
connection or any later one on the same descriptor, is answered only by closing
the client, never by a response. -/
theorem runProvider_poisoned_closes (R : Render) (allocOk : Bool) {sl : SocketList} {fd : Int}
    (h : Poisoned sl fd) (ds : List (Ctx × Option Buf)) :
    ∀ x ∈ ds.zip (runProvider R allocOk ds sl).2, x.1.1.cFd = fd → x.1.1.event = .socketRead →
      x.2 = [.closeSocket fd] ∨ x.2 = [.extract .iBuf, .closeSocket fd] := by
  induction ds generalizing sl with
  | nil => simp
  | cons d ds ih =>
    obtain ⟨ctx, iBuf⟩ := d
    obtain ⟨h1, h2⟩ := luaCallback_poisoned R allocOk sl h ctx iBuf
    intro x hx
    simp only [runProvider, List.zip_cons_cons, List.mem_cons] at hx
    rcases hx with rfl | hx
    · exact h2
    · exact ih h1 x hx

/-- A new connection on `4` asks for the method `BREW`, which `_checkHeader`
rejects with `501`. -/
theorem luaCallback_error_closes_brew :
    (⟨.socketRead, invalidSocket, 4, true⟩ : Ctx).event = .socketRead ∧
    bufHasData ⟨some (bytesOf "BREW / HTTP/1.0\r\n\r\n"), 19, 1024⟩ = true ∧
    (exec (Buf.content ⟨some (bytesOf "BREW / HTTP/1.0\r\n\r\n"), 19, 1024⟩)
      ((SocketList.empty 4).getD (Parser.new none))).2.status = .error ∧
    (∀ d ok, Action.append .oBuf d ok ∉ (luaCallback silentRender true SocketList.empty ⟨.socketRead, invalidSocket, 4, true⟩
      (some ⟨some (bytesOf "BREW / HTTP/1.0\r\n\r\n"), 19, 1024⟩)).2) ∧
    Action.closeSocket 4 ∈ (luaCallback silentRender true SocketList.empty ⟨.socketRead, invalidSocket, 4, true⟩
      (some ⟨some (bytesOf "BREW / HTTP/1.0\r\n\r\n"), 19, 1024⟩)).2 ∧
    Poisoned (luaCallback silentRender true SocketList.empty ⟨.socketRead, invalidSocket, 4, true⟩
      (some ⟨some (bytesOf "BREW / HTTP/1.0\r\n\r\n"), 19, 1024⟩)).1 4 :=
  have hb : bufHasData ⟨some (bytesOf "BREW / HTTP/1.0\r\n\r\n"), 19, 1024⟩ = true := by decide
  have herr : (exec (Buf.content ⟨some (bytesOf "BREW / HTTP/1.0\r\n\r\n"), 19, 1024⟩)
      ((SocketList.empty 4).getD (Parser.new none))).2.status = .error := by decide
  ⟨rfl, hb, herr, luaCallback_error_closes silentRender true SocketList.empty rfl hb herr⟩

def failedFour : SocketList := fun g => if g = 4 then some ((Parser.new none).setError 400) else none

/-- A new connection on `4` sends a whole request; the provider closes it. -/
theorem runProvider_poisoned_closes_four :
    Poisoned failedFour 4 ∧
      ∀ x ∈ [((⟨.socketRead, invalidSocket, 4, true⟩ : Ctx),
          some (⟨some (bytesOf "GET / HTTP/1.0\r\n\r\n"), 18, 1024⟩ : Buf))].zip
          (runProvider silentRender true [(⟨.socketRead, invalidSocket, 4, true⟩,
            some ⟨some (bytesOf "GET / HTTP/1.0\r\n\r\n"), 18, 1024⟩)] failedFour).2,
        x.1.1.cFd = 4 → x.1.1.event = .socketRead →
          x.2 = [.closeSocket 4] ∨ x.2 = [.extract .iBuf, .closeSocket 4] :=
  have hp : Poisoned failedFour 4 := ⟨(Parser.new none).setError 400, by simp [failedFour], rfl⟩
  ⟨hp, runProvider_poisoned_closes silentRender true hp _⟩

end Vayu.Http
