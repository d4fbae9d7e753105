import Vayu.Http.Pipeline
import Vayu.Server.State

/-! # The simple_http script

The callback of the simple_http script. On `socket_read` it takes the parser of
the client from `_socketList`, creating one on first use, and executes it on
the bytes of `context.iBuf:extract()`; once the parser stops, `_handleRequest`
appends the response and then either closes the connection and forgets the
parser, or resets the parser for the next request. Every other event is
ignored (`idle` collects garbage, which changes nothing modelled here); in
particular `socket_close` leaves the parser of its descriptor in place, and the
next connection on that descriptor inherits it.

`_serialize` and `httpResponseBuilder.buildResponse` walk tables with `pairs`,
whose order Lua 5.2 leaves to the hash seed of the state. Their bytes are a
parameter, `Render`, and every result below holds for each choice.
-/

namespace Vayu.Http
set_option autoImplicit false

open Vayu.Buffer Vayu.Lua Vayu.Socket Vayu.Server

/-- `_socketList`: the parser of each client descriptor, `none` for `nil`. -/
abbrev SocketList := Int → Option Parser

def SocketList.empty : SocketList := fun _ => none

/-- The `response` table of `_handleRequest`. -/
structure Response where
  status : Nat
  headers : Headers
  body : Bytes
deriving DecidableEq, Repr

/-- The bytes of `_serialize(request)` and of
`httpResponseBuilder.buildResponse(response, version)`. -/
structure Render where
  serialize : Option Request → Bytes
  buildResponse : Response → Option LuaNum → Bytes

/-- What one call of the callback did: the server API calls it made, the
requests `_handleRequest` was called with (`parser.getRequest()`), and whether
Lua raised an error. -/
structure Effect where
  actions : List Action
  handled : List (Option Request)
  raised : Bool
deriving DecidableEq, Repr

def Effect.appended (e : Effect) : List Bytes :=
  e.actions.filterMap fun
    | .append .oBuf d _ => some d
    | _ => none

/-- The default `response` of `_handleRequest`. -/
def defaultResponse (R : Render) (request : Option Request) : Response :=
  ⟨200, [(bytesOf "content-type", .str (bytesOf "text/plain"))], R.serialize request⟩

/-- The `connection` header `_handleRequest` adds: `close` without keep-alive,
`Keep-Alive` to a 1.0 request that keeps it. -/
def connectionHeader (keepAlive : Bool) (request : Request) (response : Response) : Response :=
  if !keepAlive then
    { response with headers := response.headers.set (bytesOf "connection") (some (.str (bytesOf "close"))) }
  else if isVersion request.version version10 then
    { response with headers := response.headers.set (bytesOf "connection") (some (.str (bytesOf "Keep-Alive"))) }
  else response

/-- `_handleRequest(context, parser)`, given `_socketList` and the allocator's
answer to the append: the new `_socketList`, the API calls, and whether Lua
raised an error. Without a request, `request.version` indexes `nil` (in the
`elseif`, or in the call of `buildResponse`) before anything is appended. -/
def handleRequest (R : Render) (allocOk : Bool) (cFd : Int) (parser : Parser) (sl : SocketList) :
    SocketList × List Action × Bool :=
  let request := parser.getRequest
  let keepAlive := if parser.getIterations > 5 then false else parser.shouldKeepAlive
  match request with
  | none => (sl, [], true)
  | some r =>
    let response := connectionHeader keepAlive r (defaultResponse R request)
    let append : Action := .append .oBuf (R.buildResponse response r.version) allocOk
    if !keepAlive then (Function.update sl cFd none, [append, .closeSocket cFd], false)
    else (Function.update sl cFd (some parser.reset), [append], false)

/-- The callback of the script, given `_socketList` and the bytes that
`context.iBuf:extract()` returns. -/
def callback (R : Render) (allocOk : Bool) (sl : SocketList) (ctx : Ctx) (iBuf : Bytes) :
    SocketList × Effect :=
  if ctx.event = .socketRead then
    let r := exec iBuf ((sl ctx.cFd).getD (Parser.new none))
    let sl := Function.update sl ctx.cFd (some r.2)
    if !r.1 then
      let h := handleRequest R allocOk ctx.cFd r.2 sl
      (h.1, ⟨.extract .iBuf :: h.2.1, [r.2.getRequest], h.2.2⟩)
    else (sl, ⟨[.extract .iBuf], [], false⟩)
  else (sl, ⟨[], [], false⟩)

/-- A call of the callback: its context, and the bytes in `iBuf`. -/
abbrev Delivery := Ctx × Bytes

/-- The script over a history of deliveries: the final `_socketList` and the
effect of each call. -/
def runScript (R : Render) (allocOk : Bool) : List Delivery → SocketList → SocketList × List Effect
  | [], sl => (sl, [])
  | (ctx, d) :: ds, sl =>
    let r := callback R allocOk sl ctx d
    let rest := runScript R allocOk ds r.1
    (rest.1, r.2 :: rest.2)

/-! ## One call of the callback -/

section step
variable (R : Render) (allocOk : Bool) (sl : SocketList)

/-- Events other than `socket_read` change nothing; `socket_close` keeps the parser. -/
theorem callback_of_ne {ctx : Ctx} (h : ctx.event ≠ .socketRead) (d : Bytes) :
    callback R allocOk sl ctx d = (sl, ⟨[], [], false⟩) := by
  simp [callback, h]

theorem callback_more {ctx : Ctx} (h : ctx.event = .socketRead) {d : Bytes}
    (hm : (exec d ((sl ctx.cFd).getD (Parser.new none))).1 = true) :
    callback R allocOk sl ctx d =
      (Function.update sl ctx.cFd (some (exec d ((sl ctx.cFd).getD (Parser.new none))).2),
        ⟨[.extract .iBuf], [], false⟩) := by
  simp [callback, h, hm]

theorem callback_stop {ctx : Ctx} (h : ctx.event = .socketRead) {d : Bytes}
    (hm : (exec d ((sl ctx.cFd).getD (Parser.new none))).1 = false) :
    let p := (exec d ((sl ctx.cFd).getD (Parser.new none))).2
    let r := handleRequest R allocOk ctx.cFd p (Function.update sl ctx.cFd (some p))
    callback R allocOk sl ctx d = (r.1, ⟨.extract .iBuf :: r.2.1, [p.getRequest], r.2.2⟩) := by
  simp [callback, h, hm]

theorem handleRequest_of_none {cFd : Int} {p : Parser} (h : p.getRequest = none) :
    handleRequest R allocOk cFd p sl = (sl, [], true) := by
  simp [handleRequest, h]

theorem handleRequest_keepAlive {cFd : Int} {p : Parser} {r : Request} (h : p.getRequest = some r)
    (hk : (if p.getIterations > 5 then false else p.shouldKeepAlive) = true) :
    handleRequest R allocOk cFd p sl =
      (Function.update sl cFd (some p.reset),
        [.append .oBuf (R.buildResponse (connectionHeader true r (defaultResponse R (some r))) r.version) allocOk],
        false) := by
  simp only [handleRequest, h, hk]
  rfl

theorem handleRequest_other {cFd g : Int} (p : Parser) (hg : g ≠ cFd) :
    (handleRequest R allocOk cFd p sl).1 g = sl g := by
  unfold handleRequest
  dsimp only
  split
  · rfl
  · split_ifs <;> exact Function.update_noteq hg _ _

theorem callback_other {ctx : Ctx} (d : Bytes) {g : Int} (hg : g ≠ ctx.cFd) :
    (callback R allocOk sl ctx d).1 g = sl g := by
  unfold callback
  split
  · dsimp only
    split
    · rw [handleRequest_other R allocOk _ _ hg, Function.update_noteq hg]
    · exact Function.update_noteq hg _ _
  · rfl

end step

/-! ## Descriptor reuse -/

/-- The parser `_socketList` holds for `fd` is in the error state. -/
def Poisoned (sl : SocketList) (fd : Int) : Prop := ∃ p, sl fd = some p ∧ p.status = .error

section poisoned
variable (R : Render) (allocOk : Bool)

theorem callback_poisoned {sl : SocketList} {fd : Int} (h : Poisoned sl fd) (ctx : Ctx) (d : Bytes) :
    Poisoned (callback R allocOk sl ctx d).1 fd ∧
      (ctx.cFd = fd → (callback R allocOk sl ctx d).2.appended = []) := by
  obtain ⟨p, hp, herr⟩ := h
  by_cases hread : ctx.event = .socketRead
  · by_cases hfd : ctx.cFd = fd
    · subst hfd
      obtain ⟨hstop, hs, -⟩ := exec_of_error herr d
      have hstop' : (exec d ((sl ctx.cFd).getD (Parser.new none))).1 = false := by rw [hp]; exact hstop
      rw [callback_stop R allocOk sl hread hstop']
      simp only [hp, Option.getD_some]
      rw [handleRequest_of_none R allocOk _ (by simp [Parser.getRequest, hs])]
      exact ⟨⟨_, Function.update_same _ _ _, hs⟩, fun _ => rfl⟩
    · exact ⟨⟨p, by rw [callback_other R allocOk sl d (Ne.symm hfd)]; exact hp, herr⟩, fun h => absurd h hfd⟩
  · rw [callback_of_ne R allocOk sl hread]
    exact ⟨⟨p, hp, herr⟩, fun _ => rfl⟩

/-- Once the parser of `fd` has failed, no later delivery on `fd`, in any later
connection on that descriptor, gets a response. -/
theorem runScript_poisoned {sl : SocketList} {fd : Int} (h : Poisoned sl fd) (ds : List Delivery) :
    Poisoned (runScript R allocOk ds sl).1 fd ∧
      ∀ x ∈ ds.zip (runScript R allocOk ds sl).2, x.1.1.cFd = fd → x.2.appended = [] := by
  induction ds generalizing sl with
  | nil => exact ⟨h, by simp⟩
  | cons d ds ih =>
    obtain ⟨ctx, b⟩ := d
    obtain ⟨h1, h2⟩ := callback_poisoned R allocOk h ctx b
    obtain ⟨ih1, ih2⟩ := ih h1
    refine ⟨ih1, fun x hx hfd => ?_⟩
    simp only [runScript, List.zip_cons_cons, List.mem_cons] at hx
    rcases hx with rfl | hx
    · exact h2 hfd
    · exact ih2 x hx hfd

end poisoned

def getRoot10 : Request := ⟨bytesOf "get", bytesOf "/", some ⟨10, -1⟩, [], []⟩

/-- An earlier connection on `4` sends half a request line and ends: its peer
closes, and the server removes the socket and announces `socket_close`. -/
def halfLineConnection : List Delivery :=
  [(⟨.socketAccept, 3, 4, true⟩, []), (⟨.socketRead, invalidSocket, 4, true⟩, bytesOf "GET / HT"),
    (⟨.socketClose, invalidSocket, 4, false⟩, [])]

def rootConnection : List Delivery :=
  [(⟨.socketAccept, 3, 4, true⟩, []),
    (⟨.socketRead, invalidSocket, 4, true⟩, bytesOf "GET / HTTP/1.0\r\n\r\n")]

theorem exec_root_fresh :
    (exec (bytesOf "GET / HTTP/1.0\r\n\r\n") (Parser.new none)).1 = false ∧
    (exec (bytesOf "GET / HTTP/1.0\r\n\r\n") (Parser.new none)).2.getRequest = some getRoot10 ∧
    (exec (bytesOf "GET / HTTP/1.0\r\n\r\n") (Parser.new none)).2.getIterations = 1 ∧
    (exec (bytesOf "GET / HTTP/1.0\r\n\r\n") (Parser.new none)).2.shouldKeepAlive = false := by
  decide

theorem exec_root_stale :
    (exec (bytesOf "GET / HT") (Parser.new none)).1 = true ∧
    (exec (bytesOf "GET / HTTP/1.0\r\n\r\n") (exec (bytesOf "GET / HT") (Parser.new none)).2).1 = false ∧
    (exec (bytesOf "GET / HTTP/1.0\r\n\r\n")
      (exec (bytesOf "GET / HT") (Parser.new none)).2).2.getRequest = none := by
  decide

/-- The connection `rootConnection` on a fresh descriptor gets its request parsed
and a response appended; after `halfLineConnection` on the same descriptor the
same bytes meet the stale parser, which fails, and `_handleRequest` raises before
it appends anything. -/
theorem script_descriptor_reuse (R : Render) (allocOk : Bool) :
    (runScript R allocOk rootConnection SocketList.empty).2.map Effect.handled = [[], [some getRoot10]] ∧
    (runScript R allocOk rootConnection SocketList.empty).2.map Effect.appended =
      [[], [R.buildResponse (connectionHeader false getRoot10 (defaultResponse R (some getRoot10)))
        (some ⟨10, -1⟩)]] ∧
    ((runScript R allocOk (halfLineConnection ++ rootConnection) SocketList.empty).2.drop 3).map
      Effect.handled = [[], [none]] ∧
    ((runScript R allocOk (halfLineConnection ++ rootConnection) SocketList.empty).2.drop 3).map
      Effect.appended = [[], []] ∧
    ((runScript R allocOk (halfLineConnection ++ rootConnection) SocketList.empty).2.drop 3).map
      Effect.raised = [false, true] := by
  obtain ⟨f1, f2, f3, f4⟩ := exec_root_fresh
  obtain ⟨s1, s2, s3⟩ := exec_root_stale
  simp [runScript, halfLineConnection, rootConnection, callback, handleRequest, SocketList.empty, f1, f2,
    f3, f4, s1, s2, s3, Effect.appended, getRoot10]

/-- After `halfLineConnection` and `rootConnection` the parser of `4` has failed,
so no later connection on `4`, whatever it sends, gets a response. -/
theorem halfLine_poisons_descriptor (R : Render) (allocOk : Bool) (ds : List Delivery) :
    let sl := (runScript R allocOk (halfLineConnection ++ rootConnection) SocketList.empty).1
    ∀ x ∈ ds.zip (runScript R allocOk ds sl).2, x.1.1.cFd = 4 → x.2.appended = [] := by
  obtain ⟨s1, s2, s3⟩ := exec_root_stale
  have hpois : Poisoned (runScript R allocOk (halfLineConnection ++ rootConnection) SocketList.empty).1 4 := by
    refine ⟨(exec (bytesOf "GET / HTTP/1.0\r\n\r\n") (exec (bytesOf "GET / HT") (Parser.new none)).2).2, ?_, ?_⟩
    · simp [runScript, halfLineConnection, rootConnection, callback, handleRequest, SocketList.empty, s1, s2, s3]
    · decide
  exact (runScript_poisoned R allocOk hpois ds).2

/-! ## Pipelined requests -/

/-- A complete keep-alive GET or HEAD request: a fresh parser ends on it with
the request done, nothing left in `_chunk`, and the connection kept alive. -/
def CompleteKeepAlive (r : Bytes) : Prop :=
  (exec r (Parser.new none)).2.status = .done ∧ (exec r (Parser.new none)).2.chunk = [] ∧
  ((exec r (Parser.new none)).2.request.method = bytesOf "get" ∨
    (exec r (Parser.new none)).2.request.method = bytesOf "head") ∧
  (exec r (Parser.new none)).2.shouldKeepAlive = true

instance (r : Bytes) : Decidable (CompleteKeepAlive r) := inferInstanceAs (Decidable (_ ∧ _ ∧ _ ∧ _))

/-- Pipelined keep-alive requests in one `socket_read` on a new connection: the
script calls `_handleRequest` once, with the first request; the others are in
`_chunk` when the parser stops, and `parser.reset()` drops them. -/
theorem script_pipelined (R : Render) (allocOk : Bool) {sl : SocketList} {ctx : Ctx}
    (hread : ctx.event = .socketRead) (hnew : sl ctx.cFd = none) (rs : List Bytes) (hk : 2 ≤ rs.length)
    (hc : ∀ r ∈ rs, CompleteKeepAlive r) (hsize : rs.flatten.length ≤ 1024 * 1024) :
    (callback R allocOk sl ctx rs.flatten).2.handled = [(exec (rs.headD []) (Parser.new none)).2.getRequest] ∧
    (exec rs.flatten (Parser.new none)).2.chunk = (rs.drop 1).flatten ∧
    ((callback R allocOk sl ctx rs.flatten).1 ctx.cFd).map Parser.chunk = some [] := by
  obtain ⟨r, rest, rfl⟩ : ∃ r rest, rs = r :: rest := match rs, hk with | r :: rest, _ => ⟨r, rest, rfl⟩
  obtain ⟨hd, hcut, hm, hka⟩ := hc r (List.mem_cons_self r rest)
  have hpost : (exec r (Parser.new none)).2.request.method ≠ bytesOf "post" := by
    rcases hm with hm | hm <;> rw [hm] <;> decide
  have hfit : (Parser.new none).bytesProcessed + (r ++ rest.flatten).length ≤ (Parser.new none).maxRequestSize := by
    simpa [Parser.new, Parser.reset] using hsize
  have happ := exec_append (Or.inl rfl) hd hpost hcut rest.flatten hfit
  have hiter : (exec r (Parser.new none)).2.iterations = 1 :=
    exec_iterations_of_done (le_trans (by simp) hfit) hd
  have hstop : (exec (r ++ rest.flatten) ((sl ctx.cFd).getD (Parser.new none))).1 = false := by
    rw [hnew, Option.getD_none, happ]
  have hreq : (exec (r ++ rest.flatten) (Parser.new none)).2.getRequest =
      some (exec r (Parser.new none)).2.request := by
    rw [happ]; simp [Parser.getRequest, hd]
  have hkeep : (if (exec (r ++ rest.flatten) (Parser.new none)).2.getIterations > 5 then false
      else (exec (r ++ rest.flatten) (Parser.new none)).2.shouldKeepAlive) = true := by
    rw [happ]
    show (if (exec r (Parser.new none)).2.iterations > 5 then false
      else (exec r (Parser.new none)).2.shouldKeepAlive) = true
    rw [hiter, hka]
    rfl
  simp only [List.flatten_cons, List.headD_cons, List.drop_succ_cons, List.drop_zero]
  rw [callback_stop R allocOk sl hread hstop]
  simp only [hnew, Option.getD_none]
  rw [handleRequest_keepAlive R allocOk _ hreq hkeep, hreq, happ]
  simp [Parser.getRequest, hd, Parser.reset]

def keepAliveGet : Bytes := bytesOf "GET / HTTP/1.1\r\nhost: x\r\n\r\n"

def getRoot11 : Request :=
  ⟨bytesOf "get", bytesOf "/", some ⟨11, -1⟩, [(bytesOf "host", .str (bytesOf "x"))], []⟩

theorem script_pipelined_keepAliveGet :
    (⟨.socketRead, invalidSocket, 4, true⟩ : Ctx).event = .socketRead ∧ SocketList.empty 4 = none ∧
    2 ≤ [keepAliveGet, keepAliveGet].length ∧ (∀ r ∈ [keepAliveGet, keepAliveGet], CompleteKeepAlive r) ∧
    [keepAliveGet, keepAliveGet].flatten.length ≤ 1024 * 1024 ∧
    (exec keepAliveGet (Parser.new none)).2.getRequest = some getRoot11 ∧
    ((callback ⟨fun _ => [], fun _ _ => []⟩ true SocketList.empty ⟨.socketRead, invalidSocket, 4, true⟩
        [keepAliveGet, keepAliveGet].flatten).2.handled =
      [(exec ([keepAliveGet, keepAliveGet].headD []) (Parser.new none)).2.getRequest] ∧
    (exec [keepAliveGet, keepAliveGet].flatten (Parser.new none)).2.chunk = ([keepAliveGet, keepAliveGet].drop 1).flatten ∧
    ((callback ⟨fun _ => [], fun _ _ => []⟩ true SocketList.empty ⟨.socketRead, invalidSocket, 4, true⟩
        [keepAliveGet, keepAliveGet].flatten).1 4).map Parser.chunk = some []) :=
  have hc : ∀ r ∈ [keepAliveGet, keepAliveGet], CompleteKeepAlive r := by decide
  ⟨rfl, rfl, le_rfl, hc, by decide, by decide,
    script_pipelined ⟨fun _ => [], fun _ _ => []⟩ true rfl rfl _ le_rfl hc (by decide)⟩

end Vayu.Http
