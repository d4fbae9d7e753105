import Vayu.Lua.Url

/-! # The request parser of simple_http

`httpRequestParser.new` of `httpRequest.lua` returns a closure over `_chunk`,
`_status`, `_errorCode`, `_request`, `_bytesProcessed` and `_iterations`; here
they are one record, `Parser`, threaded through the methods. `exec` appends its
data to `_chunk`; in the request line and the headers `string.gsub` cuts the
complete lines off `_chunk` and hands each to `_handleHeaderLine`; once the
header is checked, `_handleBody` appends `_chunk` to the body.
-/

namespace Vayu.Http
set_option autoImplicit false

open Vayu.Buffer Vayu.Lua

/-- `_statusRequest`, …, `_statusError`. -/
inductive Status
  | request
  | header
  | headerCheck
  | body
  | done
  | error
deriving DecidableEq, Repr

/-- A value of the headers table: a header's text, or the number `_checkHeader`
stores under `content-length`. -/
inductive Value
  | str (s : Bytes)
  | num (n : LuaNum)
deriving DecidableEq, Repr

/-- A Lua table from header names to values. -/
abbrev Headers := List (Bytes × Value)

/-- `headers[k]`. -/
def Headers.get (h : Headers) (k : Bytes) : Option Value := (h.find? (·.1 = k)).map (·.2)

/-- `headers[k] = v`, where `none` is `nil`. -/
def Headers.set (h : Headers) (k : Bytes) (v : Option Value) : Headers :=
  match v with
  | some v => (k, v) :: h.filter (·.1 ≠ k)
  | none => h.filter (·.1 ≠ k)

/-- `_request`. -/
structure Request where
  method : Bytes
  uri : Bytes
  version : Option LuaNum
  headers : Headers
  body : Bytes
deriving DecidableEq, Repr

/-- The state of a parser instance. -/
structure Parser where
  maxRequestSize : Nat
  chunk : Bytes
  status : Status
  errorCode : Nat
  request : Request
  bytesProcessed : Nat
  iterations : Nat
deriving DecidableEq, Repr

/-- The Lua number `1.0`. -/
def version10 : LuaNum := ⟨1, 0⟩

/-- The Lua number `1.1`. -/
def version11 : LuaNum := ⟨11, -1⟩

/-- `parser.reset`. -/
def Parser.reset (p : Parser) : Parser :=
  { p with
    chunk := []
    status := .request
    errorCode := 0
    request := ⟨[], [], some version11, [], []⟩
    bytesProcessed := 0 }

/-- `httpRequestParser.new(maxRequestSize)`, one MiB by default. -/
def Parser.new (maxRequestSize : Option Nat) : Parser :=
  Parser.reset ⟨maxRequestSize.getD (1024 * 1024), [], .request, 0, ⟨[], [], none, [], []⟩, 0, 0⟩

/-- `_setError`. -/
def Parser.setError (err : Nat) (p : Parser) : Parser := { p with errorCode := err, status := .error }

/-- `"^%s*([^%s]+) ([^%s]+) HTTP/([%d.]+)$"`. -/
def requestLinePattern : Pattern :=
  ⟨true, [.item (.cls .space) .star, .openCapture, .item (.set true [.cls .space]) .plus, .closeCapture]
    ++ lits " " ++ [.openCapture, .item (.set true [.cls .space]) .plus, .closeCapture]
    ++ lits " HTTP/" ++ [.openCapture, .item (.set false [.cls .digit, .lit 46]) .plus, .closeCapture], true⟩

/-- `"^%s*([^:]+)%s*:%s*(.*)$"`. -/
def headerPattern : Pattern :=
  ⟨true, [.item (.cls .space) .star, .openCapture, .item (.set true [.lit 58]) .plus, .closeCapture,
    .item (.cls .space) .star, .item (.lit 58) .one, .item (.cls .space) .star,
    .openCapture, .item .any .star, .closeCapture], true⟩

/-- `"([^\r\n]*)\r\n"`. -/
def headerLinePattern : Pattern :=
  ⟨false, [.openCapture, .item (.set true [.lit 13, .lit 10]) .star, .closeCapture,
    .item (.lit 13) .one, .item (.lit 10) .one], false⟩

/-- `_parseRequest`. -/
def parseRequest (requestLine : Bytes) (p : Parser) : Parser :=
  match strMatch requestLinePattern requestLine with
  | some [method, uri, version] =>
    { p with request := { p.request with
        method := lower method, uri := decodeUrl uri, version := toNumber version } }
  | _ => p.setError 400

/-- `_parseHeader`. -/
def parseHeader (header : Bytes) (p : Parser) : Parser :=
  match strMatch headerPattern header with
  | some [name, value] =>
    { p with request := { p.request with headers := p.request.headers.set (lower name) (some (.str value)) } }
  | _ => p.setError 400

/-- `tonumber` of a table value. -/
def Value.toNumber : Value → Option LuaNum
  | .str s => Lua.toNumber s
  | .num n => some n

/-- `version == n`, where `nil` equals no number. -/
def isVersion (version : Option LuaNum) (n : LuaNum) : Bool :=
  match version with
  | some v => v.eqv n
  | none => false

/-- `_checkHeader`: the method, the version, the host of a 1.1 request, and the
length of a post. -/
def checkHeader (p : Parser) : Bool × Parser :=
  let r := p.request
  if r.method ≠ bytesOf "head" ∧ r.method ≠ bytesOf "get" ∧ r.method ≠ bytesOf "post" then
    (false, p.setError 501)
  else if !isVersion r.version version10 ∧ !isVersion r.version version11 then (false, p.setError 505)
  else if isVersion r.version version11 ∧ r.headers.get (bytesOf "host") = none then
    (false, p.setError 400)
  else if r.method = bytesOf "post" then
    match (r.headers.get (bytesOf "content-length")).bind Value.toNumber with
    | none => (false, p.setError 411)
    | some length =>
      (true, { p with request := { r with
        headers := r.headers.set (bytesOf "content-length") (some (.num length)) } })
  else (true, { p with request := { r with headers := r.headers.set (bytesOf "content-length") none } })

/-- `_handleHeaderLine`, the replacement function of the `gsub`: a line of the
header is parsed and cut (`""`); in any other state it is kept (`nil`). -/
def handleHeaderLine (p : Parser) (caps : List Bytes) : Parser × Option Bytes :=
  let line := caps.headD []
  if p.status = .header then
    if line.length = 0 then ({ p with status := .headerCheck }, some [])
    else (parseHeader line p, some [])
  else if p.status = .request then ({ parseRequest line p with status := .header }, some [])
  else (p, none)

/-- The `gsub` of `_handleHeader`: cut the complete lines off `_chunk`. -/
def cutHeaderLines (p : Parser) : Parser :=
  let r := gsub headerLinePattern handleHeaderLine p p.chunk
  { r.1 with chunk := r.2 }

/-- The end of `_handleHeader`: a checked header leads to the body of a post,
and otherwise the request is done. -/
def finishHeader (p : Parser) : Parser :=
  let r := checkHeader p
  if r.1 then { r.2 with status := if r.2.request.method = bytesOf "post" then .body else .done }
  else r.2

/-- `_handleHeader`. -/
def handleHeader (p : Parser) : Parser :=
  let p := if p.status = .request ∨ p.status = .header then cutHeaderLines p else p
  if p.status = .headerCheck then finishHeader p else p

/-- `_handleBody`: append `_chunk` to the body, and once it is long enough cut it
to `content-length`. The length is the number `_checkHeader` stored. -/
def handleBody (p : Parser) : Parser :=
  if p.status = .body then
    let body := p.request.body ++ p.chunk
    match p.request.headers.get (bytesOf "content-length") with
    | some (.num length) =>
      if length.le (.ofInt body.length) then
        { p with request := { p.request with body := luaSub body 1 length.toInt }, status := .done }
      else { p with request := { p.request with body := body } }
    | _ => p
  else p

/-- `parser.exec(data)`: `true` while more data is needed. -/
def exec (data : Bytes) (p : Parser) : Bool × Parser :=
  let p := { p with bytesProcessed := p.bytesProcessed + data.length }
  if p.bytesProcessed > p.maxRequestSize then (false, p.setError 413)
  else
    let p := handleBody (handleHeader { p with chunk := p.chunk ++ data })
    if p.status ≠ .done ∧ p.status ≠ .error then (true, p)
    else (false, { p with iterations := p.iterations + 1 })

/-- `parser.hasError`. -/
def Parser.hasError (p : Parser) : Bool := p.status = .error

/-- `parser.getError`. -/
def Parser.getError (p : Parser) : Nat := p.errorCode

/-- `parser.getRequest`: the request once parsing is done. -/
def Parser.getRequest (p : Parser) : Option Request := if p.status = .done then some p.request else none

/-- `parser.getIterations`. -/
def Parser.getIterations (p : Parser) : Nat := p.iterations

/-- `_lower(_toString(v)) == word` for a header value `v` and a lowercase `word`
that is no number's text (`close`, `keep-alive`): `nil` prints as `nil`, and a
number never prints as such a word. -/
def Value.isWord (v : Option Value) (word : Bytes) : Bool :=
  match v with
  | some (.str s) => lower s = word
  | some (.num _) => false
  | none => lower (bytesOf "nil") = word

/-- `parser.shouldKeepAlive`: a 1.1 request unless it asks for `close`, a 1.0
request only if it asks for `keep-alive`, and nothing else. -/
def Parser.shouldKeepAlive (p : Parser) : Bool :=
  let connection := p.request.headers.get (bytesOf "connection")
  if isVersion p.request.version version11 then !Value.isWord connection (bytesOf "close")
  else if isVersion p.request.version version10 then Value.isWord connection (bytesOf "keep-alive")
  else false

theorem handleHeader_of_body {p : Parser} (hs : p.status = .body) : handleHeader p = p := by
  simp [handleHeader, hs]

/-- In the body, `exec` keeps the whole of `_chunk`, and `_handleBody` appends
all of it to the body again. -/
theorem exec_body (d : Bytes) {p : Parser} (hs : p.status = .body)
    (hsize : p.bytesProcessed + d.length ≤ p.maxRequestSize) {length : LuaNum}
    (hl : p.request.headers.get (bytesOf "content-length") = some (.num length)) :
    (exec d p).2.chunk = p.chunk ++ d ∧
    (exec d p).2.request.body =
      if length.le (.ofInt (p.request.body ++ (p.chunk ++ d)).length) then
        luaSub (p.request.body ++ (p.chunk ++ d)) 1 length.toInt
      else p.request.body ++ (p.chunk ++ d) := by
  have hnot : ¬ p.bytesProcessed + d.length > p.maxRequestSize := by omega
  simp only [exec, hnot, if_false, handleHeader_of_body (p := { p with
    bytesProcessed := p.bytesProcessed + d.length, chunk := p.chunk ++ d }) hs]
  simp only [handleBody, hs, hl, if_true]
  split <;> split <;> simp_all

/-- A post whose body is split over two calls of `exec`. -/
def splitPost : Bytes := bytesOf "POST / HTTP/1.0\r\ncontent-length: 4\r\n\r\nab"

/-- Fed in two chunks the body is `abab`; in one, `abcd`. -/
theorem exec_splitPost_body :
    (exec splitPost (Parser.new none)).1 = true ∧
    (exec (bytesOf "cd") (exec splitPost (Parser.new none)).2).2.getRequest.map Request.body =
      some (bytesOf "abab") ∧
    (exec (splitPost ++ bytesOf "cd") (Parser.new none)).2.getRequest.map Request.body =
      some (bytesOf "abcd") := by
  decide

/-! ## The error state -/

/-- The parser after a sequence of `exec` calls. -/
def execAll (ds : List Bytes) (p : Parser) : Parser := ds.foldl (fun p d => (exec d p).2) p

theorem exec_of_error {p : Parser} (h : p.status = .error) (d : Bytes) :
    (exec d p).1 = false ∧ (exec d p).2.status = .error ∧
    (exec d p).2.errorCode =
      if p.bytesProcessed + d.length > p.maxRequestSize then 413 else p.errorCode := by
  unfold exec
  split
  · next hgt => simp [Parser.setError, hgt]
  · next hle => simp [handleHeader, handleBody, h, hle]

/-- The error state is never left along a sequence of `exec` calls, and the
code changes only to `413`. -/
theorem execAll_of_error (ds : List Bytes) {p : Parser} (h : p.status = .error) :
    (execAll ds p).status = .error ∧
      ((execAll ds p).errorCode = p.errorCode ∨ (execAll ds p).errorCode = 413) := by
  induction ds generalizing p with
  | nil => exact ⟨h, .inl rfl⟩
  | cons d ds ih =>
    obtain ⟨-, hs, hc⟩ := exec_of_error h d
    obtain ⟨hs', hc'⟩ := ih hs
    refine ⟨hs', ?_⟩
    rcases hc' with hc' | hc'
    · simp only [execAll, List.foldl_cons] at hc' ⊢
      rw [hc', hc]
      split
      · exact .inr rfl
      · exact .inl rfl
    · exact .inr hc'

/-- A rejected request line leaves the parser out of the error state with code
`400`, and the parse then ends with another code; once in the error state, a
call that goes over the size limit writes `413` over the first code. -/
theorem exec_error_not_kept :
    (exec (bytesOf "x\r\n") (Parser.new none)).2.hasError = false ∧
    (exec (bytesOf "x\r\n") (Parser.new none)).2.getError = 400 ∧
    (exec (bytesOf "x\r\n\r\n") (Parser.new none)).2.getError = 501 ∧
    (exec (bytesOf "x\r\n\r\n") (Parser.new (some 8))).2.hasError = true ∧
    (exec (bytesOf "abcd") (exec (bytesOf "x\r\n\r\n") (Parser.new (some 8))).2).2.hasError = true ∧
    (exec (bytesOf "abcd") (exec (bytesOf "x\r\n\r\n") (Parser.new (some 8))).2).2.getError = 413 := by
  decide

def negativePost : Bytes := bytesOf "POST / HTTP/1.0\r\ncontent-length: -1\r\n\r\n"

def fractionalPost : Bytes := bytesOf "POST / HTTP/1.0\r\ncontent-length: 1.5\r\n\r\nab"

/-- Both posts parse without error, with a content length that is no
non-negative integer and not the length of the body. -/
theorem exec_badLength_done :
    (exec negativePost (Parser.new none)).1 = false ∧
    (exec negativePost (Parser.new none)).2.hasError = false ∧
    (exec negativePost (Parser.new none)).2.getRequest.map
        (fun r => (r.method, r.headers.get (bytesOf "content-length"), r.body)) =
      some (bytesOf "post", some (.num ⟨-1, 0⟩), []) ∧
    (exec fractionalPost (Parser.new none)).1 = false ∧
    (exec fractionalPost (Parser.new none)).2.hasError = false ∧
    (exec fractionalPost (Parser.new none)).2.getRequest.map
        (fun r => (r.method, r.headers.get (bytesOf "content-length"), r.body)) =
      some (bytesOf "post", some (.num ⟨15, -1⟩), bytesOf "a") := by
  decide

end Vayu.Http
