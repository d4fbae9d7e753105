import Vayu.Http.Script

/-! # What the parser accepts

`_checkHeader` is the only way into the body and done states: it lets through a
head, get or post request of version 1.0 or 1.1 that names a host when it is
1.1, and it leaves a number under `content-length` for a post and nothing there
for any other request. Nothing after it touches the method, the version or the
headers, so every request the parser completes, in any sequence of `exec` and
`reset` calls, has passed those checks; and so has every request the
simple_http script hands to `_handleRequest`.
-/

namespace Vayu.Http
set_option autoImplicit false

open Vayu.Buffer Vayu.Lua Vayu.Server

/-! ## The headers table -/

@[simp] theorem Headers.get_set_self (h : Headers) (k : Bytes) (v : Option Value) :
    (h.set k v).get k = v := by
  cases v <;> simp [Headers.set, Headers.get, List.find?_filter]

theorem Headers.get_set_ne (h : Headers) {k k' : Bytes} (hk : k' ≠ k) (v : Option Value) :
    (h.set k v).get k' = h.get k' := by
  have hf : (h.filter (·.1 ≠ k)).find? (·.1 = k') = h.find? (·.1 = k') := by
    rw [List.find?_filter]
    congr 1
    funext x
    by_cases hx : x.1 = k' <;> simp [hx, hk]
  cases v with
  | none => simp only [Headers.set, Headers.get, hf]
  | some v =>
    simp only [Headers.set, Headers.get]
    rw [List.find?_cons_of_neg _ (by simp [Ne.symm hk]), hf]

/-! ## The checks of `_checkHeader` -/

/-- What `_checkHeader` lets through. -/
structure Request.Checked (r : Request) : Prop where
  method : r.method = bytesOf "head" ∨ r.method = bytesOf "get" ∨ r.method = bytesOf "post"
  version : isVersion r.version version10 = true ∨ isVersion r.version version11 = true
  host : isVersion r.version version11 = true → r.headers.get (bytesOf "host") ≠ none
  postLength : r.method = bytesOf "post" → ∃ n, r.headers.get (bytesOf "content-length") = some (.num n)
  noLength : r.method ≠ bytesOf "post" → r.headers.get (bytesOf "content-length") = none

theorem Request.Checked.setBody {r : Request} (h : r.Checked) (b : Bytes) : { r with body := b }.Checked :=
  ⟨h.method, h.version, h.host, h.postLength, h.noLength⟩

theorem checkHeader_checked {p : Parser} (h : (checkHeader p).1 = true) : (checkHeader p).2.request.Checked := by
  have hhost : bytesOf "host" ≠ bytesOf "content-length" := by decide
  revert h
  unfold checkHeader
  dsimp only
  split
  · intro h; cases h
  next hm =>
  split
  · intro h; cases h
  next hv =>
  split
  · intro h; cases h
  next hh =>
  have hm' : p.request.method = bytesOf "head" ∨ p.request.method = bytesOf "get" ∨
      p.request.method = bytesOf "post" :=
    Decidable.byContradiction fun hn => hm ⟨fun h => hn (.inl h), fun h => hn (.inr (.inl h)),
      fun h => hn (.inr (.inr h))⟩
  have hv' : isVersion p.request.version version10 = true ∨ isVersion p.request.version version11 = true := by
    revert hv
    cases isVersion p.request.version version10 <;> cases isVersion p.request.version version11 <;> simp
  have hh' : isVersion p.request.version version11 = true → p.request.headers.get (bytesOf "host") ≠ none :=
    fun h1 h2 => hh ⟨h1, h2⟩
  split
  · next hpost =>
    split
    · intro h; cases h
    · next length _ =>
      intro _
      exact ⟨hm', hv', fun h1 => by rw [Headers.get_set_ne _ hhost]; exact hh' h1,
        fun _ => ⟨length, Headers.get_set_self p.request.headers _ (some (.num length))⟩, fun h => absurd hpost h⟩
  · next hpost =>
    intro _
    exact ⟨hm', hv', fun h1 => by rw [Headers.get_set_ne _ hhost]; exact hh' h1,
      fun h => absurd h hpost, fun _ => Headers.get_set_self p.request.headers _ none⟩

/-! ## The invariant of the parser -/

/-- A parser in the body or done state holds a checked request. -/
def Parser.Sound (p : Parser) : Prop := p.status = .body ∨ p.status = .done → p.request.Checked

theorem Parser.sound_of_status {p : Parser} (h1 : p.status ≠ .body) (h2 : p.status ≠ .done) : p.Sound :=
  fun h => (h.elim h1 h2).elim

theorem Parser.sound_reset (p : Parser) : p.reset.Sound :=
  Parser.sound_of_status (by simp [Parser.reset]) (by simp [Parser.reset])

theorem Parser.sound_new (m : Option Nat) : (Parser.new m).Sound := Parser.sound_reset _

theorem finishHeader_sound (q : Parser) : (finishHeader q).Sound := by
  unfold finishHeader
  dsimp only
  split
  · next hc => exact fun _ => checkHeader_checked hc
  · next hc =>
    exact Parser.sound_of_status (by rw [checkHeader_error (Bool.eq_false_iff.mpr hc)]; decide)
      (by rw [checkHeader_error (Bool.eq_false_iff.mpr hc)]; decide)

theorem handleHeader_sound {p : Parser} (h : p.Sound) : (handleHeader p).Sound := by
  unfold handleHeader
  dsimp only
  split
  · next hs =>
    have hcut := cutHeaderLines_status (q := p) (by rcases hs with hs | hs <;> rw [hs] <;> decide)
      (by rcases hs with hs | hs <;> rw [hs] <;> decide)
    split
    · exact finishHeader_sound _
    · exact Parser.sound_of_status hcut.1 hcut.2
  · split
    · exact finishHeader_sound _
    · exact h

theorem handleBody_sound {p : Parser} (h : p.Sound) : (handleBody p).Sound := by
  unfold handleBody
  split
  · next hs =>
    have hc := h (.inl hs)
    dsimp only
    split
    · split
      · exact fun _ => hc.setBody _
      · exact fun _ => hc.setBody _
    · exact h
  · exact h

/-- One call of `exec` keeps the invariant. -/
theorem exec_sound {p : Parser} (h : p.Sound) (d : Bytes) : (exec d p).2.Sound := by
  by_cases hs : p.bytesProcessed + d.length ≤ p.maxRequestSize
  · have hb := handleBody_sound (handleHeader_sound (p := { p with
      bytesProcessed := p.bytesProcessed + d.length, chunk := p.chunk ++ d }) h)
    generalize hH : handleBody (handleHeader _) = H at hb
    rw [exec_of_le hs hH]
    split
    · exact hb
    · exact hb
  · have he : (exec d p).2.status = .error := by simp [exec, not_le.mp hs, Parser.setError]
    exact Parser.sound_of_status (by rw [he]; decide) (by rw [he]; decide)

theorem execAll_sound {p : Parser} (h : p.Sound) (ds : List Bytes) : (execAll ds p).Sound := by
  induction ds generalizing p with
  | nil => exact h
  | cons d ds ih => exact ih (exec_sound h d)

/-- Whatever bytes a new parser is fed, in whatever pieces, a request it has
completed or whose body it reads has passed every check of `_checkHeader`. -/
theorem execAll_new_checked (m : Option Nat) (ds : List Bytes)
    (h : (execAll ds (Parser.new m)).status = .body ∨ (execAll ds (Parser.new m)).status = .done) :
    (execAll ds (Parser.new m)).request.Checked :=
  execAll_sound (Parser.sound_new m) ds h

theorem execAll_new_checked_split :
    ((execAll [bytesOf "GET / HT", bytesOf "TP/1.0\r\n\r\n"] (Parser.new none)).status = .body ∨
      (execAll [bytesOf "GET / HT", bytesOf "TP/1.0\r\n\r\n"] (Parser.new none)).status = .done) ∧
    (execAll [bytesOf "GET / HT", bytesOf "TP/1.0\r\n\r\n"] (Parser.new none)).request.Checked :=
  ⟨.inr (by decide), execAll_new_checked none _ (.inr (by decide))⟩

theorem getRequest_checked {p : Parser} (h : p.Sound) {r : Request} (hr : p.getRequest = some r) :
    r.Checked := by
  unfold Parser.getRequest at hr
  split at hr
  · next hd => exact Option.some.inj hr ▸ h (.inr hd)
  · cases hr

/-! ## The parsers of the script -/

/-- Every parser `_socketList` holds keeps the invariant. -/
def SocketList.Sound (sl : SocketList) : Prop := ∀ fd p, sl fd = some p → p.Sound

theorem SocketList.sound_empty : SocketList.empty.Sound := fun _ _ h => by cases h

theorem SocketList.Sound.update {sl : SocketList} (h : sl.Sound) (fd : Int) {o : Option Parser}
    (ho : ∀ p, o = some p → p.Sound) : SocketList.Sound (Function.update sl fd o) := by
  intro g p hp
  by_cases hg : g = fd
  · subst hg
    rw [Function.update_same] at hp
    exact ho p hp
  · rw [Function.update_noteq hg] at hp
    exact h g p hp

section script
variable (R : Render) (allocOk : Bool)

theorem handleRequest_sound {sl : SocketList} (h : sl.Sound) (cFd : Int) (p : Parser) :
    (handleRequest R allocOk cFd p sl).1.Sound := by
  have hclose : ∀ q, (none : Option Parser) = some q → q.Sound := fun _ ho => by cases ho
  have hreset : ∀ q, some p.reset = some q → q.Sound := fun _ ho => by cases ho; exact Parser.sound_reset p
  unfold handleRequest
  dsimp only
  split
  · exact h
  · split_ifs <;> first | exact h.update _ hclose | exact h.update _ hreset

theorem callback_sound {sl : SocketList} (h : sl.Sound) (ctx : Ctx) (d : Bytes) :
    (callback R allocOk sl ctx d).1.Sound ∧
      ∀ r, some r ∈ (callback R allocOk sl ctx d).2.handled → r.Checked := by
  by_cases hread : ctx.event = .socketRead
  · have h0 : ((sl ctx.cFd).getD (Parser.new none)).Sound := by
      cases hs : sl ctx.cFd with
      | none => exact Parser.sound_new none
      | some p => exact h _ p hs
    have h1 := exec_sound h0 d
    have h2 := h.update ctx.cFd fun _ ho => Option.some.inj ho ▸ h1
    by_cases hm : (exec d ((sl ctx.cFd).getD (Parser.new none))).1 = true
    · rw [callback_more R allocOk sl hread hm]
      exact ⟨h2, fun r hr => by cases hr⟩
    · rw [callback_stop R allocOk sl hread (by simpa using hm)]
      refine ⟨handleRequest_sound R allocOk h2 _ _, fun r hr => ?_⟩
      rw [List.mem_singleton] at hr
      exact getRequest_checked h1 hr.symm
  · rw [callback_of_ne R allocOk sl hread]
    exact ⟨h, fun r hr => by cases hr⟩

theorem runScript_sound {sl : SocketList} (h : sl.Sound) (ds : List Delivery) :
    (runScript R allocOk ds sl).1.Sound ∧
      ∀ e ∈ (runScript R allocOk ds sl).2, ∀ r, some r ∈ e.handled → r.Checked := by
  induction ds generalizing sl with
  | nil => exact ⟨h, by simp [runScript]⟩
  | cons d ds ih =>
    obtain ⟨ctx, b⟩ := d
    obtain ⟨h1, h2⟩ := callback_sound R allocOk h ctx b
    obtain ⟨ih1, ih2⟩ := ih h1
    refine ⟨ih1, fun e he => ?_⟩
    simp only [runScript, List.mem_cons] at he
    rcases he with rfl | he
    · exact h2
    · exact ih2 e he

/-- In every run of the script, each request `_handleRequest` is called with
has passed every check of `_checkHeader`. -/
theorem runScript_handled_checked (ds : List Delivery) :
    ∀ e ∈ (runScript R allocOk ds SocketList.empty).2, ∀ r, some r ∈ e.handled → r.Checked :=
  (runScript_sound R allocOk SocketList.sound_empty ds).2

end script

def silentRender : Render := ⟨fun _ => [], fun _ _ => []⟩

theorem runScript_handled_checked_root :
    let e : Effect := ⟨[.extract .iBuf, .append .oBuf [] true, .closeSocket 4], [some getRoot10], false⟩
    (e ∈ (runScript silentRender true rootConnection SocketList.empty).2 ∧ some getRoot10 ∈ e.handled) ∧
      getRoot10.Checked :=
  have he : (⟨[.extract .iBuf, .append .oBuf [] true, .closeSocket 4], [some getRoot10], false⟩ : Effect) ∈
      (runScript silentRender true rootConnection SocketList.empty).2 := by decide
  ⟨⟨he, by decide⟩, runScript_handled_checked silentRender true rootConnection _ he getRoot10 (by decide)⟩

end Vayu.Http
