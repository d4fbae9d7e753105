import Vayu.Http.RequestText

/-! # Posts as clients write them

A POST request as a client sends it: a request line and header lines as for
GET, one of them `Content-Length` with the length of the body in decimal
digits, the blank line, and the body. The parser reads it back when the body
arrives in the same read as the end of the header, however the header before
it is split: `exec` ends the request, `parser.getRequest()` hands the body and
the header table with the length stored as a number, and the body stays in
`_chunk`. A body that arrives in a later read is read twice (`_handleBody`
appends `_chunk` without consuming it), which `exec_splitPost_body` shows.
-/

namespace Vayu.Http
set_option autoImplicit false

open Vayu.Buffer Vayu.Lua

/-- A POST request as a client writes it: the request line and header lines of
`head`, and the body. -/
structure PostText where
  head : RequestText
  body : Bytes
deriving DecidableEq, Repr

/-- The bytes on the wire. -/
def PostText.render (t : PostText) : Bytes := t.head.render ++ t.body

/-- A post the checks pass: readable lines, a host for 1.1, and a last
`content-length` header whose value is the length of the body in decimal digits. -/
structure PostText.WellFormed (t : PostText) : Prop where
  head : t.head.Readable
  method : lower t.head.method = bytesOf "post"
  host : t.head.version = bytesOf "1.1" → ∃ h ∈ t.head.headers, lower h.1 = bytesOf "host"
  length : ∃ v, (headerTable t.head.headers []).get (bytesOf "content-length") = some (.str v) ∧
    v ≠ [] ∧ (∀ c ∈ v, isDigit c = true) ∧ digitsValue v = t.body.length

/-- The request a parser should hand back for the text `t`. -/
def PostText.request (t : PostText) : Request :=
  ⟨lower t.head.method, decodeUrl t.head.uri, toNumber t.head.version,
    (headerTable t.head.headers []).set (bytesOf "content-length") (some (.num (.ofInt t.body.length))), t.body⟩

/-! ## The length -/

theorem toNumber_digits {v : Bytes} (hne : v ≠ []) (hd : ∀ c ∈ v, isDigit c = true) :
    toNumber v = some (.ofInt (digitsValue v)) := by
  obtain ⟨c, cs, rfl⟩ := List.exists_cons_of_ne_nil hne
  have hc := hd c (.head cs)
  have hnot : ∀ x ∈ c :: cs, x ≠ 110 ∧ x ≠ 78 ∧ x ≠ 120 ∧ x ≠ 88 ∧ x ≠ 45 ∧ x ≠ 43 ∧ isSpace x = false :=
    fun x hx => by
      have := hd x hx
      simp only [isDigit, Bool.and_eq_true, decide_eq_true_eq] at this
      refine ⟨?_, ?_, ?_, ?_, ?_, ?_, ?_⟩ <;> (try rintro rfl) <;> (try simp at this)
      simp only [isSpace, Bool.or_eq_false_iff, beq_eq_false_iff_ne, Bool.and_eq_false_imp, decide_eq_true_eq]
      refine ⟨by rintro rfl; simp at this, fun h9 => ?_⟩
      simp only [decide_eq_false_iff_not, UInt8.le_def, BitVec.le_def] at h9 this ⊢
      simp at h9 this ⊢
      omega
  have hsign : readSign (c :: cs) = (false, c :: cs) := by
    obtain ⟨-, -, -, -, h45, h43, -⟩ := hnot c (.head cs)
    unfold readSign
    split <;> simp_all
  have hspan : (c :: cs).span isDigit = (c :: cs, []) := by
    rw [List.span_eq_take_drop, List.takeWhile_eq_self_iff.mpr hd, List.dropWhile_eq_nil_iff.mpr hd]
  have hdrop : (c :: cs).dropWhile isSpace = c :: cs := by
    rw [List.dropWhile_cons_of_neg (by simp [(hnot c (.head cs)).2.2.2.2.2.2])]
  have hn : (c :: cs).any (fun x => x == 110 || x == 78) = false :=
    List.any_eq_false.mpr fun x hx => by simp [(hnot x hx).1, (hnot x hx).2.1]
  have hx : (c :: cs).any (fun x => x == 120 || x == 88) = false :=
    List.any_eq_false.mpr fun x hx => by simp [(hnot x hx).2.2.1, (hnot x hx).2.2.2.1]
  simp only [toNumber, hn, hx, Bool.false_eq_true, if_false, str2number, hdrop, hsign, hspan]
  simp [readExponent, signed, LuaNum.ofInt]

theorem luaSub_self (s : Bytes) : luaSub s 1 s.length = s := by
  have h0 : (0 : Int) ≤ s.length := Int.ofNat_zero_le _
  simp only [luaSub, posrelat, if_pos (show (0 : Int) ≤ 1 by decide), if_pos h0]
  split
  · rw [show (max (1 : Int) 1 - 1).toNat = 0 by decide, List.drop_zero,
      show (min (s.length : Int) s.length - max 1 1 + 1).toNat = s.length by omega, List.take_length]
  · exact (List.length_eq_zero.mp (by omega)).symm

theorem checkHeader_post {p : Parser} (hm : p.request.method = bytesOf "post")
    (hv : isVersion p.request.version version10 = true ∨ isVersion p.request.version version11 = true)
    (hh : isVersion p.request.version version11 = true → p.request.headers.get (bytesOf "host") ≠ none)
    {n : LuaNum} (hn : (p.request.headers.get (bytesOf "content-length")).bind Value.toNumber = some n) :
    checkHeader p = (true, { p with request := { p.request with
      headers := p.request.headers.set (bytesOf "content-length") (some (.num n)) } }) := by
  have h1 : ¬(p.request.method ≠ bytesOf "head" ∧ p.request.method ≠ bytesOf "get" ∧
      p.request.method ≠ bytesOf "post") := fun h => h.2.2 hm
  have h2 : ¬((!isVersion p.request.version version10) = true ∧ (!isVersion p.request.version version11) = true) := by
    rintro ⟨h1, h2⟩
    rcases hv with h | h <;> simp [h] at h1 h2
  have h3 : ¬(isVersion p.request.version version11 = true ∧ p.request.headers.get (bytesOf "host") = none) :=
    fun ⟨h1, h2⟩ => hh h1 h2
  simp only [checkHeader, if_neg h1, if_neg h2, if_neg h3, if_pos hm, hn]

/-! ## The whole post -/

section whole
variable {t : PostText} (hw : t.WellFormed)
include hw

theorem handleHeader_postHead :
    handleHeader { Parser.new none with chunk := t.head.render } =
      { Parser.new none with status := .body, request := { t.request with body := [] } } := by
  obtain ⟨v, hv, hne, hd, hlen⟩ := hw.length
  obtain ⟨hver, hhost⟩ := version_checks hw.head.version hw.host
  have hcut : cutHeaderLines { Parser.new none with chunk := t.head.render } =
      { Parser.new none with
        status := .headerCheck,
        request := ⟨lower t.head.method, decodeUrl t.head.uri, toNumber t.head.version,
          headerTable t.head.headers [], []⟩ } := by
    unfold cutHeaderLines
    rw [gsub_render hw.head rfl]
    rfl
  have hn : ((headerTable t.head.headers []).get (bytesOf "content-length")).bind Value.toNumber =
      some (.ofInt t.body.length) := by
    rw [hv, Option.some_bind, Value.toNumber, toNumber_digits hne hd, hlen]
  rw [handleHeader_of_inHeader' (.inl rfl), hcut, if_pos rfl, finishHeader,
    checkHeader_post (p := { Parser.new none with
        status := .headerCheck,
        request := ⟨lower t.head.method, decodeUrl t.head.uri, toNumber t.head.version,
          headerTable t.head.headers [], []⟩ }) hw.method hver hhost hn]
  simp [hw.method, PostText.request]

/-- Every well-formed post, sent in one piece to a new parser, is read back:
`exec` ends it, the parser holds exactly the request of its text, and the body
stays in `_chunk`. -/
theorem exec_postRender (hsize : t.render.length ≤ 1024 * 1024) :
    exec t.render (Parser.new none) =
      (false, { Parser.new none with
        status := .done, request := t.request, chunk := t.body, bytesProcessed := t.render.length,
        iterations := 1 }) := by
  set q : Parser := { Parser.new none with chunk := t.head.render } with hq
  have happ := handleHeader_append (q := q) (.inl rfl) (by rw [hq, handleHeader_postHead hw]; rfl)
    (by rw [hq, handleHeader_postHead hw]; simp) (by rw [hq, handleHeader_postHead hw]; simp)
    t.body (0 + t.render.length)
  have hH : handleBody (handleHeader
      { Parser.new none with bytesProcessed := 0 + t.render.length, chunk := [] ++ t.render }) =
      { Parser.new none with
        status := .done, request := t.request, chunk := t.body, bytesProcessed := t.render.length } := by
    have h53 : t.body.length < 2 ^ 53 := by
      have : t.body.length ≤ t.render.length := by simp [PostText.render]
      omega
    show handleBody (handleHeader { q with chunk := q.chunk ++ t.body, bytesProcessed := 0 + t.render.length }) = _
    rw [happ, hq, handleHeader_postHead hw]
    simp [handleBody, PostText.request, Headers.get_set_self, LuaNum.le_self, LuaNum.toInt_ofInt h53, luaSub_self]
  rw [exec_of_le (by simpa [Parser.new, Parser.reset] using hsize) hH]
  rfl

variable (hsize : t.render.length ≤ 1024 * 1024)
include hsize

/-- However the header of a well-formed post is split into reads, a last read
that holds the end of the header and the whole body ends the request, and the
parser holds exactly the request of its text, the body left in `_chunk`. -/
theorem exec_postRender_pieces {ds : List Bytes} {b : Bytes} (hsplit : ds.flatten ++ b = t.render)
    (hhead : ds.flatten.length < t.head.render.length) :
    exec b (execAll ds (Parser.new none)) =
      (false, { Parser.new none with
        status := .done, request := t.request, chunk := t.body, bytesProcessed := t.render.length,
        iterations := 1 }) := by
  obtain ⟨r, hr⟩ : ∃ r, ds.flatten ++ r = t.head.render := by
    rcases List.append_eq_append_iff.mp (show ds.flatten ++ b = t.head.render ++ t.body from hsplit) with
      ⟨a, h, -⟩ | ⟨c, h, -⟩
    · exact ⟨a, h.symm⟩
    · rw [h, List.length_append] at hhead
      omega
  have hrne : r ≠ [] := by
    rintro rfl
    rw [List.append_nil] at hr
    rw [hr] at hhead
    exact lt_irrefl _ hhead
  have hhs : t.head.render.length ≤ 1024 * 1024 := by
    have : t.head.render.length ≤ t.render.length := by simp [PostText.render]
    omega
  rw [exec_execAll_render hw.head hhs ds hr hrne b (hsplit ▸ hsize), hsplit]
  exact exec_postRender hw hsize

end whole

/-- `POST /f HTTP/1.0` with a body of four bytes. -/
def postText : PostText :=
  ⟨⟨bytesOf "POST", bytesOf "/f", bytesOf "1.0", [(bytesOf "Content-Length", bytesOf "4")]⟩, bytesOf "abcd"⟩

/-- The post in two reads, cut inside the request line; the body comes with the
end of the header. -/
theorem exec_postRender_pieces_postText :
    postText.WellFormed ∧ postText.render.length ≤ 1024 * 1024 ∧
      [bytesOf "POST /f HT"].flatten ++ bytesOf "TP/1.0\r\nContent-Length: 4\r\n\r\nabcd" = postText.render ∧
      [bytesOf "POST /f HT"].flatten.length < postText.head.render.length ∧
      exec (bytesOf "TP/1.0\r\nContent-Length: 4\r\n\r\nabcd") (execAll [bytesOf "POST /f HT"] (Parser.new none)) =
        (false, { Parser.new none with
          status := .done, request := postText.request, chunk := postText.body,
          bytesProcessed := postText.render.length, iterations := 1 }) := by
  have hw : postText.WellFormed :=
    ⟨⟨by decide, by decide, by decide, by decide⟩, by decide, by decide,
      ⟨bytesOf "4", by decide, by decide, by decide, by decide⟩⟩
  have hs : postText.render.length ≤ 1024 * 1024 := by decide
  have hsplit : [bytesOf "POST /f HT"].flatten ++ bytesOf "TP/1.0\r\nContent-Length: 4\r\n\r\nabcd" =
      postText.render := by decide
  have hh : [bytesOf "POST /f HT"].flatten.length < postText.head.render.length := by decide
  exact ⟨hw, hs, hsplit, hh, exec_postRender_pieces hw hs hsplit hh⟩

end Vayu.Http
