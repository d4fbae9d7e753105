import Vayu.Http.Stream
import Vayu.Http.Accept

/-! # Requests as clients write them

A GET or HEAD request as a client sends it: the request line
`METHOD URI HTTP/VERSION`, header lines `Name: value`, each ended by `\r\n`, and
a blank line. The parser reads every such request back in one call: `exec`
ends it, and `parser.getRequest()` hands the lowercased method, the decoded uri,
the version, and the header table that setting each header in order builds,
without `content-length`.
-/

namespace Vayu.Http
set_option autoImplicit false

open Vayu.Buffer Vayu.Lua

/-! ## The text of a request -/

/-- A GET or HEAD request as a client writes it: method, uri and version of the
request line, and the header lines as names and values. -/
structure RequestText where
  method : Bytes
  uri : Bytes
  version : Bytes
  headers : List (Bytes × Bytes)
deriving DecidableEq, Repr

/-- `METHOD URI HTTP/VERSION`. -/
def RequestText.requestLine (t : RequestText) : Bytes := t.method ++ 32 :: (t.uri ++ (bytesOf " HTTP/" ++ t.version))

/-- `Name: value`. -/
def headerLine (h : Bytes × Bytes) : Bytes := h.1 ++ (bytesOf ": " ++ h.2)

/-- The bytes on the wire: the request line and the header lines, each ended by
`\r\n`, and the blank line. -/
def RequestText.render (t : RequestText) : Bytes := linesOf (t.requestLine :: t.headers.map headerLine ++ [[]])

/-- A header line the parser can read: a name that is not empty, holds no `:`
and does not start with a blank, a value that does not start with a blank, and
no `\r` or `\n` in either. -/
def HeaderOk (h : Bytes × Bytes) : Prop :=
  h.1 ≠ [] ∧ (∀ c ∈ h.1, c ≠ 58 ∧ lineByte.matches c = true) ∧ h.1.head?.all (!isSpace ·) = true ∧
    (∀ c ∈ h.2, lineByte.matches c = true) ∧ h.2.head?.all (!isSpace ·) = true

instance : DecidablePred HeaderOk := fun _ => inferInstanceAs (Decidable (_ ∧ _ ∧ _ ∧ _ ∧ _))

/-- What the patterns need of a request line and its header lines: a method and
a uri without blanks, version 1.0 or 1.1, and readable header lines. -/
structure RequestText.Readable (t : RequestText) : Prop where
  method : t.method ≠ [] ∧ ∀ c ∈ t.method, isSpace c = false
  uri : t.uri ≠ [] ∧ ∀ c ∈ t.uri, isSpace c = false
  version : t.version = bytesOf "1.0" ∨ t.version = bytesOf "1.1"
  headers : ∀ h ∈ t.headers, HeaderOk h

/-- What the checks of `_checkHeader` and the patterns need: a GET or HEAD in
any case, a uri without blanks, version 1.0 or 1.1 with a host header for 1.1,
and readable header lines. -/
structure RequestText.WellFormed (t : RequestText) : Prop where
  method : lower t.method = bytesOf "get" ∨ lower t.method = bytesOf "head"
  uri : t.uri ≠ [] ∧ ∀ c ∈ t.uri, isSpace c = false
  version : t.version = bytesOf "1.0" ∨ t.version = bytesOf "1.1"
  host : t.version = bytesOf "1.1" → ∃ h ∈ t.headers, lower h.1 = bytesOf "host"
  headers : ∀ h ∈ t.headers, HeaderOk h

/-- The table of setting each header, in order, under its lowercased name. -/
def headerTable (hs : List (Bytes × Bytes)) (table : Headers) : Headers :=
  hs.foldl (fun table h => table.set (lower h.1) (some (.str h.2))) table

/-- The request a parser should hand back for the text `t`. -/
def RequestText.request (t : RequestText) : Request :=
  ⟨lower t.method, decodeUrl t.uri, toNumber t.version,
    (headerTable t.headers []).set (bytesOf "content-length") none, []⟩

/-! ## The request line -/

theorem nonSpace_matches (c : UInt8) : (CharClass.set true [.cls .space]).matches c = !isSpace c := by
  simp [CharClass.matches, SetItem.matches, Cls.matches]

theorem requestLinePattern_elems : requestLinePattern.elems =
    .item (.cls .space) .star :: .openCapture :: .item (.set true [.cls .space]) .plus :: .closeCapture ::
      (lits " " ++ .openCapture :: .item (.set true [.cls .space]) .plus :: .closeCapture ::
        (lits " HTTP/" ++ [.openCapture, .item (.set false [.cls .digit, .lit 46]) .plus, .closeCapture])) := by
  simp [requestLinePattern]

theorem requestLinePattern_matchAt {m u v : Bytes} (hm : m ≠ [] ∧ ∀ c ∈ m, isSpace c = false)
    (hu : u ≠ [] ∧ ∀ c ∈ u, isSpace c = false) (hv : v ≠ [] ∧ ∀ c ∈ v, (isDigit c || c == 46) = true) :
    requestLinePattern.matchAt (m ++ 32 :: (u ++ (bytesOf " HTTP/" ++ v))) = some ([m, u, v], []) := by
  have hE : matchElems true requestLinePattern.elems (m ++ 32 :: (u ++ (bytesOf " HTTP/" ++ v))) [] =
      some ([(v, some v.length), (u ++ (bytesOf " HTTP/" ++ v), some u.length),
        (m ++ 32 :: (u ++ (bytesOf " HTTP/" ++ v)), some m.length)], []) := by
    have hb : bytesOf " HTTP/" = [32, 72, 84, 84, 80, 47] := rfl
    rw [requestLinePattern_elems, matchElems_star_none fun c hc => ?_]
    · refine matchElems_capture_run (fun x hx => by simp [nonSpace_matches, hm.2 x hx])
        (by simp [nonSpace_matches]; decide) (.inr ⟨rfl, by simpa using hm.1⟩) ?_
      refine (matchElems_lits true (bytesOf " ") _ _ _).trans ?_
      refine matchElems_capture_run (fun x hx => by simp [nonSpace_matches, hu.2 x hx])
        (by simp [hb, nonSpace_matches]; decide) (.inr ⟨rfl, by simpa using hu.1⟩) ?_
      refine (matchElems_lits true (bytesOf " HTTP/") _ _ _).trans ?_
      exact matchElems_capture_all (fun x hx => by simpa [CharClass.matches, SetItem.matches, Cls.matches] using hv.2 x hx)
        (.inr ⟨rfl, by simpa using hv.1⟩) rfl
    · rw [List.head?_append_of_ne_nil _ hm.1] at hc
      simpa [CharClass.matches, Cls.matches] using hm.2 c (List.mem_of_mem_head? hc)
  rw [Pattern.matchAt, show requestLinePattern.atEnd = true from rfl, hE]
  simp [results]

/-! ## Header lines -/

theorem headerPattern_matchAt {n v : Bytes} (hn : n ≠ [] ∧ (∀ c ∈ n, c ≠ 58) ∧ ∀ c ∈ n.head?, isSpace c = false)
    (hv : ∀ c ∈ v.head?, isSpace c = false) :
    headerPattern.matchAt (n ++ (bytesOf ": " ++ v)) = some ([n, v], []) := by
  have hE : matchElems true headerPattern.elems (n ++ (bytesOf ": " ++ v)) [] =
      some ([(v, some v.length), (n ++ (bytesOf ": " ++ v), some n.length)], []) := by
    dsimp only [headerPattern]
    rw [show bytesOf ": " ++ v = 58 :: 32 :: v from rfl, matchElems_star_none fun c hc => ?hsp]
    case hsp =>
      rw [List.head?_append_of_ne_nil _ hn.1] at hc
      simpa [CharClass.matches, Cls.matches] using hn.2.2 c hc
    refine matchElems_capture_run (fun x hx => by simpa [CharClass.matches, SetItem.matches] using hn.2.1 x hx)
      (fun c hc => by simp at hc; subst hc; decide) (.inr ⟨rfl, by simpa using hn.1⟩) ?_
    rw [matchElems_star_none (fun c hc => by simp at hc; subst hc; decide), matchElems_one_cons, if_pos (by decide)]
    show matchElems true _ ([32] ++ v) _ = _
    refine matchElems_run (by decide) (by simpa [CharClass.matches, Cls.matches] using hv)
      (.inl rfl) ?_
    exact matchElems_capture_all (k := .any) (fun _ _ => rfl) (.inl rfl) rfl
  rw [Pattern.matchAt, show headerPattern.atEnd = true from rfl, hE]
  simp [results]

/-! ## Bytes of a line -/

theorem toLower_of_isSpace {c : UInt8} (h : isSpace c = true) : toLower c = c := by
  unfold toLower
  rw [if_neg]
  simp only [isSpace, Bool.or_eq_true, beq_iff_eq, Bool.and_eq_true, decide_eq_true_eq, UInt8.le_def,
    BitVec.le_def] at h ⊢
  rcases h with rfl | ⟨h1, h2⟩
  · decide
  · simp at h1 h2 ⊢
    omega

theorem isSpace_of_lower {m w : Bytes} (h : lower m = w) (hw : ∀ c ∈ w, isSpace c = false) :
    ∀ c ∈ m, isSpace c = false := by
  intro c hc
  by_contra hs
  have hl : toLower c ∈ w := h ▸ List.mem_map_of_mem toLower hc
  rw [toLower_of_isSpace (Bool.eq_true_of_not_eq_false hs)] at hl
  exact hs (hw c hl)

theorem lineByte_of_isSpace {c : UInt8} (h : isSpace c = false) : lineByte.matches c = true := by
  by_contra hn
  have h' : c = 13 ∨ c = 10 :=
    or_iff_not_imp_left.mpr (by simpa [lineByte, CharClass.matches, SetItem.matches] using hn)
  rcases h' with rfl | rfl <;> exact absurd h (by decide)

/-! ## Reading the lines -/

section read
variable {t : RequestText}

theorem RequestText.WellFormed.method_ok (hw : t.WellFormed) : t.method ≠ [] ∧ ∀ c ∈ t.method, isSpace c = false := by
  rcases hw.method with h | h <;>
    exact ⟨fun hn => by rw [hn] at h; exact absurd h (by decide), isSpace_of_lower h (by decide)⟩

theorem RequestText.WellFormed.readable (hw : t.WellFormed) : t.Readable :=
  ⟨hw.method_ok, hw.uri, hw.version, hw.headers⟩

variable (hw : t.Readable)
include hw

theorem RequestText.Readable.version_ok : t.version ≠ [] ∧ ∀ c ∈ t.version, (isDigit c || c == 46) = true := by
  rcases hw.version with h | h <;> rw [h] <;> decide

theorem handleHeaderLine_requestLine {P : Parser} (hP : P.status = .request) :
    handleHeaderLine P [t.requestLine] =
      ({ P with status := .header, request := { P.request with
        method := lower t.method, uri := decodeUrl t.uri, version := toNumber t.version } }, some []) := by
  have hmatch := strMatch_of_matchAt (requestLinePattern_matchAt hw.method hw.uri hw.version_ok)
  simp [handleHeaderLine, hP, parseRequest, RequestText.requestLine, hmatch]

end read

theorem handleHeaderLine_headerLine {h : Bytes × Bytes} (hh : HeaderOk h) {P : Parser} (hP : P.status = .header) :
    handleHeaderLine P [headerLine h] =
      ({ P with request := { P.request with headers := P.request.headers.set (lower h.1) (some (.str h.2)) } },
        some []) := by
  obtain ⟨hne, hname, hhead, -, hvhead⟩ := hh
  have hmatch : strMatch headerPattern (headerLine h) = some [h.1, h.2] :=
    strMatch_of_matchAt (headerPattern_matchAt
      ⟨hne, fun c hc => (hname c hc).1, fun c hc => by simpa [Option.mem_def.mp hc] using hhead⟩
      (fun c hc => by simpa [Option.mem_def.mp hc] using hvhead))
  have hlen : (headerLine h).length ≠ 0 := by
    rw [headerLine, List.length_append]
    have := List.length_pos.mpr hne
    omega
  simp [handleHeaderLine, hP, hlen, parseHeader, hmatch]

theorem foldLines_headers {hs : List (Bytes × Bytes)} (hok : ∀ h ∈ hs, HeaderOk h) {P : Parser}
    (hP : P.status = .header) :
    foldLines (hs.map headerLine) P =
      { P with request := { P.request with headers := headerTable hs P.request.headers } } := by
  induction hs generalizing P with
  | nil => rfl
  | cons h hs ih =>
    show foldLines (hs.map headerLine) (handleHeaderLine P [headerLine h]).1 = _
    rw [handleHeaderLine_headerLine (hok h (.head hs)) hP]
    exact ih (fun x hx => hok x (.tail h hx)) hP

/-! ## The checks -/

theorem headerTable_get_ne_none {k : Bytes} (hs : List (Bytes × Bytes)) {table : Headers}
    (h : (∃ x ∈ hs, lower x.1 = k) ∨ table.get k ≠ none) : (headerTable hs table).get k ≠ none := by
  induction hs generalizing table with
  | nil => simpa using h
  | cons x hs ih =>
    show (headerTable hs (table.set (lower x.1) (some (.str x.2)))).get k ≠ none
    refine ih ?_
    by_cases hx : lower x.1 = k
    · exact .inr (by rw [hx, Headers.get_set_self]; simp)
    · rcases h with ⟨y, hy, hyk⟩ | h
      · rcases List.mem_cons.mp hy with rfl | hy
        · exact absurd hyk hx
        · exact .inl ⟨y, hy, hyk⟩
      · exact .inr (by rw [Headers.get_set_ne _ (Ne.symm hx)]; exact h)

theorem checkHeader_getOrHead {p : Parser}
    (hm : p.request.method = bytesOf "get" ∨ p.request.method = bytesOf "head")
    (hv : isVersion p.request.version version10 = true ∨ isVersion p.request.version version11 = true)
    (hh : isVersion p.request.version version11 = true → p.request.headers.get (bytesOf "host") ≠ none) :
    checkHeader p = (true, { p with request := { p.request with
      headers := p.request.headers.set (bytesOf "content-length") none } }) := by
  have hpost : p.request.method ≠ bytesOf "post" := by rcases hm with h | h <;> rw [h] <;> decide
  have h1 : ¬(p.request.method ≠ bytesOf "head" ∧ p.request.method ≠ bytesOf "get" ∧
      p.request.method ≠ bytesOf "post") := by
    rintro ⟨h1, h2, -⟩
    rcases hm with h | h
    exacts [h2 h, h1 h]
  have h2 : ¬((!isVersion p.request.version version10) = true ∧ (!isVersion p.request.version version11) = true) := by
    rintro ⟨h1, h2⟩
    rcases hv with h | h <;> simp [h] at h1 h2
  have h3 : ¬(isVersion p.request.version version11 = true ∧ p.request.headers.get (bytesOf "host") = none) :=
    fun ⟨h1, h2⟩ => hh h1 h2
  simp only [checkHeader, if_neg h1, if_neg h2, if_neg h3, if_neg hpost]

/-! ## Prefixes of complete lines -/

theorem headerText_line {l : Bytes} (hl : ∀ c ∈ l, lineByte.matches c = true) (u : Bytes) :
    headerText (l ++ 13 :: 10 :: u) = headerText u := by
  induction l with
  | nil => simp [headerText]
  | cons c l ih =>
    have hc := hl c (.head l)
    have h10 : c ≠ 10 := by rintro rfl; exact absurd hc (by decide)
    have h13 := lineByte_ne hc
    obtain ⟨d, t, hdt⟩ : ∃ d t, l ++ 13 :: 10 :: u = d :: t := by cases l <;> simp
    rw [List.cons_append, hdt, headerText, if_neg (fun h => h13 h.1), ← hdt, ih (fun x hx => hl x (.tail c hx))]
    simp [h10, h13]

section prefixes
variable {L : List Bytes} (hl : ∀ l ∈ L, ∀ c ∈ l, lineByte.matches c = true)
include hl

theorem headerText_linesOf : headerText (linesOf L) = true := by
  induction L with
  | nil => rfl
  | cons l L ih =>
    rw [linesOf_cons, headerText_line (hl l (.head L)), ih (fun l' hl' => hl l' (.tail l hl'))]

theorem gsub_prefix_linesOf {S : Parser} (hS : ∀ k < L.length, InHeader (foldLines (L.take k) S)) {a r : Bytes}
    (h : a ++ r = linesOf L) (hr : r ≠ []) : InHeader (gsub headerLinePattern handleHeaderLine S a).1 := by
  induction L generalizing S a with
  | nil => simp at h; exact absurd h.2 hr
  | cons l L ih =>
    have hS0 : InHeader S := hS 0 (by simp)
    have hopen : (∀ c ∈ a, c ≠ 10) → InHeader (gsub headerLinePattern handleHeaderLine S a).1 := fun ha => by
      rw [gsub_openLine S ha]
      exact hS0
    have hl1 := hl l (.head L)
    have hno : ∀ c ∈ l, c ≠ 10 := fun c hc h10 => absurd (h10 ▸ hl1 c hc) (by decide)
    rw [linesOf_cons] at h
    rcases List.append_eq_append_iff.mp h with ⟨a', rfl, -⟩ | ⟨c', rfl, hc'⟩
    · exact hopen fun c hc => hno c (List.mem_append_left _ hc)
    · rcases c' with _ | ⟨x, _ | ⟨y, c''⟩⟩
      · exact hopen (by simpa using hno)
      · simp only [List.singleton_append, List.cons.injEq] at hc'
        obtain ⟨rfl, -⟩ := hc'
        refine hopen fun c hc => ?_
        rcases List.mem_append.mp hc with hc | hc
        · exact hno c hc
        · rw [List.mem_singleton.mp hc]; decide
      · simp only [List.cons_append, List.cons.injEq] at hc'
        obtain ⟨rfl, rfl, hrest⟩ := hc'
        rw [gsub_line hS0 hl1]
        exact ih (fun l' hl' => hl l' (.tail l hl')) (fun k hk => hS (k + 1) (by simp; omega)) hrest.symm

end prefixes

/-! ## The whole request -/

section whole
variable {t : RequestText} (hw : t.Readable)
include hw

theorem RequestText.Readable.lines :
    ∀ l ∈ t.requestLine :: t.headers.map headerLine, ∀ c ∈ l, lineByte.matches c = true := by
  have hv : ∀ c ∈ t.version, lineByte.matches c = true := by
    rcases hw.version with h | h <;> rw [h] <;> decide
  have hsep : ∀ c ∈ bytesOf " HTTP/" ++ bytesOf ": ", lineByte.matches c = true := by decide
  intro l hl c hc
  rcases List.mem_cons.mp hl with rfl | hl
  · simp only [RequestText.requestLine, List.mem_append, List.mem_cons] at hc
    rcases hc with hc | rfl | hc | hc | hc
    · exact lineByte_of_isSpace (hw.method.2 c hc)
    · decide
    · exact lineByte_of_isSpace (hw.uri.2 c hc)
    · exact hsep c (List.mem_append_left _ hc)
    · exact hv c hc
  · obtain ⟨h, hh, rfl⟩ := List.mem_map.mp hl
    obtain ⟨-, hname, -, hvalue, -⟩ := hw.headers h hh
    simp only [headerLine, List.mem_append] at hc
    rcases hc with hc | hc | hc
    · exact (hname c hc).2
    · exact hsep c (List.mem_append_right _ hc)
    · exact hvalue c hc

theorem foldLines_requestText {P : Parser} (hP : P.status = .request) :
    foldLines (t.requestLine :: t.headers.map headerLine) P =
      { P with status := .header, request := ⟨lower t.method, decodeUrl t.uri, toNumber t.version,
        headerTable t.headers P.request.headers, P.request.body⟩ } := by
  show foldLines (t.headers.map headerLine) (handleHeaderLine P [t.requestLine]).1 = _
  rw [handleHeaderLine_requestLine hw hP]
  exact foldLines_headers hw.headers rfl

theorem gsub_render {S : Parser} (hS : S.status = .request) :
    gsub headerLinePattern handleHeaderLine S t.render =
      ({ S with status := .headerCheck, request := ⟨lower t.method, decodeUrl t.uri,
        toNumber t.version, headerTable t.headers S.request.headers, S.request.body⟩ }, []) := by
  have hF := foldLines_requestText hw hS
  have hrender : t.render = linesOf (t.requestLine :: t.headers.map headerLine) ++ ([] ++ 13 :: 10 :: []) := by
    simp [RequestText.render, linesOf]
  rw [hrender, gsub_linesOf hw.lines (by rw [hF]; exact .inr rfl), hF, gsub_line (.inr rfl) (by simp)]
  simp [handleHeaderLine, gsub, gsubAux_nil _ _ headerLinePattern_prefixed.nil]

theorem foldLines_take_render {S : Parser} (hS : S.status = .request) :
    ∀ k < (t.requestLine :: t.headers.map headerLine ++ [[]]).length,
      InHeader (foldLines ((t.requestLine :: t.headers.map headerLine ++ [[]]).take k) S) := by
  intro k hk
  rw [List.take_append_of_le_length (by simpa using Nat.lt_succ_iff.mp (by simpa using hk))]
  cases k with
  | zero => exact .inl hS
  | succ j =>
    show InHeader (foldLines ((t.headers.map headerLine).take j) (handleHeaderLine S [t.requestLine]).1)
    rw [handleHeaderLine_requestLine hw hS, ← List.map_take,
      foldLines_headers (fun h hh => hw.headers h (List.mem_of_mem_take hh)) rfl]
    exact .inr rfl

variable (hsize : t.render.length ≤ 1024 * 1024)
include hsize

theorem exec_prefix_render {a r : Bytes} (h : a ++ r = t.render) (hr : r ≠ []) :
    InHeader (exec a (Parser.new none)).2 := by
  have hsz : (Parser.new none).bytesProcessed + a.length ≤ (Parser.new none).maxRequestSize := by
    have : a.length ≤ t.render.length := by rw [← h, List.length_append]; omega
    simp only [Parser.new, Parser.reset, Option.getD_none]
    omega
  have hlines : ∀ l ∈ t.requestLine :: t.headers.map headerLine ++ [[]], ∀ c ∈ l, lineByte.matches c = true :=
    fun l hl => (List.mem_append.mp hl).elim (hw.lines l) (fun h => by simp at h; subst h; simp)
  have hcut : InHeader (cutHeaderLines
      { Parser.new none with bytesProcessed := 0 + a.length, chunk := [] ++ a }) := by
    unfold InHeader
    rw [cutHeaderLines_status_eq]
    exact gsub_prefix_linesOf hlines (foldLines_take_render hw rfl) h hr
  have hH : handleBody (handleHeader
      { Parser.new none with bytesProcessed := 0 + a.length, chunk := [] ++ a }) =
      cutHeaderLines { Parser.new none with bytesProcessed := 0 + a.length, chunk := [] ++ a } := by
    rw [handleHeader_of_inHeader' (.inl rfl), if_neg (by rcases hcut with h | h <;> rw [h] <;> decide),
      handleBody_of_ne (by rcases hcut with h | h <;> rw [h] <;> decide)]
  rw [exec_of_le hsz hH, if_pos (by rcases hcut with h | h <;> rw [h] <;> decide)]
  exact hcut

/-- Reads of the pieces of a proper prefix of the text, and one more read of any
bytes within the size limit, leave the parser as one read of all their bytes. -/
theorem exec_execAll_render (ds : List Bytes) {r : Bytes} (h : ds.flatten ++ r = t.render) (hr : r ≠ [])
    (b : Bytes) (hb : (ds.flatten ++ b).length ≤ 1024 * 1024) :
    exec b (execAll ds (Parser.new none)) = exec (ds.flatten ++ b) (Parser.new none) := by
  induction ds using List.reverseRecOn generalizing b r with
  | nil => rfl
  | append_singleton ds d ih =>
    have hall : execAll (ds ++ [d]) (Parser.new none) = (exec d (execAll ds (Parser.new none))).2 :=
      List.foldl_append _ _ _ _
    have hflat : (ds ++ [d]).flatten = ds.flatten ++ d := by simp
    rw [hflat] at h hb ⊢
    have hd : (ds.flatten ++ d).length ≤ 1024 * 1024 := by
      have : (ds.flatten ++ d).length ≤ t.render.length := by rw [← h]; simp only [List.length_append]; omega
      omega
    rw [hall, ih (r := d ++ r) (by rw [← h, List.append_assoc]) (by simp [hr]) d hd]
    have htext : headerText ((Parser.new none).chunk ++ (ds.flatten ++ d)) = true := by
      refine headerText_of_append _ r ?_
      rw [show (Parser.new none).chunk = [] from rfl, List.nil_append, h]
      exact headerText_linesOf (fun l hl => (List.mem_append.mp hl).elim (hw.lines l)
        (fun h => by simp at h; subst h; simp))
    refine exec_exec_of_inHeader htext (exec_prefix_render hw hsize h hr) b ?_
    simp only [Parser.new, Parser.reset, Option.getD_none]
    omega

end whole

theorem version_checks {t : RequestText} (hv : t.version = bytesOf "1.0" ∨ t.version = bytesOf "1.1")
    (hh : t.version = bytesOf "1.1" → ∃ h ∈ t.headers, lower h.1 = bytesOf "host") :
    (isVersion (toNumber t.version) version10 = true ∨ isVersion (toNumber t.version) version11 = true) ∧
      (isVersion (toNumber t.version) version11 = true →
        (headerTable t.headers []).get (bytesOf "host") ≠ none) := by
  rcases hv with h | h
  · rw [h]
    exact ⟨.inl (by decide), fun h11 => absurd h11 (by decide)⟩
  · exact ⟨.inr (by rw [h]; decide), fun _ => headerTable_get_ne_none _ (.inl (hh h))⟩

section wellFormed
variable {t : RequestText} (hw : t.WellFormed)
include hw

theorem exec_render (hsize : t.render.length ≤ 1024 * 1024) :
    exec t.render (Parser.new none) =
      (false, { Parser.new none with
        status := .done, request := t.request, bytesProcessed := t.render.length, iterations := 1 }) := by
  obtain ⟨hv, hh⟩ := version_checks hw.version hw.host
  have hcut : cutHeaderLines { Parser.new none with bytesProcessed := 0 + t.render.length, chunk := [] ++ t.render } =
      { Parser.new none with
        status := .headerCheck, bytesProcessed := t.render.length,
        request := ⟨lower t.method, decodeUrl t.uri, toNumber t.version, headerTable t.headers [], []⟩ } := by
    unfold cutHeaderLines
    rw [List.nil_append, gsub_render hw.readable rfl, Nat.zero_add]
    rfl
  have hcheck := checkHeader_getOrHead (p := { Parser.new none with
      status := .headerCheck, bytesProcessed := t.render.length,
      request := ⟨lower t.method, decodeUrl t.uri, toNumber t.version, headerTable t.headers [], []⟩ })
    hw.method hv hh
  have hpost : lower t.method ≠ bytesOf "post" := by rcases hw.method with h | h <;> rw [h] <;> decide
  have hH : handleBody (handleHeader
      { Parser.new none with bytesProcessed := 0 + t.render.length, chunk := [] ++ t.render }) =
      { Parser.new none with status := .done, request := t.request, bytesProcessed := t.render.length } := by
    rw [handleHeader_of_inHeader' (.inl rfl), hcut, if_pos rfl, finishHeader, hcheck]
    simp [hpost, handleBody, RequestText.request]
  rw [exec_of_le (by simpa [Parser.new, Parser.reset] using hsize) hH]
  rfl

variable (hsize : t.render.length ≤ 1024 * 1024)
include hsize

theorem exec_render_pieces {ds : List Bytes} {b : Bytes} (hb : b ≠ []) (hsplit : ds.flatten ++ b = t.render) :
    exec b (execAll ds (Parser.new none)) =
      (false, { Parser.new none with
        status := .done, request := t.request, bytesProcessed := t.render.length, iterations := 1 }) := by
  rw [exec_execAll_render hw.readable hsize ds hsplit hb b (hsplit ▸ hsize), hsplit]
  exact exec_render hw hsize

end wellFormed

/-- `GET /a%20b HTTP/1.1` with a host and one more header. -/
def getText : RequestText :=
  ⟨bytesOf "GET", bytesOf "/a%20b", bytesOf "1.1", [(bytesOf "Host", bytesOf "vayu"), (bytesOf "Accept", bytesOf "*/*")]⟩

/-- The request in three reads, cut inside the request line and inside a
header value. -/
theorem exec_render_pieces_getText :
    getText.WellFormed ∧ getText.render.length ≤ 1024 * 1024 ∧ bytesOf "yu\r\nAccept: */*\r\n\r\n" ≠ [] ∧
    [bytesOf "GET /a%20b HT", bytesOf "TP/1.1\r\nHost: va"].flatten ++ bytesOf "yu\r\nAccept: */*\r\n\r\n" =
      getText.render ∧
    exec (bytesOf "yu\r\nAccept: */*\r\n\r\n")
        (execAll [bytesOf "GET /a%20b HT", bytesOf "TP/1.1\r\nHost: va"] (Parser.new none)) =
      (false, { Parser.new none with
        status := .done, request := getText.request, bytesProcessed := getText.render.length, iterations := 1 }) :=
  have hw : getText.WellFormed := ⟨by decide, by decide, by decide, by decide, by decide⟩
  have hs : getText.render.length ≤ 1024 * 1024 := by decide
  have hb : bytesOf "yu\r\nAccept: */*\r\n\r\n" ≠ [] := by decide
  have hsplit : [bytesOf "GET /a%20b HT", bytesOf "TP/1.1\r\nHost: va"].flatten ++
      bytesOf "yu\r\nAccept: */*\r\n\r\n" = getText.render := by decide
  ⟨hw, hs, hb, hsplit, exec_render_pieces hw hs hb hsplit⟩

/-- The uri comes back decoded and the header names lowercased. -/
example : getText.request.uri = bytesOf "/a b" ∧
    getText.request.headers.get (bytesOf "host") = some (.str (bytesOf "vayu")) := by
  decide

end Vayu.Http
