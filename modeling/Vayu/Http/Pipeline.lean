import Vayu.Http.Request

/-! # A request followed by more bytes

`_handleHeader` cuts the complete lines off `_chunk` with `"([^\r\n]*)\r\n"`,
whose match is the next line with its `\r\n`. Once the blank line has moved the
parser to the header check, `_handleHeaderLine` keeps every later line, so the
bytes that follow a complete request in the same chunk stay in `_chunk`:
`exec` on a complete GET or HEAD request followed by any bytes stops exactly as
on the request alone, with those bytes left in `_chunk`.
-/

namespace Vayu.Http
set_option autoImplicit false

open Vayu.Buffer Vayu.Lua

/-! ## The header line pattern -/

def lineByte : CharClass := .set true [.lit 13, .lit 10]

theorem lineByte_ne {c : UInt8} (h : lineByte.matches c = true) : c ≠ 13 := by
  rintro rfl
  revert h
  decide

theorem matchElems_crlf (t : Bytes) (caps : Captures) :
    matchElems false [.item (.lit 13) .one, .item (.lit 10) .one] t caps =
      if t.take 2 = [13, 10] then some (caps, t.drop 2) else none := by
  rcases t with _ | ⟨c, _ | ⟨d, t⟩⟩
  · rfl
  · rw [matchElems_one_cons, matchElems_one_nil]
    simp
  · rw [matchElems_one_cons, matchElems_one_cons, matchElems]
    by_cases hc : c = 13 <;> by_cases hd : d = 10 <;> simp [CharClass.matches, hc, hd]

/-- The match of `"([^\r\n]*)\r\n"`: the longest run without `\r` and `\n`,
when `\r\n` follows it. The shorter runs the greedy `*` backs off to are
followed by a byte of the run, never by `\r`. -/
theorem headerLinePattern_matchAt (s : Bytes) :
    headerLinePattern.matchAt s =
      if (s.dropWhile lineByte.matches).take 2 = [13, 10] then
        some ([s.takeWhile lineByte.matches], (s.dropWhile lineByte.matches).drop 2)
      else none := by
  set n := (s.takeWhile lineByte.matches).length with hn
  have hs := List.takeWhile_append_dropWhile lineByte.matches s
  have hdrop : s.drop n = s.dropWhile lineByte.matches := by
    conv_lhs => rw [← hs]
    exact List.drop_left' rfl
  have htake : s.take n = s.takeWhile lineByte.matches := by
    conv_lhs => rw [← hs]
    exact List.take_left' rfl
  have hlen : s.length - (s.dropWhile lineByte.matches).length = n := by
    have := congrArg List.length hs
    rw [List.length_append] at this
    omega
  have hmatch : ∀ i, matchElems false [.closeCapture, .item (.lit 13) .one, .item (.lit 10) .one] (s.drop i)
      [(s, none)] = if (s.drop i).take 2 = [13, 10] then
        some ([(s, some (s.length - (s.drop i).length))], (s.drop i).drop 2) else none := fun i => by
    rw [matchElems, matchElems_crlf]
    rfl
  have hbefore : ∀ i < n, (s.drop i).take 2 ≠ [13, 10] := by
    intro i hi
    have hne := lineByte_ne (List.mem_takeWhile_imp (List.getElem_mem hi))
    have hsplit : s.drop i = (s.takeWhile lineByte.matches).drop i ++ s.dropWhile lineByte.matches := by
      rw [← List.drop_append_of_le_length hi.le, hs]
    rw [hsplit, List.drop_eq_getElem_cons hi]
    generalize (s.takeWhile lineByte.matches)[i] = x at hne ⊢
    simp [hne]
  have hstar : matchElems headerLinePattern.atEnd headerLinePattern.elems s [] =
      (Quant.star.counts n).findSome? fun i =>
        matchElems false [.closeCapture, .item (.lit 13) .one, .item (.lit 10) .one] (s.drop i) [(s, none)] :=
    rfl
  have hrest : ((List.range n).reverse.findSome? fun i =>
      matchElems false [.closeCapture, .item (.lit 13) .one, .item (.lit 10) .one] (s.drop i)
        [(s, none)]) = none := by
    rw [List.findSome?_eq_none_iff]
    intro i hi
    rw [hmatch, if_neg (hbefore i (List.mem_range.mp (List.mem_reverse.mp hi)))]
  rw [Pattern.matchAt, hstar, Quant.counts, List.range_succ, List.reverse_append, List.reverse_singleton,
    List.singleton_append, List.findSome?_cons, hrest, hmatch, hdrop]
  by_cases h : (s.dropWhile lineByte.matches).take 2 = [13, 10]
  · simp [h, hlen, results, htake]
  · simp [h]

theorem headerLinePattern_matchAt_line {l : Bytes} (hl : ∀ c ∈ l, lineByte.matches c = true) (u : Bytes) :
    headerLinePattern.matchAt (l ++ 13 :: 10 :: u) = some ([l], u) := by
  have h13 : lineByte.matches 13 = false := by decide
  have ht : (l ++ 13 :: 10 :: u).takeWhile lineByte.matches = l := by
    rw [List.takeWhile_append_of_pos hl, List.takeWhile_cons, if_neg (by simp [h13]), List.append_nil]
  have hd : (l ++ 13 :: 10 :: u).dropWhile lineByte.matches = 13 :: 10 :: u := by
    rw [List.dropWhile_append, if_pos (by simpa [List.dropWhile_eq_nil_iff] using hl), List.dropWhile_cons,
      if_neg (by simp [h13])]
  simp [headerLinePattern_matchAt, ht, hd]

theorem headerLinePattern_prefixed : headerLinePattern.Prefixed where
  anchor := rfl
  nil := by rw [headerLinePattern_matchAt]; rfl
  split := by
    intro s caps rest h
    rw [headerLinePattern_matchAt] at h
    split at h
    · next hcrlf =>
      obtain ⟨rfl, rfl⟩ := Prod.mk.inj (Option.some.inj h)
      have hl : ∀ c ∈ s.takeWhile lineByte.matches, lineByte.matches c = true :=
        fun c hc => List.mem_takeWhile_imp hc
      have hs : s = s.takeWhile lineByte.matches ++ 13 :: 10 :: (s.dropWhile lineByte.matches).drop 2 := by
        conv_lhs => rw [← List.takeWhile_append_dropWhile lineByte.matches s,
          ← List.take_append_drop 2 (s.dropWhile lineByte.matches), hcrlf]
        rfl
      refine ⟨s.takeWhile lineByte.matches ++ [13, 10], by simp, by rw [List.append_assoc]; exact hs,
        fun t => ?_⟩
      conv_lhs => rw [hs]
      rw [List.append_assoc, List.cons_append, List.cons_append]
      exact headerLinePattern_matchAt_line hl _
    · cases h

/-! ## The header lines of `_handleHeader` -/

theorem handleHeaderLine_settled {p : Parser} (h1 : p.status ≠ .header) (h2 : p.status ≠ .request)
    (caps : List Bytes) : handleHeaderLine p caps = (p, none) := by
  simp [handleHeaderLine, h1, h2]

theorem handleHeaderLine_frame (c : Bytes) (b : Nat) (p : Parser) (caps : List Bytes) :
    handleHeaderLine { p with chunk := c, bytesProcessed := b } caps =
      ({ (handleHeaderLine p caps).1 with chunk := c, bytesProcessed := b }, (handleHeaderLine p caps).2) := by
  unfold handleHeaderLine parseHeader parseRequest Parser.setError
  dsimp only
  split_ifs <;> (try split) <;> rfl

theorem cutHeaderLines_append {q : Parser} (hcut : (cutHeaderLines q).chunk = [])
    (h1 : (cutHeaderLines q).status ≠ .header) (h2 : (cutHeaderLines q).status ≠ .request) (t : Bytes)
    (b : Nat) : cutHeaderLines { q with chunk := q.chunk ++ t, bytesProcessed := b } =
      { cutHeaderLines q with chunk := t, bytesProcessed := b } := by
  have hkeep : ∀ caps, handleHeaderLine (gsubAux headerLinePattern handleHeaderLine (q.chunk.length + 1) q
      q.chunk).1 caps = ((gsubAux headerLinePattern handleHeaderLine (q.chunk.length + 1) q q.chunk).1, none) :=
    handleHeaderLine_settled h1 h2
  have hmap := gsubAux_map headerLinePattern_prefixed handleHeaderLine
    (fun p => { p with chunk := q.chunk ++ t, bytesProcessed := b })
    (fun p caps => handleHeaderLine_frame _ _ p caps) ((q.chunk ++ t).length + 1) q (q.chunk ++ t)
  have happ := gsubAux_append_of_cut headerLinePattern_prefixed handleHeaderLine _ q q.chunk
    (Nat.lt_succ_self _) hcut hkeep t _ (Nat.lt_succ_self _)
  simp only [cutHeaderLines, gsub] at hcut h1 h2 ⊢
  rw [hmap, happ]

/-- `_checkHeader` either sets an error or passes with only the headers of the
request changed. -/
theorem checkHeader_cases (p : Parser) :
    (∃ n, checkHeader p = (false, p.setError n)) ∨
      ∃ hs : Headers, checkHeader p = (true, { p with request := { p.request with headers := hs } }) := by
  unfold checkHeader
  dsimp only
  split
  · exact .inl ⟨_, rfl⟩
  split
  · exact .inl ⟨_, rfl⟩
  split
  · exact .inl ⟨_, rfl⟩
  split
  · split
    · exact .inl ⟨_, rfl⟩
    · exact .inr ⟨_, rfl⟩
  · exact .inr ⟨_, rfl⟩

theorem checkHeader_frame (c : Bytes) (b : Nat) (p : Parser) :
    checkHeader { p with chunk := c, bytesProcessed := b } =
      ((checkHeader p).1, { (checkHeader p).2 with chunk := c, bytesProcessed := b }) := by
  unfold checkHeader
  dsimp only
  split
  · rfl
  split
  · rfl
  split
  · rfl
  split
  · split <;> rfl
  · rfl

theorem checkHeader_chunk (p : Parser) : (checkHeader p).2.chunk = p.chunk :=
  congrArg (·.2.chunk) (checkHeader_frame p.chunk p.bytesProcessed p)

theorem finishHeader_frame (c : Bytes) (b : Nat) (p : Parser) :
    finishHeader { p with chunk := c, bytesProcessed := b } =
      { finishHeader p with chunk := c, bytesProcessed := b } := by
  unfold finishHeader
  rw [checkHeader_frame]
  dsimp only
  split <;> rfl

theorem finishHeader_chunk (p : Parser) : (finishHeader p).chunk = p.chunk := by
  unfold finishHeader
  dsimp only
  split <;> exact checkHeader_chunk p

theorem handleHeader_append {q : Parser} (hs : q.status = .request ∨ q.status = .header)
    (hcut : (handleHeader q).chunk = []) (h1 : (handleHeader q).status ≠ .header)
    (h2 : (handleHeader q).status ≠ .request) (t : Bytes) (b : Nat) :
    handleHeader { q with chunk := q.chunk ++ t, bytesProcessed := b } =
      { handleHeader q with chunk := t, bytesProcessed := b } := by
  have hq : (q.status = .request ∨ q.status = .header) = True := eq_true hs
  simp only [handleHeader, hq, if_true] at hcut h1 h2 ⊢
  by_cases hc : (cutHeaderLines q).status = .headerCheck
  · rw [if_pos hc, finishHeader_chunk] at hcut
    rw [cutHeaderLines_append hcut (by rw [hc]; decide) (by rw [hc]; decide)]
    dsimp only
    rw [if_pos hc, if_pos hc, finishHeader_frame]
  · rw [if_neg hc] at hcut h1 h2
    rw [cutHeaderLines_append hcut h1 h2]
    dsimp only
    rw [if_neg hc, if_neg hc]

theorem cutHeaderLines_status {q : Parser} (h1 : q.status ≠ .body) (h2 : q.status ≠ .done) :
    (cutHeaderLines q).status ≠ .body ∧ (cutHeaderLines q).status ≠ .done := by
  refine gsubAux_invariant headerLinePattern_prefixed handleHeaderLine
    (fun p => p.status ≠ .body ∧ p.status ≠ .done) (fun p caps hp => ?_) _ q q.chunk ⟨h1, h2⟩
  unfold handleHeaderLine parseHeader parseRequest Parser.setError
  dsimp only
  split_ifs <;> (try split) <;> simp_all

theorem checkHeader_error {p : Parser} (h : (checkHeader p).1 = false) : (checkHeader p).2.status = .error := by
  rcases checkHeader_cases p with ⟨n, hc⟩ | ⟨hs, hc⟩ <;> rw [hc] at h ⊢
  · rfl
  · cases h

theorem finishHeader_body {c : Parser} (h : (finishHeader c).status = .body) :
    (finishHeader c).request.method = bytesOf "post" := by
  revert h
  unfold finishHeader
  dsimp only
  split
  · split <;> simp_all
  · next hf => simp [checkHeader_error (Bool.eq_false_iff.mpr hf)]

theorem handleHeader_body {q : Parser} (hs : q.status = .request ∨ q.status = .header)
    (h : (handleHeader q).status = .body) : (handleHeader q).request.method = bytesOf "post" := by
  have hq : (q.status = .request ∨ q.status = .header) = True := eq_true hs
  simp only [handleHeader, hq, if_true] at h ⊢
  split at h
  · rw [if_pos ‹_›]
    exact finishHeader_body h
  · have := cutHeaderLines_status (q := q) (by rcases hs with hs | hs <;> simp [hs])
      (by rcases hs with hs | hs <;> simp [hs])
    exact absurd h this.1

theorem handleBody_of_ne {p : Parser} (h : p.status ≠ .body) : handleBody p = p := by
  simp [handleBody, h]

theorem handleBody_method (p : Parser) : (handleBody p).request.method = p.request.method := by
  unfold handleBody
  split
  · dsimp only
    split <;> (try split) <;> rfl
  · rfl

theorem handleHeaderLine_iterations (p : Parser) (caps : List Bytes) :
    (handleHeaderLine p caps).1.iterations = p.iterations := by
  unfold handleHeaderLine parseHeader parseRequest Parser.setError
  dsimp only
  split_ifs <;> (try split) <;> rfl

theorem checkHeader_iterations (p : Parser) : (checkHeader p).2.iterations = p.iterations := by
  rcases checkHeader_cases p with ⟨n, hc⟩ | ⟨hs, hc⟩
  · rw [hc]; rfl
  · rw [hc]

theorem handleHeader_iterations (q : Parser) : (handleHeader q).iterations = q.iterations := by
  have hcut : (cutHeaderLines q).iterations = q.iterations :=
    gsubAux_invariant headerLinePattern_prefixed handleHeaderLine (fun p => p.iterations = q.iterations)
      (fun p caps hp => (handleHeaderLine_iterations p caps).trans hp) _ q q.chunk rfl
  have hfin : ∀ c : Parser, (finishHeader c).iterations = c.iterations := fun c => by
    unfold finishHeader
    dsimp only
    split <;> exact checkHeader_iterations c
  unfold handleHeader
  dsimp only
  split_ifs <;> simp only [hfin, hcut]

theorem handleBody_iterations (p : Parser) : (handleBody p).iterations = p.iterations := by
  unfold handleBody
  split
  · dsimp only
    split <;> (try split) <;> rfl
  · rfl

theorem exec_of_le {p : Parser} {d : Bytes} (h : p.bytesProcessed + d.length ≤ p.maxRequestSize) {H : Parser}
    (hH : handleBody (handleHeader
      { p with bytesProcessed := p.bytesProcessed + d.length, chunk := p.chunk ++ d }) = H) :
    exec d p =
      if H.status ≠ .done ∧ H.status ≠ .error then (true, H)
      else (false, { H with iterations := H.iterations + 1 }) := by
  rw [← hH]
  simp only [exec, gt_iff_lt, not_lt.mpr h, if_false]

theorem exec_of_done {p : Parser} {d : Bytes} (h : p.bytesProcessed + d.length ≤ p.maxRequestSize)
    (hd : (exec d p).2.status = .done) {H : Parser}
    (hH : handleBody (handleHeader
      { p with bytesProcessed := p.bytesProcessed + d.length, chunk := p.chunk ++ d }) = H) :
    H.status = .done ∧ exec d p = (false, { H with iterations := H.iterations + 1 }) := by
  rw [exec_of_le h hH] at hd ⊢
  by_cases hc : H.status ≠ .done ∧ H.status ≠ .error
  · rw [if_pos hc] at hd
    exact absurd hd hc.1
  · rw [if_neg hc] at hd ⊢
    exact ⟨hd, rfl⟩

theorem exec_iterations_of_done {p : Parser} {d : Bytes} (h : p.bytesProcessed + d.length ≤ p.maxRequestSize)
    (hd : (exec d p).2.status = .done) : (exec d p).2.iterations = p.iterations + 1 := by
  rw [(exec_of_done h hd rfl).2]
  exact congrArg (· + 1) ((handleBody_iterations _).trans (handleHeader_iterations _))

/-- A GET or HEAD request that `exec` completes, leaving nothing in `_chunk`,
followed by any bytes within the size limit: `exec` stops as on the request
alone and leaves those bytes in `_chunk`. -/
theorem exec_append {p : Parser} {r : Bytes} (hs : p.status = .request ∨ p.status = .header)
    (hdone : (exec r p).2.status = .done) (hpost : (exec r p).2.request.method ≠ bytesOf "post")
    (hcut : (exec r p).2.chunk = []) (rest : Bytes)
    (hsize : p.bytesProcessed + (r ++ rest).length ≤ p.maxRequestSize) :
    exec (r ++ rest) p =
      (false, { (exec r p).2 with chunk := rest, bytesProcessed := p.bytesProcessed + (r ++ rest).length }) := by
  have hr : p.bytesProcessed + r.length ≤ p.maxRequestSize := by
    rw [List.length_append] at hsize; omega
  set q : Parser := { p with bytesProcessed := p.bytesProcessed + r.length, chunk := p.chunk ++ r }
  set B := p.bytesProcessed + (r ++ rest).length
  have hq : q.status = .request ∨ q.status = .header := hs
  obtain ⟨hdone', he⟩ := exec_of_done hr hdone rfl
  rw [he] at hpost hcut
  dsimp only at hpost hcut
  -- the request is done after its header: the body is only a post's
  have hbody : (handleHeader q).status ≠ .body := fun hb =>
    hpost ((handleBody_method _).trans (handleHeader_body hq hb))
  rw [handleBody_of_ne hbody] at hdone' hcut he
  have happ := handleHeader_append hq hcut (by rw [hdone']; decide) (by rw [hdone']; decide) rest B
  have hH : handleBody (handleHeader { p with bytesProcessed := B, chunk := p.chunk ++ (r ++ rest) }) =
      { handleHeader q with chunk := rest, bytesProcessed := B } := by
    rw [← List.append_assoc]
    show handleBody (handleHeader { q with chunk := q.chunk ++ rest, bytesProcessed := B }) = _
    rw [happ]
    exact handleBody_of_ne hbody
  rw [exec_of_le hsize hH, if_neg fun hc => hc.1 hdone', he]

end Vayu.Http
