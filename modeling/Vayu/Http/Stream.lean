import Vayu.Http.Pipeline

/-! # Requests split over several reads

TCP hands the script a request in pieces of any size, and each piece is one
call of `parser.exec`. While the parser is in the request line or the headers,
a call cuts the complete lines off `_chunk` and keeps the start of the next
line; the next call appends its bytes to that start and the scan goes on as if
the bytes had come at once. So, when line ends are `\r\n`, feeding the header in
pieces leaves the parser exactly as one call on all the bytes, whatever the
pieces. The body does not split so (`_handleBody` appends the whole `_chunk`
on every call), and a lone `\n` or `\r` lets the kept bytes of one call join a
line of the next.
-/

namespace Vayu.Http
set_option autoImplicit false

open Vayu.Buffer Vayu.Lua

/-- The parser reads the request line or the headers: the states in which
`_handleHeader` scans `_chunk`. -/
def InHeader (p : Parser) : Prop := p.status = .request ∨ p.status = .header

instance (p : Parser) : Decidable (InHeader p) := inferInstanceAs (Decidable (_ ∨ _))

def linesOf (ls : List Bytes) : Bytes := (ls.map (· ++ [13, 10])).flatten

def foldLines (ls : List Bytes) (p : Parser) : Parser := ls.foldl (fun p l => (handleHeaderLine p [l]).1) p

/-- Line ends are `\r\n`: every `\n` follows a `\r`, and a `\r` that no `\n`
follows comes after the last line end. -/
def headerText : Bytes → Bool
  | [] => true
  | [c] => c != 10
  | c :: d :: t =>
    if c = 13 ∧ d = 10 then headerText t
    else c != 10 && (c != 13 || !decide ((10 : UInt8) ∈ d :: t)) && headerText (d :: t)

/-! ## The text of the header -/

@[simp] theorem linesOf_nil : linesOf [] = [] := rfl

theorem linesOf_cons (l : Bytes) (ls : List Bytes) : linesOf (l :: ls) = l ++ 13 :: 10 :: linesOf ls := by
  simp [linesOf]

theorem ten_mem_linesOf {ls : List Bytes} (h : ls ≠ []) : (10 : UInt8) ∈ linesOf ls := by
  obtain ⟨l, ls, rfl⟩ := List.exists_cons_of_ne_nil h
  simp [linesOf_cons]

theorem headerText_split {s : Bytes} (h : headerText s = true) :
    ∃ ls p, s = linesOf ls ++ p ∧ (∀ l ∈ ls, ∀ c ∈ l, lineByte.matches c = true) ∧ ∀ c ∈ p, c ≠ 10 := by
  induction s using headerText.induct with
  | case1 => exact ⟨[], [], rfl, by simp, by simp⟩
  | case2 c =>
    have hc : c ≠ 10 := by simpa [headerText] using h
    exact ⟨[], [c], rfl, by simp, by simpa using hc⟩
  | case3 c d t hcd ih =>
    rw [headerText, if_pos hcd] at h
    obtain ⟨ls, p, hs, hl, hp⟩ := ih h
    obtain ⟨rfl, rfl⟩ := hcd
    exact ⟨[] :: ls, p, by rw [linesOf_cons, hs]; rfl, by simpa using hl, hp⟩
  | case4 c d t hcd ih =>
    rw [headerText, if_neg hcd] at h
    simp only [Bool.and_eq_true, bne_iff_ne, ne_eq, Bool.or_eq_true, Bool.not_eq_true',
      decide_eq_false_iff_not] at h
    obtain ⟨⟨h10, h13⟩, ht⟩ := h
    obtain ⟨ls, p, hs, hl, hp⟩ := ih ht
    cases ls with
    | nil =>
      refine ⟨[], c :: p, by rw [hs]; rfl, by simp, fun x hx => ?_⟩
      rcases List.mem_cons.mp hx with rfl | hx
      exacts [h10, hp x hx]
    | cons l ls =>
      have h10' : (10 : UInt8) ∈ d :: t := by
        rw [hs]
        exact List.mem_append_left p (ten_mem_linesOf (List.cons_ne_nil l ls))
      have hc13 : c ≠ 13 := fun hc => h13.resolve_left (not_not.mpr hc) h10'
      refine ⟨(c :: l) :: ls, p, by rw [linesOf_cons] at hs ⊢; rw [hs]; rfl, ?_, hp⟩
      intro l' hl' x hx
      rcases List.mem_cons.mp hl' with rfl | hl'
      · rcases List.mem_cons.mp hx with rfl | hx
        · simp [lineByte, CharClass.matches, SetItem.matches, h10, hc13]
        · exact hl _ (List.mem_cons_self _ _) x hx
      · exact hl l' (List.mem_cons_of_mem _ hl') x hx

theorem headerText_of_append (s t : Bytes) (h : headerText (s ++ t) = true) : headerText s = true := by
  induction s using headerText.induct with
  | case1 => rfl
  | case2 c =>
    cases t with
    | nil => exact h
    | cons d t =>
      rw [List.singleton_append, headerText] at h
      split at h
      · next hcd => simp [headerText, hcd.1]
      · simp only [Bool.and_eq_true] at h
        exact h.1.1
  | case3 c d s hcd ih =>
    rw [List.cons_append, List.cons_append, headerText, if_pos hcd] at h
    rw [headerText, if_pos hcd]
    exact ih h
  | case4 c d s hcd ih =>
    rw [List.cons_append, List.cons_append, headerText, if_neg hcd] at h
    rw [headerText, if_neg hcd]
    simp only [Bool.and_eq_true, Bool.or_eq_true, Bool.not_eq_true', decide_eq_false_iff_not] at h ⊢
    refine ⟨⟨h.1.1, h.1.2.imp id fun h10 hs => h10 (?_)⟩, ih h.2⟩
    rw [← List.cons_append]
    exact List.mem_append_left _ hs

/-! ## The scan of complete lines -/

theorem handleHeaderLine_cut {p : Parser} (h : InHeader p) (caps : List Bytes) :
    (handleHeaderLine p caps).2 = some [] := by
  rcases h with h | h
  · simp [handleHeaderLine, h]
  · simp only [handleHeaderLine, h, if_true]
    split <;> rfl

theorem foldLines_frame (c : Bytes) (b : Nat) (ls : List Bytes) (p : Parser) :
    foldLines ls { p with chunk := c, bytesProcessed := b } =
      { foldLines ls p with chunk := c, bytesProcessed := b } := by
  induction ls generalizing p with
  | nil => rfl
  | cons l ls ih =>
    show foldLines ls (handleHeaderLine { p with chunk := c, bytesProcessed := b } [l]).1 = _
    rw [handleHeaderLine_frame]
    exact ih _

theorem foldLines_of_not {p : Parser} (h : ¬ InHeader p) (ls : List Bytes) : foldLines ls p = p := by
  have hs : ∀ caps, handleHeaderLine p caps = (p, none) :=
    handleHeaderLine_settled (fun hh => h (.inr hh)) (fun hr => h (.inl hr))
  induction ls with
  | nil => rfl
  | cons l ls ih => exact (congrArg (foldLines ls ·.1) (hs [l])).trans ih

theorem gsub_line {st : Parser} (hst : InHeader st) {l : Bytes} (hl1 : ∀ c ∈ l, lineByte.matches c = true)
    (t : Bytes) :
    gsub headerLinePattern handleHeaderLine st (l ++ 13 :: 10 :: t) =
      gsub headerLinePattern handleHeaderLine (handleHeaderLine st [l]).1 t := by
  have hm := headerLinePattern_matchAt_line hl1 t
  have hlt : t.length < (l ++ 13 :: 10 :: t).length := by simp; omega
  unfold gsub
  rw [gsubAux_of_some _ _ headerLinePattern_prefixed.anchor hm hlt, handleHeaderLine_cut hst,
    Option.getD_some, List.nil_append]
  exact gsubAux_fuel headerLinePattern_prefixed _ _ _ _ _ hlt (by omega)

section lines
variable {ls : List Bytes} (hl : ∀ l ∈ ls, ∀ c ∈ l, lineByte.matches c = true)
include hl

theorem gsub_linesOf {st : Parser} (h : InHeader (foldLines ls st)) (t : Bytes) :
    gsub headerLinePattern handleHeaderLine st (linesOf ls ++ t) =
      gsub headerLinePattern handleHeaderLine (foldLines ls st) t := by
  induction ls generalizing st with
  | nil => rfl
  | cons l ls ih =>
    have hst : InHeader st := by
      by_contra hn
      exact hn (foldLines_of_not hn (l :: ls) ▸ h)
    rw [linesOf_cons, List.append_assoc, List.cons_append, List.cons_append,
      gsub_line hst (hl l (List.mem_cons_self l ls))]
    exact ih (fun l' hl' => hl l' (List.mem_cons_of_mem l hl')) h

theorem gsub_linesOf_not {st : Parser} (h : ¬ InHeader (foldLines ls st)) (t : Bytes) :
    ¬ InHeader (gsub headerLinePattern handleHeaderLine st (linesOf ls ++ t)).1 := by
  induction ls generalizing st with
  | nil =>
    have hs : ∀ caps, handleHeaderLine st caps = (st, none) :=
      handleHeaderLine_settled (fun hh => h (.inr hh)) (fun hr => h (.inl hr))
    rw [linesOf_nil, List.nil_append, gsub, gsubAux_keep headerLinePattern_prefixed _ hs _ _ (by omega)]
    exact h
  | cons l ls ih =>
    by_cases hst : InHeader st
    · rw [linesOf_cons, List.append_assoc, List.cons_append, List.cons_append,
        gsub_line hst (hl l (List.mem_cons_self l ls))]
      exact ih (fun l' hl' => hl l' (List.mem_cons_of_mem l hl')) h
    · have hs : ∀ caps, handleHeaderLine st caps = (st, none) :=
        handleHeaderLine_settled (fun hh => hst (.inr hh)) (fun hr => hst (.inl hr))
      rw [gsub, gsubAux_keep headerLinePattern_prefixed _ hs _ _ (by omega)]
      exact hst

end lines

theorem gsub_openLine (st : Parser) {p : Bytes} (hp : ∀ c ∈ p, c ≠ 10) :
    gsub headerLinePattern handleHeaderLine st p = (st, p) := by
  refine gsubAux_of_none headerLinePattern_prefixed _ st p (fun t ht => ?_) _ (by omega)
  rw [headerLinePattern_matchAt, if_neg]
  intro hcrlf
  have h10 : (10 : UInt8) ∈ (t.dropWhile lineByte.matches).take 2 := by rw [hcrlf]; simp
  exact hp 10 (ht.subset ((List.dropWhile_suffix _).subset (List.mem_of_mem_take h10))) rfl

/-! ## One call in the header -/

theorem handleBody_of_inHeader {p : Parser} (h : InHeader (handleBody p)) : handleBody p = p := by
  by_cases hb : p.status = .body
  · exfalso
    revert h
    unfold handleBody InHeader
    rw [if_pos hb]
    dsimp only
    split
    · split <;> simp [hb]
    · simp [hb]
  · exact handleBody_of_ne hb

theorem finishHeader_not_inHeader (c : Parser) : ¬ InHeader (finishHeader c) := by
  unfold finishHeader InHeader
  dsimp only
  split
  · split <;> simp
  · next hc => simp [checkHeader_error (Bool.eq_false_iff.mpr hc)]

theorem handleHeader_of_inHeader {p : Parser} (h : InHeader (handleHeader p)) :
    InHeader p ∧ handleHeader p = cutHeaderLines p := by
  unfold handleHeader at h ⊢
  by_cases hp : p.status = .request ∨ p.status = .header
  · rw [if_pos hp] at h ⊢
    dsimp only at h ⊢
    split at h
    · exact absurd h (finishHeader_not_inHeader _)
    · next hc => exact ⟨hp, if_neg hc⟩
  · rw [if_neg hp] at h
    dsimp only at h
    split at h
    · exact absurd h (finishHeader_not_inHeader _)
    · exact absurd h hp

theorem exec_of_inHeader {q : Parser} {d : Bytes} (h : InHeader (exec d q).2) :
    q.bytesProcessed + d.length ≤ q.maxRequestSize ∧ InHeader q ∧
      exec d q = (true, cutHeaderLines
        { q with bytesProcessed := q.bytesProcessed + d.length, chunk := q.chunk ++ d }) := by
  have hs : q.bytesProcessed + d.length ≤ q.maxRequestSize := by
    by_contra hn
    have he : (exec d q).2.status = .error := by simp [exec, not_le.mp hn, Parser.setError]
    rcases h with h | h <;> rw [he] at h <;> cases h
  generalize hH : handleBody (handleHeader _) = H
  rw [exec_of_le hs hH] at h ⊢
  have hH' : InHeader H := by
    split at h
    · exact h
    · exact h
  rw [← hH] at hH'
  have hbody := handleBody_of_inHeader hH'
  rw [hbody] at hH'
  obtain ⟨hq, hcut⟩ := handleHeader_of_inHeader hH'
  rw [hcut] at hH'
  rw [← hH, hbody, hcut]
  refine ⟨hs, hq, if_pos ?_⟩
  rcases hH' with h1 | h1 <;> rw [h1] <;> decide

/-! ## Two reads, then any number -/

theorem cutHeaderLines_status_eq (p : Parser) :
    (cutHeaderLines p).status = (gsub headerLinePattern handleHeaderLine p p.chunk).1.status := rfl

theorem gsub_frame (c : Bytes) (b : Nat) (st : Parser) (s : Bytes) :
    gsub headerLinePattern handleHeaderLine { st with chunk := c, bytesProcessed := b } s =
      ({ (gsub headerLinePattern handleHeaderLine st s).1 with chunk := c, bytesProcessed := b },
        (gsub headerLinePattern handleHeaderLine st s).2) :=
  gsubAux_map headerLinePattern_prefixed handleHeaderLine (fun st => { st with chunk := c, bytesProcessed := b })
    (fun st caps => handleHeaderLine_frame _ _ st caps) _ st s

theorem handleHeader_of_inHeader' {p : Parser} (h : InHeader p) :
    handleHeader p = if (cutHeaderLines p).status = .headerCheck then finishHeader (cutHeaderLines p)
      else cutHeaderLines p := by
  have h' : p.status = .request ∨ p.status = .header := h
  simp only [handleHeader, if_pos h']

theorem handleHeaderLine_maxRequestSize (p : Parser) (caps : List Bytes) :
    (handleHeaderLine p caps).1.maxRequestSize = p.maxRequestSize := by
  unfold handleHeaderLine parseHeader parseRequest Parser.setError
  dsimp only
  split_ifs <;> (try split) <;> rfl

theorem foldLines_maxRequestSize (ls : List Bytes) (p : Parser) :
    (foldLines ls p).maxRequestSize = p.maxRequestSize := by
  induction ls generalizing p with
  | nil => rfl
  | cons l ls ih => exact (ih _).trans (handleHeaderLine_maxRequestSize p [l])

section lines
variable {ls : List Bytes} (hl : ∀ l ∈ ls, ∀ c ∈ l, lineByte.matches c = true)
include hl

theorem cutHeaderLines_linesOf {q : Parser} (hF : InHeader (foldLines ls q)) (t : Bytes) (b : Nat) :
    cutHeaderLines { q with chunk := linesOf ls ++ t, bytesProcessed := b } =
      cutHeaderLines { foldLines ls q with chunk := t, bytesProcessed := b } := by
  have hF' : InHeader (foldLines ls { q with chunk := linesOf ls ++ t, bytesProcessed := b }) := by
    rw [foldLines_frame]; exact hF
  unfold cutHeaderLines
  dsimp only
  rw [gsub_linesOf hl hF', foldLines_frame, gsub_frame (linesOf ls ++ t), gsub_frame t]

theorem handleHeader_linesOf {q : Parser} (hF : InHeader (foldLines ls q)) (t : Bytes) (b : Nat) :
    handleHeader { q with chunk := linesOf ls ++ t, bytesProcessed := b } =
      handleHeader { foldLines ls q with chunk := t, bytesProcessed := b } := by
  have hq : InHeader { q with chunk := linesOf ls ++ t, bytesProcessed := b } := by
    by_contra hn
    exact hn (foldLines_of_not hn ls ▸ (foldLines_frame (linesOf ls ++ t) b ls q).symm ▸ hF)
  have hF2 : InHeader { foldLines ls q with chunk := t, bytesProcessed := b } := hF
  rw [handleHeader_of_inHeader' hq, handleHeader_of_inHeader' hF2, cutHeaderLines_linesOf hl hF]

end lines

/-- A read that ends inside header text with `\r\n` line ends, and leaves the
parser in the header, followed by any read within the size limit: the parser
ends as after one read of both. -/
theorem exec_exec_of_inHeader {q : Parser} {a : Bytes} (htext : headerText (q.chunk ++ a) = true)
    (ha : InHeader (exec a q).2) (b : Bytes) (hsize : q.bytesProcessed + (a ++ b).length ≤ q.maxRequestSize) :
    exec b (exec a q).2 = exec (a ++ b) q := by
  obtain ⟨ls, p, hs, hl, hp⟩ := headerText_split htext
  obtain ⟨-, -, hexec⟩ := exec_of_inHeader ha
  -- the lines of the first read keep the parser in the header
  have hF : InHeader (foldLines ls q) := by
    by_contra hn
    have hn' : ¬InHeader (foldLines ls
        { q with chunk := q.chunk ++ a, bytesProcessed := q.bytesProcessed + a.length }) := by
      rwa [foldLines_frame]
    have hnot := gsub_linesOf_not hl hn' p
    rw [← hs] at hnot
    rw [hexec] at ha
    unfold InHeader at ha hnot
    dsimp only at ha
    rw [cutHeaderLines_status_eq] at ha
    exact hnot ha
  -- the first read cuts its complete lines and keeps the start of the next
  have hA : exec a q = (true, { foldLines ls q with chunk := p, bytesProcessed := q.bytesProcessed + a.length }) := by
    rw [hexec]
    congr 1
    show cutHeaderLines { q with chunk := q.chunk ++ a, bytesProcessed := q.bytesProcessed + a.length } = _
    rw [hs, cutHeaderLines_linesOf hl hF]
    unfold cutHeaderLines
    rw [gsub_openLine _ hp]
  -- the second read goes on from there as the one read of both does
  have hB : q.bytesProcessed + a.length + b.length = q.bytesProcessed + (a ++ b).length := by
    rw [List.length_append, Nat.add_assoc]
  have hsz : q.bytesProcessed + a.length + b.length ≤ (foldLines ls q).maxRequestSize := by
    rw [foldLines_maxRequestSize, hB]; exact hsize
  have h1 : handleBody (handleHeader
      { foldLines ls q with chunk := p ++ b, bytesProcessed := q.bytesProcessed + a.length + b.length }) =
      handleBody (handleHeader
        { foldLines ls q with chunk := p ++ b, bytesProcessed := q.bytesProcessed + (a ++ b).length }) := by
    rw [hB]
  have h2 : handleBody (handleHeader
      { q with bytesProcessed := q.bytesProcessed + (a ++ b).length, chunk := q.chunk ++ (a ++ b) }) =
      handleBody (handleHeader
        { foldLines ls q with chunk := p ++ b, bytesProcessed := q.bytesProcessed + (a ++ b).length }) := by
    rw [← List.append_assoc, hs, List.append_assoc]
    exact congrArg handleBody (handleHeader_linesOf hl hF (p ++ b) _)
  rw [hA, exec_of_le hsize h2]
  exact @exec_of_le { foldLines ls q with chunk := p, bytesProcessed := q.bytesProcessed + a.length } b hsz _ h1

/-- The header of a request handed over in any number of reads, each one
ending inside header text with `\r\n` line ends and leaving the parser in the
header, then one more read: the parser and the result of the last call are as
after one call on all the bytes. -/
theorem exec_execAll_of_inHeader {q : Parser} {ds : List Bytes} (htext : headerText (q.chunk ++ ds.flatten) = true)
    (hin : InHeader (execAll ds q)) (b : Bytes)
    (hsize : q.bytesProcessed + (ds.flatten ++ b).length ≤ q.maxRequestSize) :
    exec b (execAll ds q) = exec (ds.flatten ++ b) q := by
  induction ds using List.reverseRecOn generalizing b with
  | nil => rfl
  | append_singleton ds d ih =>
    have hall : execAll (ds ++ [d]) q = (exec d (execAll ds q)).2 := List.foldl_append _ _ _ _
    have hflat : (ds ++ [d]).flatten = ds.flatten ++ d := by simp
    rw [hall] at hin ⊢
    rw [hflat] at htext hsize ⊢
    have hd : exec d (execAll ds q) = exec (ds.flatten ++ d) q := by
      refine ih (headerText_of_append _ d ?_) (exec_of_inHeader hin).2.1 d ?_
      · rwa [← List.append_assoc] at htext
      · simp only [List.length_append] at hsize ⊢; omega
    rw [hd] at hin ⊢
    exact exec_exec_of_inHeader htext hin b hsize

theorem exec_execAll_three_reads :
    headerText ((Parser.new none).chunk ++ [bytesOf "GET / HT", bytesOf "TP/1.1\r\nHo"].flatten) = true ∧
    InHeader (execAll [bytesOf "GET / HT", bytesOf "TP/1.1\r\nHo"] (Parser.new none)) ∧
    (Parser.new none).bytesProcessed + ([bytesOf "GET / HT", bytesOf "TP/1.1\r\nHo"].flatten ++
      bytesOf "st: x\r\n\r\n").length ≤ (Parser.new none).maxRequestSize ∧
    exec (bytesOf "st: x\r\n\r\n") (execAll [bytesOf "GET / HT", bytesOf "TP/1.1\r\nHo"] (Parser.new none)) =
      exec ([bytesOf "GET / HT", bytesOf "TP/1.1\r\nHo"].flatten ++ bytesOf "st: x\r\n\r\n") (Parser.new none) :=
  have ht : headerText ((Parser.new none).chunk ++ [bytesOf "GET / HT", bytesOf "TP/1.1\r\nHo"].flatten) = true := by
    decide
  have hi : InHeader (execAll [bytesOf "GET / HT", bytesOf "TP/1.1\r\nHo"] (Parser.new none)) := by decide
  have hs : (Parser.new none).bytesProcessed + ([bytesOf "GET / HT", bytesOf "TP/1.1\r\nHo"].flatten ++
      bytesOf "st: x\r\n\r\n").length ≤ (Parser.new none).maxRequestSize := by decide
  ⟨ht, hi, hs, exec_execAll_of_inHeader ht hi _ hs⟩

end Vayu.Http
