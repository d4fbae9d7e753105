import Vayu.Buffer.Basic

/-! # Lua patterns

The part of `lstrlib.c` (Lua 5.2) that the scripts use: `string.match`,
`string.gsub` with a function as replacement, and `string.lower`, over byte
strings in the C locale. A pattern is the list of its elements, single-character
classes with a quantifier and the parentheses of captures; a leading `^` and a
final `$` are flags. The matcher is `do_match`: greedy quantifiers try the
longest run first, `-` the shortest, and the first success is the answer.
-/

namespace Vayu.Lua
set_option autoImplicit false

open Vayu.Buffer

/-- The bytes of an ASCII string. -/
def bytesOf (s : String) : Bytes := s.toList.map fun c => c.toNat.toUInt8

/-- `isspace` in the C locale. -/
def isSpace (c : UInt8) : Bool := c == 32 || (9 ≤ c && c ≤ 13)

/-- `isdigit`. -/
def isDigit (c : UInt8) : Bool := 48 ≤ c && c ≤ 57

/-- `isalnum` in the C locale. -/
def isAlnum (c : UInt8) : Bool := isDigit c || (65 ≤ c && c ≤ 90) || (97 ≤ c && c ≤ 122)

/-- `isxdigit`. -/
def isXDigit (c : UInt8) : Bool := isDigit c || (65 ≤ c && c ≤ 70) || (97 ≤ c && c ≤ 102)

/-- `tolower` in the C locale. -/
def toLower (c : UInt8) : UInt8 := if 65 ≤ c && c ≤ 90 then c + 32 else c

/-- `string.lower`. -/
def lower (s : Bytes) : Bytes := s.map toLower

/-- The classes of `%s`, `%d`, `%w` and `%x`. -/
inductive Cls
  | space
  | digit
  | alnum
  | xdigit
deriving DecidableEq, Repr

/-- `match_class`. -/
def Cls.matches : Cls → UInt8 → Bool
  | .space, c => isSpace c
  | .digit, c => isDigit c
  | .alnum, c => isAlnum c
  | .xdigit, c => isXDigit c

/-- A member of a set `[...]`: a byte or a `%` class. -/
inductive SetItem
  | lit (c : UInt8)
  | cls (k : Cls)
deriving DecidableEq, Repr

def SetItem.matches : SetItem → UInt8 → Bool
  | .lit d, c => c == d
  | .cls k, c => k.matches c

/-- A single-character class: `.`, a byte, a `%` class, or a set, `[^...]` when
`complement` is set. -/
inductive CharClass
  | any
  | lit (c : UInt8)
  | cls (k : Cls)
  | set (complement : Bool) (items : List SetItem)
deriving DecidableEq, Repr

/-- `singlematch`, and `matchbracketclass` for sets. -/
def CharClass.matches : CharClass → UInt8 → Bool
  | .any, _ => true
  | .lit d, c => c == d
  | .cls k, c => k.matches c
  | .set complement items, c => if complement then !items.any (·.matches c) else items.any (·.matches c)

/-- No suffix, `*`, `+`, `-` and `?`. -/
inductive Quant
  | one
  | star
  | plus
  | lazy
  | opt
deriving DecidableEq, Repr

/-- An element of a pattern. -/
inductive Elem
  | item (k : CharClass) (q : Quant)
  | openCapture
  | closeCapture
deriving DecidableEq, Repr

/-- A pattern: `^`, the elements, and a final `$`. -/
structure Pattern where
  anchor : Bool
  elems : List Elem
  atEnd : Bool
deriving DecidableEq, Repr

def lits (s : String) : List Elem := (bytesOf s).map fun c => .item (.lit c) .one

abbrev Captures := List (Bytes × Option Nat)

/-- `end_capture`: close the capture opened last that is still open. -/
def closeInner (s : Bytes) : Captures → Captures
  | [] => []
  | (st, none) :: cs => (st, some (st.length - s.length)) :: cs
  | c :: cs => c :: closeInner s cs

/-- How many repetitions a quantifier tries, in order, when the class matches the
next `n` bytes: `max_expand` from the longest, `min_expand` from none. -/
def Quant.counts : Quant → Nat → List Nat
  | .one, n => if n = 0 then [] else [1]
  | .star, n => (List.range (n + 1)).reverse
  | .plus, n => (List.range n).reverse.map (· + 1)
  | .lazy, n => List.range (n + 1)
  | .opt, n => if n = 0 then [0] else [1, 0]

/-- `do_match` from one position: the captures and the rest of the subject. -/
def matchElems (atEnd : Bool) : List Elem → Bytes → Captures → Option (Captures × Bytes)
  | [], s, caps => if atEnd && !s.isEmpty then none else some (caps, s)
  | .openCapture :: es, s, caps => matchElems atEnd es s ((s, none) :: caps)
  | .closeCapture :: es, s, caps => matchElems atEnd es s (closeInner s caps)
  | .item k q :: es, s, caps =>
    (q.counts (s.takeWhile k.matches).length).findSome? fun i => matchElems atEnd es (s.drop i) caps

/-- What a match hands over (`push_captures`): the captures in pattern order, or
the whole match when the pattern has none. -/
def results (s rest : Bytes) (caps : Captures) : List Bytes :=
  if caps = [] then [s.take (s.length - rest.length)]
  else caps.reverse.map fun c => c.1.take (c.2.getD 0)

/-- A match at the start of `s`: what it hands over, and the rest of `s`. -/
def Pattern.matchAt (p : Pattern) (s : Bytes) : Option (List Bytes × Bytes) :=
  (matchElems p.atEnd p.elems s []).map fun r => (results s r.2 r.1, r.2)

/-- `string.match(s, p)`: the first position where the pattern matches. -/
def strMatch (p : Pattern) : Bytes → Option (List Bytes)
  | [] => (p.matchAt []).map Prod.fst
  | c :: t =>
    match p.matchAt (c :: t) with
    | some r => some r.1
    | none => if p.anchor then none else strMatch p t

/-- The loop of `str_gsub`, with a replacement function that reads and updates
the state of its closure: a match is replaced by what the function returns, or
kept when it returns `nil`; the scan goes on after a non-empty match, and
otherwise one byte further. `fuel` bounds the turns. -/
def gsubAux {σ : Type} (p : Pattern) (f : σ → List Bytes → σ × Option Bytes) :
    Nat → σ → Bytes → σ × Bytes
  | 0, st, s => (st, s)
  | fuel + 1, st, s =>
    let turn : σ × Bytes × Option Bytes :=
      match p.matchAt s with
      | some (caps, rest) =>
        let r := f st caps
        let out := r.2.getD (s.take (s.length - rest.length))
        if rest.length < s.length then (r.1, out, some rest)
        else match s with
          | [] => (r.1, out, none)
          | c :: cs => (r.1, out ++ [c], some cs)
      | none =>
        match s with
        | [] => (st, [], none)
        | c :: cs => (st, [c], some cs)
    match turn.2.2 with
    | none => (turn.1, turn.2.1)
    | some rest =>
      if p.anchor then (turn.1, turn.2.1 ++ rest)
      else
        let r := gsubAux p f fuel turn.1 rest
        (r.1, turn.2.1 ++ r.2)

/-- `string.gsub(s, p, f)`: every turn consumes a byte or ends the scan. -/
def gsub {σ : Type} (p : Pattern) (f : σ → List Bytes → σ × Option Bytes) (st : σ) (s : Bytes) :
    σ × Bytes :=
  gsubAux p f (s.length + 1) st s

/-! ## One item that matches one byte -/

theorem matchElems_one_cons (atEnd : Bool) (k : CharClass) (es : List Elem) (c : UInt8) (t : Bytes)
    (caps : Captures) :
    matchElems atEnd (.item k .one :: es) (c :: t) caps =
      if k.matches c then matchElems atEnd es t caps else none := by
  by_cases h : k.matches c = true
  · have hlen : ((c :: t).takeWhile k.matches).length ≠ 0 := by simp [List.takeWhile_cons, h]
    rw [matchElems, Quant.counts, if_neg hlen, if_pos h]
    simp only [List.findSome?_cons, List.drop_one, List.tail_cons, List.findSome?_nil]
    cases matchElems atEnd es t caps <;> rfl
  · simp [matchElems, Quant.counts, List.takeWhile_cons, h]

theorem matchElems_one_nil (atEnd : Bool) (k : CharClass) (es : List Elem) (caps : Captures) :
    matchElems atEnd (.item k .one :: es) [] caps = none := rfl

/-! ## Runs of one class -/

theorem Quant.counts_head {q : Quant} {n : Nat} (h : q = .star ∨ q = .plus ∧ n ≠ 0) :
    (q.counts n).head? = some n := by
  rcases h with rfl | ⟨rfl, hn⟩
  · simp [Quant.counts, List.range_succ]
  · obtain ⟨m, rfl⟩ : ∃ m, n = m + 1 := ⟨n - 1, by omega⟩
    simp [Quant.counts, List.range_succ]

section run
variable {atEnd : Bool} {k : CharClass} {es : List Elem} {caps : Captures}

theorem matchElems_star_none {s : Bytes} (hs : ∀ c ∈ s.head?, k.matches c = false) :
    matchElems atEnd (.item k .star :: es) s caps = matchElems atEnd es s caps := by
  have ht : s.takeWhile k.matches = [] := by
    cases s with
    | nil => rfl
    | cons c t => simp [List.takeWhile_cons, hs c rfl]
  rw [matchElems, ht]
  show List.findSome? _ [0] = _
  rw [List.findSome?_cons, List.drop_zero]
  cases matchElems atEnd es s caps <;> rfl

variable {xs s : Bytes} (hxs : ∀ c ∈ xs, k.matches c = true) (hs : ∀ c ∈ s.head?, k.matches c = false)
include hxs hs

theorem takeWhile_run : (xs ++ s).takeWhile k.matches = xs := by
  rw [List.takeWhile_append_of_pos hxs]
  cases s with
  | nil => simp
  | cons c t => simp [List.takeWhile_cons, hs c rfl]

theorem matchElems_run {q : Quant} (hq : q = .star ∨ q = .plus ∧ xs.length ≠ 0) {r : Captures × Bytes}
    (h : matchElems atEnd es s caps = some r) :
    matchElems atEnd (.item k q :: es) (xs ++ s) caps = some r := by
  obtain ⟨l, hl⟩ : ∃ l, q.counts xs.length = xs.length :: l := by
    have h1 := Quant.counts_head hq
    cases hc : q.counts xs.length with
    | nil => rw [hc] at h1; cases h1
    | cons a l => rw [hc] at h1; cases h1; exact ⟨l, rfl⟩
  rw [matchElems, takeWhile_run hxs hs, hl, List.findSome?_cons, List.drop_left, h]

theorem matchElems_capture_run {q : Quant} (hq : q = .star ∨ q = .plus ∧ xs.length ≠ 0) {r : Captures × Bytes}
    (h : matchElems atEnd es s ((xs ++ s, some xs.length) :: caps) = some r) :
    matchElems atEnd (.openCapture :: .item k q :: .closeCapture :: es) (xs ++ s) caps = some r := by
  refine matchElems_run hxs hs hq ?_
  simpa [matchElems, closeInner] using h

end run

theorem matchElems_capture_all {atEnd : Bool} {k : CharClass} {es : List Elem} {caps : Captures} {xs : Bytes}
    (hxs : ∀ c ∈ xs, k.matches c = true) {q : Quant} (hq : q = .star ∨ q = .plus ∧ xs.length ≠ 0)
    {r : Captures × Bytes} (h : matchElems atEnd es [] ((xs, some xs.length) :: caps) = some r) :
    matchElems atEnd (.openCapture :: .item k q :: .closeCapture :: es) xs caps = some r := by
  simpa using matchElems_capture_run (s := []) hxs (by simp) hq (by simpa using h)

theorem matchElems_lits (atEnd : Bool) (bs : Bytes) (es : List Elem) (s : Bytes) (caps : Captures) :
    matchElems atEnd (bs.map (fun c => Elem.item (.lit c) .one) ++ es) (bs ++ s) caps =
      matchElems atEnd es s caps := by
  induction bs with
  | nil => rfl
  | cons c bs ih => simpa [matchElems_one_cons, CharClass.matches] using ih

theorem strMatch_of_matchAt {p : Pattern} {s : Bytes} {caps : List Bytes} {rest : Bytes}
    (h : p.matchAt s = some (caps, rest)) : strMatch p s = some caps := by
  cases s <;> simp [strMatch, h]

/-! ## One turn of the scan -/

section gsubStep
variable {σ : Type} (p : Pattern) (f : σ → List Bytes → σ × Option Bytes)

theorem gsubAux_nil (h : p.matchAt [] = none) (n : Nat) (st : σ) :
    gsubAux p f (n + 1) st [] = (st, []) := by
  simp [gsubAux, h]

theorem gsubAux_cons_of_none (hp : p.anchor = false) {c : UInt8} {cs : Bytes}
    (h : p.matchAt (c :: cs) = none) (n : Nat) (st : σ) :
    gsubAux p f (n + 1) st (c :: cs) = ((gsubAux p f n st cs).1, c :: (gsubAux p f n st cs).2) := by
  simp [gsubAux, h, hp]

theorem gsubAux_of_some (hp : p.anchor = false) {s rest : Bytes} {caps : List Bytes}
    (h : p.matchAt s = some (caps, rest)) (hlt : rest.length < s.length) (n : Nat) (st : σ) :
    gsubAux p f (n + 1) st s =
      ((gsubAux p f n (f st caps).1 rest).1,
        (f st caps).2.getD (s.take (s.length - rest.length)) ++ (gsubAux p f n (f st caps).1 rest).2) := by
  simp [gsubAux, h, hp, hlt]

end gsubStep

/-! ## Scans over a prefix

For a pattern whose matches are non-empty prefixes of the subject, found again
when more bytes follow, the scan of `s ++ t` goes through the matches of `s`
first. Once the replacement function keeps every match from some state on, the
rest of the subject is copied unchanged.
-/

/-- Each match is a non-empty prefix of the subject, and stays a match when
more bytes follow. -/
structure Pattern.Prefixed (p : Pattern) : Prop where
  anchor : p.anchor = false
  nil : p.matchAt [] = none
  split : ∀ s caps rest, p.matchAt s = some (caps, rest) →
    ∃ pre, pre ≠ [] ∧ s = pre ++ rest ∧ ∀ t, p.matchAt (s ++ t) = some (caps, rest ++ t)

section gsubPrefix
variable {σ : Type} {p : Pattern} (hp : p.Prefixed) (f : σ → List Bytes → σ × Option Bytes)
include hp

theorem gsubAux_map (φ : σ → σ) (hf : ∀ st caps, f (φ st) caps = (φ (f st caps).1, (f st caps).2))
    (n : Nat) (st : σ) (s : Bytes) :
    gsubAux p f n (φ st) s = (φ (gsubAux p f n st s).1, (gsubAux p f n st s).2) := by
  induction n generalizing st s with
  | zero => rfl
  | succ n ih =>
    cases hm : p.matchAt s with
    | some r =>
      obtain ⟨caps, rest⟩ := r
      obtain ⟨pre, hpre, hs, -⟩ := hp.split s caps rest hm
      have hlt : rest.length < s.length := by
        rw [hs, List.length_append]; have := List.length_pos.mpr hpre; omega
      rw [gsubAux_of_some p f hp.anchor hm hlt, gsubAux_of_some p f hp.anchor hm hlt, hf, ih]
    | none =>
      cases s with
      | nil => rw [gsubAux_nil p f hp.nil, gsubAux_nil p f hp.nil]
      | cons c cs => rw [gsubAux_cons_of_none p f hp.anchor hm, gsubAux_cons_of_none p f hp.anchor hm, ih]

/-- A property of states that every call of the function keeps holds after the scan. -/
theorem gsubAux_invariant (P : σ → Prop) (hP : ∀ st caps, P st → P (f st caps).1) (n : Nat) (st : σ)
    (s : Bytes) (h : P st) : P (gsubAux p f n st s).1 := by
  induction n generalizing st s with
  | zero => exact h
  | succ n ih =>
    cases hm : p.matchAt s with
    | some r =>
      obtain ⟨caps, rest⟩ := r
      obtain ⟨pre, hpre, hs, -⟩ := hp.split s caps rest hm
      have hlt : rest.length < s.length := by
        rw [hs, List.length_append]; have := List.length_pos.mpr hpre; omega
      rw [gsubAux_of_some p f hp.anchor hm hlt]
      exact ih _ _ (hP st caps h)
    | none =>
      cases s with
      | nil => rwa [gsubAux_nil p f hp.nil]
      | cons c cs => rw [gsubAux_cons_of_none p f hp.anchor hm]; exact ih _ _ h

theorem gsubAux_keep {st : σ} (hst : ∀ caps, f st caps = (st, none)) (n : Nat) (s : Bytes)
    (hn : s.length < n) : gsubAux p f n st s = (st, s) := by
  induction n generalizing s with
  | zero => omega
  | succ n ih =>
    cases hm : p.matchAt s with
    | some r =>
      obtain ⟨caps, rest⟩ := r
      obtain ⟨pre, hpre, hs, -⟩ := hp.split s caps rest hm
      have hlt : rest.length < s.length := by
        rw [hs, List.length_append]; have := List.length_pos.mpr hpre; omega
      rw [gsubAux_of_some p f hp.anchor hm hlt, hst, ih rest (by omega)]
      conv_rhs => rw [hs]
      simp [hs]
    | none =>
      cases s with
      | nil => exact gsubAux_nil p f hp.nil n st
      | cons c cs =>
        rw [gsubAux_cons_of_none p f hp.anchor hm, ih cs (by simp at hn; omega)]

theorem gsubAux_fuel (n m : Nat) (st : σ) (s : Bytes) (hn : s.length < n) (hm : s.length < m) :
    gsubAux p f n st s = gsubAux p f m st s := by
  induction n generalizing m st s with
  | zero => omega
  | succ n ih =>
    obtain ⟨m, rfl⟩ : ∃ k, m = k + 1 := ⟨m - 1, by omega⟩
    cases hs : p.matchAt s with
    | some r =>
      obtain ⟨caps, rest⟩ := r
      obtain ⟨pre, hpre, hsp, -⟩ := hp.split s caps rest hs
      have hlt : rest.length < s.length := by
        rw [hsp, List.length_append]; have := List.length_pos.mpr hpre; omega
      rw [gsubAux_of_some p f hp.anchor hs hlt, gsubAux_of_some p f hp.anchor hs hlt,
        ih m _ rest (by omega) (by omega)]
    | none =>
      cases s with
      | nil => rw [gsubAux_nil p f hp.nil, gsubAux_nil p f hp.nil]
      | cons c cs =>
        rw [List.length_cons] at hn hm
        rw [gsubAux_cons_of_none p f hp.anchor hs, gsubAux_cons_of_none p f hp.anchor hs,
          ih m _ cs (by omega) (by omega)]

theorem gsubAux_of_none (st : σ) (s : Bytes) (h : ∀ t, t <:+ s → p.matchAt t = none) (n : Nat)
    (hn : s.length < n) : gsubAux p f n st s = (st, s) := by
  induction s generalizing n with
  | nil =>
    obtain ⟨n, rfl⟩ : ∃ k, n = k + 1 := ⟨n - 1, by omega⟩
    exact gsubAux_nil p f hp.nil n st
  | cons c cs ih =>
    obtain ⟨n, rfl⟩ : ∃ k, n = k + 1 := ⟨n - 1, by omega⟩
    rw [List.length_cons] at hn
    rw [gsubAux_cons_of_none p f hp.anchor (h _ (List.suffix_refl _)),
      ih (fun t ht => h t (ht.trans (List.suffix_cons c cs))) n (by omega)]

theorem gsubAux_append_of_cut (n : Nat) (st : σ) (x : Bytes) (hn : x.length < n)
    (hcut : (gsubAux p f n st x).2 = [])
    (hkeep : ∀ caps, f (gsubAux p f n st x).1 caps = ((gsubAux p f n st x).1, none))
    (t : Bytes) (m : Nat) (hm : (x ++ t).length < m) :
    gsubAux p f m st (x ++ t) = ((gsubAux p f n st x).1, t) := by
  induction n generalizing st x m with
  | zero => omega
  | succ n ih =>
    obtain ⟨m, rfl⟩ : ∃ k, m = k + 1 := ⟨m - 1, by omega⟩
    cases hx : p.matchAt x with
    | some r =>
      obtain ⟨caps, rest⟩ := r
      obtain ⟨pre, hpre, hs, hext⟩ := hp.split x caps rest hx
      have hlt : rest.length < x.length := by
        rw [hs, List.length_append]; have := List.length_pos.mpr hpre; omega
      have hlt' : (rest ++ t).length < (x ++ t).length := by simp only [List.length_append]; omega
      rw [gsubAux_of_some p f hp.anchor hx hlt] at hcut hkeep ⊢
      rw [gsubAux_of_some p f hp.anchor (hext t) hlt']
      have hout : (f st caps).2 = some [] := by
        cases ho : (f st caps).2 with
        | none =>
          rw [ho, Option.getD_none, List.append_eq_nil] at hcut
          have htake : x.take (x.length - rest.length) = pre := by subst hs; simp
          exact absurd (htake ▸ hcut.1) hpre
        | some o => rw [ho, Option.getD_some, List.append_eq_nil] at hcut; rw [hcut.1]
      rw [List.append_eq_nil, hout, Option.getD_some] at hcut
      rw [hout, Option.getD_some, List.nil_append,
        ih (f st caps).1 rest (by omega) hcut.2 hkeep m (by omega)]
    | none =>
      cases x with
      | nil =>
        rw [gsubAux_nil p f hp.nil] at hkeep ⊢
        exact gsubAux_keep hp f hkeep _ t (by simpa using hm)
      | cons c cs => simp [gsubAux_cons_of_none p f hp.anchor hx] at hcut

end gsubPrefix

end Vayu.Lua
