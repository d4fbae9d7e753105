import Vayu.Lua.Number

/-! # URL encoding

`encode.url` and `decode.url` of the helper script: percent-escapes through
`string.gsub`, with `+` for a blank.
-/

namespace Vayu.Lua
set_option autoImplicit false

open Vayu.Buffer

/-- `string.gsub` with a replacement that keeps no state. -/
def gsubPure (p : Pattern) (f : List Bytes → Option Bytes) (s : Bytes) : Bytes :=
  (gsub p (fun (_ : Unit) caps => ((), f caps)) () s).2

/-- The uppercase hexadecimal digit of `n < 16`. -/
def hexDigit (n : Nat) : UInt8 := if n < 10 then (48 + n).toUInt8 else (55 + n).toUInt8

/-- `_charToHex`: `string.format("%%%02X", string.byte(char))`. -/
def charToHex (char : Bytes) : Bytes :=
  let b := (char.headD 0).toNat
  [37, hexDigit (b / 16), hexDigit (b % 16)]

/-- `_hexToChar`: `string.char(tonumber(num, 16))` for the two hexadecimal
digits the pattern captured. -/
def hexToChar (num : Bytes) : Bytes := [(hexDigitsValue num).toUInt8]

/-- `"([^%w ])"`. -/
def unsafePattern : Pattern :=
  ⟨false, [.openCapture, .item (.set true [.cls .alnum, .lit 32]) .one, .closeCapture], false⟩

/-- `"%%(%x%x)"`. -/
def escapePattern : Pattern :=
  ⟨false, [.item (.lit 37) .one, .openCapture, .item (.cls .xdigit) .one, .item (.cls .xdigit) .one,
    .closeCapture], false⟩

/-- The single byte `c` as a pattern. -/
def bytePattern (c : UInt8) : Pattern := ⟨false, [.item (.lit c) .one], false⟩

/-- `encode.url`. -/
def encodeUrl (data : Bytes) : Bytes :=
  gsubPure (bytePattern 32) (fun _ => some [43])
    (gsubPure unsafePattern (fun caps => some (charToHex (caps.headD []))) data)

/-- `decode.url`. -/
def decodeUrl (data : Bytes) : Bytes :=
  gsubPure escapePattern (fun caps => some (hexToChar (caps.headD [])))
    (gsubPure (bytePattern 43) (fun _ => some [32]) data)

/-! ## Decoding undoes encoding

`encode.url` escapes every byte that is neither alphanumeric nor a blank, so a
literal `+` or `%` becomes an escape, and then turns blanks into `+`.
`decode.url` turns `+` back into blanks before it reads the escapes, and the
escapes it reads are exactly the ones `encode.url` wrote.
-/

/-- What the first pass of `encode.url` makes of one byte. -/
def encodeByte (c : UInt8) : Bytes := if isAlnum c || c == 32 then [c] else charToHex [c]

theorem gsubPure_bytewise (p : Pattern) (hp : p.anchor = false) (P : UInt8 → Bool)
    (hnil : p.matchAt [] = none)
    (hcons : ∀ c cs, p.matchAt (c :: cs) = if P c then some ([[c]], cs) else none)
    (g : List Bytes → Option Bytes) (s : Bytes) :
    gsubPure p g s = s.flatMap fun c => if P c then (g [[c]]).getD [c] else [c] := by
  suffices h : ∀ n, s.length < n → (gsubAux p (fun (_ : Unit) caps => ((), g caps)) n () s).2 =
      s.flatMap fun c => if P c then (g [[c]]).getD [c] else [c] from h _ (Nat.lt_succ_self _)
  induction s with
  | nil =>
    intro n hn
    obtain ⟨m, rfl⟩ : ∃ m, n = m + 1 := ⟨n - 1, by omega⟩
    simp [gsubAux_nil _ _ hnil]
  | cons c cs ih =>
    intro n hn
    obtain ⟨m, rfl⟩ : ∃ m, n = m + 1 := ⟨n - 1, by omega⟩
    have hm : cs.length < m := by simp at hn; omega
    by_cases hc : P c = true
    · rw [gsubAux_of_some _ _ hp (by rw [hcons, if_pos hc]) (by simp)]
      simp [hc, ih m hm]
    · rw [gsubAux_cons_of_none _ _ hp (by rw [hcons, if_neg hc])]
      simp [hc, ih m hm]

theorem unsafePattern_matchAt (c : UInt8) (cs : Bytes) :
    unsafePattern.matchAt (c :: cs) = if !(isAlnum c || c == 32) then some ([[c]], cs) else none := by
  by_cases hc : (isAlnum c || c == 32) = true <;>
    simp [Pattern.matchAt, unsafePattern, matchElems_one_cons, matchElems.eq_1, matchElems.eq_2, matchElems.eq_3,
      CharClass.matches, SetItem.matches, Cls.matches, hc, results, closeInner]

theorem bytePattern_matchAt (b c : UInt8) (cs : Bytes) :
    (bytePattern b).matchAt (c :: cs) = if c == b then some ([[c]], cs) else none := by
  by_cases hc : c = b <;>
    simp [Pattern.matchAt, bytePattern, matchElems_one_cons, matchElems.eq_1, CharClass.matches, hc, results]

theorem escapePattern_matchAt_of_ne {c : UInt8} (hc : c ≠ 37) (cs : Bytes) :
    escapePattern.matchAt (c :: cs) = none := by
  simp [Pattern.matchAt, escapePattern, matchElems_one_cons, CharClass.matches, hc]

theorem escapePattern_matchAt_escape {h1 h2 : UInt8} (hx1 : isXDigit h1 = true)
    (hx2 : isXDigit h2 = true) (rest : Bytes) :
    escapePattern.matchAt (37 :: h1 :: h2 :: rest) = some ([[h1, h2]], rest) := by
  simp [Pattern.matchAt, escapePattern, matchElems_one_cons, matchElems.eq_1, matchElems.eq_2, matchElems.eq_3,
    CharClass.matches, Cls.matches, hx1, hx2, results, closeInner, Nat.add_assoc]

theorem hexDigit_spec (k : Nat) (hk : k < 16) : hexValue (hexDigit k) = k ∧
    isXDigit (hexDigit k) = true ∧ hexDigit k ≠ 37 ∧ hexDigit k ≠ 43 ∧ hexDigit k ≠ 32 := by
  have h : ∀ i : Fin 16, hexValue (hexDigit i) = i ∧ isXDigit (hexDigit i) = true ∧
      hexDigit i ≠ 37 ∧ hexDigit i ≠ 43 ∧ hexDigit i ≠ 32 := by
    decide
  exact h ⟨k, hk⟩

theorem isAlnum_ge {c : UInt8} (h : isAlnum c = true) : 48 ≤ c.toNat := by
  simp only [isAlnum, isDigit, Bool.or_eq_true, Bool.and_eq_true, decide_eq_true_eq, UInt8.le_def,
    BitVec.le_def] at h
  change 48 ≤ c.toBitVec.toNat
  rcases h with (⟨h, -⟩ | ⟨h, -⟩) | ⟨h, -⟩ <;> simp at h <;> omega

theorem hexToChar_charToHex (c : UInt8) :
    hexToChar [hexDigit (c.toNat / 16), hexDigit (c.toNat % 16)] = [c] := by
  have hc := UInt8.toNat_lt_size c
  have hhi := (hexDigit_spec (c.toNat / 16) (by simp [UInt8.size] at hc; omega)).1
  have hlo := (hexDigit_spec (c.toNat % 16) (by omega)).1
  simp only [hexToChar, hexDigitsValue, List.foldl, hhi, hlo, List.cons.injEq, and_true]
  rw [show 16 * (16 * 0 + c.toNat / 16) + c.toNat % 16 = c.toNat by omega]
  exact UInt8.toNat.inj (UInt8.toNat_ofNat_of_lt hc)

theorem ne_of_passes {c : UInt8} (h : (isAlnum c || c == 32) = true) : c ≠ 37 ∧ c ≠ 43 := by
  rcases Bool.or_eq_true _ _ |>.mp h with ha | hs
  · have hge := isAlnum_ge ha
    exact ⟨by rintro rfl; exact absurd hge (by decide), by rintro rfl; exact absurd hge (by decide)⟩
  · rw [beq_iff_eq] at hs
    subst hs
    decide

theorem charToHex_singleton (c : UInt8) :
    charToHex [c] = [37, hexDigit (c.toNat / 16), hexDigit (c.toNat % 16)] := rfl

theorem encodeByte_ne_plus (c : UInt8) : ∀ x ∈ encodeByte c, x ≠ 43 := by
  have hc := UInt8.toNat_lt_size c
  have hhi := (hexDigit_spec (c.toNat / 16) (by simp [UInt8.size] at hc; omega)).2.2.2.1
  have hlo := (hexDigit_spec (c.toNat % 16) (by omega)).2.2.2.1
  unfold encodeByte
  split
  · simpa using (ne_of_passes ‹_›).2
  · simp only [charToHex_singleton, List.mem_cons, List.mem_singleton, List.not_mem_nil, or_false]
    rintro x (rfl | rfl | rfl)
    exacts [by decide, hhi, hlo]

theorem encodeUrl_eq (s : Bytes) :
    encodeUrl s = (s.flatMap encodeByte).map fun c => if c = 32 then 43 else c := by
  rw [encodeUrl, gsubPure_bytewise unsafePattern rfl _ rfl unsafePattern_matchAt,
    gsubPure_bytewise (bytePattern 32) rfl _ rfl (bytePattern_matchAt 32), List.map_eq_flatMap]
  congr 1
  · congr 1
    funext c
    by_cases h : (isAlnum c || c == 32) = true <;> simp [encodeByte, h]
  · funext c
    by_cases h : c = 32 <;> simp [h]

theorem decodeUrl_eq (t : Bytes) :
    decodeUrl t = gsubPure escapePattern (fun caps => some (hexToChar (caps.headD [])))
      (t.map fun c => if c = 43 then 32 else c) := by
  rw [decodeUrl, gsubPure_bytewise (bytePattern 43) rfl _ rfl (bytePattern_matchAt 43), List.map_eq_flatMap]
  congr 2
  funext c
  by_cases h : c = 43 <;> simp [h]

/-- The escapes `encode.url` writes read back as the bytes they stand for, and
nothing else is read as an escape. -/
theorem unescape_encodeBytes (s : Bytes) :
    gsubPure escapePattern (fun caps => some (hexToChar (caps.headD []))) (s.flatMap encodeByte) = s := by
  suffices h : ∀ n, (s.flatMap encodeByte).length < n →
      (gsubAux escapePattern (fun (_ : Unit) caps => ((), some (hexToChar (caps.headD []))))
        n () (s.flatMap encodeByte)).2 = s from h _ (Nat.lt_succ_self _)
  induction s with
  | nil =>
    intro n hn
    obtain ⟨m, rfl⟩ : ∃ m, n = m + 1 := ⟨n - 1, by omega⟩
    exact congrArg Prod.snd (gsubAux_nil escapePattern _ rfl m ())
  | cons c s ih =>
    intro n hn
    obtain ⟨m, rfl⟩ : ∃ m, n = m + 1 := ⟨n - 1, by omega⟩
    rw [List.flatMap_cons] at hn ⊢
    by_cases hp : (isAlnum c || c == 32) = true
    · simp only [encodeByte, hp, if_true, List.singleton_append] at hn ⊢
      rw [gsubAux_cons_of_none _ _ rfl (escapePattern_matchAt_of_ne (ne_of_passes hp).1 _),
        ih m (by rw [List.length_cons] at hn; omega)]
    · have hc := UInt8.toNat_lt_size c
      have hhi := hexDigit_spec (c.toNat / 16) (by simp [UInt8.size] at hc; omega)
      have hlo := hexDigit_spec (c.toNat % 16) (by omega)
      simp only [encodeByte, hp, Bool.false_eq_true, if_false, charToHex_singleton, List.cons_append,
        List.nil_append] at hn ⊢
      rw [gsubAux_of_some _ _ rfl (escapePattern_matchAt_escape hhi.2.1 hlo.2.1 _)
        (by simp only [List.length_cons]; omega)]
      rw [ih m (by simp only [List.length_cons] at hn; omega)]
      simp [hexToChar_charToHex]

/-- `decode.url(encode.url(s)) = s` for every byte string. -/
theorem decodeUrl_encodeUrl (s : Bytes) : decodeUrl (encodeUrl s) = s := by
  have hplus : ((s.flatMap encodeByte).map fun c => if c = 32 then 43 else c).map
      (fun c => if c = 43 then 32 else c) = s.flatMap encodeByte := by
    rw [List.map_map]
    conv_rhs => rw [← List.map_id (s.flatMap encodeByte)]
    refine List.map_congr_left fun x hx => ?_
    obtain ⟨c, -, hxc⟩ := List.mem_flatMap.mp hx
    have h43 := encodeByte_ne_plus c x hxc
    by_cases h32 : x = 32 <;> simp [h32, h43]
  rw [encodeUrl_eq, decodeUrl_eq, hplus, unescape_encodeBytes]

end Vayu.Lua
