import Vayu.Buffer.Basic

/-! # Buffers refine byte strings

Seen through `Buf.content`, every buffer operation acts on a byte string the
way its comment in `buffer.c` says, whatever the allocator answers, and keeps
the layout invariant of `buf_t`: `len ≤ size`, `size` a multiple of
`IO_BUF_SIZE`, and `data = NULL` exactly when `size = 0`. The only assumption is
that no sum `buf->len + len` exceeds `SIZE_MAX - IO_BUF_SIZE`, so that no
`size_t` computation wraps.
-/

namespace Vayu.Buffer
set_option autoImplicit false

/-- The layout invariant of a `buf_t`; `block_length` ties the model's block to `size`. -/
structure Buf.Valid (b : Buf) : Prop where
  len_le : b.len ≤ b.size
  aligned : b.size % ioBufSize = 0
  null_iff : b.data = none ↔ b.size = 0
  block_length : ∀ block, b.data = some block → block.length = b.size

theorem Buf.valid_empty : Buf.empty.Valid :=
  ⟨le_rfl, rfl, by simp [Buf.empty], by simp [Buf.empty]⟩

theorem Buf.Valid.getD_length {b : Buf} (h : b.Valid) : (b.data.getD []).length = b.size := by
  cases hd : b.data with
  | none => simpa using (h.null_iff.mp hd).symm
  | some block => exact h.block_length block hd

theorem Buf.Valid.content_length {b : Buf} (h : b.Valid) : b.content.length = b.len := by
  simp [Buf.content, h.getD_length, h.len_le]

theorem bufHasData_iff {b : Buf} (h : b.Valid) : bufHasData b = true ↔ b.content ≠ [] := by
  rw [Ne, ← List.length_eq_zero, h.content_length]
  cases hd : b.data with
  | none => simp [bufHasData, hd, Nat.le_zero.mp ((h.null_iff.mp hd) ▸ h.len_le)]
  | some block => simp [bufHasData, hd, Nat.pos_iff_ne_zero]

theorem memcpy_take (block d : Bytes) (off : Nat) (h : off ≤ block.length) :
    (memcpy block off d).take (off + d.length) = block.take off ++ d := by
  simp [memcpy, List.take_append_eq_append_take, h]

theorem memcpy_length (block d : Bytes) (off : Nat) (h : off + d.length ≤ block.length) :
    (memcpy block off d).length = block.length := by
  simp [memcpy]
  omega

theorem realloc_length (block : Option Bytes) (n : Nat) : (realloc block n).length = n := by
  simp [realloc]
  omega

theorem realloc_take (block : Option Bytes) (n k : Nat) (hk : k ≤ n)
    (hk' : k ≤ (block.getD []).length) : (realloc block n).take k = (block.getD []).take k := by
  rw [realloc, List.take_append_of_le_length (by simp; omega), List.take_take, Nat.min_eq_left hk]

theorem alignBufSize_spec (s : Nat) (h : s + ioBufSize < sizeMod) :
    s ≤ alignBufSize s ∧ alignBufSize s % ioBufSize = 0 ∧ alignBufSize s < s + ioBufSize := by
  simp only [alignBufSize, ioBufSize, sizeMod] at *
  split <;> rw [Nat.mod_eq_of_lt (by omega)] <;> omega

/-- The step lemma of `bufAppend`: under the no-wrap bound, success appends to
the content and keeps the invariant, and failure changes nothing. -/
theorem bufAppend_spec {b : Buf} (h : b.Valid) (d : Bytes) (ok : Bool)
    (hfit : b.len + d.length ≤ sizeMod - 1 - ioBufSize) :
    (∃ b', bufAppend b d ok = (true, b') ∧ b'.content = b.content ++ d ∧ b'.Valid) ∨
      bufAppend b d ok = (false, b) := by
  by_cases hd : d = []
  · exact .inl ⟨b, by simp [hd], by simp [hd], h⟩
  have hpos : 0 < d.length := List.length_pos.mpr hd
  have hlen : (b.len + d.length) % sizeMod = b.len + d.length :=
    Nat.mod_eq_of_lt (by simp only [sizeMod, ioBufSize] at *; omega)
  obtain ⟨hle, hal, hlt⟩ := alignBufSize_spec (b.len + d.length)
    (by simp only [sizeMod, ioBufSize] at *; omega)
  have hblock := h.getD_length
  simp only [bufAppend, hd, if_false, hlen]
  split_ifs with hgrow hok
  · refine .inl ⟨_, rfl, ?_, hle, hal, ?_, ?_⟩
    · simp only [Buf.content, Option.getD_some]
      rw [memcpy_take _ _ _ (by rw [realloc_length]; omega),
        realloc_take _ _ _ (by omega) (by have := h.len_le; omega)]
    · simp only [reduceCtorEq, false_iff]
      omega
    · rintro block ⟨⟩
      rw [memcpy_length _ _ _ (by rw [realloc_length]; omega), realloc_length]
  · exact .inr rfl
  · have hsize := h.len_le
    refine .inl ⟨_, rfl, ?_, by dsimp only; omega, h.aligned, ?_, ?_⟩
    · simp only [Buf.content, Option.getD_some]
      rw [memcpy_take _ _ _ (by omega)]
    · simp only [reduceCtorEq, false_iff]
      omega
    · rintro block ⟨⟩
      rw [memcpy_length _ _ _ (by omega), hblock]

/-- The calls a client makes on one buffer; an append carries the allocator's answer. -/
inductive BufCall
  | append (d : Bytes) (allocOk : Bool)
  | peek
  | extract
  | hasData
  | clear
deriving DecidableEq, Repr

/-- What a call returns: a flag (`bufAppend`, `bufHasData`) or bytes (`bufPeek`, `bufExtract`). -/
inductive BufReply
  | flag (b : Bool)
  | bytes (d : Bytes)
  | unit
deriving DecidableEq, Repr

/-- One call on the C buffer. -/
def BufCall.exec : BufCall → Buf → BufReply × Buf
  | .append d ok, b => ((bufAppend b d ok).1 |> .flag, (bufAppend b d ok).2)
  | .peek, b => (.bytes (bufPeek b), b)
  | .extract, b => (.bytes (bufExtract b).1, (bufExtract b).2)
  | .hasData, b => (.flag (bufHasData b), b)
  | .clear, b => (.unit, bufClear b)

/-- What each call does to the byte string a buffer stands for. -/
def BufCall.Spec : BufCall → Buf → BufReply → Buf → Prop
  | .append d _, b, r, b' =>
      (r = .flag true ∧ b'.content = b.content ++ d) ∨ (r = .flag false ∧ b' = b)
  | .peek, b, r, b' => r = .bytes b.content ∧ b' = b
  | .extract, b, r, b' => r = .bytes b.content ∧ b' = Buf.empty
  | .hasData, b, r, b' => r = .flag (decide (b.content ≠ [])) ∧ b' = b
  | .clear, _, _, b' => b' = Buf.empty

/-- The sum `buf->len + len` an append forms stays at most `SIZE_MAX - IO_BUF_SIZE`. -/
def BufCall.Fits : BufCall → Buf → Prop
  | .append d _, b => b.len + d.length ≤ sizeMod - 1 - ioBufSize
  | _, _ => True

/-- Every append of a run of calls fits. -/
def Fits : List BufCall → Buf → Prop
  | [], _ => True
  | c :: cs, b => c.Fits b ∧ Fits cs (c.exec b).2

/-- Every call of a run meets its specification and leaves a valid buffer. -/
def Conforms : List BufCall → Buf → Prop
  | [], _ => True
  | c :: cs, b => c.Spec b (c.exec b).1 (c.exec b).2 ∧ (c.exec b).2.Valid ∧ Conforms cs (c.exec b).2

theorem BufCall.exec_spec (c : BufCall) {b : Buf} (h : b.Valid) (hfit : c.Fits b) :
    c.Spec b (c.exec b).1 (c.exec b).2 ∧ (c.exec b).2.Valid := by
  cases c with
  | append d ok =>
    rcases bufAppend_spec h d ok hfit with ⟨b', hb, hc, hv⟩ | hb <;>
      simp [BufCall.exec, BufCall.Spec, hb, *]
  | peek => exact ⟨⟨rfl, rfl⟩, h⟩
  | extract => exact ⟨⟨rfl, rfl⟩, Buf.valid_empty⟩
  | hasData => exact ⟨⟨by simp [BufCall.exec, ← bufHasData_iff h], rfl⟩, h⟩
  | clear => exact ⟨rfl, Buf.valid_empty⟩

theorem conforms_of_valid (cs : List BufCall) {b : Buf} (h : b.Valid) (hfit : Fits cs b) :
    Conforms cs b := by
  induction cs generalizing b with
  | nil => trivial
  | cons c cs ih =>
    obtain ⟨hspec, hvalid⟩ := c.exec_spec h hfit.1
    exact ⟨hspec, hvalid, ih hvalid hfit.2⟩

/-- Every run of buffer calls from a zeroed `buf_t` refines the byte-string
operations, as long as no `size_t` sum it forms comes near `SIZE_MAX`. -/
theorem buffer_refines_bytes (cs : List BufCall) (hfit : Fits cs Buf.empty) :
    Conforms cs Buf.empty :=
  conforms_of_valid cs Buf.valid_empty hfit

theorem buffer_refines_bytes_example :
    Fits [.append [1, 2, 3] false, .append [4] true, .hasData, .peek, .extract, .clear] Buf.empty ∧
    Conforms [.append [1, 2, 3] false, .append [4] true, .hasData, .peek, .extract, .clear]
      Buf.empty := by
  have hfit : Fits [.append [1, 2, 3] false, .append [4] true, .hasData, .peek, .extract, .clear]
      Buf.empty := by
    simp only [Fits, BufCall.Fits, BufCall.exec, bufAppend, sizeMod, ioBufSize]
    decide
  exact ⟨hfit, buffer_refines_bytes _ hfit⟩

/-! ## At the top of `size_t`

`bufAppend` adds `len` and the length of the data and rounds the sum up with no
check, so near `SIZE_MAX` both sums wrap.
-/

/-- A valid buffer of `SIZE_MAX - 1023` bytes, the largest multiple of
`IO_BUF_SIZE` a `size_t` holds, filling its block. -/
def topBuf : Buf :=
  ⟨some (List.replicate (sizeMod - ioBufSize) 0), sizeMod - ioBufSize, sizeMod - ioBufSize⟩

theorem topBuf_valid : topBuf.Valid where
  len_le := le_rfl
  aligned := by decide
  null_iff := by simp only [topBuf, reduceCtorEq, false_iff]; decide
  block_length := by rintro block ⟨⟩; exact List.length_replicate _ _

theorem topBuf_content_length : topBuf.content.length = sizeMod - ioBufSize :=
  topBuf_valid.content_length

/-- Up to `IO_BUF_SIZE` more bytes round up past `SIZE_MAX`: `_alignBufSize`
gives `0`, no block is allocated, and the data is copied behind `len`. -/
theorem bufAppend_topBuf {d : Bytes} (hd : d ≠ []) (hn : d.length ≤ ioBufSize) (ok : Bool) :
    bufAppend topBuf d ok = (true, { topBuf with
      data := some (memcpy (topBuf.data.getD []) topBuf.len d),
      len := (topBuf.len + d.length) % sizeMod }) := by
  have hpos : 0 < d.length := List.length_pos.mpr hd
  have ha : alignBufSize ((topBuf.len + d.length) % sizeMod) = 0 := by
    simp only [topBuf, sizeMod, ioBufSize, alignBufSize] at hn ⊢
    split <;> omega
  simp only [bufAppend, hd, if_false, ha]
  rfl

/-- Appending one byte to `topBuf`: the new length fits in `size_t`, but its
round-up wraps to `0`, so no block is allocated, `bufAppend` returns `1`, and
the length exceeds the block the `memcpy` writes into. Appending
`IO_BUF_SIZE` bytes wraps the length itself to `0`. -/
theorem bufAppend_wraps :
    topBuf.Valid ∧
    (bufAppend topBuf [0] false).1 = true ∧ (bufAppend topBuf [0] false).2.len = topBuf.len + 1 ∧
      (bufAppend topBuf [0] false).2.size < (bufAppend topBuf [0] false).2.len ∧
    (bufAppend topBuf (List.replicate ioBufSize 0) false).1 = true ∧
      (bufAppend topBuf (List.replicate ioBufSize 0) false).2.len = 0 := by
  have hne : List.replicate ioBufSize (0 : UInt8) ≠ [] :=
    List.ne_nil_of_length_pos (by rw [List.length_replicate]; decide)
  rw [bufAppend_topBuf (by simp) (by decide), bufAppend_topBuf hne (by simp)]
  simp only [List.length_replicate, List.length_singleton, topBuf, sizeMod, ioBufSize]
  exact ⟨topBuf_valid, by decide⟩

end Vayu.Buffer
