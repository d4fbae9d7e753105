import Mathlib.Algebra.Group.Int
import Mathlib.Algebra.Group.Nat.Basic
import Mathlib.Data.List.Basic

/-! # Byte buffers

`buf_t` of `buffer.c`: a block of `size` bytes behind `data`, of which the first
`len` are the buffer's content. Both counters are `size_t`, so the sums
`bufAppend` forms are taken modulo `2 ^ 64`. The block is grown through the
replaceable allocator `_alloc`, whose answer is passed in: `allocOk = false`
stands for a `NULL` result.
-/

namespace Vayu.Buffer
set_option autoImplicit false

/-- Byte strings: the contents of buffers, of Lua strings and of socket I/O. -/
abbrev Bytes := List UInt8

/-- `IO_BUF_SIZE` of `server.h`. -/
def ioBufSize : Nat := 1024

/-- `size_t` is 64 bits wide; `SIZE_MAX = sizeMod - 1`. -/
def sizeMod : Nat := 2 ^ 64

/-- `buf_t`. `data = none` is the `NULL` pointer. -/
structure Buf where
  data : Option Bytes
  len : Nat
  size : Nat
deriving DecidableEq, Repr

def Buf.empty : Buf := ⟨none, 0, 0⟩

/-- The bytes a buffer holds: the first `len` bytes of its block. -/
def Buf.content (b : Buf) : Bytes := (b.data.getD []).take b.len

/-- `_alignBufSize`: round up to a multiple of `IO_BUF_SIZE`, in `size_t`. -/
def alignBufSize (s : Nat) : Nat :=
  (s - s % ioBufSize + if s % ioBufSize > 0 then ioBufSize else 0) % sizeMod

/-- A successful `realloc(block, n)`: the old bytes, cut or extended to `n`.
The bytes past the old block are indeterminate in C; they are zero here. -/
def realloc (block : Option Bytes) (n : Nat) : Bytes :=
  (block.getD []).take n ++ List.replicate (n - (block.getD []).length) 0

/-- `memcpy(block + off, d, |d|)`. -/
def memcpy (block : Bytes) (off : Nat) (d : Bytes) : Bytes :=
  block.take off ++ d ++ block.drop (off + d.length)

/-- `bufAppend(buf, d, |d|)`: the flag it returns and the buffer it leaves.
A Lean list is never `NULL`, so the guard `data != NULL && len > 0` is `d ≠ []`. -/
def bufAppend (buf : Buf) (d : Bytes) (allocOk : Bool) : Bool × Buf :=
  if d = [] then (true, buf) else
    let newLen := (buf.len + d.length) % sizeMod
    let newSize := alignBufSize newLen
    if newSize > buf.size then
      if allocOk then
        (true, ⟨some (memcpy (realloc buf.data newSize) buf.len d), newLen, newSize⟩)
      else (false, buf)
    else (true, { buf with data := some (memcpy (buf.data.getD []) buf.len d), len := newLen })

/-- `bufPeek`: the `len` bytes at `data`, read by the caller; the buffer is unchanged. -/
def bufPeek (buf : Buf) : Bytes := buf.content

/-- `bufExtract`: the bytes handed to the caller, and the reset buffer. -/
def bufExtract (buf : Buf) : Bytes × Buf := (buf.content, Buf.empty)

/-- `bufHasData`. -/
def bufHasData (buf : Buf) : Bool := buf.data.isSome && decide (buf.len > 0)

/-- `bufClear`: free the block and reset. -/
def bufClear (_buf : Buf) : Buf := Buf.empty

@[simp] theorem content_empty : Buf.empty.content = [] := rfl

@[simp] theorem bufHasData_empty : bufHasData Buf.empty = false := rfl

@[simp] theorem bufClear_eq (b : Buf) : bufClear b = Buf.empty := rfl

@[simp] theorem bufExtract_snd (b : Buf) : (bufExtract b).2 = Buf.empty := rfl

@[simp] theorem bufAppend_nil (b : Buf) (ok : Bool) : bufAppend b [] ok = (true, b) := by
  simp [bufAppend]

theorem bufAppend_false {b b' : Buf} {d : Bytes} {ok : Bool}
    (h : bufAppend b d ok = (false, b')) : b' = b := by
  simp only [bufAppend] at h
  split_ifs at h <;> cases h; rfl

theorem bufAppend_fst_of_allocOk (b : Buf) (d : Bytes) : (bufAppend b d true).1 = true := by
  simp only [bufAppend]
  split_ifs <;> rfl

end Vayu.Buffer
