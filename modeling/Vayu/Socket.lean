import Vayu.Buffer.Refinement

/-! # Socket primitives

`socket.c` over one descriptor. The kernel is the environment: what `accept`,
`recv` and `send` report is passed in, together with the allocator's answer for
the buffer growth each call may need. `socketOpenServer` resolves and binds
through the system and hands back a descriptor or `-1`; the server model takes
that descriptor as given.
-/

namespace Vayu.Socket
set_option autoImplicit false

open Vayu.Buffer

/-- `INVALID_SOCKET` of `server.h`. -/
def invalidSocket : Int := -1

/-- What `accept()` reports: a new descriptor, or `-1` with `errno`. -/
inductive Accepted
  | fd (n : Nat)
  | again
  | failed
deriving DecidableEq, Repr

/-- `socketAccept`: the new descriptor, the sentinel `SOCKET_MAX` on `EAGAIN`,
`INVALID_SOCKET` on any other error. -/
def socketAccept (socketMax : Nat) : Accepted → Int
  | .fd n => n
  | .again => socketMax
  | .failed => invalidSocket

theorem socketAccept_eq_failed {socketMax : Nat} {a : Accepted} (h : socketAccept socketMax a < 0) :
    a = .failed := by
  cases a with
  | fd n => simp only [socketAccept] at h; omega
  | again => simp only [socketAccept] at h; omega
  | failed => rfl

/-- What the peeking `recv(fd, tmpBuf, IO_BUF_SIZE, MSG_PEEK)` sees: the bytes
waiting on the socket (none at end of file), or `-1`. -/
inductive Peeked
  | bytes (pending : Bytes)
  | failed
deriving DecidableEq, Repr

/-- `socketRead`: peek at most `IO_BUF_SIZE` bytes, append them to `buf`, and only
then consume them from the socket. Returns the flag and the buffer. -/
def socketRead (peeked : Peeked) (allocOk : Bool) (buf : Buf) : Bool × Buf :=
  match peeked with
  | .bytes pending =>
    if pending.take ioBufSize = [] then (false, buf) else bufAppend buf (pending.take ioBufSize) allocOk
  | .failed => (false, buf)

/-- How many bytes the second, consuming `recv` removes from the socket. -/
def socketReadConsumed (peeked : Peeked) (allocOk : Bool) (buf : Buf) : Nat :=
  match peeked with
  | .bytes pending => if (socketRead peeked allocOk buf).1 then (pending.take ioBufSize).length else 0
  | .failed => 0

/-- What `send(fd, data, len, 0)` reports: the number of bytes sent, or `-1`. -/
inductive Sent
  | count (n : Nat)
  | failed
deriving DecidableEq, Repr

/-- `bytesWritten` after the error check of `socketWrite`. -/
def Sent.written : Sent → Nat
  | .count n => n
  | .failed => 0

/-- `socketWrite`: extract the whole buffer, send it, and append the unsent rest
back. The flag is `0` only when nothing was sent. -/
def socketWrite (sent : Sent) (allocOk : Bool) (buf : Buf) : Bool × Buf :=
  if bufHasData buf then
    let data := (bufExtract buf).1
    let rest := if sent.written < data.length then
        (bufAppend (bufExtract buf).2 (data.drop sent.written) allocOk).2
      else (bufExtract buf).2
    (sent.written ≠ 0, rest)
  else (true, buf)

theorem socketWrite_fst_of_hasData (sent : Sent) (allocOk : Bool) {buf : Buf}
    (h : bufHasData buf = true) : (socketWrite sent allocOk buf).1 = decide (sent.written ≠ 0) := by
  simp [socketWrite, h]

@[simp] theorem socketWrite_of_not_hasData (sent : Sent) (allocOk : Bool) (buf : Buf)
    (h : bufHasData buf = false) : socketWrite sent allocOk buf = (true, buf) := by
  simp [socketWrite, h]

/-! ## Reads and writes against the pending bytes -/

theorem bufAppend_empty_of_refused {d : Bytes} (hd : d ≠ []) (hfit : d.length ≤ sizeMod - 1 - ioBufSize) :
    bufAppend Buf.empty d false = (false, Buf.empty) := by
  have hpos : 0 < d.length := List.length_pos.mpr hd
  obtain ⟨hle, -, -⟩ := alignBufSize_spec d.length (by simp only [sizeMod, ioBufSize] at *; omega)
  have hmod : d.length % sizeMod = d.length := Nat.mod_eq_of_lt (by simp only [sizeMod, ioBufSize] at *; omega)
  simp only [bufAppend, hd, if_false, Buf.empty, Nat.zero_add, hmod]
  rw [if_pos (by omega)]
  rfl

/-- `socketWrite` on a buffer holding `b`, when `send` took `k` bytes: the flag
is `k ≠ 0`, and the buffer holds the unsent rest `b[k..]`, unless the append
that puts the rest back is refused, in which case it holds nothing. -/
theorem socketWrite_spec {buf : Buf} (h : buf.Valid) (hd : buf.content ≠ []) (sent : Sent) (allocOk : Bool)
    (hfit : buf.len ≤ sizeMod - 1 - ioBufSize) :
    (socketWrite sent allocOk buf).1 = decide (sent.written ≠ 0) ∧
    (socketWrite sent allocOk buf).2.content =
      if sent.written < buf.content.length ∧ allocOk = false then [] else buf.content.drop sent.written := by
  have hdata : bufHasData buf = true := (bufHasData_iff h).mpr hd
  have hlen := h.content_length
  refine ⟨socketWrite_fst_of_hasData _ _ hdata, ?_⟩
  simp only [socketWrite, hdata, if_true, bufExtract]
  by_cases hk : sent.written < buf.content.length
  · have hrest : buf.content.drop sent.written ≠ [] := by simp; omega
    have hfit' : Buf.empty.len + (buf.content.drop sent.written).length ≤ sizeMod - 1 - ioBufSize := by
      simp [Buf.empty]; omega
    rw [if_pos hk]
    cases allocOk with
    | false => simp [bufAppend_empty_of_refused hrest (by simpa [Buf.empty] using hfit')]
    | true =>
      rcases bufAppend_spec Buf.valid_empty _ true hfit' with ⟨b', hb', hc, -⟩ | hb'
      · simp [hb', hc]
      · exact absurd (congrArg Prod.fst hb') (by simp [bufAppend_fst_of_allocOk])
  · rw [if_neg hk, if_neg (fun h' => hk h'.1), List.drop_eq_nil_of_le (by omega)]
    rfl

/-- A send of one of two bytes whose re-append is refused: `socketWrite`
returns `1`, and the unsent byte is gone from the buffer. -/
theorem socketWrite_drops_rest :
    (bufAppend Buf.empty [1, 2] true).2.content = [1, 2] ∧
    socketWrite (.count 1) false (bufAppend Buf.empty [1, 2] true).2 = (true, Buf.empty) := by
  decide

/-- `socketRead` against the pending bytes `q`: it either moves the first
`min |q| IO_BUF_SIZE` of them to the end of the buffer, consumes them and
returns `1`, or, at the end of file or on a refused block, returns `0` and
consumes nothing. -/
theorem socketRead_spec {b : Buf} (h : b.Valid) (q : Bytes) (allocOk : Bool)
    (hfit : b.len + ioBufSize ≤ sizeMod - 1 - ioBufSize) :
    ((socketRead (.bytes q) allocOk b).1 = true ∧ q ≠ [] ∧
        (socketRead (.bytes q) allocOk b).2.content = b.content ++ q.take ioBufSize ∧
        (socketRead (.bytes q) allocOk b).2.Valid ∧
        socketReadConsumed (.bytes q) allocOk b = (q.take ioBufSize).length) ∨
      (socketRead (.bytes q) allocOk b = (false, b) ∧ (q = [] ∨ allocOk = false) ∧
        socketReadConsumed (.bytes q) allocOk b = 0) := by
  by_cases hq : q.take ioBufSize = []
  · right
    have hnil : q = [] := by simpa [ioBufSize] using hq
    simp [socketRead, socketReadConsumed, hq, hnil]
  · have hfit' : b.len + (q.take ioBufSize).length ≤ sizeMod - 1 - ioBufSize := by
      have := List.length_take_le ioBufSize q
      omega
    have hq' : q ≠ [] := fun e => hq (by simp [e])
    rcases bufAppend_spec h _ allocOk hfit' with ⟨b', hb', hc, hv⟩ | hb'
    · left
      simp [socketRead, socketReadConsumed, hq, hb', hc, hv, hq']
    · right
      have hok : allocOk = false := by
        cases allocOk
        · rfl
        · exact absurd (congrArg Prod.fst hb') (by simp [bufAppend_fst_of_allocOk])
      subst hok
      simp [socketRead, socketReadConsumed, hq, hb']

/-- Below the top of `size_t`, the input buffer followed by the bytes still
pending is the same before and after `socketRead`, whatever the kernel and the
allocator answer. -/
theorem socketRead_conserves {b : Buf} (h : b.Valid) (peeked : Peeked) (q : Bytes)
    (hq : peeked = .bytes q ∨ peeked = .failed) (allocOk : Bool)
    (hfit : b.len + ioBufSize ≤ sizeMod - 1 - ioBufSize) :
    (socketRead peeked allocOk b).2.content ++ q.drop (socketReadConsumed peeked allocOk b) = b.content ++ q := by
  rcases hq with rfl | rfl
  · rcases socketRead_spec h q allocOk hfit with ⟨-, -, hc, -, hn⟩ | ⟨hr, -, hn⟩
    · rw [hc, hn, List.append_assoc, List.length_take]
      congr 1
      conv_rhs => rw [← List.take_append_drop ioBufSize q]
      rcases le_total ioBufSize q.length with hl | hl
      · rw [Nat.min_eq_left hl]
      · rw [Nat.min_eq_right hl, List.drop_length, List.drop_eq_nil_of_le hl]
    · rw [hr, hn, List.drop_zero]
  · simp [socketRead, socketReadConsumed]

/-- Below the top of `size_t`, `socketRead` keeps the input buffer followed by
the bytes still pending: it moves the first `min |q| IO_BUF_SIZE` of them to the
buffer, consumes them and returns `1`, or it returns `0` and leaves the buffer
and the pending bytes as they were, at the end of file, on a `recv` error or on
a refused block. -/
theorem socketRead_keeps_input {b : Buf} (h : b.Valid) (hfit : b.len + ioBufSize ≤ sizeMod - 1 - ioBufSize)
    (peeked : Peeked) (q : Bytes) (hq : peeked = .bytes q ∨ peeked = .failed) (allocOk : Bool) :
    (socketRead peeked allocOk b).2.content ++ q.drop (socketReadConsumed peeked allocOk b) = b.content ++ q ∧
    ((socketRead peeked allocOk b).1 = true ∧ q ≠ [] ∧
        (socketRead peeked allocOk b).2.content = b.content ++ q.take ioBufSize ∧
        socketReadConsumed peeked allocOk b = (q.take ioBufSize).length ∨
      socketRead peeked allocOk b = (false, b) ∧ socketReadConsumed peeked allocOk b = 0 ∧
        (peeked = .failed ∨ q = [] ∨ allocOk = false)) := by
  refine ⟨socketRead_conserves h peeked q hq allocOk hfit, ?_⟩
  rcases hq with rfl | rfl
  · rcases socketRead_spec h q allocOk hfit with ⟨h1, h2, h3, -, h5⟩ | ⟨h1, h2, h3⟩
    exacts [.inl ⟨h1, h2, h3, h5⟩, .inr ⟨h1, h3, .inr h2⟩]
  · exact .inr ⟨rfl, rfl, .inl rfl⟩

/-- `hi` pending on a new connection: both bytes move to the empty buffer. -/
theorem socketRead_keeps_input_hi :
    Buf.empty.Valid ∧ Buf.empty.len + ioBufSize ≤ sizeMod - 1 - ioBufSize ∧
    (Peeked.bytes [104, 105] = .bytes [104, 105] ∨ Peeked.bytes [104, 105] = .failed) ∧
    (socketRead (.bytes [104, 105]) true Buf.empty).2.content ++
        [104, 105].drop (socketReadConsumed (.bytes [104, 105]) true Buf.empty) = Buf.empty.content ++ [104, 105] ∧
    ((socketRead (.bytes [104, 105]) true Buf.empty).1 = true ∧ [104, 105] ≠ ([] : Bytes) ∧
        (socketRead (.bytes [104, 105]) true Buf.empty).2.content = Buf.empty.content ++ [104, 105].take ioBufSize ∧
        socketReadConsumed (.bytes [104, 105]) true Buf.empty = ([104, 105].take ioBufSize).length ∨
      socketRead (.bytes [104, 105]) true Buf.empty = (false, Buf.empty) ∧
        socketReadConsumed (.bytes [104, 105]) true Buf.empty = 0 ∧
        (Peeked.bytes [104, 105] = .failed ∨ [104, 105] = ([] : Bytes) ∨ true = false)) :=
  ⟨Buf.valid_empty, by decide, .inl rfl,
    socketRead_keeps_input Buf.valid_empty (by decide) (.bytes [104, 105]) [104, 105] (.inl rfl) true⟩

end Vayu.Socket
