import Mathlib.Data.Rat.Floor
import Mathlib.Tactic.NormNum
import Vayu.Http.Stream
import Vayu.Http.KeepAlive
import Vayu.Http.Accept

/-! # Responses

`httpResponseBuilder.buildResponse(response, version)` of httpResponse.lua sets
`content-length` to the length of the body and writes the status line
`HTTP/%.1f %d %s` with the reason `_responseCodes` gives the status, one line
`Name: value` for each header in the order `pairs` visits the table, with the
name as `_formatHeader` writes it, an empty line, and the body.

A client takes a response from the front of the bytes it receives: the status
line and the fields up to the empty line, then as many bytes as
`Content-Length` announces; what follows belongs to the next response.
Whatever order `pairs` takes, a response built from plain headers reads back
so, with its body and nothing of what follows it. Every response the
simple_http script appends reads back with the version of its request and
`_serialize(request)` as its body, and under its `Connection` field the client
keeps the connection open exactly when the script does not close it.
-/

namespace Vayu.Lua
set_option autoImplicit false

open Vayu.Buffer

/-! ## Numbers and letters in the C library -/

/-- The decimal digits of `n` in front of `acc`, for a `fuel` above their number. -/
def decimalDigits : Nat → Nat → Bytes → Bytes
  | 0, _, acc => acc
  | fuel + 1, n, acc =>
    if n < 10 then (n + 48).toUInt8 :: acc else decimalDigits fuel (n / 10) ((n % 10 + 48).toUInt8 :: acc)

/-- `%d` of a natural number: its decimal digits. -/
def decimal (n : Nat) : Bytes := decimalDigits (n + 1) n []

/-- `%.1f` of `m / 10`. -/
def tenthsText (m : Nat) : Bytes := decimal (m / 10) ++ [46, (m % 10 + 48).toUInt8]

theorem digit_byte : ∀ d < 10, isDigit (d + 48).toUInt8 = true ∧ (d + 48).toUInt8.toNat = d + 48 := by
  decide

theorem digitsValue_append_digit (ds : Bytes) (c : UInt8) :
    digitsValue (ds ++ [c]) = 10 * digitsValue ds + (c.toNat - 48) := by
  simp [digitsValue, List.foldl_append]

theorem decimalDigits_spec (fuel n : Nat) (acc : Bytes) (h : n < 10 ^ (fuel + 1)) :
    ∃ ds, decimalDigits (fuel + 1) n acc = ds ++ acc ∧ ds ≠ [] ∧ (∀ c ∈ ds, isDigit c = true) ∧
      digitsValue ds = n := by
  have one : ∀ f n acc, n < 10 → ∃ ds, decimalDigits (f + 1) n acc = ds ++ acc ∧ ds ≠ [] ∧
      (∀ c ∈ ds, isDigit c = true) ∧ digitsValue ds = n := fun f n acc hn =>
    ⟨[(n + 48).toUInt8], by simp [decimalDigits, hn], by simp, by simpa using (digit_byte n hn).1,
      by simp [digitsValue, (digit_byte n hn).2]⟩
  induction fuel generalizing n acc with
  | zero => exact one 0 n acc (by simpa using h)
  | succ fuel ih =>
    by_cases hn : n < 10
    · exact one _ n acc hn
    obtain ⟨ds, hds, hne, hdig, hval⟩ :=
      ih (n / 10) ((n % 10 + 48).toUInt8 :: acc) (by rw [pow_succ] at h; omega)
    have hd := digit_byte (n % 10) (Nat.mod_lt n (by decide))
    refine ⟨ds ++ [(n % 10 + 48).toUInt8], by rw [decimalDigits, if_neg hn, hds]; simp, by simp, ?_, ?_⟩
    · intro c hc
      rcases List.mem_append.mp hc with hc | hc
      · exact hdig c hc
      · rw [List.mem_singleton.mp hc]
        exact hd.1
    · rw [digitsValue_append_digit, hval, hd.2]
      omega

/-- `%d` writes decimal digits, at least one, that read back as the number. -/
theorem decimal_spec (n : Nat) :
    decimal n ≠ [] ∧ (∀ c ∈ decimal n, isDigit c = true) ∧ digitsValue (decimal n) = n := by
  have hn := Nat.lt_pow_self (by decide : 1 < 10) (n + 1)
  obtain ⟨ds, h, hds⟩ := decimalDigits_spec n n [] (by omega)
  rw [decimal, h, List.append_nil]
  exact hds

theorem digits_plain {s : Bytes} (h : ∀ c ∈ s, isDigit c = true) : 13 ∉ s ∧ s.head? ≠ some 32 :=
  ⟨fun h13 => absurd (h 13 h13) (by decide), fun h32 => absurd (h 32 (List.mem_of_mem_head? h32)) (by decide)⟩

theorem tenthsText_noCr (m : Nat) : 13 ∉ tenthsText m := by
  have hd := (digit_byte (m % 10) (Nat.mod_lt m (by decide))).1
  simp only [tenthsText, List.mem_append, List.mem_cons, List.mem_singleton, not_or]
  exact ⟨(digits_plain (decimal_spec _).2.1).1, by decide,
    fun h => absurd (h ▸ hd) (by decide), fun h => nomatch h⟩

/-- `isalpha` in the C locale. -/
def isAlpha (c : UInt8) : Bool := (65 ≤ c && c ≤ 90) || (97 ≤ c && c ≤ 122)

/-- `toupper` in the C locale. -/
def toUpper (c : UInt8) : UInt8 := if 97 ≤ c && c ≤ 122 then c - 32 else c

theorem byte_le_iff (a b : UInt8) : a ≤ b ↔ a.toNat ≤ b.toNat := Iff.rfl

theorem toNat_toLower (c : UInt8) :
    (toLower c).toNat = if 65 ≤ c.toNat ∧ c.toNat ≤ 90 then c.toNat + 32 else c.toNat := by
  have hc : c.toNat < 256 := c.toNat_lt_size
  have hcond : (65 ≤ c && c ≤ 90) = true ↔ 65 ≤ c.toNat ∧ c.toNat ≤ 90 := by
    simp only [Bool.and_eq_true, decide_eq_true_eq, byte_le_iff]
    rfl
  unfold toLower
  by_cases h : 65 ≤ c.toNat ∧ c.toNat ≤ 90
  · rw [if_pos (hcond.mpr h), if_pos h]
    show (c.toNat + 32) % 2 ^ 8 = _
    omega
  · rw [if_neg (mt hcond.mp h), if_neg h]

theorem toNat_toUpper (c : UInt8) :
    (toUpper c).toNat = if 97 ≤ c.toNat ∧ c.toNat ≤ 122 then c.toNat - 32 else c.toNat := by
  have hcond : (97 ≤ c && c ≤ 122) = true ↔ 97 ≤ c.toNat ∧ c.toNat ≤ 122 := by
    simp only [Bool.and_eq_true, decide_eq_true_eq, byte_le_iff]
    rfl
  unfold toUpper
  by_cases h : 97 ≤ c.toNat ∧ c.toNat ≤ 122
  · rw [if_pos (hcond.mpr h), if_pos h,
      UInt8.toNat_sub_of_le _ _ ((byte_le_iff _ _).mpr (by show 32 ≤ c.toNat; omega))]
    rfl
  · rw [if_neg (mt hcond.mp h), if_neg h]

theorem toLower_toUpper (c : UInt8) : toLower (toUpper c) = toLower c := by
  apply UInt8.toNat.inj
  rw [toNat_toLower, toNat_toLower, toNat_toUpper]
  split_ifs <;> omega

theorem toLower_toLower (c : UInt8) : toLower (toLower c) = toLower c := by
  apply UInt8.toNat.inj
  rw [toNat_toLower, toNat_toLower]
  split_ifs <;> omega

theorem lower_lower (s : Bytes) : lower (lower s) = lower s := by
  simp [lower, Function.comp_def, toLower_toLower]

end Vayu.Lua

namespace Vayu.Http
set_option autoImplicit false

open Vayu.Buffer Vayu.Lua Vayu.Server

/-! ## Header names -/

/-- `string.gsub(s, "^%a", string.upper)`: a letter in front in upper case. -/
def upperFirst : Bytes → Bytes
  | c :: s => (if isAlpha c then toUpper c else c) :: s
  | [] => []

/-- `string.gsub(s, "%-%a", string.upper)`, from a point where `dash` says the
byte before is a `-` that began no match: a letter right after a `-` is put in
upper case, and the scan goes on after it. -/
def upperAfterDash (dash : Bool) : Bytes → Bytes
  | [] => []
  | c :: s => if dash && isAlpha c then toUpper c :: upperAfterDash false s else c :: upperAfterDash (c == 45) s

/-- `_formatHeader(header)`. -/
def formatHeader (header : Bytes) : Bytes := upperAfterDash false (upperFirst (lower header))

theorem lower_upperAfterDash (dash : Bool) (s : Bytes) : lower (upperAfterDash dash s) = lower s := by
  induction s generalizing dash with
  | nil => rfl
  | cons c s ih =>
    unfold upperAfterDash
    split <;> simp only [lower, List.map_cons, toLower_toUpper] at ih ⊢ <;> rw [ih]

theorem lower_formatHeader (k : Bytes) : lower (formatHeader k) = lower k := by
  rw [formatHeader, lower_upperAfterDash]
  cases k with
  | nil => rfl
  | cons c s =>
    simp only [lower, List.map_cons, upperFirst] at *
    split <;> simp [toLower_toUpper, toLower_toLower, Function.comp_def]

theorem mem_lower_of_mem_formatHeader {c : UInt8} (hc : toLower c = c) {k : Bytes} (h : c ∈ formatHeader k) :
    c ∈ lower k := by
  rw [← lower_formatHeader, ← hc]
  exact List.mem_map_of_mem _ h

/-! ## The builder -/

/-- The entries of a table, each key once with the value `t[k]` gives. -/
def Headers.entries : Headers → Headers
  | [] => []
  | e :: h => e :: (Headers.entries h).filter (·.1 ≠ e.1)

theorem Headers.entries_sublist (h : Headers) : h.entries.Sublist h := by
  induction h with
  | nil => exact .slnil
  | cons e h ih => exact ((List.filter_sublist _).trans ih).cons₂ e

theorem Headers.mem_entries {h : Headers} {e : Bytes × Value} : e ∈ h.entries ↔ h.get e.1 = some e.2 := by
  induction h with
  | nil => simp [Headers.entries, Headers.get]
  | cons e' h ih =>
    by_cases hk : e'.1 = e.1
    · simp [Headers.entries, Headers.get, hk, Prod.ext_iff, eq_comm]
    · have hget : Headers.get (e' :: h) e.1 = Headers.get h e.1 := by simp [Headers.get, List.find?_cons, hk]
      have hne : e ≠ e' := fun h => hk (by rw [h])
      rw [hget, ← ih]
      simp [Headers.entries, Ne.symm hk, hne]

/-- What the program's text leaves to Lua and the C library: the order in which
`pairs` visits a table, `string.format("%.1f", n)`, and the text of a number
joined to a string (`lua_number2str`, `%.14g`). They depend on the layout of
the table and print the double of a number; what the program relies on is
fixed: `pairs` visits each entry once, a number equal to a multiple of a tenth
below `10 ^ 14` prints with one decimal, and one equal to a natural number below
`10 ^ 14` as its digits. -/
structure Runtime where
  pairs : Headers → Headers
  pairs_perm : ∀ h, (pairs h).Perm h.entries
  fixed1 : LuaNum → Bytes
  fixed1_tenths : ∀ a (m : Nat), m < 10 ^ 15 → a.eqv ⟨m, -1⟩ = true → fixed1 a = tenthsText m
  numText : LuaNum → Bytes
  numText_nat : ∀ a (n : Nat), n < 10 ^ 14 → a.eqv (.ofInt n) = true → numText a = decimal n

/-- A header value joined to a string with `..`. -/
def Value.text (L : Runtime) : Value → Bytes
  | .str s => s
  | .num n => L.numText n

/-- `response.headers` once `buildResponse` has set `content-length` to `#response.body`. -/
def Response.sized (r : Response) : Headers :=
  r.headers.set (bytesOf "content-length") (some (.num (.ofInt r.body.length)))

/-- `_responseCodes`. -/
def responseCodes : List (Nat × Bytes) :=
  [(100, bytesOf "Continue"), (101, bytesOf "Switching Protocols"), (200, bytesOf "OK"),
    (201, bytesOf "Created"), (202, bytesOf "Accepted"),
    (203, bytesOf "Non-Authoritative Information"), (204, bytesOf "No Content"),
    (205, bytesOf "Reset Content"), (206, bytesOf "Partial Content"),
    (300, bytesOf "Multiple Choices"), (301, bytesOf "Moved Permanently"), (302, bytesOf "Found"),
    (303, bytesOf "See Other"), (304, bytesOf "Not Modified"), (305, bytesOf "Use Proxy"),
    (306, bytesOf "Unused"), (307, bytesOf "Temporary Redirect"), (400, bytesOf "Bad Request"),
    (401, bytesOf "Unauthorized"), (402, bytesOf "Payment Required"), (403, bytesOf "Forbidden"),
    (404, bytesOf "Not Found"), (405, bytesOf "Method Not Allowed"), (406, bytesOf "Not Acceptable"),
    (407, bytesOf "Proxy Authentication Required"), (408, bytesOf "Request Time-out"),
    (409, bytesOf "Conflict"), (410, bytesOf "Gone"), (411, bytesOf "Length Required"),
    (412, bytesOf "Precondition Failed"), (413, bytesOf "Request Entity Too Large"),
    (414, bytesOf "Request-URI Too Long"), (415, bytesOf "Unsupported Media Type"),
    (416, bytesOf "Requested range not satisfiable"), (417, bytesOf "Expectation Failed"),
    (418, bytesOf "I\x27m a teapot"), (500, bytesOf "Internal Server Error"),
    (501, bytesOf "Not Implemented"), (502, bytesOf "Bad Gateway"),
    (503, bytesOf "Service Unavailable"), (504, bytesOf "Gateway Time-out"),
    (505, bytesOf "HTTP Version not supported")]

/-- `string.format("HTTP/%.1f %d %s", version, response.status, _responseCodes[response.status])`
after `version = tonumber(version) or 1.1`; `%s` writes `nil` for a status the
table lacks. -/
def statusLine (L : Runtime) (status : Nat) (version : Option LuaNum) : Bytes :=
  bytesOf "HTTP/" ++ L.fixed1 (version.getD version11) ++ bytesOf " " ++ decimal status ++ bytesOf " " ++
    (responseCodes.lookup status).getD (bytesOf "nil")

/-- `_formatHeader(key) .. ": " .. val`. -/
def fieldLine (L : Runtime) (e : Bytes × Value) : Bytes := formatHeader e.1 ++ (bytesOf ": " ++ e.2.text L)

/-- `httpResponseBuilder.buildResponse(response, version)`: the lines joined by
`table.concat(lines, "\r\n")`, then the body. -/
def buildResponse (L : Runtime) (response : Response) (version : Option LuaNum) : Bytes :=
  [13, 10].intercalate
      (statusLine L response.status version :: (L.pairs response.sized).map (fieldLine L) ++ [[], []]) ++
    response.body

/-- The renderer of the simple_http script: `_serialize` as given, and
`buildResponse` of httpResponse.lua. -/
def luaRender (serialize : Option Request → Bytes) (L : Runtime) : Render := ⟨serialize, buildResponse L⟩

/-! ## A client reading a response -/

/-- The bytes before the first `\r\n\r\n`, and those after it. -/
def splitHead : Bytes → Option (Bytes × Bytes)
  | 13 :: 10 :: 13 :: 10 :: s => some ([], s)
  | c :: s => (splitHead s).map fun p => (c :: p.1, p.2)
  | [] => none

/-- The lines of a text, cut at each `\r\n`. -/
def splitLines : Bytes → List Bytes
  | 13 :: 10 :: s => [] :: splitLines s
  | c :: s => (splitLines s).modifyHead (c :: ·)
  | [] => [[]]

/-- A field `Name: value`: the name before the first colon, and the value
without the blanks in front of it. -/
def parseField (line : Bytes) : Option (Bytes × Bytes) :=
  match line.span (· != 58) with
  | (name, _ :: value) => some (name, value.dropWhile (· == 32))
  | (_, []) => none

/-- The length a response announces: the value of its one `Content-Length`
field, named in any case, when the value is decimal digits. -/
def contentLength (fields : List (Bytes × Bytes)) : Option Nat :=
  match fields.filter (fun f => lower f.1 == bytesOf "content-length") with
  | [(_, v)] => if v ≠ [] ∧ v.all isDigit then some (digitsValue v) else none
  | _ => none

/-- A client taking one response from the front of the bytes it received: the
status line, the fields, the body of the announced length, and what is left
for the next response. -/
def readResponse (s : Bytes) : Option (Bytes × List (Bytes × Bytes) × Bytes × Bytes) := do
  let (head, rest) ← splitHead s
  let status :: lines := splitLines head | none
  let fields ← lines.mapM parseField
  let n ← contentLength fields
  if n ≤ rest.length then some (status, fields, rest.take n, rest.drop n) else none

/-- Whether the client keeps the connection open after a response: an HTTP/1.0
response has to ask for it with `Connection: keep-alive`, an HTTP/1.1 response
keeps it unless it says `Connection: close`; names and values in any case. -/
def persists (status : Bytes) (fields : List (Bytes × Bytes)) : Bool :=
  let asks (t : Bytes) := fields.any fun f => lower f.1 == bytesOf "connection" && lower f.2 == t
  if (bytesOf "HTTP/1.0 ").isPrefixOf status then asks (bytesOf "keep-alive") else !asks (bytesOf "close")

/-! ## What the client reads back -/

theorem intercalate_cons_cons (l m : Bytes) (ls : List Bytes) :
    [13, 10].intercalate (l :: m :: ls) = l ++ 13 :: 10 :: [13, 10].intercalate (m :: ls) := by
  simp [List.intercalate]

theorem intercalate_lines (l : Bytes) (ls : List Bytes) :
    [13, 10].intercalate (l :: ls ++ [[], []]) = linesOf (l :: ls) ++ [13, 10] := by
  induction ls generalizing l with
  | nil => simp [List.intercalate, linesOf]
  | cons m ms ih =>
    have h := ih m
    simp only [List.cons_append] at h ⊢
    rw [intercalate_cons_cons, h]
    simp [linesOf_cons]

theorem buildResponse_eq (L : Runtime) (r : Response) (v : Option LuaNum) :
    buildResponse L r v =
      linesOf (statusLine L r.status v :: (L.pairs r.sized).map (fieldLine L)) ++ 13 :: 10 :: r.body := by
  rw [buildResponse, intercalate_lines]
  simp

theorem splitHead_cons {c : UInt8} (hc : c ≠ 13) (s : Bytes) :
    splitHead (c :: s) = (splitHead s).map fun p => (c :: p.1, p.2) :=
  splitHead.eq_2 c s fun _ h => absurd h hc

theorem splitHead_crlf {t : Bytes} (ht : t.head? ≠ some 13) :
    splitHead (13 :: 10 :: t) = (splitHead t).map fun p => (13 :: 10 :: p.1, p.2) := by
  match t, ht with
  | [], _ => rfl
  | c :: s, ht =>
    have hc : c ≠ 13 := fun h => ht (by rw [h]; rfl)
    simp [splitHead, hc, Function.comp_def]

theorem splitHead_append {l : Bytes} (hl : 13 ∉ l) (s : Bytes) :
    splitHead (l ++ s) = (splitHead s).map fun p => (l ++ p.1, p.2) := by
  induction l with
  | nil => simp
  | cons c l ih =>
    rw [List.cons_append, splitHead_cons (fun h => hl (h ▸ List.mem_cons_self c l)),
      ih (fun h => hl (List.mem_cons_of_mem c h)), Option.map_map]
    rfl

theorem splitHead_linesOf (l : Bytes) (ls : List Bytes) (hcr : ∀ x ∈ l :: ls, 13 ∉ x)
    (hne : ∀ x ∈ ls, x ≠ []) (s : Bytes) :
    splitHead (linesOf (l :: ls) ++ 13 :: 10 :: s) = some ([13, 10].intercalate (l :: ls), s) := by
  induction ls generalizing l with
  | nil => simp [linesOf, splitHead_append (hcr l (List.mem_singleton_self l)), splitHead, List.intercalate]
  | cons m ms ih =>
    have ht : (linesOf (m :: ms) ++ 13 :: 10 :: s).head? ≠ some 13 := by
      obtain ⟨c, m', rfl⟩ := List.exists_cons_of_ne_nil (hne m (List.mem_cons_self _ _))
      have hc : c ≠ 13 := fun h =>
        hcr (c :: m') (List.mem_cons_of_mem _ (List.mem_cons_self _ _)) (h ▸ List.mem_cons_self c m')
      simpa [linesOf_cons] using hc
    rw [linesOf_cons, List.append_assoc, List.cons_append, List.cons_append,
      splitHead_append (hcr l (List.mem_cons_self _ _)), splitHead_crlf ht,
      ih m (fun x hx => hcr x (List.mem_cons_of_mem _ hx)) (fun x hx => hne x (List.mem_cons_of_mem _ hx)),
      intercalate_cons_cons]
    rfl

theorem splitLines_cons {c : UInt8} (hc : c ≠ 13) (s : Bytes) :
    splitLines (c :: s) = (splitLines s).modifyHead (c :: ·) :=
  splitLines.eq_2 c s fun _ h => absurd h hc

theorem splitLines_append {l : Bytes} (hl : 13 ∉ l) (s : Bytes) :
    splitLines (l ++ s) = (splitLines s).modifyHead (l ++ ·) := by
  induction l with
  | nil => rw [List.nil_append]; cases splitLines s <;> rfl
  | cons c l ih =>
    rw [List.cons_append, splitLines_cons (fun h => hl (h ▸ List.mem_cons_self c l)),
      ih (fun h => hl (List.mem_cons_of_mem c h))]
    cases splitLines s <;> rfl

theorem splitLines_intercalate (l : Bytes) (ls : List Bytes) (hcr : ∀ x ∈ l :: ls, 13 ∉ x) :
    splitLines ([13, 10].intercalate (l :: ls)) = l :: ls := by
  induction ls generalizing l with
  | nil =>
    have h := splitLines_append (hcr l (List.mem_singleton_self l)) []
    simpa [List.intercalate, splitLines] using h
  | cons m ms ih =>
    rw [intercalate_cons_cons, splitLines_append (hcr l (List.mem_cons_self _ _)),
      show splitLines (13 :: 10 :: [13, 10].intercalate (m :: ms)) = [] :: splitLines ([13, 10].intercalate (m :: ms))
        by simp [splitLines],
      ih m (fun x hx => hcr x (List.mem_cons_of_mem _ hx))]
    simp

def fieldText (L : Runtime) (e : Bytes × Value) : Bytes × Bytes := (formatHeader e.1, e.2.text L)

theorem parseField_fieldLine (L : Runtime) {e : Bytes × Value} (hk : 58 ∉ formatHeader e.1)
    (hv : (e.2.text L).head? ≠ some 32) : parseField (fieldLine L e) = some (fieldText L e) := by
  have hspan : (fieldLine L e).span (· != 58) = (formatHeader e.1, 58 :: 32 :: e.2.text L) := by
    have hpos : ∀ c ∈ formatHeader e.1, (c != 58) = true := fun c hc => by
      simpa using fun h : c = 58 => hk (h ▸ hc)
    rw [List.span_eq_take_drop, fieldLine, List.takeWhile_append_of_pos hpos, List.dropWhile_append_of_pos hpos,
      show bytesOf ": " = [58, 32] by decide]
    simp
  have hdrop : (32 :: e.2.text L).dropWhile (· == 32) = e.2.text L := by
    rw [List.dropWhile_cons_of_pos (by decide)]
    cases h : e.2.text L with
    | nil => rfl
    | cons c cs => exact List.dropWhile_cons_of_neg (by simpa using fun h' : c = 32 => hv (by rw [h, h']; rfl))
  rw [parseField, hspan]
  simp only [hdrop]
  rfl

theorem mapM_map_some {α β γ : Type} {f : β → Option γ} {g : α → β} {h : α → γ} (xs : List α)
    (hf : ∀ x ∈ xs, f (g x) = some (h x)) : (xs.map g).mapM f = some (xs.map h) := by
  induction xs with
  | nil => rfl
  | cons x xs ih =>
    rw [List.map_cons, List.mapM_cons, hf x (List.mem_cons_self _ _), ih fun y hy => hf y (List.mem_cons_of_mem _ hy)]
    rfl

/-- Headers a client reads back as they were set: names in lower case without
a colon or `\r`, and string values without `\r` or a blank in front. -/
structure Response.Plain (r : Response) : Prop where
  name : ∀ e ∈ r.headers, lower e.1 = e.1 ∧ 58 ∉ e.1 ∧ 13 ∉ e.1
  value : ∀ e ∈ r.headers, ∃ s, e.2 = .str s ∧ 13 ∉ s ∧ s.head? ≠ some 32

theorem Response.Plain.sized (L : Runtime) {r : Response} (hr : r.Plain) (hb : r.body.length < 10 ^ 14) :
    ∀ e ∈ r.sized,
      (lower e.1 = e.1 ∧ 58 ∉ e.1 ∧ 13 ∉ e.1) ∧ 13 ∉ e.2.text L ∧ (e.2.text L).head? ≠ some 32 := by
  intro e he
  simp only [Response.sized, Headers.set, List.mem_cons, List.mem_filter] at he
  rcases he with rfl | ⟨he, -⟩
  · have htext : Value.text L (.num (.ofInt r.body.length)) = decimal r.body.length :=
      L.numText_nat _ _ hb (LuaNum.eqv_of_value rfl)
    rw [htext]
    exact ⟨show lower (bytesOf "content-length") = bytesOf "content-length" ∧ 58 ∉ bytesOf "content-length" ∧
      13 ∉ bytesOf "content-length" by decide, digits_plain (decimal_spec _).2.1⟩
  · obtain ⟨s, hs, hcr, hsp⟩ := hr.value e he
    rw [hs]
    exact ⟨hr.name e he, hcr, hsp⟩

theorem Headers.entries_filter_self (k : Bytes) (v : Value) (h : Headers) :
    (Headers.entries ((k, v) :: h)).filter (·.1 == k) = [(k, v)] := by
  simp only [Headers.entries, List.filter_cons, beq_self_eq_true, if_true, List.filter_filter]
  rw [List.filter_eq_nil_iff.mpr]
  intro x _
  by_cases hx : x.1 = k <;> simp [hx]

theorem contentLength_fields (L : Runtime) {r : Response} (hname : ∀ e ∈ r.sized, lower e.1 = e.1)
    (hb : r.body.length < 10 ^ 14) :
    contentLength ((L.pairs r.sized).map (fieldText L)) = some r.body.length := by
  have hsel :
      (L.pairs r.sized).filter ((fun f : Bytes × Bytes => lower f.1 == bytesOf "content-length") ∘ fieldText L) =
      [(bytesOf "content-length", .num (.ofInt r.body.length))] := by
    rw [List.filter_congr (q := (·.1 == bytesOf "content-length")) fun e he => by
      rw [Function.comp_apply, fieldText, lower_formatHeader,
        hname e ((Headers.entries_sublist _).subset ((L.pairs_perm _).subset he))], ← List.perm_singleton]
    exact ((L.pairs_perm _).filter _).trans (.of_eq (Headers.entries_filter_self _ _ _))
  have htext : Value.text L (.num (.ofInt r.body.length)) = decimal r.body.length :=
    L.numText_nat _ _ hb (LuaNum.eqv_of_value rfl)
  obtain ⟨hne, hdig, hval⟩ := decimal_spec r.body.length
  have hall : (decimal r.body.length).all isDigit = true := List.all_eq_true.mpr hdig
  rw [contentLength, List.filter_map, hsel]
  simp [fieldText, htext, hne, hall, hval]

theorem lookup_mem {l : List (Nat × Bytes)} {n : Nat} {b : Bytes} (h : l.lookup n = some b) : (n, b) ∈ l := by
  induction l with
  | nil => cases h
  | cons p l ih =>
    obtain ⟨m, c⟩ := p
    by_cases hp : n = m
    · subst hp
      simp only [List.lookup_cons, beq_self_eq_true, Option.some.injEq] at h
      rw [h]
      exact List.mem_cons_self _ _
    · simp only [List.lookup_cons, beq_false_of_ne hp] at h
      exact List.mem_cons_of_mem _ (ih h)

theorem responseCodes_noCr (n : Nat) : 13 ∉ (responseCodes.lookup n).getD (bytesOf "nil") := by
  cases h : responseCodes.lookup n with
  | none => decide
  | some b => exact (show ∀ p ∈ responseCodes, 13 ∉ p.2 by decide) _ (lookup_mem h)

theorem fixed1_version (L : Runtime) {v : Option LuaNum}
    (hv : ∀ a ∈ v, ∃ m : Nat, m < 10 ^ 15 ∧ a.eqv ⟨m, -1⟩ = true) :
    ∃ m : Nat, L.fixed1 (v.getD version11) = tenthsText m := by
  cases v with
  | none => exact ⟨11, L.fixed1_tenths _ 11 (by norm_num) (LuaNum.eqv_of_value rfl)⟩
  | some a =>
    obtain ⟨m, hm, ha⟩ := hv a rfl
    exact ⟨m, L.fixed1_tenths a m hm ha⟩

theorem statusLine_noCr (L : Runtime) (status : Nat) {v : Option LuaNum}
    (hv : ∀ a ∈ v, ∃ m : Nat, m < 10 ^ 15 ∧ a.eqv ⟨m, -1⟩ = true) : 13 ∉ statusLine L status v := by
  obtain ⟨m, hm⟩ := fixed1_version L hv
  simp only [statusLine, hm, List.mem_append, not_or]
  exact ⟨⟨⟨⟨⟨by decide, tenthsText_noCr m⟩, by decide⟩, (digits_plain (decimal_spec _).2.1).1⟩, by decide⟩,
    responseCodes_noCr status⟩

/-- How `readResponse` takes one response apart, step by step. -/
theorem readResponse_of {s head rest : Bytes} (hs : splitHead s = some (head, rest)) {status : Bytes}
    {lines : List Bytes} (hl : splitLines head = status :: lines) {fields : List (Bytes × Bytes)}
    (hf : lines.mapM parseField = some fields) {n : Nat} (hn : contentLength fields = some n)
    (hle : n ≤ rest.length) : readResponse s = some (status, fields, rest.take n, rest.drop n) := by
  rw [readResponse, hs]
  show (match splitLines head with
    | status :: lines => (lines.mapM parseField).bind fun fields => (contentLength fields).bind fun n =>
      if n ≤ rest.length then some (status, fields, rest.take n, rest.drop n) else none
    | _ => none) = _
  rw [hl]
  simp only [hf, hn, Option.some_bind, if_pos hle]

theorem readResponse_buildResponse_of (L : Runtime) {r : Response} (hr : r.Plain) {v : Option LuaNum}
    (hv : ∀ a ∈ v, ∃ m : Nat, m < 10 ^ 15 ∧ a.eqv ⟨m, -1⟩ = true) (hb : r.body.length < 10 ^ 14)
    (rest : Bytes) :
    readResponse (buildResponse L r v ++ rest) =
      some (statusLine L r.status v, (L.pairs r.sized).map (fieldText L), r.body, rest) := by
  have hfield : ∀ e ∈ L.pairs r.sized, _ := fun e he =>
    hr.sized L hb e ((Headers.entries_sublist _).subset ((L.pairs_perm _).subset he))
  have hcr : ∀ x ∈ statusLine L r.status v :: (L.pairs r.sized).map (fieldLine L), 13 ∉ x := by
    simp only [List.mem_cons, List.mem_map]
    rintro x (rfl | ⟨e, he, rfl⟩)
    · exact statusLine_noCr L r.status hv
    · obtain ⟨⟨hlow, -, hk⟩, htext, -⟩ := hfield e he
      simp only [fieldLine, List.mem_append, not_or]
      exact ⟨fun h => hk (hlow ▸ mem_lower_of_mem_formatHeader (by decide) h), by decide, htext⟩
  have hne : ∀ x ∈ (L.pairs r.sized).map (fieldLine L), x ≠ [] := by
    simp only [List.mem_map]
    rintro _ ⟨e, -, rfl⟩
    simp [fieldLine, show bytesOf ": " = [58, 32] by decide]
  have hparse : ((L.pairs r.sized).map (fieldLine L)).mapM parseField = some ((L.pairs r.sized).map (fieldText L)) :=
    mapM_map_some _ fun e he =>
      have hfe := hfield e he
      parseField_fieldLine L (fun h => hfe.1.2.1 (hfe.1.1 ▸ mem_lower_of_mem_formatHeader (by decide) h)) hfe.2.2
  have hlen := contentLength_fields L (fun e he => (hr.sized L hb e he).1.1) hb
  rw [buildResponse_eq, List.append_assoc, List.cons_append, List.cons_append]
  rw [readResponse_of (splitHead_linesOf _ _ hcr hne _) (splitLines_intercalate _ _ hcr) hparse hlen (by simp),
    List.take_left, List.drop_left]

/-- A client reads back every response `buildResponse` writes for plain headers,
a version that is a tenth (or none) and a body below `10 ^ 14` bytes, whatever
order `pairs` takes: the status line, each field as it was set with its name
formatted and `Content-Length` the length of the body, the body, and exactly
the bytes that follow. -/
theorem readResponse_buildResponse (L : Runtime) {r : Response} (hr : r.Plain) {v : Option LuaNum}
    (hv : ∀ a ∈ v, ∃ m : Nat, m < 10 ^ 15 ∧ a.value = (m : ℚ) / 10) (hb : r.body.length < 10 ^ 14)
    (rest : Bytes) :
    readResponse (buildResponse L r v ++ rest) =
      some (statusLine L r.status v, (L.pairs r.sized).map (fieldText L), r.body, rest) :=
  readResponse_buildResponse_of L hr (fun a ha => (hv a ha).imp fun m ⟨hm, h⟩ =>
    ⟨hm, LuaNum.eqv_of_value (by rw [h, LuaNum.value, zpow_neg, zpow_one]; push_cast; ring)⟩) hb rest

/-- A number equal to `m / 10`, for `m` below `10 ^ 15`, has a double within a
twentieth of a unit of `m` once scaled by ten. -/
theorem LuaNum.round_tenth {a : LuaNum} {m : Nat} (hm : m < 10 ^ 15) (ha : a.eqv ⟨m, -1⟩ = true) :
    ⌊a.double.value * 10 + 1 / 2⌋ = m := by
  rw [LuaNum.eqv_iff.mp ha]
  rcases Nat.eq_zero_or_pos m with rfl | hpos
  · norm_num [LuaNum.double, Binary64.value]
  have hv : (⟨m, -1⟩ : LuaNum).value = m / 10 := by
    rw [LuaNum.value, zpow_neg, zpow_one]
    push_cast
    ring
  have hq : (0 : ℚ) < m / 10 := by positivity
  have h1 : (1 : ℚ) ≤ m := by exact_mod_cast hpos
  have hm' : (m : ℚ) < 10 ^ 15 := by exact_mod_cast hm
  have hnear := LuaNum.double_near (a := ⟨m, -1⟩)
    (by
      rw [hv, abs_of_pos hq]
      calc (2 : ℚ) ^ (-1022 : ℤ) ≤ 2 ^ (-4 : ℤ) := zpow_le_zpow_right₀ one_le_two (by omega)
        _ ≤ 1 / 10 := by norm_num
        _ ≤ m / 10 := div_le_div_of_nonneg_right h1 (by norm_num))
    (by
      rw [hv, abs_of_pos hq]
      calc (m : ℚ) / 10 < 10 ^ 15 := by linarith only [hm']
        _ ≤ 2 ^ (50 : ℤ) := by norm_num
        _ ≤ 2 ^ (1023 : ℤ) := zpow_le_zpow_right₀ one_le_two (by omega))
  rw [hv, abs_of_pos hq, abs_le] at hnear
  have hsmall : (m : ℚ) / 10 / 2 ^ 53 < 1 / 80 := by
    rw [div_div, div_lt_div_iff₀ (by positivity) (by norm_num)]
    linarith only [hm']
  rw [Int.floor_eq_iff]
  push_cast
  constructor <;> linarith only [hnear.1, hnear.2, hsmall]

/-- A runtime whose `pairs` visits the entries in the order the table lists
them, and which prints a double rounded to the nearest tenth or integer. -/
def Runtime.listed : Runtime where
  pairs := Headers.entries
  pairs_perm _ := .refl _
  fixed1 a := tenthsText ⌊a.double.value * 10 + 1 / 2⌋.toNat
  fixed1_tenths a m hm ha := by
    show tenthsText _ = _
    rw [LuaNum.round_tenth hm ha]
    rfl
  numText a := decimal ⌊a.double.value⌋.toNat
  numText_nat a n hn ha := by
    show decimal _ = _
    rw [LuaNum.eqv_iff.mp ha, LuaNum.ofInt_double (by omega)]
    simp

def notFound : Response := ⟨404, [(bytesOf "content-type", .str (bytesOf "text/plain"))], bytesOf "gone"⟩

theorem readResponse_buildResponse_notFound :
    notFound.Plain ∧ (∀ a ∈ some version11, ∃ m : Nat, m < 10 ^ 15 ∧ a.value = (m : ℚ) / 10) ∧
      notFound.body.length < 10 ^ 14 ∧
      readResponse (buildResponse Runtime.listed notFound (some version11) ++ bytesOf "HTTP") =
        some (statusLine Runtime.listed notFound.status (some version11),
          (Runtime.listed.pairs notFound.sized).map (fieldText Runtime.listed), notFound.body, bytesOf "HTTP") :=
  have hr : notFound.Plain :=
    ⟨fun e he => by simp only [notFound, List.mem_singleton] at he; subst he; decide,
      fun e he => by simp only [notFound, List.mem_singleton] at he; subst he; exact ⟨_, rfl, by decide⟩⟩
  have hv : ∀ a ∈ some version11, ∃ m : Nat, m < 10 ^ 15 ∧ a.value = (m : ℚ) / 10 := fun a ha => by
    rw [Option.mem_def, Option.some.injEq] at ha
    exact ⟨11, by norm_num, by rw [← ha]; norm_num [version11, LuaNum.value]⟩
  ⟨hr, hv, by decide, readResponse_buildResponse Runtime.listed hr hv (by decide) _⟩

/-! ## The responses of the script -/

theorem Response.Plain.setHeader {r : Response} (hr : r.Plain) {k s : Bytes}
    (hk : lower k = k ∧ 58 ∉ k ∧ 13 ∉ k)
    (hs : 13 ∉ s ∧ s.head? ≠ some 32) : { r with headers := r.headers.set k (some (.str s)) }.Plain := by
  constructor <;> intro e he <;> simp only [Headers.set, List.mem_cons, List.mem_filter] at he <;>
    rcases he with rfl | ⟨he, -⟩
  · exact hk
  · exact hr.name e he
  · exact ⟨s, rfl, hs⟩
  · exact hr.value e he

theorem connectionHeader_plain (R : Render) (keepAlive : Bool) (r : Request) (x : Option Request) :
    (connectionHeader keepAlive r (defaultResponse R x)).Plain := by
  have hd : (defaultResponse R x).Plain :=
    ⟨fun e he => by simp only [defaultResponse, List.mem_singleton] at he; subst he; decide,
      fun e he => by simp only [defaultResponse, List.mem_singleton] at he; subst he; exact ⟨_, rfl, by decide⟩⟩
  unfold connectionHeader
  split_ifs
  · exact hd.setHeader (by decide) (by decide)
  · exact hd.setHeader (by decide) (by decide)
  · exact hd

theorem connectionHeader_connection (R : Render) (keepAlive : Bool) (r : Request) (x : Option Request) :
    (connectionHeader keepAlive r (defaultResponse R x)).headers.get (bytesOf "connection") =
      if !keepAlive then some (.str (bytesOf "close"))
      else if isVersion r.version version10 then some (.str (bytesOf "Keep-Alive")) else none := by
  unfold connectionHeader
  split_ifs
  · simp only [Headers.get_set_self]
  · simp only [Headers.get_set_self]
  · rfl

theorem fields_any_iff (L : Runtime) {r : Response} (hr : r.Plain) (hb : r.body.length < 10 ^ 14) {name : Bytes}
    (hname : lower name = name) (hcl : name ≠ bytesOf "content-length") (t : Bytes) :
    ((L.pairs r.sized).map (fieldText L)).any (fun f => lower f.1 == name && lower f.2 == t) = true ↔
      ∃ s, r.headers.get name = some (.str s) ∧ lower s = t := by
  rw [List.any_eq_true]
  constructor
  · rintro ⟨_, hf, hft⟩
    obtain ⟨e, he, rfl⟩ := List.mem_map.mp hf
    simp only [fieldText, Bool.and_eq_true, beq_iff_eq, lower_formatHeader] at hft
    obtain ⟨hn, ht⟩ := hft
    have hentry := (L.pairs_perm _).subset he
    have hsized := (Headers.entries_sublist _).subset hentry
    rw [(hr.sized L hb e hsized).1.1] at hn
    simp only [Response.sized, Headers.set, List.mem_cons, List.mem_filter] at hsized
    rcases hsized with rfl | ⟨hheader, -⟩
    · exact absurd hn.symm hcl
    obtain ⟨s, hs, -⟩ := hr.value e hheader
    have hg := Headers.mem_entries.mp hentry
    rw [hn, Response.sized, Headers.get_set_ne _ hcl, hs] at hg
    rw [hs] at ht
    exact ⟨s, hg, ht⟩
  · rintro ⟨s, hg, ht⟩
    refine ⟨fieldText L (name, Value.str s),
      List.mem_map_of_mem _ ((L.pairs_perm _).mem_iff.mpr (Headers.mem_entries.mpr ?_)), ?_⟩
    · rw [Response.sized, Headers.get_set_ne _ hcl]
      exact hg
    · simp [fieldText, Value.text, lower_formatHeader, hname, ht]

theorem Request.Checked.version_value {r : Request} (hc : r.Checked) :
    ∃ a, r.version = some a ∧
      (a.eqv ⟨10, -1⟩ = true ∧ isVersion r.version version10 = true ∨
        a.eqv ⟨11, -1⟩ = true ∧ isVersion r.version version11 = true) := by
  obtain ⟨a, ha⟩ : ∃ a, r.version = some a := by
    cases h : r.version with
    | none => rcases hc.version with hv | hv <;> simp [h, isVersion] at hv
    | some a => exact ⟨a, rfl⟩
  refine ⟨a, ha, ?_⟩
  rcases hc.version with hv | hv
  · refine .inl ⟨?_, hv⟩
    rw [ha, isVersion, LuaNum.eqv_iff] at hv
    rw [LuaNum.eqv_iff, hv, LuaNum.double_congr (show version10.value = (⟨10, -1⟩ : LuaNum).value by
      norm_num [version10, LuaNum.value])]
  · rw [ha, isVersion] at hv
    exact .inr ⟨hv, by rw [ha, isVersion, hv]⟩

theorem Request.Checked.version_tenths {r : Request} (hc : r.Checked) :
    ∀ a ∈ r.version, ∃ m : Nat, m < 10 ^ 15 ∧ a.eqv ⟨m, -1⟩ = true := by
  intro a ha
  obtain ⟨a', ha', h⟩ := hc.version_value
  rw [Option.mem_def, ha', Option.some.injEq] at ha
  subst ha
  rcases h with ⟨hv, -⟩ | ⟨hv, -⟩
  exacts [⟨10, by norm_num, hv⟩, ⟨11, by norm_num, hv⟩]

theorem statusLine_checked (L : Runtime) {r : Request} (hc : r.Checked) :
    statusLine L 200 r.version = bytesOf "HTTP/1.0 200 OK" ∧ isVersion r.version version10 = true ∨
      statusLine L 200 r.version = bytesOf "HTTP/1.1 200 OK" ∧ isVersion r.version version11 = true := by
  obtain ⟨a, ha, ⟨hv, h10⟩ | ⟨hv, h11⟩⟩ := hc.version_value
  · refine .inl ⟨?_, h10⟩
    rw [statusLine, ha, Option.getD_some, L.fixed1_tenths a 10 (by norm_num) hv]
    decide
  · refine .inr ⟨?_, h11⟩
    rw [statusLine, ha, Option.getD_some, L.fixed1_tenths a 11 (by norm_num) hv]
    decide

/-- What one call of the callback appends: at most one response, to the one
request it handled, with `connection: close` set exactly when it closes. -/
theorem callback_appended (R : Render) (allocOk : Bool) (sl : SocketList) (ctx : Ctx) (b : Bytes) {d : Bytes}
    (hd : d ∈ (callback R allocOk sl ctx b).2.appended) :
    ∃ r keepAlive, (callback R allocOk sl ctx b).2.handled = [some r] ∧
      d = R.buildResponse (connectionHeader keepAlive r (defaultResponse R (some r))) r.version ∧
      ((∀ fd, Action.closeSocket fd ∉ (callback R allocOk sl ctx b).2.actions) ↔ keepAlive = true) := by
  by_cases hread : ctx.event = .socketRead
  swap
  · rw [callback_of_ne R allocOk sl hread] at hd
    cases hd
  cases hm : (exec b ((sl ctx.cFd).getD (Parser.new none))).1
  swap
  · rw [callback_more R allocOk sl hread hm] at hd
    simp [Effect.appended] at hd
  rw [callback_stop R allocOk sl hread hm] at hd ⊢
  cases hr : (exec b ((sl ctx.cFd).getD (Parser.new none))).2.getRequest with
  | none =>
    rw [handleRequest_of_none R allocOk _ hr] at hd
    simp [Effect.appended] at hd
  | some r =>
    cases hk : (if (exec b ((sl ctx.cFd).getD (Parser.new none))).2.getIterations > 5 then false
        else (exec b ((sl ctx.cFd).getD (Parser.new none))).2.shouldKeepAlive)
    · rw [handleRequest_close R allocOk _ hr hk] at hd ⊢
      simp only [Effect.appended, List.filterMap_cons, List.filterMap_nil, List.mem_singleton] at hd
      exact ⟨r, false, by simp [hr], hd, by simp⟩
    · rw [handleRequest_keepAlive R allocOk _ hr hk] at hd ⊢
      simp only [Effect.appended, List.filterMap_cons, List.filterMap_nil, List.mem_singleton] at hd
      exact ⟨r, true, by simp [hr], hd, by simp⟩

theorem runScript_appended (R : Render) (allocOk : Bool) (ds : List Delivery) (sl : SocketList) :
    ∀ e ∈ (runScript R allocOk ds sl).2, ∀ d ∈ e.appended,
      ∃ r keepAlive, e.handled = [some r] ∧
        d = R.buildResponse (connectionHeader keepAlive r (defaultResponse R (some r))) r.version ∧
        ((∀ fd, Action.closeSocket fd ∉ e.actions) ↔ keepAlive = true) := by
  induction ds generalizing sl with
  | nil => simp [runScript]
  | cons d ds ih =>
    obtain ⟨ctx, b⟩ := d
    intro e he
    simp only [runScript, List.mem_cons] at he
    rcases he with rfl | he
    · exact fun d hd => callback_appended R allocOk sl ctx b hd
    · exact ih _ e he

/-- Over any history of deliveries, each response the simple_http script
appends reads back, with whatever follows it, as a response to the request it
answers: its version in the status line, `_serialize(request)` as the body of
the announced length, and a client that keeps the connection open exactly when
the script does not close it. -/
theorem runScript_responses_read (S : Option Request → Bytes) (L : Runtime) (allocOk : Bool)
    (hS : ∀ x, (S x).length < 10 ^ 14) (ds : List Delivery) :
    ∀ e ∈ (runScript (luaRender S L) allocOk ds SocketList.empty).2, ∀ d ∈ e.appended, ∀ rest : Bytes,
      ∃ r status fields, e.handled = [some r] ∧ readResponse (d ++ rest) = some (status, fields, S (some r), rest) ∧
        (status = bytesOf "HTTP/1.0 200 OK" ∧ isVersion r.version version10 = true ∨
          status = bytesOf "HTTP/1.1 200 OK" ∧ isVersion r.version version11 = true) ∧
        (persists status fields = true ↔ ∀ fd, Action.closeSocket fd ∉ e.actions) := by
  intro e he d hd rest
  obtain ⟨r, k, hh, rfl, hclose⟩ := runScript_appended (luaRender S L) allocOk ds SocketList.empty e he d hd
  have hc : r.Checked := (runScript_sound (luaRender S L) allocOk SocketList.sound_empty ds).2 e he r (by simp [hh])
  have hshape : (connectionHeader k r (defaultResponse (luaRender S L) (some r))).status = 200 ∧
      (connectionHeader k r (defaultResponse (luaRender S L) (some r))).body = S (some r) := by
    unfold connectionHeader
    split_ifs <;> exact ⟨rfl, rfl⟩
  have hplain := connectionHeader_plain (luaRender S L) k r (some r)
  have hb := hshape.2 ▸ hS (some r)
  have hread := readResponse_buildResponse_of L hplain hc.version_tenths hb rest
  rw [hshape.1, hshape.2] at hread
  refine ⟨r, _, _, hh, hread, statusLine_checked L hc, ?_⟩
  have hasks : ∀ t, ((L.pairs (connectionHeader k r (defaultResponse (luaRender S L) (some r))).sized).map
      (fieldText L)).any (fun f => lower f.1 == bytesOf "connection" && lower f.2 == t) = true ↔
      ∃ s, (if !k then some (Value.str (bytesOf "close")) else if isVersion r.version version10 then
        some (Value.str (bytesOf "Keep-Alive")) else none) = some (Value.str s) ∧ lower s = t := fun t => by
    rw [fields_any_iff L hplain hb (by decide) (by decide), connectionHeader_connection]
  rw [hclose]
  rcases statusLine_checked L hc with ⟨hs, h10⟩ | ⟨hs, -⟩ <;> rw [hs] <;> simp only [persists]
  · rw [if_pos (by decide), hasks]
    cases k <;> simp [h10] <;> decide
  · rw [if_neg (by decide), Bool.not_eq_true', ← Bool.not_eq_true, hasks]
    cases k <;> simp
    · decide
    · exact fun _ => by decide

theorem runScript_responses_read_root :
    (∀ _ : Option Request, (bytesOf "ok").length < 10 ^ 14) ∧
      ∀ e ∈ (runScript (luaRender (fun _ => bytesOf "ok") Runtime.listed) true rootConnection SocketList.empty).2,
        ∀ d ∈ e.appended, ∀ rest : Bytes,
          ∃ r status fields, e.handled = [some r] ∧
            readResponse (d ++ rest) = some (status, fields, bytesOf "ok", rest) ∧
            (status = bytesOf "HTTP/1.0 200 OK" ∧ isVersion r.version version10 = true ∨
              status = bytesOf "HTTP/1.1 200 OK" ∧ isVersion r.version version11 = true) ∧
            (persists status fields = true ↔ ∀ fd, Action.closeSocket fd ∉ e.actions) :=
  have hS : ∀ _ : Option Request, (bytesOf "ok").length < 10 ^ 14 := fun _ => by decide
  ⟨hS, runScript_responses_read (fun _ => bytesOf "ok") Runtime.listed true hS rootConnection⟩

end Vayu.Http
