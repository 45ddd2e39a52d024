import PacketWyrm.SecretLines
import PacketWyrm.Lib.Search
import PacketWyrm.Lib.Strtoul

/-!
# Reading a request

`read_request` of the web proxy collects an HTTP request from a connection: the header block up
to the first empty line, and as many bytes behind it as `Content-Length` says.  The bytes arrive in
reads of any size.

## Main definitions

* `connRead` — one read of the connection.
* `readHeader`, `readBody` — the two loops over the reads.
* `scanHeader` — the scan for `Content-Length`, in place.
* `readRequest` — all of it.
* `IsSplit` — a division of a stream into reads.

## Main results

* `readHeader_outcome`, `readBody_outcome` — what the loops find, by the stream alone.
* `contentLength_eq_ok_iff` — what is read as a length.
* `contentLength_of_newline` — the scan of a number stays within its line.
-/

namespace PacketWyrm

open Lib

/-! ## The connection -/

/-- The receive buffer: what was received so far, within the capacity. -/
structure ReqBuf (cap : ℕ) where
  data : List Byte
  fits : data.length ≤ cap

/-- `conn_read` of at most `n` bytes: the bytes, and the reads to come.  A read that is longer than
the room is taken in two; without reads the stream is at its end. -/
def connRead (n : ℕ) : List (List Byte) → List Byte × List (List Byte)
  | [] => ([], [])
  | c :: reads => if c.length ≤ n then (c, reads) else (c.take n, c.drop n :: reads)

theorem length_connRead_le (n : ℕ) (reads : List (List Byte)) :
    (connRead n reads).1.length ≤ n := by
  match reads with
  | [] => exact Nat.zero_le n
  | c :: reads =>
    rw [connRead]
    split
    · assumption
    · exact List.length_take_le n c

/-- The bytes are stored behind those in the buffer. -/
def ReqBuf.read {cap : ℕ} (buf : ReqBuf cap) (reads : List (List Byte)) : ReqBuf cap where
  data := buf.data ++ (connRead (cap - buf.data.length) reads).1
  fits := by
    have hfits := buf.fits
    have hread := length_connRead_le (cap - buf.data.length) reads
    rw [List.length_append]
    omega

/-! ## The two loops -/

/-- How a request is refused: the code returns `-1`, or it reads past what it has received. -/
inductive ReqError where
  | reject
  | overrun
  deriving DecidableEq

/-- `"\r\n\r\n"`. -/
def crlfCrlf : List Byte := [0x0D, 0x0A, 0x0D, 0x0A]

/-- The loop up to the header's end: the buffer, the index behind the empty line, and the reads to
come.  After a read of `r` bytes the search begins three bytes before them. -/
def readHeader {cap : ℕ} (buf : ReqBuf cap) (reads : List (List Byte)) :
    Except ReqError (ReqBuf cap × ℕ × List (List Byte)) :=
  if cap ≤ buf.data.length then .error .reject
  else
    let got := connRead (cap - buf.data.length) reads
    if _hr : got.1 = [] then .error .reject
    else
      let buf' := buf.read reads
      let start := buf'.data.length - got.1.length - 3
      match findAt crlfCrlf (buf'.data.drop start) with
      | some k => .ok (buf', start + k + 4, got.2)
      | none => readHeader buf' got.2
  termination_by cap - buf.data.length
  decreasing_by
    have hpos : 0 < (connRead (cap - buf.data.length) reads).1.length := List.length_pos_iff.mpr _hr
    simp only [ReqBuf.read, List.length_append]
    omega

/-- The loop up to the body's end. -/
def readBody {cap : ℕ} (last : ℕ) (buf : ReqBuf cap) (reads : List (List Byte)) :
    Except ReqError (ReqBuf cap) :=
  if last ≤ buf.data.length then .ok buf
  else
    let got := connRead (cap - buf.data.length) reads
    if _hr : got.1 = [] then .error .reject
    else readBody last (buf.read reads) got.2
  termination_by last - buf.data.length
  decreasing_by
    have hpos : 0 < (connRead (cap - buf.data.length) reads).1.length := List.length_pos_iff.mpr _hr
    simp only [ReqBuf.read, List.length_append]
    omega

/-! ## The header scan -/

/-- `PW_IPC_FRAME_MAX`. -/
def pwIpcFrameMax : ℕ := 65536

/-- A space or a tab. -/
def isBlankByte (b : Byte) : Bool := b == 0x20 || b == 0x09

/-- `tolower` in the C locale. -/
def toLower (b : Byte) : Byte := if 0x41 ≤ b.toNat ∧ b.toNat ≤ 0x5A then b + 0x20 else b

/-- `strncasecmp` with `"Content-Length:"` over its 15 characters. -/
def namesContentLength (p : List Byte) : Bool :=
  (p.take 15).map toLower == ascii "content-length:"

/-- The number behind the name.  `p` is what was received from there on, and to look at its end is
to look past it. -/
def contentLength (p : List Byte) : Except ReqError ℕ :=
  match p.dropWhile isBlankByte with
  | [] => .error .overrun
  | b :: r =>
    if !isDigit b then .error .reject
    else
      let q := strtoul (b :: r)
      match q.rest.dropWhile isBlankByte with
      | [] => .error .overrun
      | e :: _ =>
        if e ≠ 0x0D ∧ e ≠ 0x0A then .error .reject
        else if q.erange then .error .reject
        else .ok q.value

/-- The loop over the header block: `n` bytes of it are left, `p` is what was received from here
on, `start` says that a line begins here, and `cl` is the number when there was one. -/
def scanHeader : ℕ → Bool → List Byte → Option ℕ → Except ReqError (Option ℕ)
  | 0, _, _, cl => .ok cl
  | _ + 1, _, [], _ => .error .overrun
  | n + 1, start, b :: r, cl =>
    if b = 0x0A then scanHeader n true r cl
    else if !start then scanHeader n false r cl
    else if n + 1 ≤ 15 ∨ namesContentLength (b :: r) = false then scanHeader n false r cl
    else if cl.isSome then .error .reject
    else
      match contentLength ((b :: r).drop 15) with
      | .ok v => scanHeader n false r (some v)
      | .error e => .error e

/-! ## The request -/

/-- What `read_request` hands over. -/
structure Request (cap : ℕ) where
  buf : ReqBuf cap
  bodyOff : ℕ
  bodyLen : ℕ

/-- `read_request`, within the deadline. -/
def readRequest (cap : ℕ) (reads : List (List Byte)) : Except ReqError (Request cap) := do
  let (buf, headerEnd, reads) ← readHeader (⟨[], Nat.zero_le cap⟩ : ReqBuf cap) reads
  let cl ← scanHeader headerEnd true buf.data none
  let clen := cl.getD 0
  failIf (clen > pwIpcFrameMax) .reject
  failIf (headerEnd + clen > cap) .reject
  let buf ← readBody (headerEnd + clen) buf reads
  pure { buf, bodyOff := headerEnd, bodyLen := clen }

/-! ## Reads of a stream -/

/-- A division of the stream into reads: none is empty, since a read without bytes is the end. -/
structure IsSplit (stream : List Byte) (reads : List (List Byte)) : Prop where
  flatten : reads.flatten = stream
  ne_nil : ∀ c ∈ reads, c ≠ []

/-- What is in the buffer and what is to come make the stream. -/
structure Arrived (stream : List Byte) {cap : ℕ} (buf : ReqBuf cap) (reads : List (List Byte)) :
    Prop where
  split : buf.data ++ reads.flatten = stream
  ne_nil : ∀ c ∈ reads, c ≠ []

theorem connRead_append {n : ℕ} (reads : List (List Byte)) :
    (connRead n reads).1 ++ (connRead n reads).2.flatten = reads.flatten := by
  match reads with
  | [] => rfl
  | c :: reads =>
    rw [connRead]
    split
    · rfl
    · rw [List.flatten_cons, List.flatten_cons, ← List.append_assoc, List.take_append_drop]

theorem connRead_ne_nil {n : ℕ} {reads : List (List Byte)} (h : ∀ c ∈ reads, c ≠ []) :
    ∀ c ∈ (connRead n reads).2, c ≠ [] := by
  match reads with
  | [] => exact h
  | c :: reads =>
    rw [connRead]
    split
    · exact fun c' hc' => h c' (List.mem_cons_of_mem _ hc')
    · next hlong =>
      intro c' hc'
      rcases List.mem_cons.mp hc' with rfl | hc'
      · rw [ne_eq, List.drop_eq_nil_iff]
        exact hlong
      · exact h c' (List.mem_cons_of_mem _ hc')

/-- With room for a byte, a read without bytes is the end of the stream. -/
theorem eq_nil_of_connRead {n : ℕ} (hn : 0 < n) {reads : List (List Byte)}
    (h : ∀ c ∈ reads, c ≠ []) (hnil : (connRead n reads).1 = []) : reads = [] := by
  match reads with
  | [] => rfl
  | c :: reads =>
    have hc := h c List.mem_cons_self
    rw [connRead] at hnil
    split at hnil
    · exact absurd hnil hc
    · rw [List.take_eq_nil_iff] at hnil
      rcases hnil with hnil | hnil
      · omega
      · exact absurd hnil hc

namespace Arrived

variable {stream : List Byte} {cap : ℕ} {buf : ReqBuf cap} {reads : List (List Byte)}

theorem read (h : Arrived stream buf reads) :
    Arrived stream (buf.read reads) (connRead (cap - buf.data.length) reads).2 where
  split := by
    rw [ReqBuf.read, List.append_assoc, connRead_append, h.split]
  ne_nil := connRead_ne_nil h.ne_nil

theorem ended (h : Arrived stream buf reads) (hroom : buf.data.length < cap)
    (hnil : (connRead (cap - buf.data.length) reads).1 = []) : buf.data = stream := by
  have hreads := eq_nil_of_connRead (by omega) h.ne_nil hnil
  rw [← h.split, hreads, List.flatten_nil, List.append_nil]

/-- What the buffer holds is the beginning of the stream. -/
theorem take (h : Arrived stream buf reads) : stream.take buf.data.length = buf.data := by
  rw [← h.split, List.take_left]

/-- ... also of the part that fits. -/
theorem exists_append (h : Arrived stream buf reads) : ∃ r, stream.take cap = buf.data ++ r := by
  refine ⟨reads.flatten.take (cap - buf.data.length), ?_⟩
  rw [← h.split, List.take_append, List.take_of_length_le buf.fits]

end Arrived

/-- After a read, the search begins three bytes before the bytes that it brought. -/
theorem findAt_read {cap : ℕ} {buf : ReqBuf cap} {reads : List (List Byte)}
    (hnone : findAt crlfCrlf buf.data = none) {start : ℕ}
    (hstart : start = (buf.read reads).data.length -
      (connRead (cap - buf.data.length) reads).1.length - 3) :
    findAt crlfCrlf (buf.read reads).data =
      (findAt crlfCrlf ((buf.read reads).data.drop start)).map (start + ·) := by
  have hlen : start = buf.data.length - 3 := by
    rw [hstart, ReqBuf.read, List.length_append]
    omega
  rw [hlen]
  rcases Nat.lt_or_ge buf.data.length 3 with hlt | hge
  · rw [Nat.sub_eq_zero_of_le hlt.le, List.drop_zero]
    simp
  · apply findAt_append_of_none hnone
    · simp only [crlfCrlf, List.length_cons, List.length_nil]
      omega
    · omega

/-- **The first loop finds the first empty line** that ends within the capacity, if there is one,
and refuses the request otherwise. -/
theorem readHeader_outcome {stream : List Byte} {cap : ℕ} {buf : ReqBuf cap}
    {reads : List (List Byte)} (h : Arrived stream buf reads)
    (hnone : findAt crlfCrlf buf.data = none) :
    (∀ k, findAt crlfCrlf (stream.take cap) = some k → ∃ buf' reads',
      readHeader buf reads = .ok (buf', k + 4, reads') ∧ Arrived stream buf' reads' ∧
        k + 4 ≤ buf'.data.length) ∧
    (findAt crlfCrlf (stream.take cap) = none → readHeader buf reads = .error .reject) := by
  fun_induction readHeader buf reads with
  | case1 buf reads hfull =>
    -- the buffer is full without an empty line
    have hcap : buf.data.length = cap := le_antisymm buf.fits hfull
    have htake := h.take
    rw [hcap] at htake
    rw [htake, hnone]
    exact ⟨fun k hk => absurd hk (by simp), fun _ => rfl⟩
  | case2 buf reads hroom got hnil =>
    -- the stream is at its end without an empty line
    have hend := h.ended (not_le.mp hroom) hnil
    have htake : stream.take cap = buf.data := by
      rw [← hend, List.take_of_length_le buf.fits]
    rw [htake, hnone]
    exact ⟨fun k hk => absurd hk (by simp), fun _ => rfl⟩
  | case3 buf reads hroom got hne buf' start k hk =>
    have hread := h.read
    have hfound : findAt crlfCrlf buf'.data = some (start + k) := by
      rw [findAt_read hnone rfl, hk]
      rfl
    obtain ⟨r, hr⟩ := hread.exists_append
    have hall : findAt crlfCrlf (stream.take cap) = some (start + k) := by
      rw [hr]
      exact findAt_append_of_some hfound r
    have hlen := (findAt_eq_some_iff.mp hfound).2.1.length_le
    rw [hall]
    refine ⟨?_, by simp⟩
    rintro k' ⟨⟩
    refine ⟨buf', got.2, rfl, hread, ?_⟩
    rw [List.length_drop] at hlen
    have hfour : crlfCrlf.length = 4 := rfl
    have hle := (findAt_eq_some_iff.mp hfound).1
    omega
  | case4 buf reads hroom got hne buf' start hk ih =>
    apply ih h.read
    rw [findAt_read hnone rfl, hk]
    rfl

/-- **The second loop reads up to the body's end**, if the stream has it. -/
theorem readBody_outcome {stream : List Byte} {cap last : ℕ} {buf : ReqBuf cap}
    {reads : List (List Byte)} (h : Arrived stream buf reads) (hlast : last ≤ cap) :
    (last ≤ stream.length → ∃ buf' reads', readBody last buf reads = .ok buf' ∧
      Arrived stream buf' reads' ∧ last ≤ buf'.data.length) ∧
    (stream.length < last → readBody last buf reads = .error .reject) := by
  fun_induction readBody last buf reads with
  | case1 buf reads hdone =>
    have hlen : buf.data.length ≤ stream.length := by
      rw [← h.split, List.length_append]
      omega
    exact ⟨fun _ => ⟨buf, reads, rfl, h, hdone⟩, fun hlt => absurd hlt (by omega)⟩
  | case2 buf reads hmore got hnil =>
    have hend := h.ended (by omega) hnil
    rw [hend] at hmore
    exact ⟨fun hle => absurd hle hmore, fun _ => rfl⟩
  | case3 buf reads hmore got hne ih =>
    exact ih h.read

/-! ## The length header -/

/-- The text behind the name, as it gives the number `v`: blanks, digits, blanks, and the end of the
value, which is at the first carriage return or newline. -/
structure IsLengthText (t : List Byte) (v : ℕ) : Prop where
  parts : ∃ bl ds bl' e tail, t = bl ++ (ds ++ (bl' ++ e :: tail)) ∧
    (∀ b ∈ bl, isBlankByte b = true) ∧ (∀ b ∈ bl', isBlankByte b = true) ∧
    (e = 0x0D ∨ e = 0x0A) ∧ (∀ b ∈ ds, isDigit b = true) ∧ ds ≠ [] ∧ decimal ds = v
  fits : v < 2 ^ 64

theorem isBlankByte_of_isDigit {b : Byte} (h : isDigit b = true) : isBlankByte b = false := by
  rw [isBlankByte, Bool.or_eq_false_iff, beq_eq_false_iff_ne, beq_eq_false_iff_ne]
  constructor <;>
  · rintro rfl
    revert h
    decide

/-- Behind a number that is read. -/
theorem contentLength_numeral {bl ds x : List Byte} (hbl : ∀ b ∈ bl, isBlankByte b = true)
    (hds : ∀ b ∈ ds, isDigit b = true) (hne : ds ≠ []) (hx : ∀ b ∈ x.head?, isDigit b = false) :
    contentLength (bl ++ (ds ++ x)) =
      match x.dropWhile isBlankByte with
      | [] => .error .overrun
      | e :: _ =>
        if e ≠ 0x0D ∧ e ≠ 0x0A ∨ 2 ^ 64 ≤ decimal ds then .error .reject
        else .ok (decimal ds) := by
  obtain ⟨d, ds', rfl⟩ := List.exists_cons_of_ne_nil hne
  have hd := hds d List.mem_cons_self
  have hdrop : (bl ++ (d :: ds' ++ x)).dropWhile isBlankByte = d :: (ds' ++ x) := by
    rw [List.dropWhile_append_of_pos hbl]
    simp [isBlankByte_of_isDigit hd]
  have hnum : IsNumeral [] .none (d :: ds') := ⟨by simp, hds, hne⟩
  have hread : strtoul (d :: (ds' ++ x)) = _ := strtoul_numeral hnum hx
  rw [contentLength, hdrop]
  dsimp only
  rw [hd, if_neg (by decide), hread]
  by_cases hlarge : 2 ^ 64 ≤ decimal (d :: ds')
  · rw [if_pos hlarge]
    dsimp only
    cases x.dropWhile isBlankByte with
    | nil => rfl
    | cons e tail =>
      dsimp only
      rw [if_pos (Or.inr hlarge)]
      split <;> rfl
  · rw [if_neg hlarge]
    dsimp only
    cases x.dropWhile isBlankByte with
    | nil => rfl
    | cons e tail =>
      dsimp only
      by_cases he : e ≠ 0x0D ∧ e ≠ 0x0A
      · rw [if_pos he, if_pos (Or.inl he)]
      · rw [if_neg he, if_neg (not_or.mpr ⟨he, hlarge⟩)]
        rfl

/-- Anything else behind the name. -/
theorem contentLength_other {bl x : List Byte} {b : Byte} (hbl : ∀ b ∈ bl, isBlankByte b = true)
    (hb : isBlankByte b = false) (hdigit : isDigit b = false) :
    contentLength (bl ++ b :: x) = .error .reject := by
  have hdrop : (bl ++ b :: x).dropWhile isBlankByte = b :: x := by
    rw [List.dropWhile_append_of_pos hbl]
    simp [hb]
  rw [contentLength, hdrop]
  dsimp only
  rw [hdigit]
  rfl

/-- What stands behind the name: a number, something else, or blanks alone. -/
theorem contentLength_cases (t : List Byte) :
    (∃ bl ds x, t = bl ++ (ds ++ x) ∧ (∀ b ∈ bl, isBlankByte b = true) ∧
      (∀ b ∈ ds, isDigit b = true) ∧ ds ≠ [] ∧ ∀ b ∈ x.head?, isDigit b = false) ∨
    (∃ bl b x, t = bl ++ b :: x ∧ (∀ b ∈ bl, isBlankByte b = true) ∧ isBlankByte b = false ∧
      isDigit b = false) ∨
    (∀ b ∈ t, isBlankByte b = true) := by
  have hbl : ∀ b ∈ t.takeWhile isBlankByte, isBlankByte b = true :=
    fun b hb => List.mem_takeWhile_imp hb
  have hsplit := List.takeWhile_append_dropWhile (p := isBlankByte) (l := t)
  cases hdrop : t.dropWhile isBlankByte with
  | nil =>
    rw [List.dropWhile_eq_nil_iff] at hdrop
    exact Or.inr (Or.inr hdrop)
  | cons b r =>
    have hblank := List.head?_dropWhile_not isBlankByte t
    rw [hdrop] at hsplit hblank
    cases hdigit : isDigit b with
    | false => exact Or.inr (Or.inl ⟨_, b, r, hsplit.symm, hbl, by simpa using hblank, hdigit⟩)
    | true =>
      refine Or.inl ⟨_, (b :: r).takeWhile isDigit, (b :: r).dropWhile isDigit, ?_, hbl, ?_, ?_, ?_⟩
      · rw [List.takeWhile_append_dropWhile, hsplit]
      · exact fun d hd => List.mem_takeWhile_imp hd
      · rw [List.takeWhile_cons_of_pos hdigit]
        simp
      · intro d hd
        have hnot := List.head?_dropWhile_not isDigit (b :: r)
        rw [Option.mem_def.mp hd] at hnot
        exact eq_false_of_ne_true fun htrue => by simp [htrue] at hnot

/-- **What is read as a length**: blanks, digits that fit into 64 bits, blanks, and the end of the
line. -/
theorem contentLength_eq_ok_iff {t : List Byte} {v : ℕ} :
    contentLength t = .ok v ↔ IsLengthText t v := by
  constructor
  · intro h
    rcases contentLength_cases t with ⟨bl, ds, x, rfl, hbl, hds, hne, hx⟩ |
        ⟨bl, b, x, rfl, hbl, hb, hdigit⟩ | hblank
    · rw [contentLength_numeral hbl hds hne hx] at h
      have hsplit := List.takeWhile_append_dropWhile (p := isBlankByte) (l := x)
      cases hdrop : x.dropWhile isBlankByte with
      | nil =>
        rw [hdrop] at h
        cases h
      | cons e tail =>
        rw [hdrop] at h hsplit
        dsimp only at h
        split_ifs at h with hbad
        cases h
        rw [not_or, not_and_or, Decidable.not_not, Decidable.not_not, not_le] at hbad
        have hbl' : ∀ b ∈ x.takeWhile isBlankByte, isBlankByte b = true :=
          fun b hb => List.mem_takeWhile_imp hb
        exact ⟨⟨bl, ds, _, e, tail, by rw [hsplit], hbl, hbl', hbad.1, hds, hne, rfl⟩, hbad.2⟩
    · rw [contentLength_other hbl hb hdigit] at h
      cases h
    · rw [contentLength, List.dropWhile_eq_nil_iff.mpr hblank] at h
      cases h
  · rintro ⟨⟨bl, ds, bl', e, tail, rfl, hbl, hbl', he, hds, hne, rfl⟩, hfits⟩
    have heb : isBlankByte e = false := by rcases he with rfl | rfl <;> decide
    have hed : isDigit e = false := by rcases he with rfl | rfl <;> decide
    have hx : ∀ b ∈ (bl' ++ e :: tail).head?, isDigit b = false := by
      intro b hb
      cases bl' with
      | nil =>
        cases hb
        exact hed
      | cons c bl' =>
        cases hb
        have hc := hbl' b List.mem_cons_self
        exact eq_false_of_ne_true fun hdig => by
          rw [isBlankByte_of_isDigit hdig] at hc
          cases hc
    have hdrop : (bl' ++ e :: tail).dropWhile isBlankByte = e :: tail := by
      rw [List.dropWhile_append_of_pos hbl']
      simp [heb]
    rw [contentLength_numeral hbl hds hne hx, hdrop]
    dsimp only
    rw [if_neg]
    rw [not_or, not_and_or, Decidable.not_not, Decidable.not_not, not_le]
    exact ⟨he, hfits⟩

theorem dropWhile_newline (x p : List Byte) :
    (x ++ 0x0A :: p).dropWhile isBlankByte = x.dropWhile isBlankByte ++ 0x0A :: p := by
  induction x with
  | nil => rfl
  | cons b x ih =>
    rw [List.cons_append, List.dropWhile_cons, List.dropWhile_cons, ih]
    split <;> rfl

/-- **The scan of a number stays within a line** that was received to its end. -/
theorem contentLength_of_newline (t p : List Byte) :
    contentLength (t ++ 0x0A :: p) = contentLength (t ++ [0x0A]) ∧
      contentLength (t ++ 0x0A :: p) ≠ .error .overrun := by
  rcases contentLength_cases t with ⟨bl, ds, x, rfl, hbl, hds, hne, hx⟩ |
      ⟨bl, b, x, rfl, hbl, hb, hdigit⟩ | hblank
  · have hx' : ∀ p, ∀ b ∈ (x ++ 0x0A :: p).head?, isDigit b = false := by
      intro p b hb
      cases x with
      | nil =>
        cases hb
        decide
      | cons c x => exact hx b hb
    have hread : ∀ p, contentLength (bl ++ (ds ++ x) ++ 0x0A :: p) = _ := fun p => by
      rw [List.append_assoc, List.append_assoc, contentLength_numeral hbl hds hne (hx' p),
        dropWhile_newline]
    rw [hread, hread]
    cases x.dropWhile isBlankByte with
    | nil =>
      refine ⟨rfl, ?_⟩
      dsimp only [List.nil_append]
      split <;> simp
    | cons e tail =>
      refine ⟨rfl, ?_⟩
      dsimp only [List.cons_append]
      split <;> simp
  · have hread : ∀ p, contentLength (bl ++ b :: x ++ 0x0A :: p) = .error .reject := fun p => by
      rw [List.append_assoc, List.cons_append, contentLength_other hbl hb hdigit]
    rw [hread, hread]
    exact ⟨rfl, by simp⟩
  · have hread : ∀ p, contentLength (t ++ 0x0A :: p) = .error .reject :=
      fun p => contentLength_other hblank (by decide) (by decide)
    rw [hread, hread]
    exact ⟨rfl, by simp⟩

end PacketWyrm
