import PacketWyrm.ReadRequest

/-!
# The frame of a request

The header block of a request is scanned byte by byte in the receive buffer.  The scan is a scan of
its lines, and what a request is framed by is said by the stream alone.

## Main definitions

* `SaysLength` — what the lines of a block say about the length of the body.
* `IsFramed` — how a request is framed by the stream.

## Main results

* `scanHeader_block` — the scan gives what the block says, and stays within it.
* `readRequest_outcome` — the outcome for any division of a stream into reads.
* `framing_independent_of_reads` — all divisions of a stream have the same outcome.
-/

namespace PacketWyrm

open Lib

/-! ## The header block -/

theorem toLower_newline : toLower 0x0A = 0x0A := rfl

theorem newline_notMem_name : (0x0A : Byte) ∉ ascii "content-length:" := by decide

/-- A line that has the name is longer than the name. -/
theorem le_length_of_names {body : List Byte} (p : List Byte)
    (h : namesContentLength (body ++ 0x0A :: p) = true) : 15 ≤ body.length := by
  by_contra hlt
  rw [namesContentLength, beq_iff_eq] at h
  apply newline_notMem_name
  rw [← h, ← toLower_newline]
  apply List.mem_map_of_mem
  rw [List.take_append, List.mem_append]
  right
  obtain ⟨n, hn⟩ := Nat.exists_eq_add_of_lt (not_le.mp hlt)
  rw [show 15 - body.length = n + 1 by omega]
  exact List.mem_cons_self

/-- Whether a line has the name is seen in the line. -/
theorem namesContentLength_line (body p : List Byte) :
    namesContentLength (body ++ 0x0A :: p) = namesContentLength (body ++ [0x0A]) := by
  have hlong : ∀ p, 15 ≤ body.length → (body ++ 0x0A :: p).take 15 = body.take 15 :=
    fun p h => List.take_append_of_le_length h
  rw [Bool.eq_iff_iff]
  constructor
  · intro h
    have hlen := le_length_of_names p h
    rw [namesContentLength, hlong p hlen] at h
    rw [namesContentLength, hlong [] hlen]
    exact h
  · intro h
    have hlen := le_length_of_names [] h
    rw [namesContentLength, hlong [] hlen] at h
    rw [namesContentLength, hlong p hlen]
    exact h

/-- The scan of one line. -/
def clLine (cl : Option ℕ) (line : List Byte) : Except ReqError (Option ℕ) :=
  if namesContentLength line = false then .ok cl
  else if cl.isSome then .error .reject
  else (contentLength (line.drop 15)).map some

/-- Within a line nothing is looked for. -/
theorem scanHeader_rest {l : List Byte} (hl : 0x0A ∉ l) (n : ℕ) (p : List Byte) (cl : Option ℕ) :
    scanHeader (l.length + n) false (l ++ p) cl = scanHeader n false p cl := by
  induction l with
  | nil => rw [List.length_nil, Nat.zero_add, List.nil_append]
  | cons b l ih =>
    rw [List.mem_cons, not_or] at hl
    rw [List.length_cons, List.cons_append, Nat.add_right_comm, scanHeader, if_neg (Ne.symm hl.1),
      if_pos Bool.not_false, ih hl.2]

theorem scanHeader_newline (n : ℕ) (start : Bool) (p : List Byte) (cl : Option ℕ) :
    scanHeader (n + 1) start (0x0A :: p) cl = scanHeader n true p cl := by
  rw [scanHeader, if_pos rfl]

/-- **The scan of the block is a scan of its lines.** -/
theorem scanHeader_line {body : List Byte} (hbody : 0x0A ∉ body) (n : ℕ) (p : List Byte)
    (cl : Option ℕ) :
    scanHeader ((body ++ [0x0A]).length + n) true (body ++ 0x0A :: p) cl =
      clLine cl (body ++ [0x0A]) >>= scanHeader n true p := by
  rw [List.length_append, List.length_singleton]
  cases body with
  | nil =>
    rw [List.length_nil, Nat.zero_add, Nat.add_comm, List.nil_append, List.nil_append,
      scanHeader_newline, clLine, if_pos (by decide)]
    rfl
  | cons b body =>
    have hb := hbody
    rw [List.mem_cons, not_or] at hb
    -- what is left of the line once its beginning was looked at
    have hrest : ∀ cl, scanHeader (body.length + 1 + n) false (body ++ 0x0A :: p) cl =
        scanHeader n true p cl := by
      intro cl
      rw [Nat.add_assoc, scanHeader_rest hb.2, Nat.add_comm 1 n, scanHeader_newline]
    have hnames := namesContentLength_line (b :: body) p
    rw [List.length_cons, show body.length + 1 + 1 + n = body.length + 1 + n + 1 by omega,
      List.cons_append, scanHeader, if_neg (Ne.symm hb.1), if_neg (by decide), clLine]
    rw [List.cons_append] at hnames
    cases hline : namesContentLength (b :: body ++ [0x0A]) with
    | false =>
      rw [hline] at hnames
      rw [if_pos (Or.inr hnames), if_pos rfl, hrest]
      rfl
    | true =>
      rw [hline] at hnames
      have hlen : 15 ≤ (b :: body).length := le_length_of_names p hnames
      rw [List.length_cons] at hlen
      rw [if_neg (by rw [hnames]; simp; omega)]
      cases cl with
      | some v => rfl
      | none =>
        have hfirst : ¬(none : Option ℕ).isSome = true := by decide
        rw [if_neg hfirst, if_neg (show ¬true = false by decide), if_neg hfirst]
        have hdrop : ∀ p, (b :: body ++ 0x0A :: p).drop 15 = (b :: body).drop 15 ++ 0x0A :: p :=
          fun p => List.drop_append_of_le_length (by
            rw [List.length_cons]
            omega)
        simp only [List.cons_append] at hdrop
        rw [hdrop, (contentLength_of_newline _ p).1, List.cons_append, hdrop]
        cases contentLength ((b :: body).drop 15 ++ [0x0A]) with
        | ok v =>
          dsimp only [Except.map]
          rw [hrest]
          rfl
        | error e => rfl

theorem scanHeader_lines {Ls : List (List Byte)} (hLs : ∀ l ∈ Ls, IsLine l) (p : List Byte)
    (cl : Option ℕ) :
    scanHeader Ls.flatten.length true (Ls.flatten ++ p) cl = Ls.foldlM clLine cl := by
  induction Ls generalizing cl with
  | nil => rfl
  | cons l Ls ih =>
    obtain ⟨body, hbody, rfl⟩ := hLs l List.mem_cons_self
    rw [List.flatten_cons, List.length_append, List.append_assoc, List.append_assoc,
      List.singleton_append, scanHeader_line hbody, List.foldlM_cons]
    congr 1
    funext cl'
    exact ih (fun l hl => hLs l (List.mem_cons_of_mem _ hl)) cl'

/-- What the header block says about the body's length. -/
inductive SaysLength (Ls : List (List Byte)) : Option ℕ → Prop where
  | none (h : Ls.filter namesContentLength = []) : SaysLength Ls none
  | one {l : List Byte} {v : ℕ} (h : Ls.filter namesContentLength = [l])
      (hv : IsLengthText (l.drop 15) v) : SaysLength Ls (some v)

/-- Behind a length, no other may follow. -/
theorem foldlM_clLine_some (v : ℕ) (Ls : List (List Byte)) :
    Ls.foldlM clLine (some v) =
      if Ls.filter namesContentLength = [] then .ok (some v) else .error .reject := by
  induction Ls with
  | nil => rfl
  | cons l Ls ih =>
    rw [List.foldlM_cons, clLine]
    cases hl : namesContentLength l with
    | false =>
      rw [if_pos rfl, List.filter_cons_of_neg (by rw [hl]; decide)]
      exact ih
    | true =>
      rw [if_neg (by decide), if_pos Option.isSome_some, List.filter_cons_of_pos hl,
        if_neg (by simp)]
      rfl

theorem foldlM_clLine_none (Ls : List (List Byte)) :
    Ls.foldlM clLine none =
      match Ls.filter namesContentLength with
      | [] => .ok none
      | l :: more =>
        (contentLength (l.drop 15)).bind fun v =>
          if more = [] then .ok (some v) else .error .reject := by
  induction Ls with
  | nil => rfl
  | cons l Ls ih =>
    rw [List.foldlM_cons, clLine]
    cases hl : namesContentLength l with
    | false =>
      rw [if_pos rfl, List.filter_cons_of_neg (by rw [hl]; decide)]
      exact ih
    | true =>
      rw [if_neg (by decide), if_neg (by decide), List.filter_cons_of_pos hl]
      dsimp only
      cases contentLength (l.drop 15) with
      | error e => rfl
      | ok v => exact foldlM_clLine_some v Ls

/-- **The scan gives what the block says**, and stays within the block. -/
theorem foldlM_clLine_outcome {Ls : List (List Byte)} (hLs : ∀ l ∈ Ls, IsLine l) :
    (∀ cl, Ls.foldlM clLine none = .ok cl ↔ SaysLength Ls cl) ∧
      Ls.foldlM clLine none ≠ .error .overrun := by
  rw [foldlM_clLine_none]
  cases hfilter : Ls.filter namesContentLength with
  | nil =>
    refine ⟨?_, by simp⟩
    intro cl
    constructor
    · rintro ⟨⟩
      exact .none hfilter
    · intro h
      cases h with
      | none => rfl
      | one h => rw [hfilter] at h; cases h
  | cons l more =>
    have hmem : l ∈ Ls.filter namesContentLength := by
      rw [hfilter]
      exact List.mem_cons_self
    obtain ⟨hl, hnames⟩ := List.mem_filter.mp hmem
    obtain ⟨body, hbody, rfl⟩ := hLs l hl
    have hlen := le_length_of_names [] hnames
    have hdrop : (body ++ [0x0A]).drop 15 = body.drop 15 ++ [0x0A] :=
      List.drop_append_of_le_length hlen
    have hstays := (contentLength_of_newline (body.drop 15) []).2
    dsimp only
    rw [← hdrop] at hstays
    constructor
    · intro cl
      constructor
      · intro h
        cases hc : contentLength ((body ++ [0x0A]).drop 15) with
        | error e =>
          rw [hc] at h
          cases h
        | ok v =>
          rw [hc] at h
          simp only [Except.bind] at h
          split_ifs at h with hmore
          cases h
          rw [hmore] at hfilter
          exact .one hfilter (contentLength_eq_ok_iff.mp hc)
      · intro h
        cases h with
        | none h => rw [hfilter] at h; cases h
        | one h hv =>
          rw [hfilter] at h
          obtain ⟨rfl, rfl⟩ := List.cons.inj h
          rw [contentLength_eq_ok_iff.mpr hv]
          rfl
    · intro h
      cases hc : contentLength ((body ++ [0x0A]).drop 15) with
      | error e =>
        rw [hc] at h hstays
        cases h
        exact hstays rfl
      | ok v =>
        rw [hc] at h
        simp only [Except.bind] at h
        split_ifs at h
        cases h

/-! ## The frame of a request -/

/-- A request is framed by the stream: the header block ends behind the first empty line, the body
is as long as the block says, the two fit, and the stream has them. -/
structure IsFramed (cap : ℕ) (stream : List Byte) (off len : ℕ) : Prop where
  block : ∃ k, off = k + 4 ∧ crlfCrlf <+: stream.drop k ∧ ∀ j < k, ¬crlfCrlf <+: stream.drop j
  length : ∃ cl, SaysLength (textLines (stream.take off)) cl ∧ len = cl.getD 0
  le : len ≤ pwIpcFrameMax
  fits : off + len ≤ cap
  arrived : off + len ≤ stream.length

/-- The first empty line of the part of the stream that fits. -/
theorem findAt_take_eq_some {cap k : ℕ} {stream : List Byte} (hk : k + 4 ≤ cap)
    (hfound : crlfCrlf <+: stream.drop k) (hfirst : ∀ j < k, ¬crlfCrlf <+: stream.drop j) :
    findAt crlfCrlf (stream.take cap) = some k := by
  have hlen := hfound.length_le
  have hfour : crlfCrlf.length = 4 := rfl
  rw [List.length_drop] at hlen
  have hin : ∀ j ≤ k, crlfCrlf <+: (stream.take cap).drop j ↔ crlfCrlf <+: stream.drop j := by
    intro j hj
    conv_rhs => rw [← List.take_append_drop cap stream]
    refine (prefix_append_iff ?_).symm
    rw [List.length_take]
    omega
  refine findAt_eq_some_iff.mpr ⟨?_, (hin k le_rfl).mpr hfound, ?_⟩
  · rw [List.length_take]
    omega
  · intro j hj hpat
    exact hfirst j hj ((hin j hj.le).mp hpat)

/-- What was found in that part, in the stream. -/
theorem block_of_findAt {cap k : ℕ} {stream : List Byte}
    (h : findAt crlfCrlf (stream.take cap) = some k) :
    k + 4 ≤ cap ∧ crlfCrlf <+: stream.drop k ∧ ∀ j < k, ¬crlfCrlf <+: stream.drop j := by
  have hall := findAt_append_of_some h (stream.drop cap)
  rw [List.take_append_drop] at hall
  have hlen := (findAt_eq_some_iff.mp h).2.1.length_le
  have hfour : crlfCrlf.length = 4 := rfl
  rw [List.length_drop, List.length_take] at hlen
  obtain ⟨-, hfound, hfirst⟩ := findAt_eq_some_iff.mp hall
  exact ⟨by omega, hfound, hfirst⟩

/-- A header block is whole lines. -/
theorem lines_of_block {k : ℕ} {stream : List Byte} (h : crlfCrlf <+: stream.drop k) :
    ∃ Ls : List (List Byte), (∀ l ∈ Ls, IsLine l) ∧ stream.take (k + 4) = Ls.flatten ∧
      textLines (stream.take (k + 4)) = Ls := by
  obtain ⟨r, hr⟩ := h
  have hblock : stream.take (k + 4) = (stream.take k ++ [0x0D, 0x0A, 0x0D]) ++ [0x0A] := by
    rw [List.take_add, ← hr, List.append_assoc]
    rfl
  obtain ⟨Ls, tail, hLs, htail, heq⟩ := exists_lines (stream.take (k + 4))
  -- the block ends with a newline, and nothing stands behind its last line
  have hnil : tail = [] := by
    by_contra hne
    have hlast := congrArg List.getLast? heq
    rw [hblock, List.getLast?_append, List.getLast?_append, List.getLast?_append,
      List.getLast?_eq_some_getLast hne] at hlast
    have hmem := List.getLast_mem hne
    rw [← Option.some.inj hlast] at hmem
    exact htail hmem
  rw [hnil, List.append_nil] at heq
  refine ⟨Ls, hLs, heq, ?_⟩
  rw [heq, ← List.append_nil Ls.flatten, textLines_append hLs]
  exact List.append_nil Ls

/-- **The scan of a block that was received**: what the block says about the length, and no look
past what was received. -/
theorem scanHeader_block {stream : List Byte} {cap k : ℕ} {buf : ReqBuf cap}
    {reads : List (List Byte)} (h : Arrived stream buf reads) (hheld : k + 4 ≤ buf.data.length)
    (hfound : crlfCrlf <+: stream.drop k) :
    (∀ cl, scanHeader (k + 4) true buf.data none = .ok cl ↔
      SaysLength (textLines (stream.take (k + 4))) cl) ∧
    scanHeader (k + 4) true buf.data none ≠ .error .overrun := by
  obtain ⟨Ls, hLs, hflat, hlines⟩ := lines_of_block hfound
  have htake : buf.data.take (k + 4) = Ls.flatten := by
    have hheads := congrArg (List.take (k + 4)) h.take
    rw [List.take_take, min_eq_left hheld] at hheads
    rw [← hheads, hflat]
  have hdata : buf.data = Ls.flatten ++ buf.data.drop (k + 4) := by
    rw [← htake]
    exact (List.take_append_drop _ _).symm
  have hlen : k + 4 = Ls.flatten.length := by
    rw [← htake, List.length_take, min_eq_left hheld]
  have hscan : scanHeader (k + 4) true buf.data none = Ls.foldlM clLine none := by
    rw [hdata, hlen]
    exact scanHeader_lines hLs _ none
  rw [hscan, hlines]
  exact foldlM_clLine_outcome hLs

/-- What is handed over of a stream: the frame, and a buffer that holds it. -/
structure HandsOver {cap : ℕ} (r : Request cap) (stream : List Byte) (off len : ℕ) : Prop where
  bodyOff : r.bodyOff = off
  bodyLen : r.bodyLen = len
  buf : stream.take r.buf.data.length = r.buf.data
  holds : off + len ≤ r.buf.data.length

/-- **The outcome for any division of a stream into reads**: the frame of the request if it has one,
and a refusal if not. -/
theorem readRequest_outcome (cap : ℕ) {stream : List Byte} {reads : List (List Byte)}
    (h : IsSplit stream reads) :
    (∀ off len, IsFramed cap stream off len →
      ∃ r, readRequest cap reads = .ok r ∧ HandsOver r stream off len) ∧
    ((∀ off len, ¬IsFramed cap stream off len) → readRequest cap reads = .error .reject) := by
  have harr : Arrived stream (⟨[], Nat.zero_le cap⟩ : ReqBuf cap) reads :=
    ⟨h.flatten, h.ne_nil⟩
  obtain ⟨hsome, hnone⟩ := readHeader_outcome harr rfl
  cases hf : findAt crlfCrlf (stream.take cap) with
  | none =>
    refine ⟨?_, ?_⟩
    · rintro off len ⟨⟨k, rfl, hfound, hfirst⟩, -, -, hfits, -⟩
      rw [findAt_take_eq_some (by omega) hfound hfirst] at hf
      cases hf
    · intro _
      rw [readRequest, hnone hf]
      rfl
  | some k =>
    obtain ⟨buf, more, hhead, harr', hheld⟩ := hsome k hf
    obtain ⟨hcap, hfound, hfirst⟩ := block_of_findAt hf
    obtain ⟨hspec, hstays⟩ := scanHeader_block harr' hheld hfound
    -- a frame of this stream begins where the block ends
    have hoff : ∀ {off len}, IsFramed cap stream off len → off = k + 4 := by
      rintro off len ⟨⟨k', rfl, hfound', hfirst'⟩, -, -, hfits, -⟩
      rw [findAt_take_eq_some (by omega) hfound' hfirst'] at hf
      rw [Option.some.inj hf]
    rw [readRequest, hhead]
    simp only [bind, Except.bind]
    cases hscan : scanHeader (k + 4) true buf.data none with
    | error e =>
      have he : e = .reject := by
        cases e with
        | reject => rfl
        | overrun => exact absurd hscan hstays
      refine ⟨?_, fun _ => by rw [he]⟩
      intro off len hframed
      obtain rfl := hoff hframed
      obtain ⟨cl, hcl, -⟩ := hframed.length
      rw [(hspec cl).mpr hcl] at hscan
      cases hscan
    | ok cl =>
      have hcl := (hspec cl).mp hscan
      have hlen : ∀ {off len}, IsFramed cap stream off len → off = k + 4 ∧ len = cl.getD 0 := by
        intro off len hframed
        obtain rfl := hoff hframed
        obtain ⟨cl', hcl', rfl⟩ := hframed.length
        rw [(hspec cl').mpr hcl'] at hscan
        cases hscan
        exact ⟨rfl, rfl⟩
      dsimp only
      by_cases hle : cl.getD 0 ≤ pwIpcFrameMax
      · by_cases hfits : k + 4 + cl.getD 0 ≤ cap
        · rw [failIf_eq_ok_iff (u := ()) |>.mpr (decide_eq_false (not_lt.mpr hle)),
            failIf_eq_ok_iff (u := ()) |>.mpr (decide_eq_false (not_lt.mpr hfits))]
          dsimp only
          obtain ⟨hbody, hshort⟩ := readBody_outcome harr' hfits
          by_cases harrived : k + 4 + cl.getD 0 ≤ stream.length
          · obtain ⟨buf', more', hread, harr'', hheld'⟩ := hbody harrived
            rw [hread]
            constructor
            · intro off len hframed
              obtain ⟨rfl, rfl⟩ := hlen hframed
              exact ⟨_, rfl, rfl, rfl, harr''.take, hheld'⟩
            · intro hnot
              refine absurd ?_ (hnot (k + 4) (cl.getD 0))
              exact ⟨⟨k, rfl, hfound, hfirst⟩, ⟨cl, hcl, rfl⟩, hle, hfits,
                harrived⟩
          · rw [hshort (not_le.mp harrived)]
            refine ⟨?_, fun _ => rfl⟩
            intro off len hframed
            obtain ⟨rfl, rfl⟩ := hlen hframed
            exact absurd hframed.arrived harrived
        · rw [failIf_eq_ok_iff (u := ()) |>.mpr (decide_eq_false (not_lt.mpr hle)), failIf,
            if_pos (decide_eq_true (not_le.mp hfits))]
          refine ⟨?_, fun _ => rfl⟩
          intro off len hframed
          obtain ⟨rfl, rfl⟩ := hlen hframed
          exact absurd hframed.fits hfits
      · rw [failIf, if_pos (decide_eq_true (not_le.mp hle))]
        refine ⟨?_, fun _ => rfl⟩
        intro off len hframed
        obtain ⟨rfl, rfl⟩ := hlen hframed
        exact absurd hframed.le hle

/-- Where the body of a request is, if the request is not refused. -/
def bodyOf {cap : ℕ} : Except ReqError (Request cap) → Option (ℕ × ℕ)
  | .ok r => some (r.bodyOff, r.bodyLen)
  | .error _ => none

/-- The body, as it is handed over. -/
def Request.body {cap : ℕ} (r : Request cap) : List Byte :=
  (r.buf.data.drop r.bodyOff).take r.bodyLen

theorem HandsOver.body {cap : ℕ} {r : Request cap} {stream : List Byte} {off len : ℕ}
    (h : HandsOver r stream off len) : r.body = (stream.drop off).take len := by
  have hheld := h.holds
  rw [Request.body, h.bodyOff, h.bodyLen, ← h.buf, List.drop_take, List.take_take,
    min_eq_left (by omega)]

theorem HandsOver.length_body {cap : ℕ} {r : Request cap} {stream : List Byte} {off len : ℕ}
    (h : HandsOver r stream off len) : r.body.length = len := by
  have hheld := h.holds
  rw [Request.body, h.bodyOff, h.bodyLen, List.length_take, List.length_drop]
  omega

/-- A request is taken with its frame, or it has none and is refused. -/
theorem readRequest_cases (cap : ℕ) {stream : List Byte} {reads : List (List Byte)}
    (h : IsSplit stream reads) :
    (∃ off len r, IsFramed cap stream off len ∧ readRequest cap reads = .ok r ∧
      HandsOver r stream off len) ∨
    ((∀ off len, ¬IsFramed cap stream off len) ∧ readRequest cap reads = .error .reject) := by
  obtain ⟨htaken, hrefused⟩ := readRequest_outcome cap h
  by_cases hex : ∃ off len, IsFramed cap stream off len
  · obtain ⟨off, len, hframed⟩ := hex
    obtain ⟨r, hr, hover⟩ := htaken off len hframed
    exact Or.inl ⟨off, len, r, hframed, hr, hover⟩
  · have hnot : ∀ off len, ¬IsFramed cap stream off len :=
      fun off len hframed => hex ⟨off, len, hframed⟩
    exact Or.inr ⟨hnot, hrefused hnot⟩

theorem bodyOf_eq_some_iff {cap : ℕ} {stream : List Byte} {reads : List (List Byte)}
    (h : IsSplit stream reads) (p : ℕ × ℕ) :
    bodyOf (readRequest cap reads) = some p ↔ IsFramed cap stream p.1 p.2 := by
  constructor
  · intro hbody
    rcases readRequest_cases cap h with ⟨off, len, r, hframed, hr, hover⟩ | ⟨-, hr⟩
    · rw [hr, bodyOf, hover.bodyOff, hover.bodyLen, Option.some.injEq] at hbody
      rw [← hbody]
      exact hframed
    · rw [hr] at hbody
      cases hbody
  · intro hframed
    obtain ⟨r, hr, hover⟩ := (readRequest_outcome cap h).1 p.1 p.2 hframed
    rw [hr, bodyOf, hover.bodyOff, hover.bodyLen]

/-- **The framing of a request does not depend on the reads.**  All divisions of a stream into reads
have the same outcome, and none of them makes the code look past what it has received.  The request
is taken exactly if the stream frames it, and its body is then the bytes of the frame. -/
theorem framing_independent_of_reads (cap : ℕ) (stream : List Byte) :
    (∀ reads reads', IsSplit stream reads → IsSplit stream reads' →
      bodyOf (readRequest cap reads) = bodyOf (readRequest cap reads')) ∧
    ∀ reads, IsSplit stream reads →
      readRequest cap reads ≠ .error .overrun ∧
      (∀ off len, bodyOf (readRequest cap reads) = some (off, len) ↔
        IsFramed cap stream off len) ∧
      ∀ r, readRequest cap reads = .ok r →
        r.body = (stream.drop r.bodyOff).take r.bodyLen ∧ r.body.length = r.bodyLen := by
  constructor
  · intro reads reads' h h'
    apply Option.ext
    intro p
    rw [bodyOf_eq_some_iff h, bodyOf_eq_some_iff h']
  · intro reads h
    refine ⟨?_, fun off len => bodyOf_eq_some_iff h (off, len), ?_⟩
    · rcases readRequest_cases cap h with ⟨off, len, r, -, hr, -⟩ | ⟨-, hr⟩
      · rw [hr]
        simp
      · rw [hr]
        simp
    · intro r hr
      rcases readRequest_cases cap h with ⟨off, len, r', -, hr', hover⟩ | ⟨-, hr'⟩
      · rw [hr] at hr'
        obtain rfl := Except.ok.inj hr'
        rw [hover.body, hover.bodyOff, hover.bodyLen]
        exact ⟨rfl, by rw [← hover.body, hover.length_body]⟩
      · rw [hr] at hr'
        cases hr'

/-- A request with a body of two bytes. -/
def sampleRequest : List Byte :=
  ascii "P" ++ [0x0D, 0x0A] ++ ascii "content-LENGTH: 2" ++ [0x0D, 0x0A, 0x0D, 0x0A] ++ ascii "hi"

/-- Byte by byte, and at once: the body is the last two bytes. -/
theorem framing_sample :
    bodyOf (readRequest 64 (sampleRequest.map fun b => [b])) =
        bodyOf (readRequest 64 [sampleRequest]) ∧
      bodyOf (readRequest 64 [sampleRequest]) = some (24, 2) := by
  obtain ⟨hsame, heach⟩ := framing_independent_of_reads 64 sampleRequest
  have hone : IsSplit sampleRequest [sampleRequest] := ⟨by simp, by decide⟩
  refine ⟨hsame _ _ ⟨by decide, by decide⟩ hone, ?_⟩
  rw [(heach _ hone).2.1]
  exact ⟨⟨20, rfl, by decide, by decide⟩,
    ⟨some 2, .one (l := ascii "content-LENGTH: 2" ++ [0x0D, 0x0A]) (by decide)
      ⟨⟨[0x20], [0x32], [], 0x0D, [0x0A], by decide, by decide, by decide, by decide, by decide,
        by decide, by decide⟩, by decide⟩, rfl⟩, by decide, by decide, by decide⟩

end PacketWyrm
