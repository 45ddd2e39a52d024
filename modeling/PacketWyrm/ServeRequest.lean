import Mathlib.Data.List.DropRight
import PacketWyrm.RequestFraming

/-!
# Serving a request

`serve` of the web proxy looks at a request that was read: at the method and the path, and, for a
message to the daemon, at a header that only the user interface sends and at the host the browser
believes it talks to.

## Main definitions

* `requestLine`, `findHeader` — the method and the path, and a header's value.
* `hostAllowed` — the hosts a message may be sent to.
* `serve` — what is asked for, and what it is refused with.
* `Authority` — a host with an optional port, as a browser sends it.

## Main results

* `findHeader_lines` — a header is found on the first line that begins with its name.
* `hostAllowed_authority_iff` — an authority is allowed exactly if it names an allowed host.
* `serve_eq_rpc_iff` — the requests whose body is meant for the daemon.
-/

namespace PacketWyrm

open Lib

/-! ## The request line -/

/-- `sscanf` with `"%7s %255s"`: the method and the path, when both are there. -/
def requestLine (buf : List Byte) : Option (List Byte × List Byte) :=
  let s := (cString buf).dropWhile isSpace
  let method := (s.takeWhile fun b => !isSpace b).take 7
  let path := (((s.drop method.length).dropWhile isSpace).takeWhile fun b => !isSpace b).take 255
  if method = [] ∨ path = [] then none else some (method, path)

/-! ## Headers -/

/-- `strncasecmp` of what stands here with the whole of `name`. -/
def namesHeader (name p : List Byte) : Bool :=
  (p.take name.length).map toLower == name.map toLower

/-- The value behind a name: up to the end of the line, without blanks around it. -/
def headerValue (p : List Byte) : List Byte :=
  ((p.dropWhile isBlankByte).takeWhile fun b => b != 0x0D && b != 0x0A).rdropWhile isBlankByte

/-- The loop of `find_header` over what is left of the block; `start` says that a line begins
here. -/
def findHeaderLoop (name : List Byte) : Bool → List Byte → Option (List Byte)
  | _, [] => none
  | start, b :: p =>
    if (b :: p).length ≤ name.length then none
    else if start && namesHeader name (b :: p) then some (headerValue ((b :: p).drop name.length))
    else findHeaderLoop name (b == 0x0A) p

/-- `find_header` with room for `outcap` bytes.  The value is a C string then. -/
def findHeader (block name : List Byte) (outcap : ℕ) : Option (List Byte) :=
  (findHeaderLoop name true block).bind fun v =>
    if v.length ≥ outcap then none else some (cString v)

/-! ## Hosts -/

/-- `strcasecmp` finds no difference. -/
def sameText (s t : List Byte) : Bool := s.map toLower == t.map toLower

/-- `host_matches`: an address in brackets has also its name without them. -/
def hostMatches (host want : List Byte) : Bool :=
  sameText host want ||
    (2 ≤ host.length && host.head? == some 0x5B && host.getLast? == some 0x5D &&
      want.length == host.length - 2 && sameText ((host.drop 1).take (host.length - 2)) want)

/-- The port taken off: behind the bracket, or at the only colon. -/
def stripPort (host : List Byte) : List Byte :=
  if host.head? = some 0x5B then
    let rb := host.idxOf 0x5D
    if host[rb + 1]? = some 0x3A then host.take (rb + 1) else host
  else
    let colon := host.idxOf 0x3A
    if 0x3A ∈ host.drop (colon + 1) then host else host.take colon

/-- The hosts that are always allowed. -/
def builtinHosts : List (List Byte) := [ascii "localhost", ascii "127.0.0.1", ascii "::1"]

/-- An entry of `pw_assets`. -/
structure PwAsset where
  path : List Byte
  ctype : List Byte
  data : List Byte
  deriving DecidableEq, Repr

/-- What the proxy is started with, as far as `serve` looks at it. -/
structure ProxydSettings where
  listenAddr : List Byte
  allowedHosts : List (List Byte)
  probeEnforce : Bool
  assets : List PwAsset
  version : List Byte
  deriving DecidableEq, Repr

namespace ProxydSettings

variable (g : ProxydSettings)

/-- All allowed hosts, in the order in which they are looked at. -/
def hosts : List (List Byte) := builtinHosts ++ g.listenAddr :: g.allowedHosts

/-- `host_allowed`. -/
def hostAllowed (raw : List Byte) : Bool :=
  let host := stripPort raw
  if host = [] then false else g.hosts.any (hostMatches host)

/-- `serve_asset`: an exact look at the table. -/
def serveAsset (path : List Byte) : Option PwAsset :=
  let clean := (path.takeWhile (· != 0x3F)).take 255
  let lookup := if clean = [] ∨ clean = ascii "/" then ascii "/index.html" else clean
  g.assets.find? fun a => a.path == lookup

end ProxydSettings

/-! ## The request -/

/-- `PROXYD_REQ_MAX`. -/
def proxydReqMax : ℕ := pwIpcFrameMax + 8192

/-- What a request asks for, or the code and the status it is refused with. -/
inductive Asked where
  | rpc (body : List Byte)
  | version
  | asset (a : PwAsset)
  | refused (code : ℕ) (status : String)
  deriving DecidableEq, Repr

/-- The header block of a request. -/
def Request.block {cap : ℕ} (r : Request cap) : List Byte := r.buf.data.take r.bodyOff

/-- `serve`, up to what needs the daemon. -/
def serve (g : ProxydSettings) {cap : ℕ} (r : Request cap) : Asked :=
  match requestLine r.buf.data with
  | none => .refused 400 "bad request"
  | some (method, path) =>
    if method = ascii "POST" ∧ path = ascii "/api/rpc" then
      if findHeader r.block (ascii "X-PW-Request:") 300 ≠ some (ascii "1") then
        .refused 403 "missing X-PW-Request header"
      else
        match findHeader r.block (ascii "Host:") 300 with
        | none => .refused 403 "host not allowed"
        | some host =>
          if g.hostAllowed host then .rpc r.body else .refused 403 "host not allowed"
    else if method = ascii "GET" ∧ path = ascii "/proxyd/version" then .version
    else if method = ascii "GET" then
      match g.serveAsset path with
      | some a => .asset a
      | none => .refused 404 "not found"
    else .refused 404 "not found"

/-! ## A header by its lines -/

section Header

variable {name : List Byte}

/-- A line that begins with the name is longer than the name. -/
theorem length_le_of_namesHeader (hname : 0x0A ∉ name.map toLower) {body p : List Byte}
    (h : namesHeader name (body ++ 0x0A :: p) = true) : name.length ≤ body.length := by
  by_contra hlt
  rw [namesHeader, beq_iff_eq] at h
  apply hname
  rw [← h, ← toLower_newline]
  apply List.mem_map_of_mem
  rw [List.take_append, List.mem_append]
  right
  rw [show name.length - body.length = name.length - body.length - 1 + 1 by omega]
  exact List.mem_cons_self

/-- Whether a line begins with the name is seen in the line. -/
theorem namesHeader_line (hname : 0x0A ∉ name.map toLower) (body p : List Byte) :
    namesHeader name (body ++ 0x0A :: p) = namesHeader name (body ++ [0x0A]) := by
  have hlong : ∀ p, name.length ≤ body.length →
      namesHeader name (body ++ 0x0A :: p) = namesHeader name body := by
    intro p h
    rw [namesHeader, List.take_append_of_le_length h, namesHeader]
  rw [Bool.eq_iff_iff]
  constructor
  · intro h
    have hlen := length_le_of_namesHeader hname h
    rwa [hlong [] hlen, ← hlong p hlen]
  · intro h
    have hlen := length_le_of_namesHeader hname h
    rwa [hlong p hlen, ← hlong [] hlen]

/-- The value of a header stands on its line. -/
theorem headerValue_line {body : List Byte} {n : ℕ} (hn : n ≤ body.length) (p : List Byte) :
    headerValue ((body ++ 0x0A :: p).drop n) = headerValue ((body ++ [0x0A]).drop n) := by
  have hend : ∀ x p : List Byte, (x ++ 0x0A :: p).takeWhile (fun b => b != 0x0D && b != 0x0A) =
      x.takeWhile fun b => b != 0x0D && b != 0x0A := by
    intro x p
    rw [List.takeWhile_append]
    split
    · next hall =>
      rw [List.takeWhile_cons_of_neg (by decide), List.append_nil]
      exact ((List.takeWhile_prefix _).eq_of_length hall).symm
    · rfl
  have hvalue : ∀ p : List Byte, headerValue ((body ++ 0x0A :: p).drop n) =
      headerValue (body.drop n) := by
    intro p
    rw [List.drop_append_of_le_length hn, headerValue, dropWhile_newline, hend, headerValue]
  rw [hvalue p, hvalue []]

theorem findHeaderLoop_short (start : Bool) {p : List Byte} (h : p.length ≤ name.length) :
    findHeaderLoop name start p = none := by
  cases p with
  | nil => rfl
  | cons b p => rw [findHeaderLoop, if_pos h]

/-- Within a line no name is looked for. -/
theorem findHeaderLoop_rest {l : List Byte} (hl : 0x0A ∉ l) (p : List Byte) :
    findHeaderLoop name false (l ++ 0x0A :: p) = findHeaderLoop name true p := by
  induction l with
  | nil =>
    rw [List.nil_append, findHeaderLoop]
    split
    · next hshort => exact (findHeaderLoop_short true (Nat.le_of_succ_le hshort)).symm
    · rfl
  | cons b l ih =>
    rw [List.mem_cons, not_or] at hl
    rw [List.cons_append, findHeaderLoop]
    split
    · next hshort =>
      simp only [List.length_cons, List.length_append] at hshort
      exact (findHeaderLoop_short true (by omega)).symm
    · rw [Bool.false_and, if_neg (by decide), beq_false_of_ne (Ne.symm hl.1), ih hl.2]

/-- **The scan of the block is a scan of its lines.** -/
theorem findHeaderLoop_line (hname : 0x0A ∉ name.map toLower) {body : List Byte}
    (hbody : 0x0A ∉ body) (p : List Byte) :
    findHeaderLoop name true (body ++ 0x0A :: p) =
      if namesHeader name (body ++ [0x0A]) then
        some (headerValue ((body ++ [0x0A]).drop name.length))
      else findHeaderLoop name true p := by
  rw [← namesHeader_line hname body p]
  by_cases hshort : (body ++ 0x0A :: p).length ≤ name.length
  · -- the loop is at its end
    have hnot : ¬namesHeader name (body ++ 0x0A :: p) = true := by
      intro h
      have hlen := length_le_of_namesHeader hname h
      simp only [List.length_append, List.length_cons] at hshort
      omega
    simp only [List.length_append, List.length_cons] at hshort
    rw [findHeaderLoop_short true (by simp; omega), if_neg hnot,
      findHeaderLoop_short true (by omega)]
  · by_cases hnames : namesHeader name (body ++ 0x0A :: p) = true
    · rw [if_pos hnames, ← headerValue_line (length_le_of_namesHeader hname hnames) p]
      cases body with
      | nil =>
        rw [List.nil_append] at hnames hshort ⊢
        rw [findHeaderLoop, if_neg hshort, hnames, Bool.true_and, if_pos rfl]
      | cons b body =>
        rw [List.cons_append] at hnames hshort ⊢
        rw [findHeaderLoop, if_neg hshort, hnames, Bool.true_and, if_pos rfl]
    · rw [if_neg hnames]
      rw [Bool.not_eq_true] at hnames
      cases body with
      | nil =>
        rw [List.nil_append] at hnames hshort ⊢
        rw [findHeaderLoop, if_neg hshort, hnames, Bool.and_false, if_neg (by decide)]
        rfl
      | cons b body =>
        rw [List.mem_cons, not_or] at hbody
        rw [List.cons_append] at hnames hshort ⊢
        rw [findHeaderLoop, if_neg hshort, hnames, Bool.and_false, if_neg (by decide),
          beq_false_of_ne (Ne.symm hbody.1), findHeaderLoop_rest hbody.2]

/-- The value that a block of lines gives a header: that of the first line with its name. -/
def fieldOf (Ls : List (List Byte)) (name : List Byte) : Option (List Byte) :=
  (Ls.find? (namesHeader name)).map fun l => headerValue (l.drop name.length)

/-- **A header is found on the first line that begins with its name**, in either case. -/
theorem findHeader_lines (hname : 0x0A ∉ name.map toLower) {Ls : List (List Byte)}
    (hLs : ∀ l ∈ Ls, IsLine l) : findHeaderLoop name true Ls.flatten = fieldOf Ls name := by
  induction Ls with
  | nil => rfl
  | cons l Ls ih =>
    obtain ⟨body, hbody, rfl⟩ := hLs l List.mem_cons_self
    have hrest := ih fun l hl => hLs l (List.mem_cons_of_mem _ hl)
    rw [List.flatten_cons, List.append_assoc, List.singleton_append,
      findHeaderLoop_line hname hbody, fieldOf, List.find?_cons]
    split
    · next hnames => rw [hnames, Option.map_some]
    · next hnames =>
      rw [Bool.eq_false_iff.mpr hnames, hrest]
      rfl

end Header

/-! ## Authorities -/

/-- The host of an authority: a name, which an IPv4 address is too, or an address in brackets. -/
inductive AuthorityHost where
  | name (n : List Byte) (hne : n ≠ []) (hn : ∀ b ∈ n, b ≠ 0x3A ∧ b ≠ 0x5B)
  | literal (a : List Byte) (ha : 0x5D ∉ a)

namespace AuthorityHost

def text : AuthorityHost → List Byte
  | name n _ _ => n
  | literal a _ => 0x5B :: (a ++ [0x5D])

/-- The host is the one that is called `want`. -/
def Names (want : List Byte) : AuthorityHost → Prop
  | name n _ _ => sameText n want = true
  | literal a _ => sameText a want = true ∨ sameText (0x5B :: (a ++ [0x5D])) want = true

theorem text_ne_nil (h : AuthorityHost) : h.text ≠ [] := by
  cases h with
  | name n hne hn => exact hne
  | literal a ha => exact List.cons_ne_nil _ _

theorem length_eq_of_sameText {s t : List Byte} (h : sameText s t = true) :
    t.length = s.length := by
  rw [sameText, beq_iff_eq] at h
  have hlen := congrArg List.length h
  rw [List.length_map, List.length_map] at hlen
  exact hlen.symm

theorem hostMatches_text (h : AuthorityHost) (want : List Byte) :
    hostMatches h.text want = true ↔ h.Names want := by
  cases h with
  | name n hne hn =>
    obtain ⟨b, n', rfl⟩ := List.exists_cons_of_ne_nil hne
    have hb : ((b :: n').head? == some 0x5B) = false :=
      beq_false_of_ne fun h => (hn b List.mem_cons_self).2 (Option.some.inj h)
    rw [hostMatches, text, Names, hb]
    simp only [Bool.and_false, Bool.false_and, Bool.or_false]
  | literal a ha =>
    have hinner :
        ((0x5B :: (a ++ [0x5D])).drop 1).take ((0x5B :: (a ++ [0x5D])).length - 2) = a := by
      simp
    rw [hostMatches, text, Names, hinner, Bool.or_eq_true, or_comm]
    refine or_congr_left ?_
    constructor
    · intro h
      rw [Bool.and_eq_true] at h
      exact h.2
    · intro h
      have hlen := length_eq_of_sameText h
      have hlast : (0x5B :: (a ++ [0x5D]) : List Byte).getLast? = some 0x5D := by
        rw [← List.cons_append, List.getLast?_concat]
      rw [hlast, h, hlen]
      simp

end AuthorityHost

/-- A host and perhaps a port, as a browser sends them. -/
structure Authority where
  host : AuthorityHost
  port : Option (List Byte)
  port_plain : ∀ p ∈ port, 0x3A ∉ p

def Authority.text (a : Authority) : List Byte :=
  match a.port with
  | none => a.host.text
  | some p => a.host.text ++ 0x3A :: p

/-- The port is what is taken off. -/
theorem Authority.stripPort_text (a : Authority) : stripPort a.text = a.host.text := by
  obtain ⟨host, port, hport⟩ := a
  cases host with
  | name n hne hn =>
    have hcolon : 0x3A ∉ n := fun h => (hn _ h).1 rfl
    have hhead : ∀ r : List Byte, (n ++ r).head? ≠ some 0x5B := by
      intro r
      obtain ⟨b, n', rfl⟩ := List.exists_cons_of_ne_nil hne
      rw [List.cons_append, List.head?_cons]
      exact fun h => (hn b List.mem_cons_self).2 (Option.some.inj h)
    cases port with
    | none =>
      have hfirst := hhead []
      rw [List.append_nil] at hfirst
      rw [text, AuthorityHost.text, stripPort, if_neg hfirst]
      dsimp only
      rw [List.idxOf_of_notMem hcolon, List.drop_eq_nil_of_le (by omega), if_neg List.not_mem_nil,
        List.take_length]
    | some p =>
      have hplain : 0x3A ∉ p := hport p rfl
      rw [text, AuthorityHost.text, stripPort, if_neg (hhead _)]
      dsimp only
      rw [List.idxOf_append_of_notMem hcolon, List.idxOf_cons_self]
      have hdrop : (n ++ 0x3A :: p).drop (n.length + 0 + 1) = p := by
        rw [Nat.add_zero, ← List.drop_drop, List.drop_left]
        rfl
      rw [hdrop, if_neg hplain, Nat.add_zero, List.take_left]
  | literal a ha =>
    have hidx : ∀ r : List Byte, (0x5B :: (a ++ [0x5D]) ++ r).idxOf 0x5D = a.length + 1 := by
      intro r
      rw [List.cons_append, List.idxOf_cons_ne _ (by decide), List.append_assoc,
        List.idxOf_append_of_notMem ha, List.singleton_append, List.idxOf_cons_self]
    have hlen : (0x5B :: (a ++ [0x5D]) : List Byte).length = a.length + 2 := by simp
    cases port with
    | none =>
      have hplace := hidx []
      rw [List.append_nil] at hplace
      change stripPort (0x5B :: (a ++ [0x5D])) = 0x5B :: (a ++ [0x5D])
      rw [stripPort, if_pos List.head?_cons]
      dsimp only
      rw [hplace, List.getElem?_eq_none (by omega), if_neg (by simp)]
    | some p =>
      change stripPort (0x5B :: (a ++ [0x5D]) ++ 0x3A :: p) = 0x5B :: (a ++ [0x5D])
      rw [stripPort, if_pos (by rw [List.cons_append, List.head?_cons])]
      dsimp only
      rw [hidx, List.getElem?_append_right (by omega), hlen, if_pos (by simp),
        List.take_append_of_le_length (by omega), List.take_of_length_le (by omega)]

theorem Authority.text_stripPort_ne_nil (a : Authority) : stripPort a.text ≠ [] := by
  rw [a.stripPort_text]
  exact a.host.text_ne_nil

/-- **An authority is allowed exactly if it names an allowed host**, whatever its port: a page that
has bound its own name to the proxy's address is not. -/
theorem hostAllowed_authority_iff (g : ProxydSettings) (a : Authority) :
    g.hostAllowed a.text = true ↔ ∃ want ∈ g.hosts, a.host.Names want := by
  rw [ProxydSettings.hostAllowed, if_neg a.text_stripPort_ne_nil, a.stripPort_text,
    List.any_eq_true]
  exact exists_congr fun want => and_congr_right fun _ => a.host.hostMatches_text want

/-! ## What is meant for the daemon -/

/-- A request that is let through to the daemon. -/
structure Sanctioned (g : ProxydSettings) {cap : ℕ} (r : Request cap) : Prop where
  line : requestLine r.buf.data = some (ascii "POST", ascii "/api/rpc")
  token : ∃ v, fieldOf (textLines r.block) (ascii "X-PW-Request:") = some v ∧ v.length < 300 ∧
    cString v = ascii "1"
  host : ∃ v, fieldOf (textLines r.block) (ascii "Host:") = some v ∧ v.length < 300 ∧
    g.hostAllowed (cString v) = true

/-- The header block of a request is whole lines. -/
def Request.Lined {cap : ℕ} (r : Request cap) : Prop :=
  ∃ Ls : List (List Byte), (∀ l ∈ Ls, IsLine l) ∧ r.block = Ls.flatten

theorem Request.Lined.textLines {cap : ℕ} {r : Request cap} {Ls : List (List Byte)}
    (hLs : ∀ l ∈ Ls, IsLine l) (h : r.block = Ls.flatten) : PacketWyrm.textLines r.block = Ls := by
  rw [h, ← List.append_nil Ls.flatten, textLines_append hLs]
  exact List.append_nil Ls

/-- What was read of a stream has such a block. -/
theorem lined_of_readRequest {cap : ℕ} {stream : List Byte} {reads : List (List Byte)}
    {r : Request cap} (h : IsSplit stream reads) (hr : readRequest cap reads = .ok r) :
    r.Lined := by
  rcases readRequest_cases cap h with ⟨off, len, r', hframed, hr', hover⟩ | ⟨-, hr'⟩
  · rw [hr] at hr'
    obtain rfl := Except.ok.inj hr'
    obtain ⟨k, rfl, hfound, -⟩ := hframed.block
    obtain ⟨Ls, hLs, hflat, -⟩ := lines_of_block hfound
    have hheld := hover.holds
    refine ⟨Ls, hLs, ?_⟩
    rw [Request.block, hover.bodyOff, ← hflat, ← hover.buf, List.take_take,
      min_eq_left (by omega)]
  · rw [hr] at hr'
    cases hr'

theorem findHeader_eq_some_iff {cap : ℕ} {r : Request cap} (h : r.Lined) {name v : List Byte}
    (hname : 0x0A ∉ name.map toLower) (outcap : ℕ) :
    findHeader r.block name outcap = some v ↔
      ∃ w, fieldOf (textLines r.block) name = some w ∧ w.length < outcap ∧ cString w = v := by
  obtain ⟨Ls, hLs, hblock⟩ := h
  rw [Request.Lined.textLines hLs hblock, findHeader, hblock, findHeader_lines hname hLs,
    Option.bind_eq_some_iff]
  refine exists_congr fun w => and_congr_right fun _ => ?_
  split
  · next hlong => simp [Nat.not_lt.mpr hlong]
  · next hshort => simp [not_le.mp hshort]

/-- **The requests whose body is meant for the daemon.** -/
theorem serve_eq_rpc_iff (g : ProxydSettings) {cap : ℕ} {r : Request cap} (h : r.Lined)
    (body : List Byte) : serve g r = .rpc body ↔ Sanctioned g r ∧ r.body = body := by
  have htoken := findHeader_eq_some_iff (v := ascii "1") h
    (by decide : 0x0A ∉ (ascii "X-PW-Request:").map toLower) 300
  have hhost := fun v => findHeader_eq_some_iff (v := v) h
    (by decide : 0x0A ∉ (ascii "Host:").map toLower) 300
  constructor
  · intro hs
    rw [serve] at hs
    split at hs
    · cases hs
    next method path hline =>
    split_ifs at hs with hpost hother hversion hget
    · obtain ⟨rfl, rfl⟩ := hpost
      rw [ne_eq, Decidable.not_not] at hother
      split at hs
      · cases hs
      next v hv =>
      split_ifs at hs with hallowed
      obtain ⟨w, hw, hlen, rfl⟩ := (hhost v).mp hv
      exact ⟨⟨hline, htoken.mp hother, w, hw, hlen, hallowed⟩, Asked.rpc.inj hs⟩
    · split at hs <;> cases hs
  · rintro ⟨⟨hline, ht, w, hw, hlen, hallowed⟩, rfl⟩
    have hv := (hhost (cString w)).mpr ⟨w, hw, hlen, rfl⟩
    rw [serve, hline]
    dsimp only
    rw [if_pos ⟨rfl, rfl⟩, if_neg (by rw [htoken.mpr ht]; simp), hv]
    dsimp only
    rw [if_pos hallowed]

end PacketWyrm
