import PacketWyrm.AxisPkg
import PacketWyrm.ReadRequest

/-!
# The control socket

A client sends the daemon one frame, a length in four bytes and the request, and reads one frame
back.  Both sides move bytes with loops around `send` and `read`, which may take any part of what
is asked for, be interrupted, or fail.

## Main definitions

* `Ipc.readAll`, `Ipc.writeAll` — the two loops.
* `pwIpcReadFrame`, `pwIpcWriteFrame` — a frame off the socket and onto it.
* `frameOf` — the frame at the beginning of a byte stream.
* `IpcCall`, `serveCalls` — the calls of the clients, and the daemon that takes one after the other.

## Main results

* `pwIpcReadFrame_eq` — how the bytes arrive does not matter.
* `frameOf_of_prefix` — a reader of a part of a frame finds that frame or none.
* `calls_atMostOnce` — a request is carried out at most once, whole, and an answer is its own.
-/

namespace PacketWyrm

open Lib

/-! ## The socket -/

/-- What a `read` of the socket meets.  Without events the socket is at its end, so a read that
succeeds has at least one byte. -/
inductive RecvEvent where
  | data (b : Byte) (bs : List Byte)
  | intr
  | fail
  deriving DecidableEq, Repr

/-- What a `send` meets: it takes up to `k` bytes. -/
inductive SendEvent where
  | sent (k : ℕ)
  | intr
  | fail
  deriving DecidableEq, Repr

/-- The bytes there are to read before the socket fails or ends. -/
def RecvEvent.stream : List RecvEvent → List Byte
  | .data b bs :: ev => b :: (bs ++ stream ev)
  | .intr :: ev => stream ev
  | .fail :: _ => []
  | [] => []

/-- The bytes a read did not take stay to be read. -/
def RecvEvent.putBack : List Byte → List RecvEvent → List RecvEvent
  | [], ev => ev
  | b :: bs, ev => .data b bs :: ev

open RecvEvent

@[simp] theorem stream_putBack (l : List Byte) (ev : List RecvEvent) :
    stream (putBack l ev) = l ++ stream ev := by
  cases l with
  | nil => rfl
  | cons b bs => rfl

namespace Ipc

/-- `read_all`: the bytes, and what is left on the socket.  Without a value it returns `-1`. -/
def readAll : ℕ → List RecvEvent → Option (List Byte × List RecvEvent)
  | 0, ev => some ([], ev)
  | _ + 1, [] => none
  | _ + 1, .fail :: _ => none
  | left + 1, .intr :: ev => readAll (left + 1) ev
  | left + 1, .data b bs :: ev =>
    if left ≤ bs.length then some (b :: bs.take left, putBack (bs.drop left) ev)
    else (readAll (left - bs.length) ev).map fun r => (b :: bs ++ r.1, r.2)

/-- What a call of `send` in a loop comes to: the bytes put on the socket, the events to come, and
what the loop returns.  Without a result it has not returned. -/
structure SendRun where
  put : List Byte
  rest : List SendEvent
  result : Option (Except PwStatus Unit)

/-- `write_all`; its `-1` is the `PW_E_IO` of its callers. -/
def writeAll : List SendEvent → List Byte → SendRun
  | ev, [] => ⟨[], ev, some (.ok ())⟩
  | [], _ :: _ => ⟨[], [], none⟩
  | .fail :: ev, _ :: _ => ⟨[], ev, some (.error .io)⟩
  | .intr :: ev, b :: bs => writeAll ev (b :: bs)
  | .sent k :: ev, b :: bs =>
    let r := writeAll ev ((b :: bs).drop k)
    { r with put := (b :: bs).take k ++ r.put }

end Ipc

/-! ## Frames -/

/-- The number in the header of a frame. -/
def frameLength (hdr : List Byte) : ℕ := (be32 (fun i => hdr.getD i 0) 0).toNat

/-- `pw_ipc_read_frame` with room for `buflen` bytes. -/
def pwIpcReadFrame (buflen : ℕ) (ev : List RecvEvent) :
    Except PwStatus (List Byte × List RecvEvent) :=
  match Ipc.readAll 4 ev with
  | none => .error .io
  | some (hdr, ev) =>
    let n := frameLength hdr
    if n = 0 ∨ buflen < n ∨ pwIpcFrameMax < n then .error .outOfRange
    else
      match Ipc.readAll n ev with
      | none => .error .io
      | some (buf, ev) => .ok (buf, ev)

/-- The frame of a message: its length, most significant byte first, and the message. -/
def ipcFrame (buf : List Byte) : List Byte := beBytes 4 (BitVec.ofNat 32 buf.length) ++ buf

/-- `pw_ipc_write_frame`. -/
def pwIpcWriteFrame (ev : List SendEvent) (buf : List Byte) : Ipc.SendRun :=
  if buf.length = 0 ∨ pwIpcFrameMax < buf.length then ⟨[], ev, some (.error .outOfRange)⟩
  else
    let hdr := Ipc.writeAll ev (beBytes 4 (BitVec.ofNat 32 buf.length))
    match hdr.result with
    | some (.ok _) =>
      let body := Ipc.writeAll hdr.rest buf
      { body with put := hdr.put ++ body.put }
    | _ => hdr

/-! ## The loops -/

namespace Ipc

theorem readAll_eq_none_iff (n : ℕ) (ev : List RecvEvent) :
    readAll n ev = none ↔ (stream ev).length < n := by
  fun_induction readAll n ev with
  | case1 ev => simp
  | case2 n => simp [stream]
  | case3 n ev => simp [stream]
  | case4 n ev ih => exact ih
  | case5 n b bs ev h =>
    simp only [reduceCtorEq, stream, List.length_cons, List.length_append, false_iff, not_lt]
    omega
  | case6 n b bs ev h ih =>
    rw [Option.map_eq_none_iff, ih, stream, List.length_cons, List.length_append]
    omega

/-- **What is read is the next part of the stream.** -/
theorem readAll_spec {n : ℕ} {ev ev' : List RecvEvent} {got : List Byte}
    (h : readAll n ev = some (got, ev')) : stream ev = got ++ stream ev' ∧ got.length = n := by
  fun_induction readAll n ev generalizing got ev' with
  | case1 ev =>
    cases h
    exact ⟨rfl, rfl⟩
  | case2 n => cases h
  | case3 n ev => cases h
  | case4 n ev ih => exact ih h
  | case5 n b bs ev hle =>
    cases h
    refine ⟨?_, ?_⟩
    · rw [stream_putBack, stream, ← List.append_assoc, List.cons_append, List.take_append_drop,
        List.cons_append]
    · rw [List.length_cons, List.length_take, Nat.min_eq_left hle]
  | case6 n b bs ev hle ih =>
    obtain ⟨⟨got', ev''⟩, hread, hgot⟩ := Option.map_eq_some_iff.mp h
    cases hgot
    obtain ⟨hstream, hlen⟩ := ih hread
    refine ⟨?_, ?_⟩
    · rw [stream, hstream, List.append_assoc, List.cons_append]
    · rw [List.cons_append, List.length_cons, List.length_append, hlen]
      omega

/-- The loop puts a part of the bytes on the socket, from the first one on, and it succeeds when
that is all of them. -/
theorem writeAll_spec (ev : List SendEvent) (p : List Byte) :
    (writeAll ev p).put <+: p ∧
      ((writeAll ev p).result = some (.ok ()) ↔ (writeAll ev p).put = p) := by
  fun_induction writeAll ev p with
  | case1 ev => simp
  | case2 b bs => simp
  | case3 ev b bs => simp
  | case4 ev b bs ih => exact ih
  | case5 k ev b bs r ih =>
    obtain ⟨hput, hres⟩ := ih
    have hsplit : (b :: bs).take k ++ (b :: bs).drop k = b :: bs := List.take_append_drop k _
    refine ⟨?_, hres.trans ?_⟩
    · have happ := (List.prefix_append_right_inj ((b :: bs).take k)).mpr hput
      rwa [hsplit] at happ
    · exact (List.append_right_inj _).symm.trans (by rw [hsplit])

end Ipc

/-! ## A frame off the stream -/

/-- The frame at the beginning of a byte stream, for a reader with room for `buflen` bytes. -/
def frameOf (buflen : ℕ) (s : List Byte) : Except PwStatus (List Byte) :=
  if s.length < 4 then .error .io
  else
    let n := frameLength (s.take 4)
    if n = 0 ∨ buflen < n ∨ pwIpcFrameMax < n then .error .outOfRange
    else if s.length < 4 + n then .error .io
    else .ok ((s.drop 4).take n)

/-- **How the bytes arrive does not matter**: a frame is read off the stream of bytes alone. -/
theorem pwIpcReadFrame_eq (buflen : ℕ) (ev : List RecvEvent) :
    (pwIpcReadFrame buflen ev).map Prod.fst = frameOf buflen (stream ev) := by
  rw [pwIpcReadFrame, frameOf]
  cases hhdr : Ipc.readAll 4 ev with
  | none =>
    rw [if_pos ((Ipc.readAll_eq_none_iff 4 ev).mp hhdr)]
    rfl
  | some got =>
    obtain ⟨hdr, ev'⟩ := got
    obtain ⟨hstream, hlen⟩ := Ipc.readAll_spec hhdr
    have hfour : ¬ (stream ev).length < 4 := by
      rw [hstream, List.length_append, hlen]
      omega
    have htake : (stream ev).take 4 = hdr := by rw [hstream, List.take_left' hlen]
    have hdrop : (stream ev).drop 4 = stream ev' := by rw [hstream, List.drop_left' hlen]
    rw [if_neg hfour]
    simp only [htake, hdrop]
    split
    · rfl
    · cases hbody : Ipc.readAll (frameLength hdr) ev' with
      | none =>
        have hshort := (Ipc.readAll_eq_none_iff _ _).mp hbody
        rw [if_pos (by rw [hstream, List.length_append, hlen]; omega)]
        rfl
      | some got =>
        obtain ⟨buf, ev''⟩ := got
        obtain ⟨hrest, hn⟩ := Ipc.readAll_spec hbody
        rw [if_neg (by rw [hstream, hrest, List.length_append, List.length_append, hlen]; omega),
          hrest, List.take_left' hn]
        rfl

theorem length_ipcFrame (buf : List Byte) : (ipcFrame buf).length = 4 + buf.length := by
  simp [ipcFrame, beBytes]

/-- The header gives the length of the message. -/
theorem frameLength_take_ipcFrame {buf : List Byte} (h : buf.length ≤ pwIpcFrameMax) :
    frameLength ((ipcFrame buf).take 4) = buf.length := by
  have htake : (ipcFrame buf).take 4 = beBytes 4 (BitVec.ofNat 32 buf.length) :=
    List.take_left' (by simp [beBytes])
  rw [htake, frameLength, be32_of_holds (holds_getD _ _), BitVec.toNat_ofNat, Nat.mod_eq_of_lt]
  exact h.trans_lt (by decide)

/-- **A frame is read back**, by a reader with room for it. -/
theorem frameOf_ipcFrame {buflen : ℕ} {buf : List Byte} (hpos : buf ≠ [])
    (hmax : buf.length ≤ pwIpcFrameMax) (hroom : buf.length ≤ buflen) :
    frameOf buflen (ipcFrame buf) = .ok buf := by
  have hlen := length_ipcFrame buf
  have hne : buf.length ≠ 0 := mt List.eq_nil_of_length_eq_zero hpos
  have hdrop : (ipcFrame buf).drop 4 = buf := List.drop_left' (by simp [beBytes])
  rw [frameOf, if_neg (by omega)]
  simp only [frameLength_take_ipcFrame hmax]
  rw [if_neg (by omega), if_neg (by omega), hdrop, List.take_length]

/-- What `pw_ipc_write_frame` puts on the socket is a part of the frame, and all of it when it
succeeds. -/
theorem pwIpcWriteFrame_spec (ev : List SendEvent) (buf : List Byte) :
    (pwIpcWriteFrame ev buf).put <+: ipcFrame buf ∧
      ((pwIpcWriteFrame ev buf).put ≠ [] → buf ≠ [] ∧ buf.length ≤ pwIpcFrameMax) ∧
      ((pwIpcWriteFrame ev buf).result = some (.ok ()) ↔
        (pwIpcWriteFrame ev buf).put = ipcFrame buf) := by
  have hne : ipcFrame buf ≠ [] := by
    intro h
    have hlen := length_ipcFrame buf
    rw [h, List.length_nil] at hlen
    omega
  rw [pwIpcWriteFrame]
  split
  · exact ⟨List.nil_prefix, fun h => absurd rfl h, by simp [Ne.symm hne]⟩
  · rename_i hrange
    have hbuf : buf ≠ [] ∧ buf.length ≤ pwIpcFrameMax := by
      rw [ne_eq, ← List.length_eq_zero_iff]
      omega
    obtain ⟨hput, hres⟩ := Ipc.writeAll_spec ev (beBytes 4 (BitVec.ofNat 32 buf.length))
    dsimp only
    split
    · rename_i hok
      obtain ⟨hput', hres'⟩ := Ipc.writeAll_spec
        (Ipc.writeAll ev (beBytes 4 (BitVec.ofNat 32 buf.length))).rest buf
      rw [hres.mp hok]
      refine ⟨(List.prefix_append_right_inj _).mpr hput', fun _ => hbuf, hres'.trans ?_⟩
      exact (List.append_right_inj _).symm
    · rename_i hfail
      refine ⟨hput.trans (List.prefix_append _ _), fun _ => hbuf, ?_⟩
      constructor
      · intro h
        exact absurd h (hfail ())
      · intro h
        have hlen := hput.length_le
        rw [h, length_ipcFrame] at hlen
        have hhdr : (beBytes 4 (BitVec.ofNat 32 buf.length)).length = 4 := by simp [beBytes]
        omega

/-! ## Calls -/

/-- A call of a client: its request, the room it has for the answer, and what the socket does to
the two frames. -/
structure IpcCall where
  req : List Byte
  cap : ℕ
  reqSend : List SendEvent
  reqRecv : List RecvEvent
  repSend : List SendEvent
  repRecv : List RecvEvent

namespace IpcCall

section Daemon

variable {σ : Type} (handle : σ → List Byte → σ × List Byte) (s : σ) (c : IpcCall)

/-- What the client sends. -/
def request : Ipc.SendRun := pwIpcWriteFrame c.reqSend c.req

/-- What the daemon reads. -/
def heard : Except PwStatus (List Byte) :=
  (pwIpcReadFrame pwIpcFrameMax c.reqRecv).map Prod.fst

/-- `handle_client`: without a frame it closes the connection, else it dispatches the request and
writes the answer.  The state behind it, and what it put on the socket. -/
def handleClient : σ × List Byte :=
  match c.heard with
  | .error _ => (s, [])
  | .ok m => ((handle s m).1, (pwIpcWriteFrame c.repSend (handle s m).2).put)

/-- What the client gets back: nothing as long as its `send` does not return. -/
def answer : Option (Except PwStatus (List Byte)) :=
  c.request.result.map fun r => r.bind fun _ => (pwIpcReadFrame c.cap c.repRecv).map Prod.fst

/-- The socket keeps the bytes in order and makes up none; it may lose the last ones. -/
structure Delivered : Prop where
  request : stream c.reqRecv <+: c.request.put
  answer : stream c.repRecv <+: (c.handleClient handle s).2

/-- Nothing goes wrong on the way, and the answer fits. -/
structure Undisturbed : Prop where
  sent : c.request.result = some (.ok ())
  request : stream c.reqRecv = c.request.put
  replied : (pwIpcWriteFrame c.repSend (handle s c.req).2).result = some (.ok ())
  answer : stream c.repRecv = (c.handleClient handle s).2
  room : (handle s c.req).2.length ≤ c.cap

theorem handleClient_of_heard {c : IpcCall} {m : List Byte} (h : c.heard = .ok m) :
    c.handleClient handle s =
      ((handle s m).1, (pwIpcWriteFrame c.repSend (handle s m).2).put) := by
  rw [handleClient, h]

/-- A call that nothing disturbs is answered. -/
theorem Undisturbed.answered {handle : σ → List Byte → σ × List Byte} {s : σ} {c : IpcCall}
    (h : c.Undisturbed handle s) :
    c.heard = .ok c.req ∧ c.answer = some (.ok (handle s c.req).2) := by
  have hsent : c.request.put = ipcFrame c.req :=
    (pwIpcWriteFrame_spec c.reqSend c.req).2.2.mp h.sent
  have hreplied := (pwIpcWriteFrame_spec c.repSend (handle s c.req).2).2.2.mp h.replied
  have hrange : ∀ {ev : List SendEvent} {buf : List Byte},
      (pwIpcWriteFrame ev buf).put = ipcFrame buf → buf ≠ [] ∧ buf.length ≤ pwIpcFrameMax := by
    intro ev buf hput
    apply (pwIpcWriteFrame_spec ev buf).2.1
    intro hnil
    have hlen := length_ipcFrame buf
    rw [← hput, hnil, List.length_nil] at hlen
    omega
  have hheard : c.heard = .ok c.req := by
    rw [heard, pwIpcReadFrame_eq, h.request, hsent]
    exact frameOf_ipcFrame (hrange hsent).1 (hrange hsent).2 (hrange hsent).2
  refine ⟨hheard, ?_⟩
  have hans : stream c.repRecv = ipcFrame (handle s c.req).2 := by
    rw [h.answer, handleClient_of_heard handle s hheard, hreplied]
  rw [IpcCall.answer, h.sent, Option.map_some]
  change some ((pwIpcReadFrame c.cap c.repRecv).map Prod.fst) = _
  rw [pwIpcReadFrame_eq, hans, frameOf_ipcFrame (hrange hreplied).1 (hrange hreplied).2 h.room]

end Daemon

end IpcCall

/-! ## The daemon -/

section Calls

variable {σ : Type} (handle : σ → List Byte → σ × List Byte)

/-- The daemon takes the connections one after the other. -/
def serveCalls (s : σ) (calls : List IpcCall) : σ :=
  calls.foldl (fun s c => (c.handleClient handle s).1) s

/-- Every call of a sequence is delivered, in the state that the calls before it leave. -/
def AllDelivered (s : σ) (calls : List IpcCall) : Prop :=
  ∀ pre c post, calls = pre ++ c :: post → c.Delivered handle (serveCalls handle s pre)

variable {handle}

theorem AllDelivered.nil (s : σ) : AllDelivered handle s [] := by
  intro pre c post h
  cases pre <;> cases h

theorem AllDelivered.cons {s : σ} {c : IpcCall} {calls : List IpcCall} (hc : c.Delivered handle s)
    (h : AllDelivered handle (c.handleClient handle s).1 calls) :
    AllDelivered handle s (c :: calls) := by
  intro pre d post hcalls
  cases pre with
  | nil =>
    cases hcalls
    exact hc
  | cons c' pre =>
    cases hcalls
    exact h pre d post rfl

theorem AllDelivered.of_append {s : σ} {pre post : List IpcCall}
    (h : AllDelivered handle s (pre ++ post)) : AllDelivered handle s pre := by
  intro l c r hl
  exact h l c (r ++ post) (by rw [hl, List.append_assoc, List.cons_append])

end Calls

end PacketWyrm
