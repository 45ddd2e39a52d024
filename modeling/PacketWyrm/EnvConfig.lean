import PacketWyrm.Validate
import PacketWyrm.YamlTree

/-!
# The environment configuration

`pw_config_parse_string_ex` walks the tree of a configuration text.  The section `system`, which
has the shared secret, is described in full; the walk of the other four sections is a parameter,
which is given the nodes of these sections and nothing else.

## Main definitions

* `PwSystem`, `parseSystem` — the section `system`.
* `EnvConfig`, `parseRoot` — the whole configuration.
* `pwConfigParseString` — from the text on, for a YAML library.
* `secretRoot` — a tree with the secret in its place.

## Main results

* `parseSystem_secret`, `parseRoot_secret` — with another secret, another secret is parsed and
  nothing else.
-/

namespace PacketWyrm

open Lib

/-- `PW_NAME_MAX`. -/
def pwNameMax : ℕ := 32

/-- `PW_SECRET_MAX`. -/
def pwSecretMax : ℕ := 128

/-- The bytes of an ASCII string. -/
def ascii (s : String) : List Byte := s.toList.map fun c => BitVec.ofNat 8 c.toNat

/-- `copy_str` into `n` bytes, of which the last one ends the string. -/
def copyStr (n : ℕ) (s : List Byte) : List Byte := s.take (n - 1)

/-! ## Numbers -/

/-- The value of a digit. -/
def digitValue (base : ℕ) (b : Byte) : Option ℕ :=
  let d :=
    if 0x30 ≤ b.toNat ∧ b.toNat ≤ 0x39 then b.toNat - 0x30
    else if 0x61 ≤ b.toNat ∧ b.toNat ≤ 0x66 then b.toNat - 0x61 + 10
    else if 0x41 ≤ b.toNat ∧ b.toNat ≤ 0x46 then b.toNat - 0x41 + 10
    else base
  if d < base then some d else none

/-- The number that some digits make. -/
def digitsValue (base : ℕ) : ℕ → List Byte → Option ℕ
  | acc, [] => some acc
  | acc, b :: r => (digitValue base b).bind fun d => digitsValue base (acc * base + d) r

/-- `strtoull`, when it takes the whole of the string and the number is in range. -/
def strtoull (base : ℕ) (s : List Byte) : Option ℕ :=
  let t := s.dropWhile fun b => b == 0x20 || (0x09 ≤ b.toNat && b.toNat ≤ 0x0D)
  let negative := t.head? == some 0x2D
  let t := if t.head? = some 0x2D ∨ t.head? = some 0x2B then t.tail else t
  let t :=
    if base = 16 ∧ (t.take 2 = ascii "0x" ∨ t.take 2 = ascii "0X") ∧
        ((t.drop 2).head?.bind (digitValue 16)).isSome then t.drop 2
    else t
  if t = [] then none
  else (digitsValue base 0 t).bind fun v =>
    if 2 ^ 64 ≤ v then none else some (if negative then (2 ^ 64 - v) % 2 ^ 64 else v)

/-- `pw_parse_u64`. -/
def pwParseU64 (s : List Byte) : Option ℕ :=
  let buf := s.filter (· != 0x5F)
  -- Room for 63 characters without the underscores.
  if buf = [] ∨ 63 < buf.length then none
  else
    let q := buf.dropWhile fun b => b == 0x20 || b == 0x09
    if q.head? = some 0x2D ∨ q.head? = some 0x2B then none
    else strtoull (if q.take 2 = ascii "0x" ∨ q.take 2 = ascii "0X" then 16 else 10) buf

/-- `pw_parse_u32`. -/
def pwParseU32 (s : List Byte) : Option ℕ := (pwParseU64 s).filter (· ≤ 0xFFFFFFFF)

example : pwParseU32 (ascii "1_000") = some 1000 := by decide

/-! ## The section `system` -/

/-- `struct pw_system`. -/
structure PwSystem where
  name : List Byte
  mode : List Byte
  defaultSpeed : List Byte
  statsPollIntervalMs : ℕ
  controlSocket : List Byte
  secret : List Byte
  deriving DecidableEq

/-- `REQ_MAP`. -/
def reqMap (node : Option PwYamlNode) (path : String) : Except PwFailure PwYamlNode :=
  match node with
  | some (.map items) => .ok (.map items)
  | _ => .error (diag .parse path "expected mapping")

/-- `get_scalar`. -/
def getScalar (m : PwYamlNode) (key pathPrefix : String) (required : Bool) :
    Except PwFailure (Option (List Byte)) :=
  match pwYamlMapGet m (ascii key) with
  | none =>
    if required then .error (diag .missingField s!"{pathPrefix}.{key}" "missing required field")
    else .ok none
  | some (.scalar v) => .ok (some (cString v))
  | some _ => .error (diag .parse s!"{pathPrefix}.{key}" "expected scalar")

/-- `stats_poll_interval_ms`, with its default. -/
def parsePollInterval (s : Option (List Byte)) : Except PwFailure ℕ :=
  match s with
  | none => .ok 100
  | some s => orFail (pwParseU32 s)
      (diag .parse "system.stats_poll_interval_ms" "expected unsigned integer")

/-- `parse_system`. -/
def parseSystem (node : Option PwYamlNode) : Except PwFailure PwSystem := do
  let m ← reqMap node "system"
  let name ← getScalar m "name" "system" true
  let mode ← getScalar m "mode" "system" true
  let mode := copyStr pwNameMax (mode.getD [])
  failIf (mode != ascii "multi-card")
    (diag .inval "system.mode" "must be \"multi-card\"")
  let speed ← getScalar m "default_speed" "system" true
  let speed := copyStr 8 (speed.getD [])
  failIf (speed != ascii "10g")
    (diag .inval "system.default_speed" "only \"10g\" is supported")
  let poll ← getScalar m "stats_poll_interval_ms" "system" false
  let poll ← parsePollInterval poll
  let socket ← getScalar m "control_socket" "system" false
  let secret ← getScalar m "secret" "system" false
  pure {
    name := copyStr pwNameMax (name.getD [])
    mode
    defaultSpeed := speed
    statsPollIntervalMs := poll
    controlSocket := copyStr 128 (socket.getD (ascii "/run/packetwyrm/packetwyrmd.sock"))
    secret := copyStr pwSecretMax (secret.getD []) }

/-! ## The whole configuration -/

/-- The nodes of the other sections. -/
structure PwSections where
  cards : Option PwYamlNode
  logicalInterfaces : Option PwYamlNode
  flows : Option PwYamlNode
  forwards : Option PwYamlNode

/-- `struct pw_config`: the section `system`, and what is made of the other ones. -/
structure EnvConfig (ρ : Type) where
  system : PwSystem
  rest : ρ

/-- The keys of the root. -/
def rootKeys : List (List Byte) :=
  [ascii "system", ascii "cards", ascii "logical_interfaces", ascii "flows", ascii "forwards"]

/-- `reject_unknown_keys`, for the root; the text of the error has the key in it. -/
def rejectUnknownKeys (m : PwYamlNode) : Except PwFailure Unit :=
  match m with
  | .map items => failIf (items.any fun x => cString x.1 ∉ rootKeys) (diag .parse "" "unknown key")
  | _ => .ok ()

section Parse

variable {ρ : Type} (sections : PwSections → Except PwFailure ρ)

/-- `parse_root`, of a configuration that is not for a test alone. -/
def parseRoot (root : PwYamlNode) : Except PwFailure (EnvConfig ρ) := do
  let m ← reqMap (some root) ""
  rejectUnknownKeys m
  let system ← parseSystem (pwYamlMapGet m (ascii "system"))
  let rest ← sections {
    cards := pwYamlMapGet m (ascii "cards")
    logicalInterfaces := pwYamlMapGet m (ascii "logical_interfaces")
    flows := pwYamlMapGet m (ascii "flows")
    forwards := pwYamlMapGet m (ascii "forwards") }
  pure { system, rest }

/-- A YAML library: the events that it has for a text. -/
abbrev YamlLibrary := List Byte → List YamlEvent

/-- `pw_config_parse_string_ex`, without flags. -/
def pwConfigParseString (yaml : YamlLibrary) (text : List Byte) :
    Except PwFailure (EnvConfig ρ) := do
  let root ← orFail (pwYamlParse (yaml text)) (bare .parse)
  parseRoot sections root

end Parse

/-! ## The secret in its place -/

/-- A tree around the secret: the pairs before and behind it in the section, and the ones before
and behind the section. -/
structure SecretPlace where
  before : List (List Byte × PwYamlNode)
  after : List (List Byte × PwYamlNode)
  sysBefore : List (List Byte × PwYamlNode)
  sysAfter : List (List Byte × PwYamlNode)

namespace SecretPlace

variable (place : SecretPlace)

/-- The section with the secret `s`. -/
def system (s : List Byte) : PwYamlNode :=
  .map (place.sysBefore ++ (ascii "secret", .scalar s) :: place.sysAfter)

/-- The tree with the secret `s`. -/
def root (s : List Byte) : PwYamlNode :=
  .map (place.before ++ (ascii "system", place.system s) :: place.after)

variable {place} {v : List Byte}

theorem keyed_system (h : (place.root v).Keyed) (s : List Byte) : (place.system s).Keyed := by
  rw [root, PwYamlNode.Keyed, pairsKeyed_append, PairsKeyed] at h
  exact PwYamlNode.Keyed.replace h.2.2.1 trivial

/-- No key comes twice, whatever the secret. -/
theorem keyed_root (h : (place.root v).Keyed) (s : List Byte) : (place.root s).Keyed :=
  PwYamlNode.Keyed.replace h (keyed_system h s)

theorem getScalar_system_of_ne (s : List Byte) {key : String} (hkey : ascii "secret" ≠ ascii key)
    (pathPrefix : String) (required : Bool) :
    getScalar (place.system s) key pathPrefix required =
      getScalar (place.system v) key pathPrefix required := by
  have hsecret : cString (ascii "secret") = ascii "secret" := by decide
  rw [getScalar, getScalar, system, system,
    pwYamlMapGet_congr (.scalar s) (.scalar v) (by rw [hsecret]; exact hkey)]

theorem getScalar_system_secret (h : (place.root v).Keyed) (s : List Byte) (required : Bool) :
    getScalar (place.system s) "secret" "system" required = .ok (some (cString s)) := by
  have hget : pwYamlMapGet (place.system s) (ascii "secret") = some (.scalar s) :=
    pwYamlMapGet_self _ (by decide) fun x hx => (keyed_system h s).ne_of_mem_before hx
  rw [getScalar, hget]

/-- **Another secret** in the section. -/
theorem parseSystem_secret (h : (place.root v).Keyed) {sys : PwSystem}
    (hv : parseSystem (some (place.system v)) = .ok sys) (s : List Byte) :
    parseSystem (some (place.system s)) =
      .ok { sys with secret := copyStr pwSecretMax (cString s) } := by
  have hmap (t : List Byte) : reqMap (some (place.system t)) "system" = .ok (place.system t) := rfl
  have hother {key : String} (hkey : ascii "secret" ≠ ascii key) (required : Bool) :
      getScalar (place.system s) key "system" required =
        getScalar (place.system v) key "system" required :=
    getScalar_system_of_ne s hkey "system" required
  rw [parseSystem, hmap] at hv ⊢
  simp only [bind_eq_ok_iff, Except.ok.injEq, exists_eq_left'] at hv
  obtain ⟨name, hname, mode, hmode, _, hmulti, speed, hspeed, _, hten, poll, hpoll, ms, hms,
    socket, hsocket, secret, hsecret, hsys⟩ := hv
  obtain rfl := Except.ok.inj hsys
  simp only [bind_eq_ok_iff, Except.ok.injEq, exists_eq_left']
  refine ⟨name, ?_, mode, ?_, (), hmulti, speed, ?_, (), hten, poll, ?_, ms, hms, socket, ?_,
    some (cString s), getScalar_system_secret h s false, rfl⟩
  · rw [hother (by decide), hname]
  · rw [hother (by decide), hmode]
  · rw [hother (by decide), hspeed]
  · rw [hother (by decide), hpoll]
  · rw [hother (by decide), hsocket]

variable {ρ : Type} {sections : PwSections → Except PwFailure ρ}

/-- **Another secret** in the configuration: everything else stays. -/
theorem parseRoot_secret (h : (place.root v).Keyed) {cfg : EnvConfig ρ}
    (hv : parseRoot sections (place.root v) = .ok cfg) (s : List Byte) :
    parseRoot sections (place.root s) =
      .ok { cfg with system := { cfg.system with secret := copyStr pwSecretMax (cString s) } } := by
  have hmap (t : List Byte) : reqMap (some (place.root t)) "" = .ok (place.root t) := rfl
  have hsystem (t : List Byte) :
      pwYamlMapGet (place.root t) (ascii "system") = some (place.system t) :=
    pwYamlMapGet_self _ (by decide) fun x hx => (keyed_root h t).ne_of_mem_before hx
  have hother {key : String} (hkey : cString (ascii "system") ≠ ascii key) :
      pwYamlMapGet (place.root s) (ascii key) = pwYamlMapGet (place.root v) (ascii key) :=
    pwYamlMapGet_congr _ _ hkey
  have hkeys : rejectUnknownKeys (place.root s) = rejectUnknownKeys (place.root v) := by
    rw [root, root, rejectUnknownKeys, rejectUnknownKeys, List.any_append, List.any_append,
      List.any_cons, List.any_cons]
  rw [parseRoot, hmap] at hv ⊢
  simp only [bind_eq_ok_iff, Except.ok.injEq, exists_eq_left', hsystem] at hv ⊢
  obtain ⟨_, hknown, sys, hsys, rest, hrest, hcfg⟩ := hv
  obtain rfl := Except.ok.inj hcfg
  refine ⟨(), ?_, _, parseSystem_secret h hsys s, rest, ?_, rfl⟩
  · rw [hkeys, hknown]
  · rw [hother (by decide), hother (by decide), hother (by decide), hother (by decide), hrest]

/-- The secret of the configuration. -/
theorem secret_of_parseRoot (h : (place.root v).Keyed) {cfg : EnvConfig ρ}
    (hv : parseRoot sections (place.root v) = .ok cfg) :
    cfg.system.secret = copyStr pwSecretMax (cString v) := by
  have hsame := parseRoot_secret h hv v
  rw [hv] at hsame
  exact congrArg (fun c => c.system.secret) (Except.ok.inj hsame)

end SecretPlace

end PacketWyrm
