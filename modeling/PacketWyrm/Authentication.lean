import PacketWyrm.EnvConfig
import PacketWyrm.ReadRequest
import PacketWyrm.Lib.Bits
import Mathlib.Data.LawfulXor.Basic
import Mathlib.Data.List.GetD

/-!
# The authentication of a request

Each request to the control socket carries the secret of the environment, and the request is served
or refused by a comparison that goes over the whole secret whatever it finds.  The value compared is
the text that json-c has for the member, whatever the type of the member is.

## Main definitions

* `Json`, `JsonC` — the values of a request, and what is taken from json-c.
* `compareSecret` — the comparison.
* `authenticate` — the step of `handle_client`, `none` where it reads through a null pointer.
* `Unmistakable` — the requests whose member `secret` is read as what it is.

## Main results

* `compareSecret_eq_zero_iff` — the comparison is an equality.
* `authentication_exact_iff` — on which requests the step is exact.
-/

namespace PacketWyrm

open Lib

/-! ## The values of a request -/

/-- A JSON value, as json-c has it.  A number with a fraction keeps its text. -/
inductive Json where
  | null
  | boolean (b : Bool)
  | int (v : ℤ)
  | double (text : List Byte)
  | string (s : List Byte)
  | array (items : List Json)
  | object (members : List (List Byte × Json))

/-- What is taken from json-c: the value of a text, and the text of a value that is no string. -/
structure JsonC where
  parse : List Byte → Option Json
  toText : Json → List Byte

namespace JsonC

variable (json : JsonC)

/-- `json_object_get_string`; a null value has none. -/
def getString : Json → Option (List Byte)
  | .null => none
  | .string s => some s
  | v => some (json.toText v)

/-- A value of a text is written with at most six bytes for each byte of the text, as `\u001f` is
for a control character. -/
def Compact : Prop :=
  ∀ buf members key v s, json.parse buf = some (.object members) → (key, v) ∈ members →
    json.getString v = some s → s.length ≤ 6 * buf.length

/-- An object that came as a request, in one frame. -/
def Received (members : List (List Byte × Json)) : Prop :=
  ∃ buf, buf.length ≤ pwIpcFrameMax ∧ json.parse buf = some (.object members)

end JsonC

/-- `json_object_object_get_ex`. -/
def getEx (members : List (List Byte × Json)) (key : String) : Option Json :=
  members.lookup (ascii key)

/-! ## The comparison -/

/-- A character in an expression: an `int`, with the sign that `char` has. -/
def promoted (b : Byte) : BitVec 32 := b.signExtend 32

theorem promoted_xor_eq_zero_iff {a b : Byte} : promoted a ^^^ promoted b = 0 ↔ a = b := by
  constructor
  · intro h
    have hab : promoted a = promoted b := BitVec.xor_eq_zero_iff.mp h
    have hback : ∀ c : Byte, (promoted c).setWidth 8 = c := by
      intro c
      apply BitVec.eq_of_getLsbD_eq
      intro i hi
      simp [promoted, BitVec.getElem_signExtend, hi, show i < 32 by omega]
    rw [← hback a, ← hback b, hab]
  · rintro rfl
    exact BitVec.xor_self

/-- `diff`, after the loop. -/
def compareSecret (want got : List Byte) : BitVec 32 :=
  let wl := min want.length pwSecretMax
  let gl := got.length
  (List.range wl).foldl
    (fun diff i =>
      diff ||| (promoted (want.getD i 0) ^^^ if i < gl then promoted (got.getD i 0) else 0))
    (BitVec.ofNat 32 (wl ^^^ gl))

/-- The lengths are compared in 32 bits. -/
theorem lengths_eq_zero_iff {m n : ℕ} (hm : m < 2 ^ 32) (hn : n < 2 ^ 32) :
    BitVec.ofNat 32 (m ^^^ n) = 0 ↔ m = n := by
  rw [← BitVec.toNat_inj, BitVec.toNat_ofNat, Nat.mod_eq_of_lt (Nat.xor_lt_two_pow hm hn)]
  exact xor_eq_zero_iff

/-- **The comparison is an equality.** -/
theorem compareSecret_eq_zero_iff {want got : List Byte} (hwant : want.length ≤ pwSecretMax)
    (hgot : got.length < 2 ^ 32) : compareSecret want got = 0 ↔ got = want := by
  have hlen : want.length < 2 ^ 32 := lt_of_le_of_lt hwant (by decide)
  rw [compareSecret, foldl_or_eq_zero_iff, min_eq_left hwant, lengths_eq_zero_iff hlen hgot]
  constructor
  · rintro ⟨hl, hall⟩
    apply List.ext_getElem hl.symm
    intro i hi hi'
    have h := hall i (List.mem_range.mpr hi')
    rw [if_pos hi, promoted_xor_eq_zero_iff, List.getD_eq_getElem _ _ hi,
      List.getD_eq_getElem _ _ hi'] at h
    exact h.symm
  · rintro rfl
    refine ⟨rfl, ?_⟩
    intro i hi
    rw [if_pos (List.mem_range.mp hi)]
    exact BitVec.xor_self

/-! ## The step -/

/-- The authentication step of `handle_client`: whether the request is served.  A member that is
null has no string, and `strlen` is called on it. -/
def authenticate (json : JsonC) (system : PwSystem) (req : List (List Byte × Json)) :
    Option Bool :=
  let want := system.secret
  if want = [] then some true
  else
    let got := match getEx req "secret" with
      | some js => json.getString js
      | none => some []
    got.map fun s => compareSecret want (cString s) == 0

/-- The step is exact: it reads what it may, and a request is served when its secret is a string
with the bytes of the secret. -/
def AuthExact (json : JsonC) (system : PwSystem) (req : List (List Byte × Json)) : Prop :=
  ∃ served, authenticate json system req = some served ∧
    (served = true ↔ getEx req "secret" = some (.string system.secret))

/-- The requests whose member `secret` is read as what it is: it is missing, or a string that does
not go on with a zero behind the secret, or a value whose text is another one. -/
def Unmistakable (json : JsonC) (system : PwSystem) (req : List (List Byte × Json)) : Prop :=
  match getEx req "secret" with
  | none => True
  | some .null => False
  | some (.string s) => ¬(system.secret ++ [0]) <+: s
  | some v => cString (json.toText v) ≠ system.secret

/-! ## The secret of a configuration -/

theorem zero_notMem_cString (s : List Byte) : 0 ∉ cString s := by
  intro h
  have := List.mem_takeWhile_imp h
  simp at this

theorem length_cString_le (s : List Byte) : (cString s).length ≤ s.length :=
  (List.takeWhile_prefix _).length_le

/-- What a scalar of the configuration is read as ends before a zero. -/
theorem zero_notMem_getScalar {m : PwYamlNode} {key pathPrefix : String} {required : Bool}
    {s : List Byte} (h : getScalar m key pathPrefix required = .ok (some s)) : 0 ∉ s := by
  rw [getScalar] at h
  split at h
  · split at h
    · cases h
    · cases h
  · cases h
    exact zero_notMem_cString _
  · cases h

/-- The secret of a configuration fits its buffer, and has no zero in it. -/
theorem secret_of_parseSystem {node : Option PwYamlNode} {system : PwSystem}
    (h : parseSystem node = .ok system) :
    0 ∉ system.secret ∧ system.secret.length < pwSecretMax := by
  rw [parseSystem] at h
  simp only [bind_eq_ok_iff] at h
  obtain ⟨m, _, name, _, mode, _, _, _, speed, _, _, _, poll, _, ms, _, socket, _, secret, hsecret,
    hsys⟩ := h
  cases hsys
  constructor
  · intro hmem
    have hmem := List.mem_of_mem_take hmem
    cases secret with
    | none => cases hmem
    | some s => exact zero_notMem_getScalar hsecret hmem
  · exact lt_of_le_of_lt (List.length_take_le _ _) (by decide)

/-- The string up to its first zero is the secret: it is the secret, or it goes on with a zero. -/
theorem cString_eq_iff {secret s : List Byte} (h : 0 ∉ secret) :
    cString s = secret ↔ s = secret ∨ (secret ++ [0]) <+: s := by
  constructor
  · rintro rfl
    have hs : cString s ++ s.dropWhile (· != 0) = s := List.takeWhile_append_dropWhile
    cases hrest : s.dropWhile (· != 0) with
    | nil =>
      rw [hrest, List.append_nil] at hs
      exact .inl hs.symm
    | cons b rest =>
      have hb : b = 0 := by
        have hnot := List.head?_dropWhile_not (· != 0) s
        rw [hrest] at hnot
        simpa using hnot
      refine .inr ⟨rest, ?_⟩
      rw [List.append_assoc, List.singleton_append, ← hb, ← hrest, hs]
  · rintro (rfl | ⟨rest, rfl⟩)
    · exact cString_of_notMem h
    · rw [cString, List.append_assoc, List.takeWhile_append_of_pos]
      · simp
      · intro b hb
        rw [bne_iff_ne]
        rintro rfl
        exact h hb

/-! ## When the step is exact -/

variable {json : JsonC} {system : PwSystem} {req : List (List Byte × Json)}

/-- In a request from one frame, the texts are shorter than `unsigned` can count. -/
theorem length_getString_lt (hjson : json.Compact) (hreq : json.Received req) {v : Json}
    {s : List Byte} (hv : getEx req "secret" = some v) (hs : json.getString v = some s) :
    (cString s).length < 2 ^ 32 := by
  obtain ⟨buf, hbuf, hparse⟩ := hreq
  have hmem := List.lookup_eq_some_iff.mp hv
  obtain ⟨before, after, hmem, -⟩ := hmem
  have hle := hjson buf req (ascii "secret") v s hparse (by rw [hmem]; simp) hs
  have hframe : 6 * buf.length ≤ 6 * 65536 := Nat.mul_le_mul_left 6 hbuf
  have := length_cString_le s
  omega

/-- A member with a text is served when the text up to its first zero is the secret. -/
theorem authenticate_of_text (hnul : system.secret.length < pwSecretMax)
    (hsecret : system.secret ≠ []) (hjson : json.Compact) (hreq : json.Received req) {v : Json}
    {s : List Byte} (hv : getEx req "secret" = some v) (hs : json.getString v = some s) :
    authenticate json system req = some (decide (cString s = system.secret)) := by
  have hcmp := compareSecret_eq_zero_iff hnul.le (length_getString_lt hjson hreq hv hs)
  rw [authenticate, if_neg hsecret]
  simp only [hv, hs, Option.map_some, Option.some.injEq]
  rw [Bool.eq_iff_iff, beq_iff_eq, decide_eq_true_eq]
  exact hcmp

/-- A request without the member is refused, as it should be. -/
theorem authExact_of_missing (hnul : system.secret.length < pwSecretMax)
    (hsecret : system.secret ≠ []) (hv : getEx req "secret" = none) :
    AuthExact json system req := by
  have hne : compareSecret system.secret [] ≠ 0 := by
    intro h
    exact hsecret ((compareSecret_eq_zero_iff hnul.le (by decide)).mp h).symm
  refine ⟨false, ?_, by simp [hv]⟩
  rw [authenticate, if_neg hsecret]
  simp only [hv, Option.map_some, Option.some.injEq]
  exact beq_eq_false_iff_ne.mpr hne

/-- A null member is read through a null pointer. -/
theorem authenticate_null (hsecret : system.secret ≠ []) (hv : getEx req "secret" = some .null) :
    authenticate json system req = none := by
  rw [authenticate, if_neg hsecret]
  simp only [hv]
  rfl

/-- A string is taken for the secret when it is, or goes on with a zero behind it. -/
theorem authExact_string_iff (hnul : 0 ∉ system.secret) {s : List Byte}
    (hv : getEx req "secret" = some (.string s))
    (hserved : authenticate json system req = some (decide (cString s = system.secret))) :
    AuthExact json system req ↔ ¬(system.secret ++ [0]) <+: s := by
  have hlong : (system.secret ++ [0]) <+: s → s ≠ system.secret := by
    rintro h rfl
    have := h.length_le
    rw [List.length_append, List.length_singleton] at this
    omega
  rw [AuthExact, hserved, hv]
  simp only [Option.some.injEq, exists_eq_left', decide_eq_true_eq, Json.string.injEq]
  rw [cString_eq_iff hnul]
  tauto

/-- Another value is taken for the secret when its text is the secret. -/
theorem authExact_other_iff {v : Json} {s : List Byte} (hv : getEx req "secret" = some v)
    (hother : ∀ t, v ≠ .string t)
    (hserved : authenticate json system req = some (decide (cString s = system.secret))) :
    AuthExact json system req ↔ cString s ≠ system.secret := by
  have hno : v ≠ .string system.secret := hother system.secret
  rw [AuthExact, hserved, hv]
  simp only [Option.some.injEq, exists_eq_left', decide_eq_true_eq]
  tauto

/-- **The step is exact on the requests that are read as what they are**, and on no other: a null
member is read through a null pointer, a string may go on behind a zero, and the text of a number or
of another value is accepted as well. -/
theorem authentication_exact_iff {node : Option PwYamlNode} (hnode : parseSystem node = .ok system)
    (hsecret : system.secret ≠ []) (hjson : json.Compact) (hreq : json.Received req) :
    AuthExact json system req ↔ Unmistakable json system req := by
  obtain ⟨hnul, hlen⟩ := secret_of_parseSystem hnode
  have htext {v : Json} {s : List Byte} (hv : getEx req "secret" = some v)
      (hs : json.getString v = some s) :
      authenticate json system req = some (decide (cString s = system.secret)) :=
    authenticate_of_text hlen hsecret hjson hreq hv hs
  rw [Unmistakable]
  cases hv : getEx req "secret" with
  | none => exact iff_of_true (authExact_of_missing hlen hsecret hv) trivial
  | some v =>
    cases v with
    | null =>
      refine iff_of_false ?_ id
      rintro ⟨served, hserved, -⟩
      rw [authenticate_null hsecret hv] at hserved
      cases hserved
    | string s => exact authExact_string_iff hnul hv (htext hv rfl)
    | boolean b => exact authExact_other_iff hv nofun (htext hv rfl)
    | int n => exact authExact_other_iff hv nofun (htext hv rfl)
    | double t => exact authExact_other_iff hv nofun (htext hv rfl)
    | array items => exact authExact_other_iff hv nofun (htext hv rfl)
    | object members => exact authExact_other_iff hv nofun (htext hv rfl)

/-! ## Requests of one member -/

/-- Members of a request: the texts, and the values. -/
def sampleMembers : List (String × Json) :=
  [("null", .null), ("123", .int 123), ("\"123\"", .string (ascii "123")),
    ("\"123\\u0000x\"", .string (ascii "123" ++ [0] ++ ascii "x"))]

/-- The request with one of them. -/
def sampleFrame (text : String) : List Byte :=
  ascii "\x7b\"secret\":" ++ ascii text ++ ascii "\x7d"

/-- json-c on these requests. -/
def sampleJson : JsonC where
  parse buf :=
    (sampleMembers.find? fun m => sampleFrame m.1 == buf).map fun m =>
      .object [(ascii "secret", m.2)]
  toText
    | .int v => ascii (toString v)
    | _ => []

theorem sampleJson_compact : sampleJson.Compact := by
  intro buf members key v s hparse hmem hs
  obtain ⟨m, hfind, hm⟩ := Option.map_eq_some_iff.mp hparse
  cases hm
  have hbuf : sampleFrame m.1 = buf := by simpa using List.find?_some hfind
  have hle : ∀ m ∈ sampleMembers, ∀ s, sampleJson.getString m.2 = some s →
      s.length ≤ 6 * (sampleFrame m.1).length := by
    intro m hm s hs
    simp only [sampleMembers, List.mem_cons, List.not_mem_nil, or_false] at hm
    rcases hm with rfl | rfl | rfl | rfl
    · cases hs
    all_goals cases hs; decide
  rw [List.mem_singleton, Prod.mk.injEq] at hmem
  rw [← hbuf]
  rw [hmem.2] at hs
  exact hle m (List.mem_of_find?_eq_some hfind) s hs

/-- A section `system` with the secret `123`. -/
def sampleSystemNode : PwYamlNode :=
  .map [(ascii "name", .scalar (ascii "pw")), (ascii "mode", .scalar (ascii "multi-card")),
    (ascii "default_speed", .scalar (ascii "10g")), (ascii "secret", .scalar (ascii "123"))]

def sampleSystem : PwSystem where
  name := ascii "pw"
  mode := ascii "multi-card"
  defaultSpeed := ascii "10g"
  statsPollIntervalMs := 100
  controlSocket := ascii "/run/packetwyrm/packetwyrmd.sock"
  secret := ascii "123"

theorem sampleSystem_parse : parseSystem (some sampleSystemNode) = .ok sampleSystem := by decide

/-- The exact case, for the secret in its place. -/
theorem authentication_sample :
    AuthExact sampleJson sampleSystem [(ascii "secret", .string (ascii "123"))] := by
  have hend : ¬(ascii "123" ++ [0]) <+: ascii "123" := by decide
  exact (authentication_exact_iff sampleSystem_parse (by decide) sampleJson_compact
    ⟨sampleFrame "\"123\"", by decide, rfl⟩).mpr hend

/-- **The requests that are mistaken**: a null is read through a null pointer, the number `123` and
a string that goes on behind a zero are served. -/
theorem mistaken_requests :
    parseSystem (some sampleSystemNode) = .ok sampleSystem ∧ sampleSystem.secret ≠ [] ∧
      sampleJson.Compact ∧
      (∀ m ∈ sampleMembers, sampleJson.Received [(ascii "secret", m.2)]) ∧
      ¬AuthExact sampleJson sampleSystem [(ascii "secret", .null)] ∧
      ¬AuthExact sampleJson sampleSystem [(ascii "secret", .int 123)] ∧
      ¬AuthExact sampleJson sampleSystem
        [(ascii "secret", .string (ascii "123" ++ [0] ++ ascii "x"))] := by
  have hnull : authenticate sampleJson sampleSystem [(ascii "secret", .null)] = none := by decide
  have hint : authenticate sampleJson sampleSystem [(ascii "secret", .int 123)] = some true := by
    decide
  have hzero : authenticate sampleJson sampleSystem
      [(ascii "secret", .string (ascii "123" ++ [0] ++ ascii "x"))] = some true := by decide
  refine ⟨sampleSystem_parse, by decide, sampleJson_compact, ?_, ?_, ?_, ?_⟩
  · intro m hm
    refine ⟨sampleFrame m.1, ?_, ?_⟩
    · simp only [sampleMembers, List.mem_cons, List.not_mem_nil, or_false] at hm
      rcases hm with rfl | rfl | rfl | rfl <;> decide
    · simp only [sampleMembers, List.mem_cons, List.not_mem_nil, or_false] at hm
      rcases hm with rfl | rfl | rfl | rfl <;> rfl
  · rintro ⟨served, hserved, -⟩
    rw [hnull] at hserved
    cases hserved
  · rintro ⟨served, hserved, hiff⟩
    rw [hint] at hserved
    cases hserved
    cases hiff.mp rfl
  · rintro ⟨served, hserved, hiff⟩
    rw [hzero] at hserved
    cases hserved
    exact absurd (hiff.mp rfl) (by simp [getEx, sampleSystem, ascii])

end PacketWyrm
