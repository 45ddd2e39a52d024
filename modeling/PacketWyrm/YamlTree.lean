import Mathlib.Data.List.TakeWhile
import PacketWyrm.Types

/-!
# The tree of a configuration

`yaml.c` builds a tree from the events of the YAML library, in recursive descent.  A key may
stand only once in its mapping; aliases and further documents are refused.

## Main definitions

* `YamlEvent`, `PwYamlNode` — events and trees.
* `buildNode`, `buildSequence`, `buildMapping` — the descent.
* `pwYamlParse` — the tree of a document.
* `PwYamlNode.events`, `streamOf` — the events of a tree.

## Main results

* `buildNode_events` — the descent inverts the events of a tree.
* `pwYamlParse_streamOf` — and so does the parser.
-/

namespace PacketWyrm

/-! ## Events and trees -/

/-- `yaml_event_t`, as far as it is looked at. -/
inductive YamlEvent where
  | streamStart
  | streamEnd
  | documentStart
  | documentEnd
  | alias
  | scalar (value : List Byte)
  | sequenceStart
  | sequenceEnd
  | mappingStart
  | mappingEnd

/-- `pw_yaml_node`. -/
inductive PwYamlNode where
  | scalar (value : List Byte)
  | map (items : List (List Byte × PwYamlNode))
  | seq (items : List PwYamlNode)

/-- What string functions see of some bytes: all up to the first null character. -/
def cString (l : List Byte) : List Byte := l.takeWhile (· != 0)

theorem cString_of_notMem {l : List Byte} (h : 0 ∉ l) : cString l = l := by
  rw [cString, List.takeWhile_eq_self_iff]
  intro b hb
  rw [bne_iff_ne]
  rintro rfl
  exact h hb

/-- `pw_yaml_map_get`. -/
def pwYamlMapGet (m : PwYamlNode) (key : List Byte) : Option PwYamlNode :=
  match m with
  | .map items => (items.find? fun x => cString x.1 == key).map Prod.snd
  | _ => none

/-! ## The descent -/

mutual

/-- `build_node`; `fuel` bounds the descent. -/
def buildNode : ℕ → List YamlEvent → Option (PwYamlNode × List YamlEvent)
  | 0, _ => none
  | _ + 1, .scalar v :: r => some (.scalar v, r)
  | fuel + 1, .sequenceStart :: r =>
    (buildSequence fuel r).map fun (items, r) => (.seq items, r)
  | fuel + 1, .mappingStart :: r =>
    (buildMapping fuel [] r).map fun (items, r) => (.map items, r)
  | _ + 1, _ => none

/-- `build_sequence`, behind its first event. -/
def buildSequence : ℕ → List YamlEvent → Option (List PwYamlNode × List YamlEvent)
  | 0, _ => none
  | _ + 1, .sequenceEnd :: r => some ([], r)
  | fuel + 1, r => do
    let (child, r) ← buildNode fuel r
    let (rest, r) ← buildSequence fuel r
    pure (child :: rest, r)

/-- `build_mapping`, behind its first event, when the mapping has `keys` already. -/
def buildMapping : ℕ → List (List Byte) → List YamlEvent →
    Option (List (List Byte × PwYamlNode) × List YamlEvent)
  | 0, _, _ => none
  | _ + 1, _, .mappingEnd :: r => some ([], r)
  | fuel + 1, keys, .scalar k :: r =>
    if cString k ∈ keys then none
    else do
      let (v, r) ← buildNode fuel r
      let (rest, r) ← buildMapping fuel (cString k :: keys) r
      pure ((k, v) :: rest, r)
  | _ + 1, _, _ => none

end

/-- The event loop of `pw_yaml_parse`; an error of the library ends the events. -/
def parseLoop : ℕ → Bool → Bool → ℕ → Option PwYamlNode → List YamlEvent → Option PwYamlNode
  | 0, _, _, _, _, _ => none
  | _ + 1, _, _, _, _, [] => none
  | fuel + 1, seenStream, seenDoc, nDocs, root, ev :: r =>
    match ev with
    | .streamStart => parseLoop fuel true seenDoc nDocs root r
    | .documentStart =>
      if 1 < nDocs + 1 then none else parseLoop fuel seenStream true (nDocs + 1) root r
    | .documentEnd => parseLoop fuel seenStream seenDoc nDocs root r
    -- An empty document is an empty mapping.
    | .streamEnd => some (root.getD (.map []))
    | _ =>
      if seenStream = false ∨ seenDoc = false then none
      else if root.isSome then none
      else (buildNode fuel (ev :: r)).bind fun (n, r) =>
        parseLoop fuel seenStream seenDoc nDocs (some n) r

/-- `pw_yaml_parse`, from the events of the library on. -/
def pwYamlParse (evs : List YamlEvent) : Option PwYamlNode :=
  parseLoop (2 * evs.length + 1) false false 0 none evs

/-! ## The events of a tree -/

mutual

/-- The events of a tree. -/
def PwYamlNode.events : PwYamlNode → List YamlEvent
  | .scalar v => [.scalar v]
  | .seq items => .sequenceStart :: (childEvents items ++ [.sequenceEnd])
  | .map items => .mappingStart :: (pairEvents items ++ [.mappingEnd])

/-- The events of the children of a sequence. -/
def childEvents : List PwYamlNode → List YamlEvent
  | [] => []
  | n :: rest => n.events ++ childEvents rest

/-- The events of the pairs of a mapping. -/
def pairEvents : List (List Byte × PwYamlNode) → List YamlEvent
  | [] => []
  | (k, v) :: rest => .scalar k :: (v.events ++ pairEvents rest)

end

mutual

/-- No mapping has a key twice. -/
def PwYamlNode.Keyed : PwYamlNode → Prop
  | .scalar _ => True
  | .seq items => ChildrenKeyed items
  | .map items => (items.map fun x => cString x.1).Nodup ∧ PairsKeyed items

/-- No mapping in the children of a sequence has a key twice. -/
def ChildrenKeyed : List PwYamlNode → Prop
  | [] => True
  | n :: rest => n.Keyed ∧ ChildrenKeyed rest

/-- No mapping in the values of a mapping has a key twice. -/
def PairsKeyed : List (List Byte × PwYamlNode) → Prop
  | [] => True
  | (_, v) :: rest => v.Keyed ∧ PairsKeyed rest

end

/-- The events of a document with one tree. -/
def streamOf (t : PwYamlNode) : List YamlEvent :=
  .streamStart :: .documentStart :: (t.events ++ [.documentEnd, .streamEnd])

theorem PwYamlNode.events_length_pos (t : PwYamlNode) : 0 < t.events.length := by
  cases t <;> simp [events]

/-- A child does not begin with the end of the sequence. -/
theorem PwYamlNode.events_append_ne (t : PwYamlNode) (r r' : List YamlEvent) :
    t.events ++ r ≠ .sequenceEnd :: r' := by
  cases t <;> simp [events]

mutual

/-- **The descent inverts the events of a tree.** -/
theorem buildNode_events (t : PwYamlNode) (ht : t.Keyed) (fuel : ℕ)
    (hfuel : 2 * t.events.length ≤ fuel) (r : List YamlEvent) :
    buildNode fuel (t.events ++ r) = some (t, r) := by
  obtain ⟨fuel, rfl⟩ : ∃ k, fuel = k + 1 := ⟨fuel - 1, by have := t.events_length_pos; omega⟩
  cases t with
  | scalar v => rfl
  | seq items =>
    simp only [PwYamlNode.events, List.length_cons, List.length_append, List.length_nil] at hfuel
    rw [PwYamlNode.events, List.cons_append, List.append_assoc, buildNode,
      buildSequence_events items ht fuel (by omega)]
    rfl
  | map items =>
    simp only [PwYamlNode.events, List.length_cons, List.length_append, List.length_nil] at hfuel
    rw [PwYamlNode.events, List.cons_append, List.append_assoc, buildNode,
      buildMapping_events items ht.2 [] ht.1 (fun _ _ => List.not_mem_nil) fuel (by omega)]
    rfl

theorem buildSequence_events (items : List PwYamlNode) (hitems : ChildrenKeyed items) (fuel : ℕ)
    (hfuel : 2 * (childEvents items).length + 1 ≤ fuel) (r : List YamlEvent) :
    buildSequence fuel (childEvents items ++ ([.sequenceEnd] ++ r)) = some (items, r) := by
  obtain ⟨fuel, rfl⟩ : ∃ k, fuel = k + 1 := ⟨fuel - 1, by omega⟩
  cases items with
  | nil => rfl
  | cons t rest =>
    have hpos := t.events_length_pos
    rw [childEvents, List.length_append] at hfuel
    rw [childEvents, List.append_assoc, buildSequence,
      buildNode_events t hitems.1 fuel (by omega)]
    · dsimp only [Option.bind_eq_bind, Option.bind_some]
      rw [buildSequence_events rest hitems.2 fuel (by omega)]
      rfl
    · exact fun r' => t.events_append_ne _ r'

theorem buildMapping_events (items : List (List Byte × PwYamlNode)) (hitems : PairsKeyed items)
    (keys : List (List Byte)) (hnodup : (items.map fun x => cString x.1).Nodup)
    (hkeys : ∀ x ∈ items, cString x.1 ∉ keys) (fuel : ℕ)
    (hfuel : 2 * (pairEvents items).length + 1 ≤ fuel) (r : List YamlEvent) :
    buildMapping fuel keys (pairEvents items ++ ([.mappingEnd] ++ r)) = some (items, r) := by
  obtain ⟨fuel, rfl⟩ : ∃ k, fuel = k + 1 := ⟨fuel - 1, by omega⟩
  cases items with
  | nil => rfl
  | cons x rest =>
    obtain ⟨k, v⟩ := x
    have hpos := v.events_length_pos
    rw [pairEvents, List.length_cons, List.length_append] at hfuel
    rw [List.map_cons, List.nodup_cons] at hnodup
    rw [pairEvents, List.cons_append, List.append_assoc, buildMapping,
      if_neg (hkeys (k, v) List.mem_cons_self), buildNode_events v hitems.1 fuel (by omega)]
    dsimp only [Option.bind_eq_bind, Option.bind_some]
    rw [buildMapping_events rest hitems.2 (cString k :: keys) hnodup.2 ?_ fuel (by omega)]
    · rfl
    · intro y hy hmem
      rcases List.mem_cons.mp hmem with heq | hmem
      · exact hnodup.1 (List.mem_map.mpr ⟨y, hy, heq⟩)
      · exact hkeys y (List.mem_cons_of_mem _ hy) hmem

end

/-- **The parser inverts the events of a document.** -/
theorem pwYamlParse_streamOf {t : PwYamlNode} (ht : t.Keyed) :
    pwYamlParse (streamOf t) = some t := by
  have hlen : (streamOf t).length = t.events.length + 4 := by
    simp only [streamOf, List.length_append, List.length_cons, List.length_nil]
  rw [pwYamlParse, hlen, streamOf,
    show 2 * (t.events.length + 4) + 1 = 2 * t.events.length + 9 by omega, parseLoop, parseLoop,
    if_neg (by decide)]
  have hbuild := buildNode_events t ht (2 * t.events.length + 6) (by omega)
    [.documentEnd, .streamEnd]
  cases t with
  | scalar v => rfl
  | seq items =>
    rw [PwYamlNode.events, List.cons_append] at hbuild ⊢
    rw [parseLoop, hbuild]
    · rfl
    all_goals exact nofun
  | map items =>
    rw [PwYamlNode.events, List.cons_append] at hbuild ⊢
    rw [parseLoop, hbuild]
    · rfl
    all_goals exact nofun

/-! ## Lookups -/

section Lookup

variable {before after : List (List Byte × PwYamlNode)} {k key : List Byte}

/-- The value of a key that stands in a mapping. -/
theorem pwYamlMapGet_self (v : PwYamlNode) (hkey : cString k = key)
    (hbefore : ∀ x ∈ before, cString x.1 ≠ key) :
    pwYamlMapGet (.map (before ++ (k, v) :: after)) key = some v := by
  have hnone : before.find? (fun x => cString x.1 == key) = none := by
    rw [List.find?_eq_none]
    intro x hx
    simpa using hbefore x hx
  rw [pwYamlMapGet, List.find?_append, hnone, List.find?_cons_of_pos (by simpa using hkey)]
  rfl

/-- The value of another key. -/
theorem pwYamlMapGet_congr (v v' : PwYamlNode) (hkey : cString k ≠ key) :
    pwYamlMapGet (.map (before ++ (k, v) :: after)) key =
      pwYamlMapGet (.map (before ++ (k, v') :: after)) key := by
  rw [pwYamlMapGet, pwYamlMapGet, List.find?_append, List.find?_append,
    List.find?_cons_of_neg (by simpa using hkey), List.find?_cons_of_neg (by simpa using hkey)]

theorem pairsKeyed_append {items rest : List (List Byte × PwYamlNode)} :
    PairsKeyed (items ++ rest) ↔ PairsKeyed items ∧ PairsKeyed rest := by
  induction items with
  | nil => simp [PairsKeyed]
  | cons x items ih =>
    obtain ⟨k, v⟩ := x
    rw [List.cons_append, PairsKeyed, PairsKeyed, ih, and_assoc]

/-- A value may be replaced by another one. -/
theorem PwYamlNode.Keyed.replace {v : PwYamlNode}
    (h : (PwYamlNode.map (before ++ (k, v) :: after)).Keyed) {v' : PwYamlNode} (hv : v'.Keyed) :
    (PwYamlNode.map (before ++ (k, v') :: after)).Keyed := by
  rw [Keyed, List.map_append, List.map_cons, pairsKeyed_append, PairsKeyed] at h ⊢
  exact ⟨h.1, h.2.1, hv, h.2.2.2⟩

/-- The keys before a key are others. -/
theorem PwYamlNode.Keyed.ne_of_mem_before {v : PwYamlNode}
    (h : (PwYamlNode.map (before ++ (k, v) :: after)).Keyed) {x : List Byte × PwYamlNode}
    (hx : x ∈ before) : cString x.1 ≠ cString k := by
  rw [Keyed, List.map_append, List.map_cons, List.nodup_append] at h
  exact h.1.2.2 _ (List.mem_map_of_mem hx) _ List.mem_cons_self

end Lookup

end PacketWyrm
