import PacketWyrm.ConfigLoad
import PacketWyrm.SecretLines

/-!
# Saving the environment configuration

`config.get_raw` returns the text of the environment file with the secret blanked out, and
`config.save` puts the running secret back when the text that it is given has the placeholder.

## Main definitions

* `doConfigSave` — the request.
* `RoundTrips` — the text that was returned, saved as it is, changes nothing.
* `SecretRead` — a file whose secret stands where the scan looks for it.
* `SaveKeeps` — the condition under which nothing changes.

## Main results

* `SecretRead.roundTrips_iff` — when a secret that is put back is the same.
* `redacted_save_iff` — when saving the returned text changes nothing.
* `newline_secret_lost` — a secret that is lost.
-/

namespace PacketWyrm

open Lib

/-! ## The request -/

/-- What can go wrong with the temporary file. -/
structure SaveFaults where
  pathTooLong : Bool
  temp : Bool
  mode : Bool
  write : Bool

/-- Why a save is refused. -/
inductive SaveError where
  | missingYaml
  | parse (f : PwFailure)
  | validate (f : PwFailure)
  | redacted
  | pathTooLong
  | temp
  | mode
  | write

/-- The text of the reply. -/
def SaveError.text : SaveError → String
  | missingYaml => "missing yaml"
  | parse f => f.text "parse"
  | validate f => f.text "validate"
  | redacted => "refusing to save the redacted secret placeholder \"***\"; " ++
      "set a real secret or restore it first"
  | pathTooLong => "env path too long"
  | temp => "cannot create temp env config"
  | mode => "cannot set env config mode"
  | write => "write failed"

/-- The reply to a save. -/
structure SaveReply where
  restartRequired : Bool
  topologyChange : Bool

/-- The parts of the daemon that a save uses: the YAML library, the walk of the other sections,
what validation and the comparison of topologies see of these, and the text that was loaded. -/
structure SaveEnv (ρ : Type) where
  yaml : YamlLibrary
  sections : PwSections → Except PwFailure ρ
  view : ρ → PwConfig
  loadedYaml : Option (List Byte)

section Save

variable {ρ : Type} (env : SaveEnv ρ)

/-- The configuration of a text. -/
def SaveEnv.parse (text : List Byte) : Except PwFailure (EnvConfig ρ) :=
  pwConfigParseString env.sections env.yaml text

/-- The text with the running secret put back, when the new one is the placeholder. -/
def restoreSecret (running newc : EnvConfig ρ) (yaml : List Byte) : Except SaveError (List Byte) :=
  if newc.system.secret = pwSecretRedacted then
    let rewritten := yamlRewriteSecret yaml running.system.secret
    match env.parse rewritten with
    | .ok chk => if chk.system.secret = pwSecretRedacted then .error .redacted else .ok rewritten
    | .error _ => .error .redacted
  else .ok yaml

/-- The text that is to be written, and whether the topology changes. -/
def saveText (running : EnvConfig ρ) (yaml : List Byte) : Except SaveError (List Byte × Bool) := do
  let newc ← (env.parse yaml).mapError .parse
  (pwConfigValidate (env.view newc.rest)).mapError .validate
  let topologyChange := !sameTopology (env.view running.rest) (env.view newc.rest)
  let out ← restoreSecret env running newc yaml
  pure (out, topologyChange)

/-- The first thing that goes wrong with the temporary file. -/
def SaveFaults.error (faults : SaveFaults) : Option SaveError :=
  if faults.pathTooLong then some .pathTooLong
  else if faults.temp then some .temp
  else if faults.mode then some .mode
  else if faults.write then some .write
  else none

/-- `do_config_save`: the reply, and the file afterwards. -/
def doConfigSave (faults : SaveFaults) (running : EnvConfig ρ) (request : Option (List Byte))
    (file : List Byte) : Except SaveError SaveReply × List Byte :=
  match request with
  | none => (.error .missingYaml, file)
  | some yaml =>
    match saveText env running (cString yaml) with
    | .error e => (.error e, file)
    | .ok (out, topologyChange) =>
      match faults.error with
      | some e => (.error e, file)
      | none => (.ok { restartRequired := env.loadedYaml != some out, topologyChange }, out)

/-- A save that changes nothing: it is refused and the file is as before, or the file that is
written has the configuration of the old one. -/
def Unchanged (file : List Byte) : Except SaveError SaveReply × List Byte → Prop
  | (.error _, file') => file' = file
  | (.ok _, file') => env.parse file' = env.parse file

/-- The text of `config.get_raw`, saved as it is, changes nothing, whatever goes wrong. -/
structure RoundTrips (running : EnvConfig ρ) (file : List Byte) : Prop where
  unchanged : ∀ faults : SaveFaults, Unchanged env file
    (doConfigSave env faults running (some (buildConfigGetRaw running.system file).yaml) file)

end Save

/-! ## When nothing changes -/

/-- Nothing that is read looks like a secret line. -/
def NoSecretLine (file : List Byte) : Prop :=
  ∀ l ∈ textLines file, ∀ c ∈ lineReads l, secretLineIndent c = none

/-- **A file whose secret stands where the scan looks for it**: its secret lines, respelled with
any value in double quotes, are the entry of the section `system`, and the library reads such a
value by the rules of double-quoted scalars. -/
structure SecretRead (yaml : YamlLibrary) (file : List Byte) where
  place : SecretPlace
  value : List Byte
  keyed : (place.root value).Keyed
  long : LongLinesPlain file
  reads : yaml file = streamOf (place.root value)
  quoted : ∀ s out, quotedValue (escape s) = some out →
    yaml (respell file (escape s)) = streamOf (place.root out)
  unquoted : ∀ s, quotedValue (escape s) = none →
    pwYamlParse (yaml (respell file (escape s))) = none

section RoundTrip

variable {ρ : Type} {env : SaveEnv ρ} {file : List Byte} {cfg running : EnvConfig ρ}

/-- The text with the placeholder is not a valid configuration. -/
def RedactedInvalid (env : SaveEnv ρ) (file : List Byte) (sys : PwSystem) : Prop :=
  ∀ newc, env.parse (buildConfigGetRaw sys file).yaml = .ok newc →
    pwConfigValidate (env.view newc.rest) ≠ .ok ()

/-- When a save of the returned text changes nothing. -/
def SaveKeeps (env : SaveEnv ρ) (file : List Byte) (sys : PwSystem) : Prop :=
  NoSecretLine file ∨ RedactedInvalid env file sys ∨
    Nonempty (SecretRead env.yaml file) ∧ (Refused sys.secret ∨ Unfolded sys.secret)

theorem zero_notMem_getRaw (sys : PwSystem) (file : List Byte) :
    0 ∉ (buildConfigGetRaw sys file).yaml := by
  intro h
  obtain ⟨c, _, hc⟩ := List.mem_flatMap.mp h
  rw [redactLine] at hc
  split at hc
  · rw [secretLine] at hc
    simp only [List.mem_append] at hc
    rcases hc with (hc | hc | hc | hc) | hc
    · cases List.eq_of_mem_replicate hc
    all_goals exact absurd hc (by decide)
  · exact absurd (List.mem_takeWhile_imp hc) (by decide)

/-- A refused save. -/
theorem roundTrips_of_error {e : SaveError}
    (h : saveText env running (buildConfigGetRaw running.system file).yaml = .error e) :
    RoundTrips env running file := by
  refine ⟨fun faults => ?_⟩
  rw [doConfigSave, cString_of_notMem (zero_notMem_getRaw running.system file), h]
  rfl

/-- A save that goes through. -/
theorem roundTrips_iff_of_ok {out : List Byte} {t : Bool}
    (h : saveText env running (buildConfigGetRaw running.system file).yaml = .ok (out, t)) :
    RoundTrips env running file ↔ env.parse out = env.parse file := by
  have hsave (faults : SaveFaults) : doConfigSave env faults running
      (some (buildConfigGetRaw running.system file).yaml) file =
        match faults.error with
        | some e => (.error e, file)
        | none =>
          (.ok { restartRequired := env.loadedYaml != some out, topologyChange := t }, out) := by
    rw [doConfigSave, cString_of_notMem (zero_notMem_getRaw running.system file), h]
  constructor
  · intro hkeeps
    have hgood := hkeeps.unchanged ⟨false, false, false, false⟩
    rw [hsave] at hgood
    exact hgood
  · refine fun hout => ⟨fun faults => ?_⟩
    rw [hsave]
    cases faults.error with
    | some e => rfl
    | none => exact hout

/-- The text that is to be written: the one submitted, or the one with the secret put back when
it reads well. -/
theorem restoreSecret_eq_ok_iff {newc : EnvConfig ρ} {yaml out : List Byte} :
    restoreSecret env running newc yaml = .ok out ↔
      (newc.system.secret ≠ pwSecretRedacted ∧ yaml = out) ∨
        newc.system.secret = pwSecretRedacted ∧
          yamlRewriteSecret yaml running.system.secret = out ∧
            ∃ chk, env.parse out = .ok chk ∧ chk.system.secret ≠ pwSecretRedacted := by
  rw [restoreSecret]
  by_cases hred : newc.system.secret = pwSecretRedacted
  · rw [if_pos hred]
    simp only [hred, ne_eq, not_true_eq_false, false_and, false_or, true_and]
    constructor
    · intro h
      split at h
      · rename_i chk hchk
        split at h
        · cases h
        · obtain rfl := Except.ok.inj h
          exact ⟨rfl, chk, hchk, by assumption⟩
      · cases h
    · rintro ⟨rfl, chk, hchk, hne⟩
      rw [hchk]
      exact if_neg hne
  · rw [if_neg hred]
    simp [hred]

/-- What a save that is not refused writes. -/
theorem saveText_eq_ok_iff {yaml out : List Byte} {t : Bool} :
    saveText env running yaml = .ok (out, t) ↔
      ∃ newc, env.parse yaml = .ok newc ∧ pwConfigValidate (env.view newc.rest) = .ok () ∧
        restoreSecret env running newc yaml = .ok out ∧
        (!sameTopology (env.view running.rest) (env.view newc.rest)) = t := by
  simp only [saveText, bind_eq_ok_iff, mapError_eq_ok_iff]
  constructor
  · rintro ⟨newc, hparse, _, hvalid, out, hout, hpair⟩
    obtain ⟨rfl, rfl⟩ := Prod.mk.inj (Except.ok.inj hpair)
    exact ⟨newc, hparse, hvalid, hout, rfl⟩
  · rintro ⟨newc, hparse, hvalid, hout, rfl⟩
    exact ⟨newc, hparse, (), hvalid, out, hout, rfl⟩

/-! ### Files without a secret line -/

theorem NoSecretLine.getRaw (h : NoSecretLine file) (hnull : 0 ∉ file) (sys : PwSystem) :
    (buildConfigGetRaw sys file).yaml = file := by
  rw [buildConfigGetRaw_yaml hnull fun l hl _ => h l hl, respell]
  have hsame : ∀ l ∈ textLines file, respellLine pwSecretRedacted l = l := by
    intro l hl
    rw [respellLine]
    split
    · rename_i hlen
      rw [h l hl l]
      rw [lineReads_of_lt (ne_nil_of_mem_cutFrom hl) hlen]
      exact List.mem_singleton_self l
    · rfl
  rw [List.flatMap_def, List.map_congr_left hsame, List.map_id', flatten_textLines]

theorem NoSecretLine.rewrite (h : NoSecretLine file) (sec : List Byte) :
    yamlRewriteSecret file sec = file := by
  have hsame : ∀ l ∈ textLines file, rewriteLine (escLoop [] sec) l = l := by
    intro l hl
    rw [rewriteLine]
    split
    · rename_i hlen
      rw [h l hl l]
      rw [lineReads_of_lt (ne_nil_of_mem_cutFrom hl) hlen]
      exact List.mem_singleton_self l
    · rfl
  rw [yamlRewriteSecret, List.flatMap_def, List.map_congr_left hsame, List.map_id',
    flatten_textLines]

theorem NoSecretLine.roundTrips (h : NoSecretLine file) (hnull : 0 ∉ file) :
    RoundTrips env running file := by
  have hview := h.getRaw hnull running.system
  cases hsave : saveText env running (buildConfigGetRaw running.system file).yaml with
  | error e => exact roundTrips_of_error hsave
  | ok p =>
    obtain ⟨out, t⟩ := p
    rw [roundTrips_iff_of_ok hsave]
    obtain ⟨newc, _, _, hout, _⟩ := saveText_eq_ok_iff.mp hsave
    rw [hview, restoreSecret_eq_ok_iff, h.rewrite] at hout
    rcases hout with ⟨_, rfl⟩ | ⟨_, rfl, _⟩ <;> rfl

/-! ### Texts that are refused -/

theorem roundTrips_of_invalid (h : RedactedInvalid env file running.system) :
    RoundTrips env running file := by
  cases hsave : saveText env running (buildConfigGetRaw running.system file).yaml with
  | error e => exact roundTrips_of_error hsave
  | ok p =>
    obtain ⟨newc, hparse, hvalid, _⟩ := saveText_eq_ok_iff.mp hsave
    exact absurd hvalid (h newc hparse)

/-! ### Secrets that are put back -/

section Read

theorem SecretRead.root_eq (read : SecretRead env.yaml file) (hload : env.parse file = .ok cfg) :
    parseRoot env.sections (read.place.root read.value) = .ok cfg := by
  rw [SaveEnv.parse, pwConfigParseString, read.reads, pwYamlParse_streamOf read.keyed] at hload
  exact hload

/-- The configuration of the file respelled. -/
theorem SecretRead.parse_respell (read : SecretRead env.yaml file)
    (hload : env.parse file = .ok cfg) {s out : List Byte}
    (h : quotedValue (escape s) = some out) :
    env.parse (respell file (escape s)) =
      .ok { cfg with
        system := { cfg.system with secret := copyStr pwSecretMax (cString out) } } := by
  rw [SaveEnv.parse, pwConfigParseString, read.quoted s out h,
    pwYamlParse_streamOf (SecretPlace.keyed_root read.keyed out)]
  exact SecretPlace.parseRoot_secret read.keyed (read.root_eq hload) out

theorem SecretRead.length_secret (read : SecretRead env.yaml file)
    (hload : env.parse file = .ok cfg) : cfg.system.secret.length ≤ pwSecretMax - 1 := by
  rw [SecretPlace.secret_of_parseRoot read.keyed (read.root_eq hload), copyStr]
  exact List.length_take_le _ _

/-- The secret as it is read when it has been put back. -/
theorem copyStr_of_foldText {s out : List Byte} (h : foldText s = some out)
    (hlen : s.length ≤ pwSecretMax - 1) : copyStr pwSecretMax (cString out) = out := by
  rw [cString_of_notMem (zero_notMem_of_foldText h), copyStr]
  exact List.take_of_length_le ((length_le_of_foldText h).trans hlen)

/-- **A secret that is put back**: nothing changes just when the text with the placeholder is not
valid, the secret cannot be quoted, or its line breaks stay. -/
theorem SecretRead.roundTrips_iff (read : SecretRead env.yaml file) (hnull : 0 ∉ file)
    (hload : env.parse file = .ok cfg) (hrun : running.system.secret = cfg.system.secret) :
    RoundTrips env running file ↔ RedactedInvalid env file running.system ∨
      Refused running.system.secret ∨ Unfolded running.system.secret := by
  have hview := buildConfigGetRaw_yaml hnull read.long running.system
  have hnewc := read.parse_respell hload
    (show quotedValue (escape pwSecretRedacted) = some pwSecretRedacted by decide)
  rw [show escape pwSecretRedacted = pwSecretRedacted by decide, ← hview,
    show copyStr pwSecretMax (cString pwSecretRedacted) = pwSecretRedacted by decide] at hnewc
  have hlen : running.system.secret.length ≤ pwSecretMax - 1 := by
    rw [hrun]
    exact read.length_secret hload
  have hrewrite : yamlRewriteSecret (buildConfigGetRaw running.system file).yaml
      running.system.secret = respell file (escape running.system.secret) := by
    rw [hview, yamlRewriteSecret_respell file hlen]
  by_cases hinvalid : RedactedInvalid env file running.system
  · exact iff_of_true (roundTrips_of_invalid hinvalid) (.inl hinvalid)
  have hvalid : pwConfigValidate (env.view cfg.rest) = .ok () := by
    by_contra hne
    refine hinvalid fun c hc => ?_
    rw [hnewc] at hc
    obtain rfl := Except.ok.inj hc
    exact hne
  -- What the save writes is the file respelled, when that reads well.
  have hsave (out : List Byte) (t : Bool) :
      saveText env running (buildConfigGetRaw running.system file).yaml = .ok (out, t) →
        out = respell file (escape running.system.secret) ∧
          ∃ chk, env.parse out = .ok chk ∧ chk.system.secret ≠ pwSecretRedacted := by
    intro h
    obtain ⟨c, hc, _, hout, _⟩ := saveText_eq_ok_iff.mp h
    rw [hnewc] at hc
    obtain rfl := Except.ok.inj hc
    rw [restoreSecret_eq_ok_iff, hrewrite] at hout
    rcases hout with ⟨hne, _⟩ | ⟨_, rfl, hchk⟩
    · exact absurd rfl hne
    · exact ⟨rfl, hchk⟩
  cases hfold : foldText running.system.secret with
  | none =>
    refine iff_of_true ?_ (.inr (.inl (foldText_eq_none_iff.mp hfold)))
    cases h : saveText env running (buildConfigGetRaw running.system file).yaml with
    | error e => exact roundTrips_of_error h
    | ok p =>
      obtain ⟨hp, chk, hchk, _⟩ := hsave p.1 p.2 h
      rw [hp, SaveEnv.parse, pwConfigParseString,
        read.unquoted _ ((quotedValue_escape _).trans hfold)] at hchk
      cases hchk
  | some out =>
    have hparse := read.parse_respell hload ((quotedValue_escape _).trans hfold)
    rw [copyStr_of_foldText hfold hlen] at hparse
    have hunfolded := foldText_eq_iff hfold
    by_cases hred : out = pwSecretRedacted
    · have hsolid : out = running.system.secret := by
        refine eq_of_foldText_solid hfold ?_
        rw [hred]
        decide
      refine iff_of_true ?_ (.inr (.inr (hunfolded.mp hsolid)))
      cases h : saveText env running (buildConfigGetRaw running.system file).yaml with
      | error e => exact roundTrips_of_error h
      | ok p =>
        obtain ⟨hp, chk, hchk, hne⟩ := hsave p.1 p.2 h
        rw [hp, hparse] at hchk
        obtain rfl := Except.ok.inj hchk
        exact absurd hred hne
    · have hok : saveText env running (buildConfigGetRaw running.system file).yaml =
          .ok (respell file (escape running.system.secret),
            !sameTopology (env.view running.rest) (env.view cfg.rest)) :=
        saveText_eq_ok_iff.mpr ⟨_, hnewc, hvalid,
          restoreSecret_eq_ok_iff.mpr (.inr ⟨rfl, hrewrite, _, hparse, hred⟩), rfl⟩
      have hrefused : ¬Refused running.system.secret := fun h => by
        rw [foldText_eq_none_iff.mpr h] at hfold
        cases hfold
      have hright : RedactedInvalid env file running.system ∨ Refused running.system.secret ∨
          Unfolded running.system.secret ↔ out = running.system.secret := by
        rw [hunfolded]
        simp only [hinvalid, hrefused, false_or]
      rw [hright, roundTrips_iff_of_ok hok, hparse, hload, Except.ok.injEq, hrun]
      constructor
      · intro h
        exact congrArg (fun c => c.system.secret) h
      · intro h
        rw [h]

end Read

/-- **Saving the redacted text** changes nothing when the file has no secret line, when the text
is not valid, and when the secret stands where the scan looks for it and either cannot be quoted
or has only line breaks that stay; and in a file whose secret stands there, only then. -/
theorem redacted_save_iff (env : SaveEnv ρ) (file : List Byte) (cfg running : EnvConfig ρ)
    (hnull : ∀ text, 0 ∈ text → pwYamlParse (env.yaml text) = none)
    (hload : env.parse file = .ok cfg) (hrun : running.system.secret = cfg.system.secret) :
    (SaveKeeps env file running.system → RoundTrips env running file) ∧
      (Nonempty (SecretRead env.yaml file) →
        (RoundTrips env running file ↔ SaveKeeps env file running.system)) := by
  have hfile : 0 ∉ file := by
    intro h
    rw [SaveEnv.parse, pwConfigParseString, hnull file h] at hload
    cases hload
  have henough : SaveKeeps env file running.system → RoundTrips env running file := by
    rintro (hplain | hinvalid | ⟨⟨read⟩, hsecret⟩)
    · exact hplain.roundTrips hfile
    · exact roundTrips_of_invalid hinvalid
    · exact (read.roundTrips_iff hfile hload hrun).mpr (.inr hsecret)
  refine ⟨henough, fun ⟨read⟩ => ⟨fun hkeeps => ?_, henough⟩⟩
  rcases (read.roundTrips_iff hfile hload hrun).mp hkeeps with hinvalid | hsecret
  · exact .inr (.inl hinvalid)
  · exact .inr (.inr ⟨⟨read⟩, hsecret⟩)

end RoundTrip

/-! ## A file -/

/-- The lines before the secret. -/
def sampleHead : List (List Byte) :=
  [ascii "system:\n", ascii "  name: lab\n", ascii "  mode: multi-card\n",
    ascii "  default_speed: 10g\n"]

/-- The lines behind the secret. -/
def sampleTail : List (List Byte) :=
  [ascii "cards:\n", ascii "- id: 0\n", ascii "  pci: \"0000:07:00.0\"\n", ascii "  ports:\n",
    ascii "  - local_port: 0\n", ascii "    global_port: 0\n"]

/-- A file in which the secret is written as `spelling`. -/
def sampleFile (spelling : List Byte) : List Byte :=
  sampleHead.flatten ++ (ascii "  secret: " ++ (spelling ++ ([0x0A] ++ sampleTail.flatten)))

/-- Its tree. -/
def samplePlace : SecretPlace :=
  { before := []
    after := [(ascii "cards", .seq [.map [
      (ascii "id", .scalar (ascii "0")), (ascii "pci", .scalar (ascii "0000:07:00.0")),
      (ascii "ports", .seq [.map [(ascii "local_port", .scalar (ascii "0")),
        (ascii "global_port", .scalar (ascii "0"))]])]])]
    sysBefore := [(ascii "name", .scalar (ascii "lab")),
      (ascii "mode", .scalar (ascii "multi-card")),
      (ascii "default_speed", .scalar (ascii "10g"))]
    sysAfter := [] }

/-- The text in front of a quoted secret. -/
def sampleOpen : List Byte := sampleHead.flatten ++ ascii "  secret: \""

/-- The text behind a quoted secret. -/
def sampleClose : List Byte := ascii "\"\n" ++ sampleTail.flatten

/-- What a YAML library makes of the file, and of the file with the secret in double quotes. -/
def sampleYaml (spelling secret : List Byte) : YamlLibrary := fun text =>
  let inner := (text.drop sampleOpen.length).take
    (text.length - sampleOpen.length - sampleClose.length)
  if 0 ∈ text then []
  else if text = sampleFile spelling then streamOf (samplePlace.root secret)
  else if text = sampleOpen ++ (inner ++ sampleClose) then
    match quotedValue inner with
    | some out => streamOf (samplePlace.root out)
    | none => []
  else []

/-- Its card. -/
def labCard : PwCard :=
  { id := 0, pci := "0000:07:00.0", ports := [{ localPort := 0, globalPort := 0 }] }

/-- The daemon that has loaded the file. -/
def sampleEnv (spelling secret : List Byte) : SaveEnv PwConfig :=
  { yaml := sampleYaml spelling secret
    sections := fun _ => .ok { cards := [labCard] }
    view := id
    loadedYaml := some (sampleFile spelling) }

/-- Its configuration. -/
def sampleConfig (secret : List Byte) : EnvConfig PwConfig :=
  { system := {
      name := ascii "lab"
      mode := ascii "multi-card"
      defaultSpeed := ascii "10g"
      statsPollIntervalMs := 100
      controlSocket := ascii "/run/packetwyrm/packetwyrmd.sock"
      secret }
    rest := { cards := [labCard] } }

theorem sampleYaml_quoted {spelling secret : List Byte} (s : List Byte)
    (hnull : 0 ∉ sampleOpen ++ (escape s ++ sampleClose))
    (hne : sampleOpen ++ (escape s ++ sampleClose) ≠ sampleFile spelling) :
    sampleYaml spelling secret (sampleOpen ++ (escape s ++ sampleClose)) =
      match quotedValue (escape s) with
      | some out => streamOf (samplePlace.root out)
      | none => [] := by
  have hinner : ((sampleOpen ++ (escape s ++ sampleClose)).drop sampleOpen.length).take
      ((sampleOpen ++ (escape s ++ sampleClose)).length - sampleOpen.length - sampleClose.length) =
        escape s := by
    rw [List.drop_left, List.length_append, List.length_append, Nat.add_sub_cancel_left,
      Nat.add_sub_cancel, List.take_left]
  rw [sampleYaml, hinner, if_neg hnull, if_neg hne, if_pos rfl]

theorem keyed_samplePlace (secret : List Byte) : (samplePlace.root secret).Keyed := by
  simp only [samplePlace, SecretPlace.root, SecretPlace.system, PwYamlNode.Keyed, PairsKeyed,
    ChildrenKeyed, List.nil_append, List.cons_append, List.map_cons, List.map_nil]
  decide

section Sample

variable {spelling : List Byte} (hlf : 0x0A ∉ spelling) (hlen : spelling.length < 900)

include hlf in
theorem textLines_sampleFile : textLines (sampleFile spelling) =
    sampleHead ++ ((ascii "  secret: " ++ spelling ++ [0x0A]) :: sampleTail) := by
  have hlines : ∀ l ∈ sampleHead ++ [ascii "  secret: " ++ spelling ++ [0x0A]], IsLine l := by
    intro l hl
    rcases List.mem_append.mp hl with hl | hl
    · have hhead : ∀ l ∈ sampleHead, l = l.dropLast ++ [0x0A] ∧ 0x0A ∉ l.dropLast := by decide
      exact ⟨_, (hhead l hl).2, (hhead l hl).1⟩
    · rw [List.mem_singleton.mp hl]
      refine ⟨_, fun h => ?_, rfl⟩
      rcases List.mem_append.mp h with h | h
      · exact absurd h (by decide)
      · exact hlf h
  have hfile : sampleFile spelling =
      (sampleHead ++ [ascii "  secret: " ++ spelling ++ [0x0A]]).flatten ++ sampleTail.flatten := by
    rw [sampleFile, List.flatten_append, List.flatten_singleton]
    simp only [List.append_assoc]
  rw [hfile, textLines_append hlines, show textLines sampleTail.flatten = sampleTail by decide,
    List.append_assoc, List.singleton_append]

include hlf hlen in
/-- The file respelled. -/
theorem respell_sampleFile (value : List Byte) :
    respell (sampleFile spelling) value = sampleOpen ++ (value ++ sampleClose) := by
  have hplain (L : List (List Byte)) (hL : ∀ l ∈ L, secretLineIndent l = none) :
      L.flatMap (respellLine value) = L.flatten := by
    rw [List.flatMap_def, List.map_congr_left (g := id) fun l hl => ?_, List.map_id]
    rw [respellLine, hL l hl]
    exact ite_self l
  have hsecret : respellLine value (ascii "  secret: " ++ spelling ++ [0x0A]) =
      ascii "  secret: \"" ++ (value ++ ascii "\"\n") := by
    have hkey : ascii "  secret: " ++ spelling ++ [0x0A] =
        List.replicate 2 0x20 ++ (ascii "secret:" ++ (ascii " " ++ (spelling ++ [0x0A]))) := by
      rw [List.append_assoc]
      rfl
    rw [respellLine, if_pos, hkey, secretLineIndent_key]
    · dsimp only
      rw [secretLine]
      simp only [List.append_assoc]
      rfl
    · have hten : (ascii "  secret: ").length = 10 := by decide
      simp only [List.length_append, List.length_singleton, hten]
      omega
  rw [respell, textLines_sampleFile hlf, List.flatMap_append, List.flatMap_cons, hsecret,
    hplain sampleHead (by decide), hplain sampleTail (by decide), sampleOpen, sampleClose]
  simp only [List.append_assoc]

theorem zero_notMem_escape {s : List Byte} (h : 0 ∉ s) : 0 ∉ escape s := by
  intro hmem
  obtain ⟨b, hb, hz⟩ := List.mem_flatMap.mp hmem
  split at hz
  · rcases List.mem_cons.mp hz with hz | hz
    · exact absurd hz (by decide)
    · exact h (List.mem_singleton.mp hz ▸ hb)
  · exact h (List.mem_singleton.mp hz ▸ hb)

/-- The secret of the file stands where the scan looks for it. -/
theorem secretRead_sampleFile (spelling secret : List Byte) (hlf : 0x0A ∉ spelling)
    (hlen : spelling.length < 900) (hnull : 0 ∉ spelling)
    (hne : ∀ s, sampleOpen ++ (escape s ++ sampleClose) ≠ sampleFile spelling) :
    Nonempty (SecretRead (sampleYaml spelling secret) (sampleFile spelling)) := by
  refine ⟨{
    place := samplePlace
    value := secret
    keyed := ?_
    long := ?_
    reads := ?_
    quoted := ?_
    unquoted := ?_ }⟩
  · exact keyed_samplePlace secret
  · have hshort : ∀ l ∈ textLines (sampleFile spelling), l.length < 1024 := by
      rw [textLines_sampleFile hlf]
      intro l hl
      rcases List.mem_append.mp hl with hl | hl
      · exact (by decide : ∀ l ∈ sampleHead, l.length < 1024) l hl
      · rcases List.mem_cons.mp hl with rfl | hl
        · have hten : (ascii "  secret: ").length = 10 := by decide
          simp only [List.length_append, List.length_singleton, hten]
          omega
        · exact (by decide : ∀ l ∈ sampleTail, l.length < 1024) l hl
    exact fun l hl hlong => absurd (hshort l hl) (Nat.not_lt.mpr hlong)
  · have hfile : 0 ∉ sampleFile spelling := by
      rw [sampleFile]
      simp only [List.mem_append, not_or]
      exact ⟨by decide, by decide, hnull, by decide, by decide⟩
    rw [sampleYaml, if_neg hfile, if_pos rfl]
  · intro s out h
    have hs : 0 ∉ s := by
      rw [quotedValue_escape] at h
      exact zero_notMem_of_readable (foldFrom_of_foldText h).1
    rw [respell_sampleFile hlf hlen, sampleYaml_quoted s ?_ (hne s), h]
    simp only [List.mem_append, not_or]
    exact ⟨by decide, zero_notMem_escape hs, by decide⟩
  · intro s h
    rw [respell_sampleFile hlf hlen]
    by_cases hnone : 0 ∈ sampleOpen ++ (escape s ++ sampleClose)
    · rw [sampleYaml, if_pos hnone]
      rfl
    · rw [sampleYaml_quoted s hnone (hne s), h]
      rfl

end Sample

/-- What the daemon has loaded. -/
theorem sampleEnv_parse (spelling secret : List Byte) (hnull : 0 ∉ sampleFile spelling)
    (hshort : copyStr pwSecretMax (cString secret) = secret) :
    (sampleEnv spelling secret).parse (sampleFile spelling) = .ok (sampleConfig secret) := by
  have hyaml : (sampleEnv spelling secret).yaml (sampleFile spelling) =
      streamOf (samplePlace.root secret) :=
    (if_neg hnull).trans (if_pos rfl)
  have hblank : parseRoot (sampleEnv spelling secret).sections (samplePlace.root []) =
      .ok (sampleConfig []) := rfl
  have hroot := SecretPlace.parseRoot_secret (keyed_samplePlace []) hblank secret
  rw [hshort] at hroot
  rw [SaveEnv.parse, pwConfigParseString, hyaml, pwYamlParse_streamOf (keyed_samplePlace secret)]
  exact hroot

/-- A plain secret is put back. -/
theorem redacted_save_sample :
    RoundTrips (sampleEnv (ascii "s3cret") (ascii "s3cret")) (sampleConfig (ascii "s3cret"))
      (sampleFile (ascii "s3cret")) := by
  have hread := secretRead_sampleFile (ascii "s3cret") (ascii "s3cret") (by decide) (by decide)
    (by decide) fun s h => by
      have htake := congrArg (List.take sampleOpen.length) h
      rw [List.take_left] at htake
      exact absurd htake (by decide)
  have hunfolded : Unfolded (ascii "s3cret") := by decide
  have hkeeps : SaveKeeps (sampleEnv (ascii "s3cret") (ascii "s3cret"))
      (sampleFile (ascii "s3cret")) (sampleConfig (ascii "s3cret")).system :=
    .inr (.inr ⟨hread, .inr hunfolded⟩)
  have hnull (text : List Byte) (h : 0 ∈ text) :
      pwYamlParse ((sampleEnv (ascii "s3cret") (ascii "s3cret")).yaml text) = none := by
    have hnone : sampleYaml (ascii "s3cret") (ascii "s3cret") text = [] := if_pos h
    exact congrArg pwYamlParse hnone
  have hload := sampleEnv_parse (ascii "s3cret") (ascii "s3cret") (by decide) (by decide)
  exact (redacted_save_iff (sampleEnv (ascii "s3cret") (ascii "s3cret"))
    (sampleFile (ascii "s3cret")) (sampleConfig (ascii "s3cret")) (sampleConfig (ascii "s3cret"))
    hnull hload rfl).1 hkeeps

/-- **A secret that is lost**: two characters with a newline between them, written with an escape
in the file, come back with a space. -/
theorem newline_secret_lost :
    (sampleEnv (ascii "\"a\\nb\"") (ascii "a\nb")).parse (sampleFile (ascii "\"a\\nb\"")) =
        .ok (sampleConfig (ascii "a\nb")) ∧
      ¬RoundTrips (sampleEnv (ascii "\"a\\nb\"") (ascii "a\nb")) (sampleConfig (ascii "a\nb"))
        (sampleFile (ascii "\"a\\nb\"")) := by
  have hload := sampleEnv_parse (ascii "\"a\\nb\"") (ascii "a\nb") (by decide) (by decide)
  have hfile : sampleFile (ascii "\"a\\nb\"") = sampleOpen ++ (ascii "a\\nb" ++ sampleClose) := by
    decide
  obtain ⟨read⟩ := secretRead_sampleFile (ascii "\"a\\nb\"") (ascii "a\nb") (by decide) (by decide)
    (by decide) fun s h => by
      rw [hfile] at h
      have hescape := List.append_cancel_right (List.append_cancel_left h)
      have hunescape := unescape_escape s
      rw [hescape, show unescape (ascii "a\\nb") = none by decide] at hunescape
      cases hunescape
  refine ⟨hload, ?_⟩
  rw [SecretRead.roundTrips_iff read (by decide) hload rfl]
  rintro (hinvalid | hrefused | hunfolded)
  · have hnewc := read.parse_respell hload
      (show quotedValue (escape pwSecretRedacted) = some pwSecretRedacted by decide)
    rw [show escape pwSecretRedacted = pwSecretRedacted by decide,
      ← buildConfigGetRaw_yaml (by decide) read.long (sampleConfig (ascii "a\nb")).system] at hnewc
    exact hinvalid _ hnewc rfl
  · have hfold : foldText (sampleConfig (ascii "a\nb")).system.secret = some (ascii "a b") := by
      decide
    rw [foldText_eq_none_iff.mpr hrefused] at hfold
    cases hfold
  · exact absurd hunfolded (by decide)

end PacketWyrm
