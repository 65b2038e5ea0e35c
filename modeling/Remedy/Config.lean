import Remedy.Run.Pipeline
import Remedy.Text.Blank
import Remedy.Yaml.Decode
/-!
# The configuration of a project

A project may have a file that says which codemods take part, which paths
are touched and how much a run may cost. No file, or an empty one, leaves
every default; a file that cannot be read stops the run.
-/

namespace Remedy

/-- The patterns of the paths that a run touches. -/
structure PathRules where
  includes : List String
  excludes : List String
deriving DecidableEq, Repr

/-- What one file may cost. -/
structure Limits where
  fileTimeout : Nat
  maxFileBytes : Nat
deriving DecidableEq, Repr

/-- The configuration of a project. -/
structure Config where
  rules : Selection
  paths : PathRules
  limits : Limits
  threads : Nat
deriving DecidableEq, Repr

namespace Config

/-- The name of the file. -/
def fileName : String := ".codefixer.yml"

/-- What holds without a file. -/
def default : Config :=
  { rules := .everything, paths := ⟨[], []⟩, limits := ⟨5000, 2097152⟩, threads := 0 }

/-- What the configuration settles of a run. -/
def settings (c : Config) : RunSettings :=
  { includes := c.paths.includes, excludes := c.paths.excludes
    fileTimeout := c.limits.fileTimeout, maxFileBytes := c.limits.maxFileBytes
    threads := c.threads }

open Yaml

/-- A list of texts. -/
def texts : Decoder (List String) := listOf (text "a string")

/-- The selection of codemods. -/
def rulesDecoder : Decoder Selection :=
  record "CodemodSelection"
    [ field "default" (oneOf ["enabled", "disabled"])
        fun name rules => { rules with byDefault := name = "enabled" },
      field "exceptions" texts fun ids rules => { rules with exceptions := ids } ]
    default.rules

/-- The patterns of paths. -/
def pathsDecoder : Decoder PathRules :=
  record "PathsConfig"
    [ field "include" texts fun patterns paths => { paths with includes := patterns },
      field "exclude" texts fun patterns paths => { paths with excludes := patterns } ]
    default.paths

/-- The limits of a file. -/
def limitsDecoder : Decoder Limits :=
  record "LimitsConfig"
    [ field "file_timeout_ms" (word64 "u64")
        fun n limits => { limits with fileTimeout := n },
      field "max_file_bytes" (word64 "u64")
        fun n limits => { limits with maxFileBytes := n } ]
    default.limits

/-- The whole configuration. -/
def decoder : Decoder Config :=
  record "Config"
    [ field "rules" rulesDecoder fun rules config => { config with rules := rules },
      field "paths" pathsDecoder fun paths config => { config with paths := paths },
      field "limits" limitsDecoder fun limits config => { config with limits := limits },
      field "threads" (word64 "usize") fun n config => { config with threads := n } ]
    default

/-- Reads the content of the file. -/
def ofBytes (content : Bytes) : Except String Config :=
  match Utf8.decode? content with
  | none => .error "stream did not contain valid UTF-8"
  | some stream =>
    if stream.toList.all isBlank then .ok default
    else (decode decoder stream).mapError DecodeError.message

/-- **The configuration of the project at a path.** -/
def load (disk : Disk) (root : Path) : Except RunError Config :=
  let file := root.join ⟨fileName⟩
  if !disk.holds file then .ok default
  else
    match ((disk.read file).mapError FileFault.message).bind ofBytes with
    | .ok config => .ok config
    | .error reason => .error (.invalidConfig file reason)

end Config

end Remedy
