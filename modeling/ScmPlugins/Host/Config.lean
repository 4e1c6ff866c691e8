import ScmPlugins.Client.Settings
import ScmPlugins.Host.LogFormat
import ScmPlugins.Json.Record

namespace ScmPlugins.Host

open Json

structure Config where
  logFilter : String := "info"
  logFormat : LogFormat := .json
  extensionName : String := "scm"
  maxProtocolVersion : Option String := none
  deriving DecidableEq, Repr

inductive Field where
  | logFilter
  | logFormat
  | extensionName
  | maxProtocolVersion
  deriving DecidableEq, Repr

namespace Field

def all : List Field := [.logFilter, .logFormat, .extensionName, .maxProtocolVersion]

def name : Field → String
  | .logFilter => "log_filter"
  | .logFormat => "log_format"
  | .extensionName => "extension_name"
  | .maxProtocolVersion => "max_protocol_version"

def named? (s : String) : Option Field := all.find? (·.name == s)

@[simp] theorem named?_name (f : Field) : named? f.name = some f := by cases f <;> rfl

end Field

namespace Config

def record : Record Config where
  name := "Config"
  fields := [
    ⟨Field.logFilter.name, .required, Reader.text.map fun s c => { c with logFilter := s }⟩,
    ⟨Field.logFormat.name, .required,
      (Reader.variant LogFormat.variants).map fun f c => { c with logFormat := f }⟩,
    ⟨Field.extensionName.name, .required,
      Reader.text.map fun s c => { c with extensionName := s }⟩,
    ⟨Field.maxProtocolVersion.name, .optionalMember,
      Reader.text.optional.map fun s c => { c with maxProtocolVersion := s }⟩]
  start := {}

def parse (s : String) : Except Misfit Config := record.reader.readAll s

def json (c : Config) : Json :=
  .map [
    (Field.logFilter.name, .str c.logFilter),
    (Field.logFormat.name, .str c.logFormat.name),
    (Field.extensionName.name, .str c.extensionName),
    (Field.maxProtocolVersion.name, c.maxProtocolVersion.elim .null .str)]

def text? (c : Config) : Field → Option String
  | .logFilter => some c.logFilter
  | .logFormat => some c.logFormat.name
  | .extensionName => some c.extensionName
  | .maxProtocolVersion => c.maxProtocolVersion

def settings (c : Config) : Except Version.Invalid Settings :=
  match c.maxProtocolVersion with
  | none => .ok ⟨c.extensionName, none⟩
  | some s => (Version.parse s).map fun v => ⟨c.extensionName, some v⟩

end Config

end ScmPlugins.Host
