/-
# EmbeddedHttp.Config.Load -- where a configuration comes from

A configuration is written as a YAML mapping from names of settings to values.  The
file that holds it is named by the surroundings, which may also give the address to
listen at; that address counts more than the one in the file, and the file has to
be right all the same.
-/
import EmbeddedHttp.Config.Basic
import EmbeddedHttp.Text.Utf8
import EmbeddedHttp.Yaml.Decode
import EmbeddedHttp.Yaml.Grammar

namespace EmbeddedHttp

set_option autoImplicit false

/-! ## The text -/

/-- The settings about keeping connections, by name. -/
def KeepAlive.fields : List (Yaml.Field KeepAlive) :=
  [.of "enabled" .boolean fun value keep => { keep with enabled := value },
    .of "timeout_secs" .uint64 fun value keep => { keep with timeout := value }]

/-- Why a text gives no configuration. -/
inductive ConfigFault where
  /-- It is no document. -/
  | malformed (fault : Yaml.Malformed)
  /-- A value is not of the kind that its setting asks for. -/
  | mismatch (fault : Yaml.Mismatch)
  | invalid (violation : Violation)
  deriving DecidableEq, Repr

namespace Config

/-- The settings, by name. -/
def fields : List (Yaml.Field Config) :=
  [.of "listen" .text fun value config => { config with listen := .ofText value },
    .of "backlog" .uint32 fun value config => { config with backlog := value },
    .of "max_connections" .uint64 fun value config => { config with maxConnections := value },
    .of "max_content_length" .uint64 fun value config =>
      { config with maxContentLength := value },
    .of "client_body_buffer_size" .uint64 fun value config =>
      { config with bodyBufferSize := value },
    .of "keepalive" (.record KeepAlive.fields {}) fun value config =>
      { config with keepAlive := value },
    .of "read_timeout_secs" .uint64 fun value config => { config with readTimeout := value },
    .of "write_timeout_secs" .uint64 fun value config => { config with writeTimeout := value },
    .of "task_stack_size" .uint64 fun value config => { config with taskStackSize := value },
    .of "server_name" .text fun value config => { config with serverName := value },
    .of "access_log" .boolean fun value config => { config with accessLog := value },
    .of "shutdown_grace_secs" .uint64 fun value config =>
      { config with shutdownGrace := value }]

/-- The configuration that a text gives. -/
def ofYaml (text : String) : Except ConfigFault Config := do
  let document ← (Yaml.parse text).mapError .malformed
  let config ← (document.record fields {}).mapError .mismatch
  match config.violation? with
  | some violation => throw (.invalid violation)
  | none => return config

end Config

/-! ## The surroundings -/

/-- A file as it was found: its path, and what it holds if it can be read. -/
structure ConfigFile where
  path : String
  content : Option Bytes
  deriving DecidableEq, Repr

/-- Why no configuration could be loaded. -/
inductive LoadFault where
  /-- There is no text at the path. -/
  | unreadable (path : String)
  /-- The text gives no configuration. -/
  | unusable (path : String) (fault : ConfigFault)
  deriving DecidableEq, Repr

/-- The fault in words. -/
def LoadFault.message : LoadFault → String
  | .unreadable path => "failed to read config " ++ path
  | .unusable path _ => "invalid config " ++ path

namespace ConfigFile

/-- The configuration that a file gives. -/
def load (file : ConfigFile) : Except LoadFault Config := do
  match file.content.bind Utf8.decode? with
  | none => throw (.unreadable file.path)
  | some text => (Config.ofYaml text).mapError (.unusable file.path)

end ConfigFile

/-- The configuration of the surroundings: from a file if one is named, and with the
address to listen at if that is given. -/
def Config.load (file : Option ConfigFile) (listen : Option String) :
    Except LoadFault Config := do
  let config ← match file with
    | some file => file.load
    | none => pure {}
  match listen with
  | some address => return { config with listen := .ofText address }
  | none => return config

end EmbeddedHttp
