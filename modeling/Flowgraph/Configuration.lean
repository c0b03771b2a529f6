import Flowgraph.Environment
import Flowgraph.Fault
import Flowgraph.Log.Level
import Flowgraph.Workflow.Decode

/-! Configurations: how an installation serves, stores, runs and logs. They are read from named
settings or from an environment. -/

namespace Flowgraph

structure Configuration where
  appName : String := "autoflow"
  appVersion : String := "1.0.0"
  debug : Bool := false
  host : String := "0.0.0.0"
  port : Nat := 8000
  reload : Bool := false
  databaseUrl : String := "sqlite:///./autoflow.db"
  databaseEcho : Bool := false
  maxConcurrentNodes : Nat := 10
  /-- Milliseconds. -/
  defaultNodeTimeout : Nat := 30000
  /-- Seconds. -/
  retryBaseDelay : Float := 1.0
  retryMaxDelay : Float := 30.0
  retryJitter : Bool := true
  logLevel : LogLevel := .info
  logFormat : String := "%(asctime)s - %(name)s - %(levelname)s - %(message)s"
  logFile : Option String := none
  logStructured : Bool := false
  /-- Bytes. -/
  logMaxSize : Int := 10485760
  logBackupCount : Int := 5
  corsOrigins : List Value := [.text "*"]

namespace Configuration

open Reading

/-! Reading -/

def within (low : Int) (high : Option Int) (reason : String) (v : Value) : Reading Nat :=
  (integer v).andThen fun n =>
    if low ≤ n && high.all (fun h => n ≤ h) then accepted n.toNat else reject (.rule reason) v

def readPort : Value → Reading Nat :=
  within 1 (some 65535) "Port must be between 1 and 65535"

def schemes : List String := ["sqlite", "postgresql", "mysql"]

/-- The part in front of the first mark. -/
def upTo (mark : List Char) : List Char → List Char
  | [] => []
  | c :: rest => if mark.isPrefixOf (c :: rest) then [] else c :: upTo mark rest

/-- The kind of database that an address names, without the driver. -/
def schemeOf (url : String) : String :=
  Text.lower (String.ofList (upTo ['+'] (upTo "://".toList url.toList)))

def readUrl (v : Value) : Reading String :=
  (text v).andThen fun url =>
    if url = "" then reject (.rule "Database URL cannot be empty") v
    else if schemes.contains (schemeOf url) then accepted url
    else
      reject
        (.rule ("Unsupported database scheme: " ++ schemeOf url ++ ". Supported: " ++ (Value.ofTexts schemes).literal))
        v

def readItems (v : Value) : Reading (List Value) :=
  match v.items? with
  | some items => accepted items
  | none => reject .notList v

/-- What is wrong with the delays between attempts. -/
def delayFlaw? (c : Configuration) : Option String :=
  if c.retryBaseDelay < 0 then some "Retry base delay cannot be negative"
  else if c.retryMaxDelay < c.retryBaseDelay then some "Retry max delay must not be below the base delay"
  else none

def setting {α : Type} (fs : Fields) (name : String) (standard : α) (read : Value → Reading α) : Reading α :=
  optional fs (.word name) standard read

def settingsOf (fs : Fields) : Reading Configuration :=
  let d : Configuration := {}
  Configuration.mk
    <$> setting fs "app_name" d.appName text
    <*> setting fs "app_version" d.appVersion text
    <*> setting fs "debug" d.debug boolean
    <*> setting fs "host" d.host text
    <*> setting fs "port" d.port readPort
    <*> setting fs "reload" d.reload boolean
    <*> setting fs "database_url" d.databaseUrl readUrl
    <*> setting fs "database_echo" d.databaseEcho boolean
    <*> setting fs "max_concurrent_nodes" d.maxConcurrentNodes
      (within 1 none "Maximum concurrent nodes must be at least 1")
    <*> setting fs "default_node_timeout_ms" d.defaultNodeTimeout
      (within 1 none "Node timeout must be at least 1 millisecond")
    <*> setting fs "retry_base_delay" d.retryBaseDelay float
    <*> setting fs "retry_max_delay" d.retryMaxDelay float
    <*> setting fs "retry_jitter" d.retryJitter boolean
    <*> setting fs "log_level" d.logLevel (member LogLevel.all LogLevel.name)
    <*> setting fs "log_format" d.logFormat text
    <*> setting fs "log_file" d.logFile (nullable text)
    <*> setting fs "log_structured" d.logStructured boolean
    <*> setting fs "log_max_size" d.logMaxSize integer
    <*> setting fs "log_backup_count" d.logBackupCount integer
    <*> setting fs "cors_origins" d.corsOrigins readItems

/-- A configuration from named settings; what is not named is standard. -/
def ofFields (fs : Fields) : Reading Configuration :=
  (settingsOf fs).andThen fun c =>
    match c.delayFlaw? with
    | none => accepted c
    | some reason => reject (.rule reason) (.object fs)

def toFields (c : Configuration) : Fields :=
  [("app_name", .text c.appName), ("app_version", .text c.appVersion), ("debug", .bool c.debug),
   ("host", .text c.host), ("port", .ofNat c.port), ("reload", .bool c.reload),
   ("database_url", .text c.databaseUrl), ("database_echo", .bool c.databaseEcho),
   ("max_concurrent_nodes", .ofNat c.maxConcurrentNodes),
   ("default_node_timeout_ms", .ofNat c.defaultNodeTimeout),
   ("retry_base_delay", .float c.retryBaseDelay), ("retry_max_delay", .float c.retryMaxDelay),
   ("retry_jitter", .bool c.retryJitter), ("log_level", .text c.logLevel.name),
   ("log_format", .text c.logFormat), ("log_file", .ofOption .text c.logFile),
   ("log_structured", .bool c.logStructured), ("log_max_size", .int c.logMaxSize),
   ("log_backup_count", .int c.logBackupCount), ("cors_origins", .list c.corsOrigins)]

/-! Reading from an environment -/

/-- How the text of a setting is understood. -/
inductive SettingKind where
  | words
  | switch
  | whole
  | real
  | level
  | several

def settings : List (String × SettingKind) :=
  [("app_name", .words), ("app_version", .words), ("debug", .switch), ("host", .words), ("port", .whole),
   ("reload", .switch), ("database_url", .words), ("database_echo", .switch),
   ("max_concurrent_nodes", .whole), ("default_node_timeout_ms", .whole), ("retry_base_delay", .real),
   ("retry_max_delay", .real), ("retry_jitter", .switch), ("log_level", .level), ("log_format", .words),
   ("log_file", .words), ("log_structured", .switch), ("log_max_size", .whole), ("log_backup_count", .whole),
   ("cors_origins", .several)]

def variableName (name : String) : String :=
  "AUTOFLOW_" ++ Text.upper name

/-- Why an environment gives no configuration. -/
inductive Flaw where
  | notNumber (name value : String)
  | notLevel (value : String)
  | notAccepted (issues : List Issue)

namespace Flaw

def message (manual : String) : Flaw → String
  | notNumber name value => "Invalid value for " ++ name ++ ": " ++ Text.quoted value
  | notLevel value => "Invalid configuration: " ++ Text.quoted value ++ " is not a valid LogLevel"
  | notAccepted issues => "Invalid configuration: " ++ Mishap.issuesText manual "AppConfig" issues

def fault (manual : String) (f : Flaw) : Fault :=
  Fault.of .configuration (f.message manual) <|
    match f with
    | notNumber name _ => [("config_key", .text name)]
    | _ => []

end Flaw

/-- What a variable's text says; nothing when it is to stay standard. -/
def understand (name value : String) : SettingKind → Except Flaw (Option Value)
  | .words => .ok (some (.text value))
  | .switch => .ok (some (.bool (["true", "1", "yes", "on"].contains (Text.lower value))))
  | .whole =>
    match Decimal.readInteger value.toList with
    | .ok n => .ok (some (.int n))
    | .error _ => .error (.notNumber name value)
  | .real =>
    match Decimal.readFloat value.toList with
    | some x => .ok (some (.float x))
    | none => .error (.notNumber name value)
  | .level =>
    if (LogLevel.all.map LogLevel.name).contains (Text.upper value) then .ok (some (.text (Text.upper value)))
    else .error (.notLevel (Text.upper value))
  | .several =>
    if value = "" then .ok none
    else .ok (some (.ofTexts (value.splitOn ",")))

def fieldsFrom (env : Environment) : List (String × SettingKind) → Except Flaw Fields
  | [] => .ok []
  | (name, kind) :: rest =>
    match env.get? (variableName name) with
    | none => fieldsFrom env rest
    | some value => do
      match ← understand (variableName name) value kind with
      | none => fieldsFrom env rest
      | some v => .ok ((name, v) :: (← fieldsFrom env rest))

def ofEnvironment (env : Environment) : Except Flaw Configuration := do
  match ofFields (← fieldsFrom env settings) with
  | .accepted c => .ok c
  | .rejected issues => .error (.notAccepted issues)

/-! Uses -/

def isSqlite (c : Configuration) : Bool :=
  "sqlite".toList.isPrefixOf (Text.lower c.databaseUrl).toList

/-- Options for connecting to the database. -/
def connectOptions (c : Configuration) : Fields :=
  if c.isSqlite then [("check_same_thread", .bool false)] else []

/-- Options for serving. -/
def serverOptions (c : Configuration) : Fields :=
  [("host", .text c.host), ("port", .ofNat c.port), ("reload", .bool c.reload),
   ("log_level", .text (Text.lower c.logLevel.name)), ("access_log", .bool c.debug)]

/-- Small and fast, for trying things out. -/
def trial : Configuration :=
  { debug := true, databaseUrl := "sqlite:///:memory:", logLevel := .warning, maxConcurrentNodes := 4
    defaultNodeTimeout := 2000, retryBaseDelay := 0, retryMaxDelay := 0, retryJitter := false }

end Configuration

/-- An environment, with the configuration that has been read from it. -/
structure Installation where
  environment : Environment := []
  current : Option Configuration := none

namespace Installation

/-- The configuration; it is read from the environment when it is first needed. -/
def configuration (i : Installation) : Installation × Except Configuration.Flaw Configuration :=
  match i.current with
  | some c => (i, .ok c)
  | none =>
    match Configuration.ofEnvironment i.environment with
    | .ok c => ({ i with current := some c }, .ok c)
    | .error f => (i, .error f)

def reset (i : Installation) : Installation :=
  { i with current := none }

/-- Load a file into the environment and read the configuration anew. -/
def load (i : Installation) (text : String) : Installation × Except Configuration.Flaw Configuration :=
  let i := { i with environment := i.environment.load text }
  match Configuration.ofEnvironment i.environment with
  | .ok c => ({ i with current := some c }, .ok c)
  | .error f => (i, .error f)

end Installation

end Flowgraph
