import ChartStream.Config.Load
import ChartStream.Output.Writer
import ChartStream.Text.Integer

/-!
# The command line

What the program is asked to do by its arguments, and how it ends where no job runs. Arguments are
read one after the other; the first that is wrong, or that asks for the version or for help, decides.
Main definitions: `CommandLine.read?`, `CommandLine.outcome`.
-/

namespace ChartStream.CommandLine

set_option autoImplicit false

/-! ## Arguments -/

/-- The options of a run. -/
structure Options where
  /-- The least interval of all jobs in seconds. -/
  floor : Option UInt64 := none
  configPath : Option String := none
  debug : Bool := false
  deriving DecidableEq, Repr

/-- What the program is asked to do. -/
inductive Command where
  | run (options : Options)
  | showVersion
  | showHelp
  deriving DecidableEq, Repr

/-- The state of reading arguments. -/
structure Reading where
  options : Options := {}
  /-- Whether the next argument is the path of the configuration. -/
  awaitsPath : Bool := false
  /-- Whether options have ended. -/
  onlyValues : Bool := false

/-- What one argument leads to. -/
inductive Progress where
  | more (reading : Reading)
  | decided (command : Command)

/-- A text that looks like an option; a lone dash does not. -/
def looksLikeOption (arg : String) : Bool :=
  match arg.toList with
  | '-' :: _ :: _ => true
  | _ => false

namespace Reading

/-- Takes the interval, which may be given once, with a plus sign or without. -/
def takeFloor? (r : Reading) (arg : String) : Option Progress :=
  let digits := match arg.toList with
    | '+' :: rest => rest
    | cs => cs
  if r.options.floor.isSome then none
  else
    match Text.natural? digits with
    | some n =>
      if Text.inUnsigned 64 n then
        some (.more { r with options := { r.options with floor := some (UInt64.ofNat n) } })
      else none
    | none => none

/-- Takes the path of the configuration, which may be given once. -/
def takePath? (r : Reading) (path : String) : Option Progress :=
  if r.options.configPath.isSome then none
  else
    some (.more { r with
      awaitsPath := false
      options := { r.options with configPath := some path } })

/-- Takes the flag for further messages, which may be given once. -/
def takeDebug? (r : Reading) : Option Reading :=
  if r.options.debug then none else some { r with options := { r.options with debug := true } }

/-- Takes the letters after one dash. The rest of a group after the letter of the path is the path. -/
def takeLetters? (r : Reading) : List Char → Option Progress
  | [] => some (.more r)
  | 'd' :: rest => r.takeDebug?.bind fun r => takeLetters? r rest
  | 'V' :: _ => some (.decided .showVersion)
  | 'h' :: _ => some (.decided .showHelp)
  | ['c'] => some (.more { r with awaitsPath := true })
  | 'c' :: '=' :: path => r.takePath? (String.ofList path)
  | 'c' :: path => r.takePath? (String.ofList path)
  | _ => none

/-- Takes the word after two dashes; a value may follow an equals sign. -/
def takeWord? (r : Reading) (word : List Char) : Option Progress :=
  let (name, rest) := word.span (· != '=')
  match String.ofList name, rest with
  | "config", [] => some (.more { r with awaitsPath := true })
  | "config", _ :: path => r.takePath? (String.ofList path)
  | "debug", [] => r.takeDebug?.map .more
  | "version", [] => some (.decided .showVersion)
  | "help", [] => some (.decided .showHelp)
  | _, _ => none

/-- Takes one argument. -/
def take? (r : Reading) (arg : String) : Option Progress :=
  if r.awaitsPath then
    if looksLikeOption arg then none else r.takePath? arg
  else if r.onlyValues then r.takeFloor? arg
  else
    match arg.toList with
    | ['-', '-'] => some (.more { r with onlyValues := true })
    | '-' :: '-' :: word => r.takeWord? word
    | '-' :: c :: letters => r.takeLetters? (c :: letters)
    | _ => r.takeFloor? arg

/-- Takes all arguments. -/
def takeAll? (r : Reading) : List String → Option Command
  | [] => if r.awaitsPath then none else some (.run r.options)
  | arg :: rest =>
    match r.take? arg with
    | none => none
    | some (.decided command) => some command
    | some (.more r) => takeAll? r rest

end Reading

/-- What arguments ask for; `none` if they are wrong. -/
def read? (args : List String) : Option Command :=
  Reading.takeAll? {} args

/-! ## Texts -/

/-- The name under which the program announces its charts. -/
def pluginName : String := "plugind"

def versionText : String := "plugind 0.1.0\n"

/-- The variable with the path of the configuration, for runs that are not given one. -/
def pathVariable : String := "PLUGIND_CONFIG"

def defaultPath : String := "plugind.yaml"

def helpText (env : Environment) : String :=
  "plugind - external data collection plugin\n\n"
    ++ "Usage: plugind [OPTIONS] [UPDATE_EVERY]\n\n"
    ++ "Arguments:\n"
    ++ "  [UPDATE_EVERY]  Minimum collection interval in seconds for every job\n\n"
    ++ "Options:\n"
    ++ "  -c, --config <CONFIG>  Path to configuration file [env: " ++ pathVariable ++ "="
    ++ (env pathVariable).getD "" ++ "] [default: " ++ defaultPath ++ "]\n"
    ++ "  -d, --debug            Enable debug logging\n"
    ++ "  -h, --help             Print help\n"
    ++ "  -V, --version          Print version\n"

/-- What is sent to the parent process where no job runs. -/
def disableText : String := "DISABLE\n"

/-! ## Outcomes -/

/-- How the program ends. -/
inductive Outcome where
  | version
  | help
  /-- The arguments are wrong. -/
  | wrongUsage
  /-- The configuration cannot be loaded. -/
  | failed (error : Config.Error)
  /-- No memory can be set aside for the queue of the writer. -/
  | queueTooLarge
  /-- There are no jobs. -/
  | disabled
  /-- Jobs are to be run. -/
  | runs (config : PluginConfig)

/-- The exit status. -/
def Outcome.exitCode : Outcome → UInt8
  | .wrongUsage => 2
  | .failed .overflow => 101
  | .failed _ => 1
  | .queueTooLarge => 101
  | _ => 0

/-- The standard output, apart from that of jobs. -/
def Outcome.output (env : Environment) : Outcome → String
  | .version => versionText
  | .help => helpText env
  | .disabled => disableText
  | _ => ""

/-- The path of the configuration. -/
def Options.path (options : Options) (env : Environment) : String :=
  (options.configPath <|> env pathVariable).getD defaultPath

/-- The configuration of a run. -/
def Options.load (options : Options) (files : Files) (env : Environment) :
    Except Config.Error PluginConfig := do
  let config ← PluginConfig.loadWithJobs files env (options.path env)
  match options.floor with
  | some floor => .ok (config.applyFloor floor)
  | none => .ok config

/-- How a run ends, or which jobs it is to run. -/
def Options.outcome (options : Options) (files : Files) (env : Environment) : Outcome :=
  match options.load files env with
  | .error e => .failed e
  | .ok config =>
    if (Writer.ofSink? config.channelCapacity.toNat {}).isNone then .queueTooLarge
    else if config.collectors.jobCount = 0 then .disabled
    else .runs config

/-- How the program ends, or which jobs it is to run. -/
def outcome (files : Files) (env : Environment) (args : List String) : Outcome :=
  match read? args with
  | none => .wrongUsage
  | some .showVersion => .version
  | some .showHelp => .help
  | some (.run options) => options.outcome files env

end ChartStream.CommandLine
