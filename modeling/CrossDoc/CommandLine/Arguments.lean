/-!
# Arguments

The arguments of the program name a command, the project it is about, and options. Options may stand
before or after the project, and several options of one letter may share a dash.
-/

namespace CrossDoc

inductive Command where
  | init (path : Option String)
  | resolve (path out : Option String)
  | targets (path : Option String) (json : Bool)
deriving DecidableEq, Repr, Inhabited

inductive UsageFault where
  | help
  | invalid
deriving DecidableEq, Repr, Inhabited

def UsageFault.exitCode : UsageFault → Nat
  | .help => 0
  | .invalid => 2

def UsageFault.complaint : UsageFault → Option String
  | .help => none
  | .invalid => some "Usage: init [PATH] | resolve [-o OUT] [PATH] | targets [-j] [PATH]"

namespace Command

/-- The arguments read so far, and the options that the command has. -/
structure Arguments where
  takesOut : Bool
  takesJson : Bool
  path : Option String := none
  out : Option String := none
  json : Bool := false

namespace Arguments

def readPath (arguments : Arguments) (path : String) : Except UsageFault Arguments :=
  if arguments.path.isNone then .ok { arguments with path := some path } else .error .invalid

def readOut (arguments : Arguments) (out : String) : Except UsageFault Arguments :=
  if arguments.takesOut && arguments.out.isNone then .ok { arguments with out := some out }
  else .error .invalid

def readJson (arguments : Arguments) : Except UsageFault Arguments :=
  if arguments.takesJson && !arguments.json then .ok { arguments with json := true }
  else .error .invalid

/-- Whether an argument is an option and no value; a single dash is a value. -/
def isOption (argument : String) : Bool := argument.startsWith "-" && argument != "-"

inductive Switch where
  | help
  | json
  | out (directory : Option String)
  | unknown
deriving DecidableEq, Repr

/-- The value that may follow the letter of an option directly, or after an equals sign. -/
def attached : List Char → Option String
  | [] => none
  | '=' :: value => some (String.ofList value)
  | value => some (String.ofList value)

/-- The options written as letters after one dash; what follows an `o` is its value. -/
def shortOptions : List Char → List Switch
  | [] => []
  | 'h' :: rest => .help :: shortOptions rest
  | 'j' :: rest => .json :: shortOptions rest
  | 'o' :: rest => [.out (attached rest)]
  | _ :: rest => .unknown :: shortOptions rest

def longOption (word : List Char) : Switch :=
  if word = "help".toList then .help
  else if word = "json".toList then .json
  else if word = "out".toList then .out none
  else
    match "out=".toList.isPrefixOf? word with
    | some value => .out (some (String.ofList value))
    | none => .unknown

def options (argument : String) : List Switch :=
  match argument.toList with
  | '-' :: '-' :: word => [longOption word]
  | '-' :: letters => shortOptions letters
  | _ => []

def readPaths (arguments : Arguments) : List String → Except UsageFault Arguments
  | [] => .ok arguments
  | path :: rest => do readPaths (← arguments.readPath path) rest

mutual
def read (arguments : Arguments) : List String → Except UsageFault Arguments
  | [] => .ok arguments
  | argument :: rest =>
    -- behind two dashes nothing is an option
    if argument = "--" then arguments.readPaths rest
    else if isOption argument then readOptions arguments (options argument) rest
    else do read (← arguments.readPath argument) rest
termination_by rest => (rest.length, 0)

def readOptions (arguments : Arguments) (options : List Switch) (rest : List String) :
    Except UsageFault Arguments :=
  match options, rest with
  | [], rest => read arguments rest
  | .help :: _, _ => .error .help
  | .json :: options, rest => do readOptions (← arguments.readJson) options rest
  | .out (some value) :: options, rest => do
    readOptions (← arguments.readOut value) options rest
  -- the value is the next argument, unless that is an option
  | .out none :: options, value :: rest =>
    if isOption value then .error .invalid
    else do readOptions (← arguments.readOut value) options rest
  | .out none :: _, [] => .error .invalid
  | .unknown :: _, _ => .error .invalid
termination_by (rest.length, options.length + 1)
end

end Arguments

def parse : List String → Except UsageFault Command
  | "init" :: rest => do
    let arguments ← Arguments.read { takesOut := false, takesJson := false } rest
    return .init arguments.path
  | "resolve" :: rest => do
    let arguments ← Arguments.read { takesOut := true, takesJson := false } rest
    return .resolve arguments.path arguments.out
  | "targets" :: rest => do
    let arguments ← Arguments.read { takesOut := false, takesJson := true } rest
    return .targets arguments.path arguments.json
  | ["help"] | ["help", "help"] | ["help", "init"] | ["help", "resolve"] | ["help", "targets"] =>
    .error .help
  | first :: _ =>
    if (Arguments.options first).head? = some .help then .error .help else .error .invalid
  | [] => .error .invalid

end Command

end CrossDoc
