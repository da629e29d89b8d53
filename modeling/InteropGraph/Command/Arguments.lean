import InteropGraph.Text.Basic

/-!
# Arguments

The program has one command, `generate`, which takes one unit and some options. An option has its
value in the next argument or behind `=`; the short `-o` may also have it right behind itself. After
`--` there are no options.
-/

namespace InteropGraph.Command

/-- What a dump is written in. -/
inductive Format where
  | yaml
  | json
deriving DecidableEq, Repr

/-- The format that goes by a name on the command line. -/
def Format.ofName? : String → Option Format
  | "yaml" => some .yaml
  | "json" => some .json
  | _ => none

/-- The extension of dumps. -/
def Format.extension : Format → String
  | .yaml => "yaml"
  | .json => "json"

/-- An option of the command. -/
inductive Setting where
  | config
  | output
  | format
  | targetVersion
  | toolchainVersion
  | report
deriving DecidableEq, Repr

/-- A setting as it is written on the command line, behind its dashes. -/
def Setting.name : Setting → String
  | .config => "config"
  | .output => "output"
  | .format => "format"
  | .targetVersion => "target-version"
  | .toolchainVersion => "toolchain-version"
  | .report => "report"

/-- The setting that goes by a name, if there is one. -/
def Setting.ofName? (name : String) : Option Setting :=
  [.config, .output, .format, .targetVersion, .toolchainVersion, .report].find? (·.name = name)

/-- Whether the option can have a value. -/
def Setting.allows (s : Setting) (value : String) : Bool :=
  match s with
  | .config | .output | .report => !value.isEmpty
  | .format => (Format.ofName? value).isSome
  | .targetVersion | .toolchainVersion => true

/-- What is wrong with the arguments. -/
inductive UsageError where
  | unexpected (argument : String)
  | repeated (setting : Setting)
  | missingValue (setting : Setting)
  | invalidValue (setting : Setting) (value : String)
  | missingUnit
deriving DecidableEq, Repr

/-- What is said of wrong arguments. -/
def UsageError.message : UsageError → String
  | .unexpected argument => s!"error: unexpected argument '{argument}'"
  | .repeated setting => s!"error: the argument '--{setting.name}' cannot be used multiple times"
  | .missingValue setting => s!"error: a value is required for '--{setting.name}'"
  | .invalidValue setting value => s!"error: invalid value '{value}' for '--{setting.name}'"
  | .missingUnit => "error: the argument UNIT is missing"

/-- Why arguments do not make a request. -/
inductive Halt where
  | help
  | version
  | usage (error : UsageError)
deriving DecidableEq, Repr

/-- What the arguments of `generate` ask for. -/
structure Request where
  unit : String
  settings : List (Setting × String)
deriving DecidableEq, Repr

/-- The value that a setting has been given. -/
def Request.get? (r : Request) (s : Setting) : Option String :=
  r.settings.lookup s

/-- The format of the dump. -/
def Request.format (r : Request) : Format :=
  ((r.get? .format).bind Format.ofName?).getD .yaml

/-- The arguments that have been read. -/
structure Progress where
  unit : Option String := none
  settings : List (Setting × String) := []
  /-- The option whose value comes next. -/
  pending : Option Setting := none
  /-- After `--`. -/
  plain : Bool := false

namespace Progress

/-- Notes the value of a setting, which may be set once and has to allow the value. -/
def set (p : Progress) (s : Setting) (value : String) : Except Halt Progress :=
  if (p.settings.lookup s).isSome then .error (.usage (.repeated s))
  else if s.allows value then
    .ok { p with settings := p.settings ++ [(s, value)], pending := none }
  else .error (.usage (.invalidValue s value))

/-- An argument that is no option. -/
def position (p : Progress) (argument : String) : Except Halt Progress :=
  if p.unit.isSome ∨ argument.isEmpty then .error (.usage (.unexpected argument))
  else .ok { p with unit := some argument }

/-- An option by name, with its value if that is in the same argument. -/
def named (p : Progress) (argument : String) (name : List Char) (value : Option (List Char)) :
    Except Halt Progress :=
  match Setting.ofName? (String.ofList name), value with
  | some s, some v => p.set s (String.ofList v)
  | some s, none => .ok { p with pending := some s }
  | none, none =>
    if name = "help".toList then .error .help else .error (.usage (.unexpected argument))
  | none, some _ => .error (.usage (.unexpected argument))

/-- Reads an argument. -/
def read (p : Progress) (argument : String) : Except Halt Progress :=
  let isOption : Bool := match argument.toList with
    | '-' :: _ :: _ => true
    | _ => false
  match p.pending with
  | some s =>
    if isOption || p.plain then .error (.usage (.missingValue s)) else p.set s argument
  | none =>
    if p.plain || !isOption then p.position argument
    else
      match argument.toList with
      | ['-', '-'] => .ok { p with plain := true }
      | '-' :: '-' :: s =>
        let (name, value) := Text.cut '=' s
        p.named argument name value
      | ['-', 'o'] => .ok { p with pending := some .output }
      | '-' :: 'o' :: '=' :: s => p.set .output (String.ofList s)
      | '-' :: 'o' :: s => p.set .output (String.ofList s)
      | '-' :: 'h' :: _ => .error .help
      | _ => .error (.usage (.unexpected argument))

/-- The request, when the arguments end. -/
def finish (p : Progress) : Except Halt Request :=
  match p.pending, p.unit with
  | some s, _ => .error (.usage (.missingValue s))
  | none, none => .error (.usage .missingUnit)
  | none, some unit => .ok ⟨unit, p.settings⟩

end Progress

/-- Reads the arguments of `generate`. -/
def Request.parse (arguments : List String) : Except Halt Request := do
  (← arguments.foldlM Progress.read {}).finish

/-- Reads all arguments of the program. -/
def parseArguments : List String → Except Halt Request
  | "generate" :: rest => Request.parse rest
  | [] | ["--"] | "--help" :: _ | ["help"] | ["help", "help"] | ["help", "generate"] => .error .help
  | "--version" :: _ => .error .version
  | "help" :: argument :: _ | "--" :: argument :: _ => .error (.usage (.unexpected argument))
  | argument :: _ =>
    match argument.toList with
    | '-' :: 'h' :: _ => .error .help
    | '-' :: 'V' :: _ => .error .version
    | _ => .error (.usage (.unexpected argument))

end InteropGraph.Command
