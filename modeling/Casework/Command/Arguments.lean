import Casework.Engine.Config
import Casework.Id
import Casework.Text.Blank

/-!
# Arguments of the command line

A command has options, each with two hyphens and most with a value, and arguments that go by their
place. Three options may stand before the command, too; where they are left out, variables of the
environment stand in for them.
-/

namespace Casework

inductive Command where
  | validate
  | run (templateId : String) (version : Option Nat) (caseId : Option String)
    (data : List (String × String))
  | resume (id : Id)
  | cancel (id : Id) (reason : Option String)
  | completeTask (id : Id) (rejected : Bool) (output resolver : Option String)
  | evaluateFormula (formula : String) (bindings : List (String × String))
  | evaluateRules (ruleSetId : String) (inputs : List (String × String))
deriving DecidableEq, Repr

structure Settings where
  configFolder : Option String
  maxVisits : Nat
deriving DecidableEq, Repr

/-- Why there is nothing to execute. -/
inductive Stop where
  | misuse
  | help
  | version
deriving DecidableEq, Repr

namespace Arguments

inductive Use where
  /-- Without a value, and once at most. -/
  | flag
  | once
  | many
deriving DecidableEq, Repr

/-- An option, or an argument that goes by its place, and the values it can have. -/
structure Parameter where
  name : String
  use : Use
  accepts : String → Bool

structure Grammar where
  options : List Parameter
  places : List Parameter

/-- What has been given, in its order. -/
structure Given where
  options : List (String × String)
  places : List String

namespace Given

def empty : Given := ⟨[], []⟩

def all (g : Given) (name : String) : List String :=
  (g.options.filter (·.1 == name)).map Prod.snd

def first? (g : Given) (name : String) : Option String := g.options.lookup name

def has (g : Given) (name : String) : Bool := (g.first? name).isSome

end Given

def addOption (g : Given) (p : Parameter) (value : String) : Except Stop Given :=
  if !p.accepts value || (p.use ≠ .many && g.has p.name) then .error .misuse
  else .ok { g with options := g.options ++ [(p.name, value)] }

def addPlace (grammar : Grammar) (g : Given) (value : String) : Except Stop Given :=
  match grammar.places[g.places.length]? with
  | some p =>
    if p.accepts value then .ok { g with places := g.places ++ [value] } else .error .misuse
  | none => .error .misuse

/-- A text that begins like an option is no value of the option before it. -/
def looksLikeOption (s : String) : Bool := s.startsWith "-" && s != "-"

/-- The name and the value of an option that has its value behind an equals sign. -/
def cutAtEquals (cs : List Char) : String × Option String :=
  let name := String.ofList (cs.takeWhile (· != '='))
  match cs.dropWhile (· != '=') with
  | _ :: value => (name, some (String.ofList value))
  | [] => (name, none)

/-- An option of one letter only asks for help. -/
def short (cs : List Char) : Stop := if cs.head? == some 'h' then .help else .misuse

/-- What the arguments of a command say. Behind two hyphens all go by their place. -/
def read (grammar : Grammar) (given : Given) : Bool → List String → Except Stop Given
  | _, [] => .ok given
  | true, value :: rest => do read grammar (← addPlace grammar given value) true rest
  | false, argument :: rest =>
    match argument.toList with
    | ['-', '-'] => read grammar given true rest
    | '-' :: '-' :: cs =>
      let (name, value?) := cutAtEquals cs
      if name == "help" && value?.isNone then .error .help
      else match grammar.options.find? (·.name == name), value? with
        | none, _ => .error .misuse
        | some p, some value =>
          if p.use = .flag then .error .misuse
          else do read grammar (← addOption given p value) false rest
        | some p, none =>
          if p.use = .flag then do read grammar (← addOption given p "") false rest
          else match rest with
            | value :: rest =>
              if looksLikeOption value then .error .misuse
              else do read grammar (← addOption given p value) false rest
            | [] => .error .misuse
    | '-' :: c :: cs => .error (short (c :: cs))
    | _ => do read grammar (← addPlace grammar given argument) false rest

/-- The values are there for all places. -/
def complete (grammar : Grammar) (given : Given) : Except Stop Given :=
  if given.places.length = grammar.places.length then .ok given else .error .misuse

def anything (_ : String) : Bool := true

/-- Digits, perhaps behind a plus sign, of a number below the bound. -/
def natBelow? (bound : Nat) (s : String) : Option Nat :=
  let cs := match s.toList with
    | '+' :: cs => cs
    | cs => cs
  if cs.isEmpty || !cs.all Char.isDigit then none
  else
    let n := cs.foldl (fun n c => n * 10 + (c.toNat - 48)) 0
    if n < bound then some n else none

/-- The number of visits fits into 64 bits. -/
def visits? (s : String) : Option Nat := natBelow? (twoTo 64) s

/-- A version fits into 32 bits; zero may have a minus sign. -/
def version? (s : String) : Option Nat :=
  match s.toList with
  | '-' :: c :: cs => if (c :: cs).all (· == '0') then some 0 else none
  | _ => natBelow? (twoTo 32) s

/-- A key, freed of blanks, and all that stands behind the first equals sign. -/
def keyValue? (s : String) : Option (String × String) :=
  match cutAtEquals s.toList with
  | (key, some value) =>
    let key := Text.trimmed key
    if key.isEmpty then none else some (key, value)
  | (_, none) => none

/-- The options that may stand before and behind the name of the command. -/
def settingOptions : List Parameter :=
  [⟨"config-dir", .once, fun s => !s.isEmpty⟩, ⟨"database-url", .once, anything⟩,
    ⟨"max-step-visits", .once, fun s => (visits? s).isSome⟩]

/-- The variable that stands in for an option. -/
def variableOf (option : String) : String :=
  "CASEFLOW_" ++ String.map (fun c => if c == '-' then '_' else c.toUpper) option

def isId (s : String) : Bool := (Id.ofText? s).isSome

def isKeyValue (s : String) : Bool := (keyValue? s).isSome

/-- How the arguments of a command are read, and what command they make. -/
structure Form where
  name : String
  grammar : Grammar
  command? : Given → Option Command

def form (name : String) (places options : List Parameter) (command? : Given → Option Command) :
    Form :=
  ⟨name, ⟨options ++ settingOptions, places⟩, command?⟩

def keyValues (g : Given) (name : String) : List (String × String) :=
  (g.all name).filterMap keyValue?

def forms : List Form :=
  [form "validate" [] [] fun _ => some .validate,
    form "run" [⟨"template-id", .once, anything⟩]
      [⟨"version", .once, fun s => (version? s).isSome⟩, ⟨"case-id", .once, anything⟩,
        ⟨"data", .many, isKeyValue⟩]
      fun g => do
        return .run (← g.places[0]?) ((g.first? "version").bind version?) (g.first? "case-id")
          (keyValues g "data"),
    form "resume" [⟨"case-workflow-id", .once, isId⟩] [] fun g => do
      return .resume (← Id.ofText? (← g.places[0]?)),
    form "cancel" [⟨"case-workflow-id", .once, isId⟩] [⟨"reason", .once, anything⟩] fun g => do
      return .cancel (← Id.ofText? (← g.places[0]?)) (g.first? "reason"),
    form "complete-task" [⟨"task-id", .once, isId⟩]
      [⟨"rejected", .flag, anything⟩, ⟨"output", .once, anything⟩, ⟨"by", .once, anything⟩]
      fun g => do
        return .completeTask (← Id.ofText? (← g.places[0]?)) (g.has "rejected") (g.first? "output")
          (g.first? "by"),
    form "eval-expr" [⟨"expression", .once, anything⟩] [⟨"var", .many, isKeyValue⟩] fun g => do
      return .evaluateFormula (← g.places[0]?) (keyValues g "var"),
    form "eval-rules" [⟨"rule-set-id", .once, anything⟩] [⟨"input", .many, isKeyValue⟩] fun g => do
      return .evaluateRules (← g.places[0]?) (keyValues g "input")]

/-- Help is for all commands or for one. -/
def asksForOne : List String → Bool
  | [] => true
  | [name] => name == "help" || forms.any (·.name == name)
  | _ => false

/-- The arguments before the command, cut off at its name. One letter can ask for the version. -/
def readFront (given : Given) : List String → Except Stop (Given × Form × List String)
  | [] => .error .misuse
  | argument :: rest =>
    match argument.toList with
    | ['-', '-'] => .error .misuse
    | '-' :: '-' :: cs =>
      let (name, value?) := cutAtEquals cs
      if name == "help" && value?.isNone then .error .help
      else if name == "version" && value?.isNone then .error .version
      else match settingOptions.find? (·.name == name), value? with
        | none, _ => .error .misuse
        | some p, some value => do readFront (← addOption given p value) rest
        | some p, none =>
          match rest with
          | value :: rest =>
            if looksLikeOption value then .error .misuse
            else do readFront (← addOption given p value) rest
          | [] => .error .misuse
    | '-' :: c :: cs => .error (if c == 'V' then .version else short (c :: cs))
    | _ =>
      match forms.find? (·.name == argument) with
      | some f => .ok (given, f, rest)
      | none =>
        if argument == "help" && asksForOne rest then .error .help else .error .misuse

/-- The options of one place, where the environment speaks for those that are left out. -/
def withEnvironment (environment : String → Option String) (given : Given) : Except Stop Unit :=
  settingOptions.forM fun p =>
    if given.has p.name || (environment (variableOf p.name)).all p.accepts then .ok ()
    else .error .misuse

/-- An option counts behind the command first, then before it, then in the environment. -/
def setting? (environment : String → Option String) (front behind : Given) (name : String) :
    Option String :=
  (behind.first? name).or ((front.first? name).or (environment (variableOf name)))

/-- The command that arguments ask for, with the settings it is to be executed with. -/
def parse (environment : String → Option String) (arguments : List String) :
    Except Stop (Settings × Command) := do
  let (front, f, rest) ← readFront .empty arguments
  let behind ← complete f.grammar (← read f.grammar .empty false rest)
  withEnvironment environment behind
  withEnvironment environment front
  let setting := setting? environment front behind
  let maxVisits := ((setting "max-step-visits").bind visits?).getD EngineConfig.default.maxVisits
  match f.command? behind with
  | some command => return (⟨setting "config-dir", maxVisits⟩, command)
  | none => throw .misuse

end Arguments

end Casework
