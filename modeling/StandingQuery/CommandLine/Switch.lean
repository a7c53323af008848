/-! The options of a command. They are written `--name value` or `--name=value`, or `--name` alone
where no value belongs to them, and each may be given once. They are taken from left to right, and
the first thing that ends the reading decides: a fault, or the wish for help. -/

namespace StandingQuery.CommandLine

/-- Why arguments are refused. -/
inductive Fault where
  | unexpected (argument : String)
  | repeated (name : String)
  | valueMissing (name : String)
  | valueUnwanted (name : String)
  | badValue (name : String) (value : String)
  | required (name : String)
deriving DecidableEq, Repr

def Fault.message : Fault → String
  | .unexpected argument => "unexpected argument '" ++ argument ++ "' found"
  | .repeated name => "the argument '--" ++ name ++ "' cannot be used multiple times"
  | .valueMissing name => "a value is required for '--" ++ name ++ "' but none was supplied"
  | .valueUnwanted name => "the argument '--" ++ name ++ "' takes no value"
  | .badValue name value => "invalid value '" ++ value ++ "' for '--" ++ name ++ "'"
  | .required name => "the argument '--" ++ name ++ "' is required"

/-- What ends the reading of arguments before all are taken. -/
inductive Stop where
  | fault (f : Fault)
  | help
deriving DecidableEq, Repr

/-- What an option does to the choices `σ` of its command. -/
inductive Effect (σ : Type) where
  | flag (choose : σ → σ)
  /-- Nothing is made of a value that is not acceptable. -/
  | value (choose : String → Option (σ → σ))

structure Switch (σ : Type) where
  name : String
  effect : Effect σ

/-- The name behind the two dashes, and the value if one is attached. -/
def splitSwitch (cs : List Char) : String × Option String :=
  match cs.span (· != '=') with
  | (name, []) => (String.ofList name, none)
  | (name, _ :: value) => (String.ofList name, some (String.ofList value))

/-- An argument that starts with a dash is no value, but a single dash is one. -/
def isValue (argument : String) : Bool :=
  match argument.toList with
  | '-' :: _ :: _ => false
  | _ => true

/-- Makes the choice that an option with its value stands for. -/
def Switch.take {σ : Type} (s : Switch σ) (choose : String → Option (σ → σ)) (value : String)
    (a : σ) : Except Stop σ :=
  match choose value with
  | some f => .ok (f a)
  | none => .error (.fault (.badValue s.name value))

/-- Takes the arguments one by one, with the option that still waits for its value, if there is one,
and the names `seen` so far. Nothing may follow two dashes that stand alone. -/
def takeAll {σ : Type} (switches : List (Switch σ)) :
    Option (Switch σ × (String → Option (σ → σ))) → List String → σ → List String → Except Stop σ
  | none, _, a, [] => .ok a
  | some (s, _), _, _, [] => .error (.fault (.valueMissing s.name))
  | some (s, choose), seen, a, arg :: args =>
    if isValue arg then do takeAll switches none seen (← s.take choose arg a) args
    else .error (.fault (.valueMissing s.name))
  | none, seen, a, arg :: args =>
    match arg.toList with
    | ['-', '-'] =>
      match args with
      | [] => .ok a
      | next :: _ => .error (.fault (.unexpected next))
    | '-' :: '-' :: cs =>
      let (name, value) := splitSwitch cs
      match switches.find? (·.name == name), value with
      | none, none => .error (if name = "help" then .help else .fault (.unexpected arg))
      | none, some _ =>
        .error (.fault (if name = "help" then .valueUnwanted name else .unexpected arg))
      | some s, value =>
        if seen.contains name then .error (.fault (.repeated name))
        else
          match s.effect, value with
          | .flag choose, none => takeAll switches none (name :: seen) (choose a) args
          | .flag _, some _ => .error (.fault (.valueUnwanted name))
          | .value choose, some v => do
            takeAll switches none (name :: seen) (← s.take choose v a) args
          | .value choose, none => takeAll switches (some (s, choose)) (name :: seen) a args
    | '-' :: 'h' :: _ => .error .help
    | _ => .error (.fault (.unexpected arg))

end StandingQuery.CommandLine
