import TapeAsm.Command.Argument

/-!
# Command registries

A registry binds names to commands. A command has parameters and a handler that acts on a state. A
name is bound once and for all: a definition that meets a bound name stops there, with the names
before it bound and its own name listed.
-/

set_option autoImplicit false

namespace TapeAsm

/-- How a command handler ends. -/
inductive Command.Reply where
  | done
  | failed (text : Text)
  /-- The command line ends here, and the usage is to be shown. -/
  | usage
  deriving DecidableEq, Repr

/-- A command: what its parameters are, what it does, and how the usage describes it. -/
structure Command (σ : Type) where
  params : List Command.Kind
  handler : List Command.Arg → σ → σ × Command.Reply
  description : Text := []
  aliases : List Text := []

/-- The commands of a program and the names bound to them. -/
structure Registry (σ : Type) where
  /-- The commands, known by their position. -/
  commands : Array (Command σ) := #[]
  /-- What each bound name stands for. -/
  bindings : List (Text × Nat) := []
  /-- The names that the usage lists, in order of definition. -/
  names : List Text := []

namespace Registry

variable {σ : Type}

/-- The registry without commands. -/
def empty : Registry σ := {}

/-- The position of the command that a name is bound to. -/
def find? (r : Registry σ) (name : Text) : Option Nat := r.bindings.lookup name

/-- The command that a name is bound to. -/
def command? (r : Registry σ) (name : Text) : Option (Command σ) :=
  r.find? name >>= (r.commands[·]?)

/-- Binds names to a command one after the other. Gives the first that is already bound, if any;
the names after it stay as they are. -/
def bind (r : Registry σ) (id : Nat) : List Text → Registry σ × Option Text
  | [] => (r, none)
  | name :: names =>
    match r.find? name with
    | some _ => (r, some name)
    | none => bind { r with bindings := (name, id) :: r.bindings } id names

/-- Defines a command under a name and its aliases. Gives the first of them that is already
bound. -/
def define (r : Registry σ) (name : Text) (c : Command σ) : Registry σ × Option Text :=
  let id := r.commands.size
  bind { r with commands := r.commands.push c, names := r.names ++ [name] } id (name :: c.aliases)

/-- The registry with one of its commands changed. -/
def modify (r : Registry σ) (id : Nat) (f : Command σ → Command σ) : Registry σ :=
  { r with commands := r.commands.modify id f }

/-- Adds aliases to the description of a command. They only show in the usage. -/
def addAliases (r : Registry σ) (id : Nat) (aliases : List Text) : Registry σ :=
  r.modify id fun c => { c with aliases := c.aliases ++ aliases }

/-- Describes the command that a name is bound to, if it is bound. -/
def describe? (r : Registry σ) (name description : Text) : Option (Registry σ) :=
  (r.find? name).map fun id => r.modify id fun c => { c with description }

/-- Defines several commands. Stops at the first whose definition does. -/
def defineAll (r : Registry σ) : List (Text × Command σ) → Registry σ × Option Text
  | [] => (r, none)
  | (name, c) :: rest =>
    match r.define name c with
    | (r, some duplicate) => (r, some duplicate)
    | (r, none) => defineAll r rest

/-- A command without parameters that changes the state. -/
def action (f : σ → σ) : Command σ := { params := [], handler := fun _ s => (f s, .done) }

/-- The commands of a variable: its name sets it, and its name with a point resets it. -/
def variableCommands (name : Text) (kind : Command.Kind) (assign : Command.Arg → σ → σ) :
    List (Text × Command σ) :=
  [(name, { params := [kind]
            handler := fun args s => (assign (args.headD (.zero kind)) s, .done) }),
   (name ++ ".", action (assign (.zero kind)))]

/-- Defines a variable. -/
def defineVariable (r : Registry σ) (name : Text) (kind : Command.Kind)
    (assign : Command.Arg → σ → σ) : Registry σ × Option Text :=
  r.defineAll (variableCommands name kind assign)

/-- The commands of a switch: its name sets it, and its name behind an exclamation mark clears
it. -/
def switchCommands (name : Text) (assign : Bool → σ → σ) : List (Text × Command σ) :=
  [(name, action (assign true)), ("!" ++ name, action (assign false))]

/-- Defines a switch. -/
def defineSwitch (r : Registry σ) (name : Text) (assign : Bool → σ → σ) :
    Registry σ × Option Text :=
  r.defineAll (switchCommands name assign)

end Registry

end TapeAsm
