import TapeAsm.Failure
import TapeAsm.Machine.Basic

/-!
# Execution

A program runs one instruction at a time. Every visited instruction, loops included, counts one
step, and a step past the limit ends the run before it has any effect. Cells saturate at zero and
at the greatest value, and the pointer stops at the tape edges with a warning.

What is left to do is a stack of levels: the program's own level at the bottom and one level for
each loop under way. `Level.next?` finds the instruction to visit, `Machine.visit` gives its
effect, and `Machine.run` repeats both as long as the step counter allows.
-/

set_option autoImplicit false

namespace TapeAsm

/-- What a run has to tell besides its result. -/
inductive Event where
  /-- A program begins. -/
  | execute (instructions depth : Nat) (maxSteps : Int)
  /-- A step in a machine that logs every step: the state before it, with a view of the tape. -/
  | step (step : Int) (op : Op) (pointer : Int) (memory : Text)
  /-- The pointer cannot move left. -/
  | leftEdge (step : Int)
  /-- The pointer cannot move right. -/
  | rightEdge (step pointer : Int)
  deriving DecidableEq, Repr

/-- A level of the program under way. -/
structure Level where
  /-- What is left of the current pass. -/
  rest : Program
  /-- What each further pass of a loop runs; empty on the program's own level. -/
  body : Program

/-- The next instruction to visit and what is left after it. A level that has run out starts over if
it belongs to a loop and the current cell is not zero, and is done otherwise. -/
def Level.next? (cell : Except Fault Int) :
    List Level → Except Fault (Option (Instr × List Level))
  | [] => .ok none
  | ⟨instr :: rest, body⟩ :: outer => .ok (some (instr, ⟨rest, body⟩ :: outer))
  | ⟨[], []⟩ :: outer => Level.next? cell outer
  | ⟨[], instr :: rest⟩ :: outer =>
    match cell with
    | .error fault => .error fault
    | .ok value =>
      if value = 0 then Level.next? cell outer
      else .ok (some (instr, ⟨rest, instr :: rest⟩ :: outer))

/-- How a run ended. -/
inductive Ending where
  | finished
  | halted (error : StepLimit)
  | crashed (fault : Fault)
  deriving DecidableEq, Repr

/-- The effect of visiting one instruction. -/
inductive Visit where
  /-- The machine afterwards, and the level to enter if the instruction is a loop that runs. -/
  | moved (machine : Machine) (events : List Event) (entered : List Level)
  | stopped (machine : Machine) (events : List Event) (ending : Ending)

namespace Machine

/-- The cells shown with every logged step. -/
def viewSize : Int := 10

/-- The machine with its counter one step on. -/
def tick (m : Machine) : Machine := { m with steps := Word.succ m.steps }

/-- The effect of a counted instruction, apart from logging it. -/
def perform (m : Machine) (events : List Event) (instr : Instr) : Visit :=
  match instr.op with
  | .inc =>
    match m.cell with
    | .error fault => .stopped m events (.crashed fault)
    | .ok value =>
      .moved (if value < m.config.maxValue then m.setCell (Word.succ value) else m) events []
  | .dec =>
    match m.cell with
    | .error fault => .stopped m events (.crashed fault)
    | .ok value => .moved (if 0 < value then m.setCell (Word.pred value) else m) events []
  | .left =>
    if 0 < m.pointer then .moved { m with pointer := m.pointer - 1 } events []
    else .moved m (events ++ [.leftEdge m.steps]) []
  | .right =>
    if m.pointer < m.memory.size - 1 then .moved { m with pointer := m.pointer + 1 } events []
    else .moved m (events ++ [.rightEdge m.steps m.pointer]) []
  | .print =>
    match m.cell with
    | .error fault => .stopped m events (.crashed fault)
    | .ok value => .moved { m with output := m.output.push (Word.low value) } events []
  | .loop =>
    match m.cell with
    | .error fault => .stopped m events (.crashed fault)
    | .ok value =>
      if value = 0 then .moved m events []
      else if instr.body.isEmpty then
        -- an empty body never changes the cell, so the limit is reached without running up to it
        let halted := { m with steps := Word.succ m.config.maxSteps }
        .stopped halted events (.halted ⟨halted.steps, m.config.maxSteps, .loop⟩)
      else .moved m events [⟨instr.body, instr.body⟩]
  | .unknown _ _ => .moved m events []

/-- Visits an instruction: counts the step, checks it against the limit, logs it if every step is to
be logged, and performs it. -/
def visit (m : Machine) (instr : Instr) : Visit :=
  let m := m.tick
  if m.config.maxSteps < m.steps then
    .stopped m [] (.halted ⟨m.steps, m.config.maxSteps, instr.op⟩)
  else if m.config.debug then
    match m.view viewSize with
    | .error fault => .stopped m [] (.crashed fault)
    | .ok memory => m.perform [.step m.steps instr.op m.pointer memory] instr
  else m.perform [] instr

end Machine

/-- What a run leaves behind. -/
structure Execution where
  machine : Machine
  log : Array Event
  ending : Ending

namespace Machine

/-- Runs what is left to do for at most `fuel` instructions. -/
def run : (fuel : Nat) → List Level → Machine → Array Event → Execution
  | 0, _, m, log => ⟨m, log, .crashed .endless⟩
  | fuel + 1, levels, m, log =>
    match Level.next? m.cell levels with
    | .error fault => ⟨m, log, .crashed fault⟩
    | .ok none => ⟨m, log, .finished⟩
    | .ok (some (instr, levels)) =>
      match m.visit instr with
      | .stopped m events ending => ⟨m, log ++ events, ending⟩
      | .moved m events entered => run fuel (entered ++ levels) m (log ++ events)

/-- A number of instructions that a run cannot exceed: each visit counts one step, and the counter
passes the limit after the steps left. Where the counter can wrap around before it passes the limit,
the number of all words stands in for a bound that does not exist. -/
def budget (m : Machine) : Nat :=
  if m.steps ≤ m.config.maxSteps ∧ m.config.maxSteps < Word.max then
    (m.config.maxSteps - m.steps).toNat + 1
  else Nat.pow 2 64

/-- Runs a program on the machine. -/
def execute (m : Machine) (program : Program) : Execution :=
  m.run m.budget [⟨program, []⟩] #[]

end Machine

end TapeAsm
