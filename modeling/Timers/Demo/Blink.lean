import Timers.System.Basic

/-! Two lamps on one scheduler. The fast one blinks for ever. The slow one gives up after
five blinks and starts a farewell. The loop that drives them skips ticks in which nothing
is due. -/

namespace Timers.Demo.Blink

inductive Handler where
  | fast
  | slow (farewell : TimerId) (blinks : Nat)
  | farewell

abbrev Act := Program Handler Bool (List String)

def padded (width : Nat) (text : String) : String :=
  String.ofList (List.replicate (width - text.length) ' ') ++ text

def say (text : String) : Act Unit := do
  let now ← Program.summary
  let _ ← Program.shared (· ++ ["tick " ++ padded 3 (toString now.tick.toNat) ++ ": " ++ text])
  return ()

def onOff (lit : Bool) : String := if lit then "on" else "off"

def react : Reaction Handler Bool (List String)
  | .fast, _, lit => do
    say ("fast led " ++ onOff (!lit))
    return (.fast, !lit)
  | .slow farewell blinks, id, lit => do
    say ("slow led " ++ onOff (!lit))
    if blinks + 1 = 5 then
      if let .ok _ ← Program.stop id then
        let _ ← Program.start farewell 2 false
    return (.slow farewell (blinks + 1), !lit)
  | .farewell, _, lit => do
    say "slow led done"
    return (.farewell, lit)

/-- Advances to where the next timer is due, until the fiftieth tick is reached. -/
def loop : Nat → Act Unit
  | 0 => return ()
  | rounds + 1 => do
    let now ← Program.summary
    if now.tick < 50 then
      if let some wait := now.ticksUntilNext then
        let _ ← Program.advanceTicks (max wait.toNat 1)
        loop rounds

def program : Act Unit := do
  let fast ← Program.add .fast false
  let farewell ← Program.add .farewell false
  let slow ← Program.add (.slow farewell 0) false
  let _ ← Program.start fast 3 true
  let _ ← Program.start slow 7 true
  loop 50

/-- What is printed: a line for every blink, and the scheduler at the end. -/
def lines : List String :=
  let system : System Handler Bool (List String) := ⟨.ofConfig { capacity := 4 }, []⟩
  match system.run react 50 program with
  | some (_, final) => final.shared ++ [final.scheduler.summary.shown.inlineText]
  | none => []

end Timers.Demo.Blink
