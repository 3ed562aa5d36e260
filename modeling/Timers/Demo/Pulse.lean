import Timers.System.Basic

/-! A timer that stops itself at its third expiry, watched through the scheduler's feed. -/

namespace Timers.Demo.Pulse

def react : Reaction Unit Nat Unit := fun handler id count => do
  if count + 1 = 3 then
    let _ ← Program.stop id
  return (handler, count + 1)

def program : Program Unit Nat Unit Unit := do
  let _ ← Program.takeReporter
  let pulse ← Program.add () 0
  let _ ← Program.start pulse 4 true
  let _ ← Program.advanceTicks 20
  return ()

/-- What is printed: the events, in the order of their publication. -/
def lines : List String :=
  let system : System Unit Nat Unit := ⟨.ofConfig { reporting := true }, ()⟩
  match system.run react 20 program with
  | some (_, final) =>
    match final.scheduler.close with
    | some feed => feed.waiting.map (·.shown.inlineText)
    | none => []
  | none => []

end Timers.Demo.Pulse
