/-!
# The virtual clock

Time stands still while anything can happen by itself and then jumps to the
next thing that is due.
-/

namespace ChainArchive.Trial
set_option autoImplicit false

variable {τ : Type}

/-- Lets things happen until `stop` holds or the clock may not go on. `rest` does all that can happen now, and `jump`
moves the clock to the next thing that is due. -/
def elapse (rest : τ → τ) (jump : τ → Option τ) (stop : τ → Bool) : Nat → τ → τ
  | 0, s => rest s
  | fuel + 1, s =>
    let s := rest s
    if stop s then s
    else
      match jump s with
      | some s => elapse rest jump stop fuel s
      | none => s

/-- The first of those that are due earliest. -/
def earliest {α : Type} (due : α → Nat) : List α → Option α
  | [] => none
  | a :: rest =>
    match earliest due rest with
    | none => some a
    | some b => if due a ≤ due b then some a else some b

end ChainArchive.Trial
