import ChainArchive.World

/-!
# Turns

Between two places where it waits, the task of an item is alone with what it
shares: nothing else happens there. A turn is an action together with all that
the item which it concerns does until it waits again. Walkers and drivers may be
interrupted anywhere.
-/

namespace ChainArchive.World
set_option autoImplicit false

/-- The item whose task an action concerns, if it concerns one. -/
def Action.item? : Action → Option Task
  | .go (.item run item) => some (.item run item)
  | .signal run item _ => some (.item run item)
  | _ => none

/-- Nothing more belongs to the turn, or a task goes on until it waits. -/
inductive Finishes : Option Task → World → World → Prop
  | nobody (w : World) : Finishes none w w
  | task {task : Task} {w v : World} : Settles (fun w => w.advance task) w v → Finishes (some task) w v

/-- One turn. -/
inductive Turn : World → Action → World → Prop
  | mk {w v u : World} {action : Action} : w.step action = some v → Finishes action.item? v u → Turn w action u

end ChainArchive.World
