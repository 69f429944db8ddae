import FastWebServer.Library.Runs

/-!
# First in, first out

The machine of a queue: what arrives waits behind what waits already, and what is
served is the first that waits. `Reachable.inOrder` says that at any moment what has
been served, followed by what waits, is what has arrived. A system whose queue is in
several places refines this machine along the map that puts the places together.
-/

set_option autoImplicit false

namespace Fifo

open Runs

universe u

variable {Item : Type u}

/-- A queue with its history. -/
structure Queue (Item : Type u) where
  arrived : List Item
  waiting : List Item
  served : List Item

/-- The steps of a queue. -/
inductive Step : Queue Item → Queue Item → Prop where
  | arrive (queue : Queue Item) (item : Item) :
      Step queue { queue with
        arrived := queue.arrived ++ [item]
        waiting := queue.waiting ++ [item] }
  | serve {queue : Queue Item} {item : Item} {rest : List Item}
      (first : queue.waiting = item :: rest) :
      Step queue { queue with waiting := rest, served := queue.served ++ [item] }

/-- The machine of a queue, which is empty at the start. -/
def machine (Item : Type u) : Machine (Queue Item) where
  start queue := queue = { arrived := [], waiting := [], served := [] }
  step := Step

/-- **Items are served once each and in the order of their arrival.** -/
theorem Reachable.inOrder {queue : Queue Item} (reachable : (machine Item).Reachable queue) :
    queue.served ++ queue.waiting = queue.arrived := by
  refine reachable.induction (fun queue => queue.served ++ queue.waiting = queue.arrived) ?_ ?_
  · rintro _ rfl
    rfl
  · intro queue next _ inOrder step
    cases step with
    | arrive item =>
        show queue.served ++ (queue.waiting ++ [item]) = queue.arrived ++ [item]
        rw [← List.append_assoc, inOrder]
    | @serve item rest first =>
        show queue.served ++ [item] ++ rest = queue.arrived
        rw [← inOrder, first, List.append_assoc, List.singleton_append]

end Fifo
