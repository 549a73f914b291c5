import AppDriver.Lifecycle.Protocol
import AppDriver.Sorting

/-!
The canonical order of a protocol: of the steps whose predecessors are all placed, the one with the
least phase, and of those the one declared first, is placed next. Steps that this never reaches lie
on a cycle or behind one; they follow in declaration order.

The order is found by counting: a step waits in a queue from the moment on when no arc from a step
that is still to come leads to it.
-/

namespace AppDriver.Protocol

/-- Whether all predecessors of the step at index `i` are placed. -/
def isReady (p : Protocol) (placed : List Nat) (i : Nat) : Bool :=
  (List.range p.steps.length).all fun a => !p.precedes a i || placed.contains a

/-- The steps that can be placed next, in declaration order. -/
def ready (p : Protocol) (placed : List Nat) : List Nat :=
  (List.range p.steps.length).filter fun i => !placed.contains i && p.isReady placed i

/-- Whether the step at index `i` belongs to a phase. -/
def inPhase (p : Protocol) (phase : Phase) (i : Nat) : Bool :=
  (p.steps[i]?).any (·.phase == phase)

/-- The step to place next: the first ready one of the least phase. -/
def next? (p : Protocol) (placed : List Nat) : Option Nat :=
  let ready := p.ready placed
  Phase.all.findSome? fun phase => ready.find? (p.inPhase phase)

/-- Places up to `n` more steps, one after the other. -/
def placeMore (p : Protocol) : Nat → List Nat → List Nat
  | 0, placed => placed
  | n + 1, placed =>
    match p.next? placed with
    | none => placed
    | some i => p.placeMore n (placed ++ [i])

/-- The steps that can be placed, in the order of their placement. -/
def reached (p : Protocol) : List Nat := p.placeMore p.steps.length []

/-- The steps that cannot be placed, in declaration order. -/
def unreached (p : Protocol) : List Nat :=
  (List.range p.steps.length).filter fun i => !p.reached.contains i

/-- Whether the required order has a cycle: then, and only then, some step cannot be placed. -/
def isCyclic (p : Protocol) : Bool := !p.unreached.isEmpty

/-- The rank of the phase of the step at an index. -/
def rankAt (p : Protocol) (i : Nat) : Nat := (p.steps[i]?).elim 0 (·.phase.rank)

/-- Whether a step may leave the queue before another one: by phase, then by declaration. -/
def goesFirst (p : Protocol) (i j : Nat) : Bool :=
  p.rankAt i < p.rankAt j || p.rankAt i == p.rankAt j && i ≤ j

/-- Whether the phase of the step at index `a` is the one before that of the step at `b`. -/
def phasePrecedes (p : Protocol) (a b : Nat) : Bool :=
  match p.steps[a]?, p.steps[b]? with
  | some s, some t => s.phase.next? == some t.phase
  | _, _ => false

/-- The arcs of the graph of steps: the edges between existing ones, and an arc from every step to
every step of the next phase. Several arcs can join the same steps. -/
def arcs (p : Protocol) : List (Nat × Nat) :=
  let indices := List.range p.steps.length
  p.edges.filter (fun e => e.1 < p.steps.length && e.2 < p.steps.length) ++
    indices.flatMap fun a => (indices.filter (p.phasePrecedes a)).map (a, ·)

/-- Where the arcs from a step lead, once for every arc. -/
def successors (p : Protocol) (i : Nat) : List Nat :=
  (p.arcs.filter (·.1 == i)).map (·.2)

/-- The number of arcs that lead to a step. -/
def inDegree (p : Protocol) (i : Nat) : Nat := p.arcs.countP (·.2 == i)

/-- How many arcs still lead to each step, and the steps to which none does, in order. -/
structure Countdown where
  degrees : List Nat
  queue : List Nat
deriving Repr

/-- The countdown before any step is placed. -/
def countdown (p : Protocol) : Countdown where
  degrees := (List.range p.steps.length).map p.inDegree
  queue := sorted p.goesFirst <| (List.range p.steps.length).filter fun i => p.inDegree i == 0

/-- Takes away one arc that leads to a step; after the last one the step is queued. -/
def release (p : Protocol) (c : Countdown) (i : Nat) : Countdown :=
  let degrees := c.degrees.modify i (· - 1)
  if degrees[i]? = some 0 then ⟨degrees, insertInOrder p.goesFirst i c.queue⟩
  else ⟨degrees, c.queue⟩

/-- Takes up to `n` steps off the queue, one after the other, and releases their successors. -/
def takeMore (p : Protocol) : Nat → Countdown → List Nat
  | 0, _ => []
  | n + 1, c =>
    match c.queue with
    | [] => []
    | i :: queue => i :: p.takeMore n ((p.successors i).foldl p.release ⟨c.degrees, queue⟩)

/-- The steps that leave the queue, in the order in which they do. -/
def taken (p : Protocol) : List Nat := p.takeMore p.steps.length p.countdown

/-- The indices of all steps in canonical order. -/
def canonicalIndices (p : Protocol) : List Nat :=
  p.taken ++ (List.range p.steps.length).filter fun i => !p.taken.contains i

/-- The steps in canonical order. -/
def canonicalOrder (p : Protocol) : List LifecycleStep :=
  p.canonicalIndices.filterMap (p.steps[·]?)

end AppDriver.Protocol
