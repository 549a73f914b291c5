import AppDriver.Component

/-!
Lifecycle protocols: the lifecycle methods that the framework calls on one kind of component,
partially ordered. A step belongs to a phase, and every step of a phase happens before every step
of the next phase; explicit edges add to that.
-/

namespace AppDriver

/-- The coarse phases of a component's life. -/
inductive Phase where
  | create | active | teardown
deriving DecidableEq, Repr

namespace Phase

def all : List Phase := [.create, .active, .teardown]

def name : Phase → String
  | .create => "create"
  | .active => "active"
  | .teardown => "teardown"

/-- The phase with exactly this name. -/
def ofName? (s : String) : Option Phase := all.find? fun p => p.name == s

/-- The place of a phase in time. -/
def rank : Phase → Nat
  | .create => 0
  | .active => 1
  | .teardown => 2

/-- The phase that follows. -/
def next? : Phase → Option Phase
  | .create => some .active
  | .active => some .teardown
  | .teardown => none

theorem ofName?_name (p : Phase) : ofName? p.name = some p := by cases p <;> decide

theorem rank_injective {p q : Phase} (h : p.rank = q.rank) : p = q := by
  revert h
  cases p <;> cases q <;> decide

end Phase

/-- One lifecycle method that the framework calls. -/
structure LifecycleStep where
  method : Signature
  phase : Phase
deriving DecidableEq, Repr

/-- The lifecycle of one kind of component. An edge `(a, b)` says that the step at index `a`
happens before the step at index `b`. -/
structure Protocol where
  kind : ComponentKind
  steps : List LifecycleStep := []
  edges : List (Nat × Nat) := []
deriving DecidableEq, Repr

/-- What is wrong with a protocol. -/
inductive ProtocolFault where
  | unknownStep (name : String)
  | emptyName (kind : ComponentKind) (index : Nat)
  | duplicateStep (kind : ComponentKind) (method : Signature)
  | missingStep (kind : ComponentKind) (before after : Nat)
  | backwardEdge (kind : ComponentKind) (before after : LifecycleStep)
  | cyclic (kind : ComponentKind)
deriving DecidableEq, Repr

def ProtocolFault.message : ProtocolFault → String
  | .unknownStep name => "no lifecycle step named '" ++ name ++ "'"
  | .emptyName k i => k.name ++ " protocol: step " ++ toString i ++ " has an empty name"
  | .duplicateStep k m => k.name ++ " protocol: duplicate step " ++ m.display
  | .missingStep k a b =>
    k.name ++ " protocol: edge " ++ toString a ++ " -> " ++ toString b ++
      " references a missing step"
  | .backwardEdge k a b =>
    k.name ++ " protocol: " ++ a.method.display ++ " (" ++ a.phase.name ++
      ") cannot happen before " ++ b.method.display ++ " (" ++ b.phase.name ++ ")"
  | .cyclic k => k.name ++ " protocol: happens-before cycle"

namespace Protocol

/-- Adds a step at the end. -/
def addStep (p : Protocol) (phase : Phase) (method : Signature) : Protocol :=
  { p with steps := p.steps ++ [⟨method, phase⟩] }

/-- Adds the edge that says the step at `before` happens before the step at `after`. -/
def addEdge (p : Protocol) (before after : Nat) : Protocol :=
  { p with edges := p.edges ++ [(before, after)] }

/-- The index of the first step of this name. -/
def indexOf? (p : Protocol) (name : String) : Option Nat :=
  p.steps.findIdx? (·.method.name == name)

/-- The indices of the named steps, or the first name without a step. -/
def indices (p : Protocol) : List String → Except ProtocolFault (List Nat)
  | [] => .ok []
  | name :: names =>
    match p.indexOf? name with
    | none => .error (.unknownStep name)
    | some i => (p.indices names).map (i :: ·)

/-- The pairs of neighbours in a list. -/
def links : List Nat → List (Nat × Nat)
  | a :: b :: rest => (a, b) :: links (b :: rest)
  | _ => []

/-- Adds the edges of a chain of step indices: each happens before the next. -/
def link (p : Protocol) (chain : List Nat) : Protocol :=
  { p with edges := p.edges ++ links chain }

/-- Adds the edges of a chain of named steps. -/
def chain (p : Protocol) (names : List String) : Except ProtocolFault Protocol :=
  (p.indices names).map p.link

/-- The step that a method takes: the first with its signature, else the first of its name. -/
def lookup? (p : Protocol) (m : Signature) : Option LifecycleStep :=
  (p.steps.find? (·.method.same m)).or (p.steps.find? (·.method.name == m.name))

/-- Whether the step at index `a` is required to happen directly before the one at `b`: by an edge
between existing steps, or because its phase is the one before. -/
def precedes (p : Protocol) (a b : Nat) : Bool :=
  match p.steps[a]?, p.steps[b]? with
  | some s, some t => p.edges.contains (a, b) || s.phase.next? == some t.phase
  | _, _ => false

end Protocol
end AppDriver
