import AppDriver.Lifecycle.BuiltIn

/-!
The protocols in effect: one for every kind, the built-in one unless a custom protocol replaces it.
-/

namespace AppDriver

/-- The custom protocols, latest first. -/
structure ProtocolSet where
  custom : List (ComponentKind × Protocol) := []
deriving DecidableEq, Repr

namespace ProtocolSet

/-- Replaces the protocol of the kind that `p` is for. -/
def insert (s : ProtocolSet) (p : Protocol) : ProtocolSet := ⟨(p.kind, p) :: s.custom⟩

/-- The protocol of a kind. -/
def get (s : ProtocolSet) (k : ComponentKind) : Protocol :=
  (s.custom.lookup k).getD (Protocol.builtIn k)

theorem get_insert (s : ProtocolSet) (p : Protocol) (k : ComponentKind) :
    (s.insert p).get k = if k = p.kind then p else s.get k := by
  by_cases h : k = p.kind
  · simp [get, insert, h]
  · have h' : (k == p.kind) = false := by simpa using h
    simp [get, insert, List.lookup_cons, h, h']

end ProtocolSet
end AppDriver
