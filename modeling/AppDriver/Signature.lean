import AppDriver.TypeName

/-!
Method signatures. Two signatures denote the same override if they agree in name and parameters;
the return type is carried along and never compared.
-/

namespace AppDriver

/-- A method: its name, its parameter types in order, and its return type where known. -/
structure Signature where
  name : String
  params : List TypeName := []
  returns : Option TypeName := none
deriving DecidableEq, Repr

namespace Signature

def arity (m : Signature) : Nat := m.params.length

/-- What identifies an override: the name and the parameter types. -/
def key (m : Signature) : String × List TypeName := (m.name, m.params)

/-- Whether two signatures denote the same override. -/
def same (a b : Signature) : Bool := a.key == b.key

/-- The name with the parameter types in parentheses: `onTouch(android.view.View,int)`. -/
def display (m : Signature) : String :=
  m.name ++ "(" ++ ",".intercalate (m.params.map (·.text)) ++ ")"

theorem same_iff {a b : Signature} : a.same b = true ↔ a.name = b.name ∧ a.params = b.params := by
  simp [same, key, Prod.ext_iff]

theorem same_refl (m : Signature) : m.same m = true := same_iff.2 ⟨rfl, rfl⟩

theorem same_comm (a b : Signature) : a.same b = b.same a := by
  rw [Bool.eq_iff_iff, same_iff, same_iff, eq_comm, eq_comm (a := a.params)]

theorem same_trans {a b c : Signature} (hab : a.same b = true) (hbc : b.same c = true) :
    a.same c = true := by
  obtain ⟨hname, hparams⟩ := same_iff.1 hab
  obtain ⟨hname', hparams'⟩ := same_iff.1 hbc
  exact same_iff.2 ⟨hname.trans hname', hparams.trans hparams'⟩

end Signature
end AppDriver
