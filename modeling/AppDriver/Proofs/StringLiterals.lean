import Mathlib.Data.List.Basic

/-!
What a string literal of a source denotes. A text is read as code units of 16 bits, twice: first
`\` and `u` with four digits stand for a unit, then in a literal `\` begins an escape. A text that is
put between quotes as it stands denotes itself exactly if it has no quote, no backslash and no end of
a line; otherwise the literal denotes something shorter, or it is none.
-/

namespace AppDriver.Java

/-- The code units of a character: one, or a pair of surrogates. -/
def unitsOf (c : Char) : List Nat :=
  if c.toNat < 0x10000 then [c.toNat]
  else [0xD800 + (c.toNat - 0x10000) / 0x400, 0xDC00 + (c.toNat - 0x10000) % 0x400]

/-- The code units of a text. -/
def units (s : String) : List Nat := s.toList.flatMap unitsOf

def backslash : Nat := 0x5C

/-- The units that cannot stand for themselves in a literal: the quote, the backslash and the ends
of a line. -/
def delimiters : List Nat := [0x22, backslash, 0x0A, 0x0D]

/-- A reader of units, with what it writes for each of them and at the end, unless it fails. -/
structure Reader (σ : Type) where
  step : σ → Nat → Option (List Nat × σ)
  finish : σ → Option (List Nat)

/-- What a reader writes for some units. -/
def Reader.read (r : Reader σ) : σ → List Nat → Option (List Nat)
  | s, [] => r.finish s
  | s, u :: us =>
    match r.step s u with
    | none => none
    | some (out, s) => (r.read s us).map (out ++ ·)

/-! ### Units that are written by number -/

/-- The value of a hexadecimal digit. -/
def hexDigit? (u : Nat) : Option Nat :=
  if 0x30 ≤ u ∧ u ≤ 0x39 then some (u - 0x30)
  else if 0x41 ≤ u ∧ u ≤ 0x46 then some (u - 0x37)
  else if 0x61 ≤ u ∧ u ≤ 0x66 then some (u - 0x57)
  else none

/-- Where in a unit that is written by number a text is read: after a backslash that can begin one,
after its marks, or after some of its digits. -/
inductive NumberState where
  | text
  | slash
  | marked
  | digits (count value : Nat)

/-- Reads units that are written by number. Of two backslashes in a row neither begins one. -/
def numbered : Reader NumberState where
  step
    | .text, u => some (if u = backslash then ([], .slash) else ([u], .text))
    | .slash, u => some (if u = 0x75 then ([], .marked) else ([backslash, u], .text))
    | .marked, u =>
      if u = 0x75 then some ([], .marked) else (hexDigit? u).map fun d => ([], .digits 1 d)
    | .digits count value, u => (hexDigit? u).map fun d =>
      if count = 3 then ([value * 16 + d], .text) else ([], .digits (count + 1) (value * 16 + d))
  finish
    | .text => some []
    | .slash => some [backslash]
    | .marked | .digits _ _ => none

/-! ### Escapes -/

/-- The value of an octal digit. -/
def octalDigit? (u : Nat) : Option Nat := if 0x30 ≤ u ∧ u ≤ 0x37 then some (u - 0x30) else none

/-- What a letter or a delimiter after a backslash stands for. -/
def escapes : List (Nat × Nat) :=
  [(0x62, 0x08), (0x73, 0x20), (0x74, 0x09), (0x6E, 0x0A), (0x66, 0x0C), (0x72, 0x0D),
   (0x22, 0x22), (0x27, 0x27), (backslash, backslash)]

/-- Where in an escape a literal is read: after the backslash, or in a number that can have some
more digits. -/
inductive EscapeState where
  | text
  | slash
  | octal (more value : Nat)

/-- A unit that is no part of an escape. -/
def plainUnit (u : Nat) : Option (List Nat × EscapeState) :=
  if u = backslash then some ([], .slash)
  else if delimiters.contains u then none
  else some ([u], .text)

/-- Reads the escapes of a literal. -/
def escaped : Reader EscapeState where
  step
    | .text, u => plainUnit u
    | .slash, u =>
      match octalDigit? u with
      | some d => some ([], .octal (if d ≤ 3 then 2 else 1) d)
      | none => (escapes.lookup u).map fun v => ([v], .text)
    | .octal more value, u =>
      match octalDigit? u with
      | some d =>
        some (if more = 1 then ([value * 8 + d], .text) else ([], .octal (more - 1) (value * 8 + d)))
      | none => (plainUnit u).map fun next => (value :: next.1, next.2)
  finish
    | .text => some []
    | .slash => none
    | .octal _ value => some [value]

/-- The units that a literal denotes, given the text between its quotes. -/
def literalValue? (body : String) : Option (List Nat) :=
  (numbered.read .text (units body)).bind (escaped.read .text)

/-- Whether a literal with this text between its quotes denotes exactly this string. -/
def Spells (body string : String) : Prop := literalValue? body = some (units string)

instance (body string : String) : Decidable (Spells body string) :=
  inferInstanceAs (Decidable (literalValue? body = some (units string)))

/-- Whether a text can be put between quotes as it stands. -/
def IsVerbatim (s : String) : Prop := ∀ c ∈ s.toList, c ∉ ['"', '\\', '\n', '\r']

instance (s : String) : Decidable (IsVerbatim s) := List.decidableBAll _ _

/-! ### Readers never write more than they read -/

/-- If no step writes more than what is pending and the unit it reads, no text does. -/
theorem Reader.length_read {r : Reader σ} (pending : σ → Nat)
    (hstep : ∀ s u next, r.step s u = some next →
      next.1.length + pending next.2 ≤ pending s + 1)
    (hfinish : ∀ s out, r.finish s = some out → out.length ≤ pending s) {us out : List Nat} {s : σ}
    (h : r.read s us = some out) : out.length ≤ pending s + us.length := by
  induction us generalizing s out with
  | nil => exact hfinish s out h
  | cons u us ih =>
      rw [read] at h
      split at h
      · cases h
      · rename_i first s' hnext
        obtain ⟨rest, hrest, rfl⟩ := Option.map_eq_some_iff.1 h
        have hfirst := hstep s u _ hnext
        have hlength := ih hrest
        simp only [List.length_append, List.length_cons] at hfirst ⊢
        omega

/-- The units that have been read and can still be written. -/
def NumberState.pending : NumberState → Nat
  | .text => 0
  | .slash => 1
  | .marked => 2
  | .digits count _ => count + 2

theorem length_numbered {us out : List Nat} (h : numbered.read .text us = some out) :
    out.length ≤ us.length := by
  have hlength := Reader.length_read NumberState.pending (fun s u next hnext => ?_) ?_ h
  · simpa [NumberState.pending] using hlength
  · cases s with
    | text | slash =>
        simp only [numbered, Option.some.injEq] at hnext
        subst hnext
        split <;> simp [NumberState.pending]
    | marked =>
        simp only [numbered] at hnext
        split at hnext
        · cases hnext
          simp [NumberState.pending]
        · obtain ⟨d, -, rfl⟩ := Option.map_eq_some_iff.1 hnext
          simp [NumberState.pending]
    | digits count value =>
        obtain ⟨d, -, rfl⟩ := Option.map_eq_some_iff.1 hnext
        split
        · simp [NumberState.pending]
        · simp only [NumberState.pending, List.length_nil]
          omega
  · intro s out hout
    cases s <;> simp only [numbered, Option.some.injEq, reduceCtorEq] at hout <;>
      simp [← hout, NumberState.pending]

/-- An escape is written only after one more unit than it has itself. -/
def EscapeState.pending : EscapeState → Nat
  | .text | .slash => 0
  | .octal _ _ => 1

theorem plainUnit_pending {u : Nat} {next : List Nat × EscapeState} (h : plainUnit u = some next) :
    next.1.length + next.2.pending ≤ 1 := by
  unfold plainUnit at h
  split at h
  · cases h
    simp [EscapeState.pending]
  · split at h <;> cases h
    simp [EscapeState.pending]

theorem length_escaped {us out : List Nat} {s : EscapeState} (h : escaped.read s us = some out) :
    out.length ≤ s.pending + us.length := by
  refine Reader.length_read EscapeState.pending (fun s u next hnext => ?_) ?_ h
  · cases s with
    | text =>
        have hplain := plainUnit_pending hnext
        simp only [EscapeState.pending] at hplain ⊢
        omega
    | slash =>
        simp only [escaped] at hnext
        split at hnext
        · cases hnext
          simp [EscapeState.pending]
        · obtain ⟨v, -, rfl⟩ := Option.map_eq_some_iff.1 hnext
          simp [EscapeState.pending]
    | octal more value =>
        simp only [escaped] at hnext
        split at hnext
        · cases hnext
          split <;> simp [EscapeState.pending]
        · obtain ⟨next', hplain, rfl⟩ := Option.map_eq_some_iff.1 hnext
          have hpending := plainUnit_pending hplain
          simp only [EscapeState.pending, List.length_cons] at hpending ⊢
          omega
  · intro s out hout
    cases s <;> simp only [escaped, Option.some.injEq, reduceCtorEq] at hout <;>
      simp [← hout, EscapeState.pending]

/-! ### Texts that denote themselves -/

/-- A literal that denotes as many units as it has contains no escape. -/
theorem eq_of_length_escaped {us out : List Nat} (h : escaped.read .text us = some out)
    (hlength : us.length ≤ out.length) : out = us ∧ ∀ u ∈ us, u ∉ delimiters := by
  induction us generalizing out with
  | nil =>
      cases h
      exact ⟨rfl, fun u hu => (List.not_mem_nil hu).elim⟩
  | cons u us ih =>
      simp only [Reader.read, escaped, plainUnit] at h
      split at h
      · cases h
      · rename_i first s hnext
        obtain ⟨rest, hrest, rfl⟩ := Option.map_eq_some_iff.1 h
        split at hnext
        · cases hnext
          have hrest' := length_escaped (s := .slash) hrest
          simp only [EscapeState.pending, List.nil_append, List.length_cons] at hrest' hlength
          omega
        · split at hnext
          · cases hnext
          · rename_i hplain
            cases hnext
            obtain ⟨rfl, hall⟩ := ih hrest (by simpa using hlength)
            exact ⟨rfl, List.forall_mem_cons.2 ⟨by simpa using hplain, hall⟩⟩

theorem numbered_of_plain {us : List Nat} (h : ∀ u ∈ us, u ∉ delimiters) :
    numbered.read .text us = some us := by
  induction us with
  | nil => rfl
  | cons u us ih =>
      obtain ⟨hu, hus⟩ := List.forall_mem_cons.1 h
      have hslash : u ≠ backslash := fun heq => hu (by simp [heq, delimiters])
      rw [Reader.read]
      simp only [numbered, if_neg hslash]
      change (numbered.read .text us).map _ = _
      rw [ih hus]
      rfl

theorem escaped_of_plain {us : List Nat} (h : ∀ u ∈ us, u ∉ delimiters) :
    escaped.read .text us = some us := by
  induction us with
  | nil => rfl
  | cons u us ih =>
      obtain ⟨hu, hus⟩ := List.forall_mem_cons.1 h
      have hslash : u ≠ backslash := fun heq => hu (by simp [heq, delimiters])
      have hplain : escaped.step .text u = some ([u], .text) := by
        simp [escaped, plainUnit, hslash, hu]
      rw [Reader.read, hplain]
      simp [ih hus]

theorem delimiter_mem_unitsOf {c : Char} {u : Nat} (hu : u ∈ delimiters) :
    u ∈ unitsOf c ↔ c.toNat = u := by
  have hsmall : u < 0x80 := by
    revert u
    decide
  unfold unitsOf
  split
  · rw [List.mem_singleton, eq_comm]
  · simp only [List.mem_cons, List.not_mem_nil, or_false]
    omega

theorem isVerbatim_iff (s : String) : IsVerbatim s ↔ ∀ u ∈ units s, u ∉ delimiters := by
  have hchar : ∀ c : Char, c ∈ ['"', '\\', '\n', '\r'] ↔ c.toNat ∈ delimiters := by
    intro c
    have htoNat : ∀ d : Char, c = d ↔ c.toNat = d.toNat := fun d =>
      ⟨congrArg _, fun h => Char.toNat_inj.1 h⟩
    simp only [List.mem_cons, List.not_mem_nil, or_false, htoNat, delimiters, backslash]
    exact Iff.rfl
  simp only [IsVerbatim, hchar, units, List.mem_flatMap]
  constructor
  · rintro h u ⟨c, hc, huc⟩ hu
    exact h c hc ((delimiter_mem_unitsOf hu).1 huc ▸ hu)
  · intro h c hc hu
    exact h c.toNat ⟨c, hc, (delimiter_mem_unitsOf hu).2 rfl⟩ hu

/-- A text between quotes denotes itself exactly if it can be put there as it stands: an escape would
make it shorter. -/
theorem spells_self_iff (s : String) : Spells s s ↔ IsVerbatim s := by
  rw [isVerbatim_iff, Spells, literalValue?]
  constructor
  · intro h
    obtain ⟨mid, hmid, hout⟩ := Option.bind_eq_some_iff.1 h
    obtain ⟨rfl, hplain⟩ := eq_of_length_escaped hout (length_numbered hmid)
    exact hplain
  · intro h
    rw [numbered_of_plain h, Option.bind_some, escaped_of_plain h]

example : Spells "a\\u005c\"b\\101\\t" "a\"bA\t" := by decide +kernel

end AppDriver.Java
