import AppDriver.StandIn.Registry
import Mathlib.Data.List.Infix

/-! How a store grows. The arena and the list of components are only extended and a table only gains
keys that it did not have, so whatever a store answers, every store grown from it answers as well. A
sound store has no dangling reference in its tables, and its plain values and its shared objects
agree: an object that is shared as one of a plain type is the value of that type. -/

namespace AppDriver

/-- A table with all the answers of another one. -/
def Keeps [BEq κ] (table table' : List (κ × α)) : Prop :=
  ∀ k v, table.lookup k = some v → table'.lookup k = some v

theorem Keeps.refl [BEq κ] (table : List (κ × α)) : Keeps table table := fun _ _ h => h

theorem Keeps.trans [BEq κ] {a b c : List (κ × α)} (h : Keeps a b) (h' : Keeps b c) :
    Keeps a c := fun k v hk => h' k v (h k v hk)

theorem keeps_cons [BEq κ] [LawfulBEq κ] {k : κ} {table : List (κ × α)}
    (hnew : table.lookup k = none) (v : α) : Keeps table ((k, v) :: table) := by
  intro k' v' hk'
  have hne : (k' == k) = false := by
    rw [beq_eq_false_iff_ne]
    rintro rfl
    rw [hnew] at hk'
    cases hk'
  rw [List.lookup_cons, hne]
  exact hk'

/-- Removing entries of other keys does not change an answer. -/
theorem lookup_filter {table : List (TypeName × α)} {p : TypeName → Bool} {t : TypeName}
    (h : p t = true) : (table.filter fun e => p e.1).lookup t = table.lookup t := by
  induction table with
  | nil => rfl
  | cons e table ih =>
      obtain ⟨name, x⟩ := e
      cases hkept : p name with
      | true =>
          rw [List.filter_cons_of_pos (by exact hkept), List.lookup_cons, List.lookup_cons, ih]
      | false =>
          have hname : (t == name) = false := by
            rw [beq_eq_false_iff_ne]
            rintro rfl
            rw [h] at hkept
            cases hkept
          rw [List.filter_cons_of_neg (by simp [hkept]), List.lookup_cons, hname, ih]

namespace Store

/-- Whether a reference denotes a stand-in of the store. -/
def Has (s : Store) (r : StandInRef) : Prop := r.index < s.arena.length

def HasAll (s : Store) (rs : List StandInRef) : Prop := ∀ r ∈ rs, s.Has r

/-- The type of a stand-in. -/
def typeAt? (s : Store) (r : StandInRef) : Option TypeName := (s.get? r).map (·.typeName)

theorem Has.of_typeAt? {s : Store} {r : StandInRef} {t : TypeName} (h : s.typeAt? r = some t) :
    s.Has r := by
  obtain ⟨x, hx, -⟩ := Option.map_eq_some_iff.1 h
  exact (List.getElem?_eq_some_iff.1 hx).1

theorem Has.extend {s s' : Store} (harena : s.arena <+: s'.arena) {r : StandInRef} (h : s.Has r) :
    s'.Has r := Nat.lt_of_lt_of_le h harena.length_le

theorem typeAt?_extend {s s' : Store} (harena : s.arena <+: s'.arena) {r : StandInRef}
    {t : TypeName} (h : s.typeAt? r = some t) : s'.typeAt? r = some t := by
  obtain ⟨more, hmore⟩ := harena
  have hlt : r.index < s.arena.length := Has.of_typeAt? h
  rw [typeAt?, get?, ← hmore, List.getElem?_append_left hlt]
  exact h

/-! ### Growth -/

/-- One store is grown from another. -/
structure Grows (s s' : Store) : Prop where
  arena : s.arena <+: s'.arena
  declared : Keeps s.declared s'.declared
  byIdentifier : Keeps s.byIdentifier s'.byIdentifier
  ambients : Keeps s.ambients s'.ambients
  values : Keeps s.values s'.values
  typedNulls : Keeps s.typedNulls s'.typedNulls
  unresolved : Keeps s.unresolved s'.unresolved
  services : Keeps s.services s'.services
  derived : Keeps s.derived s'.derived
  components : s.components <+: s'.components

theorem Grows.refl (s : Store) : s.Grows s :=
  ⟨List.prefix_rfl, .refl _, .refl _, .refl _, .refl _, .refl _, .refl _, .refl _, .refl _,
    List.prefix_rfl⟩

theorem Grows.trans {a b c : Store} (h : a.Grows b) (h' : b.Grows c) : a.Grows c where
  arena := h.arena.trans h'.arena
  declared := h.declared.trans h'.declared
  byIdentifier := h.byIdentifier.trans h'.byIdentifier
  ambients := h.ambients.trans h'.ambients
  values := h.values.trans h'.values
  typedNulls := h.typedNulls.trans h'.typedNulls
  unresolved := h.unresolved.trans h'.unresolved
  services := h.services.trans h'.services
  derived := h.derived.trans h'.derived
  components := h.components.trans h'.components

theorem Grows.has {s s' : Store} (h : s.Grows s') {r : StandInRef} (hr : s.Has r) : s'.Has r :=
  hr.extend h.arena

/-- A stand-in stays as it is. -/
theorem Grows.get? {s s' : Store} (h : s.Grows s') {r : StandInRef} (hr : s.Has r) :
    s'.get? r = s.get? r := by
  obtain ⟨more, hmore⟩ := h.arena
  rw [Store.get?, ← hmore, List.getElem?_append_left hr]
  rfl

/-- The instance of a component class stays. -/
theorem Grows.component? {s s' : Store} (h : s.Grows s') {name : TypeName} {r : StandInRef}
    (hr : s.component? name = some r) : s'.component? name = some r := by
  obtain ⟨more, hmore⟩ := h.components
  obtain ⟨e, he, rfl⟩ := Option.map_eq_some_iff.1 hr
  rw [Store.component?, ← hmore, List.find?_append, he]
  rfl

/-! ### Sound stores -/

/-- Whether every entry of a table refers to a stand-in of the store. -/
def Fits (s : Store) (table : List (κ × StandInRef)) : Prop := ∀ e ∈ table, s.Has e.2

theorem Fits.extend {s s' : Store} (harena : s.arena <+: s'.arena)
    {table : List (κ × StandInRef)} (h : s.Fits table) : s'.Fits table :=
  fun e he => (h e he).extend harena

theorem Fits.lookup [BEq κ] [LawfulBEq κ] {s : Store} {table : List (κ × StandInRef)}
    (h : s.Fits table) {k : κ} {r : StandInRef} (hr : table.lookup k = some r) : s.Has r :=
  h (k, r) (Workshop.mem_of_lookup hr)

theorem fits_cons {s : Store} {table : List (κ × StandInRef)} (h : s.Fits table) (k : κ)
    {r : StandInRef} (hr : s.Has r) : s.Fits ((k, r) :: table) := by
  intro e he
  rcases List.mem_cons.1 he with rfl | he
  · exact hr
  · exact h e he

/-- The tables of a store fit its arena and each other. -/
structure Sound (s : Store) : Prop where
  byIdentifier : s.Fits s.byIdentifier
  ambients : s.Fits s.ambients
  typedNulls : s.Fits s.typedNulls
  unresolved : s.Fits s.unresolved
  services : s.Fits s.services
  derived : s.Fits s.derived
  components : s.Fits s.components
  values : ∀ t r, (t, r) ∈ s.values → s.typeAt? r = some t
  cycleBreaks : ∀ t r, (t, r) ∈ s.cycleBreaks → s.typeAt? r = some t ∧ t.isPlainValue = false
  plainAmbients : ∀ t r, (t, r) ∈ s.ambients → t.isPlainValue = true →
    s.values.lookup t = some r

theorem sound_empty : Sound {} := by
  constructor <;> simp [Fits]

theorem Sound.has_value {s : Store} (hs : s.Sound) {t : TypeName} {r : StandInRef}
    (h : s.values.lookup t = some r) : s.Has r :=
  .of_typeAt? (hs.values t r (Workshop.mem_of_lookup h))

theorem Sound.has_component {s : Store} (hs : s.Sound) {name : TypeName} {r : StandInRef}
    (h : s.component? name = some r) : s.Has r := by
  obtain ⟨e, he, rfl⟩ := Option.map_eq_some_iff.1 h
  exact hs.components e (List.mem_of_find?_eq_some he)

/-- A reference to a stand-in that, if it is of a plain type, is the value of this type. -/
def Holds (s : Store) (r : StandInRef) : Prop :=
  ∃ t, s.typeAt? r = some t ∧ (t.isPlainValue = true → s.values.lookup t = some r)

theorem Holds.has {s : Store} {r : StandInRef} (h : s.Holds r) : s.Has r := by
  obtain ⟨t, ht, -⟩ := h
  exact .of_typeAt? ht

theorem Holds.grow {s s' : Store} (hgrows : s.Grows s') {r : StandInRef} (h : s.Holds r) :
    s'.Holds r := by
  obtain ⟨t, ht, hvalue⟩ := h
  exact ⟨t, typeAt?_extend hgrows.arena ht, fun hplain => hgrows.values t r (hvalue hplain)⟩

theorem holds_of_not_plain {s : Store} {r : StandInRef} {t : TypeName}
    (ht : s.typeAt? r = some t) (hplain : t.isPlainValue = false) : s.Holds r :=
  ⟨t, ht, fun h => by rw [hplain] at h; cases h⟩

/-! ### New stand-ins -/

section Push

variable (s : Store) (t : TypeName) (origin : Origin) (construction : Construction) (hint : String)

theorem push_arena : s.arena <+: (s.push t origin construction hint).2.arena :=
  List.prefix_append _ _

theorem push_typeAt? :
    (s.push t origin construction hint).2.typeAt? (s.push t origin construction hint).1 =
      some t := by
  simp [push, typeAt?, get?]

theorem push_has : (s.push t origin construction hint).2.Has
    (s.push t origin construction hint).1 :=
  .of_typeAt? (s.push_typeAt? t origin construction hint)

theorem push_grows : s.Grows (s.push t origin construction hint).2 :=
  { Grows.refl s with arena := s.push_arena t origin construction hint }

theorem Sound.push {s : Store} (hs : s.Sound) : (s.push t origin construction hint).2.Sound := by
  have harena := s.push_arena t origin construction hint
  exact
    { byIdentifier := hs.byIdentifier.extend harena
      ambients := hs.ambients.extend harena
      typedNulls := hs.typedNulls.extend harena
      unresolved := hs.unresolved.extend harena
      services := hs.services.extend harena
      derived := hs.derived.extend harena
      components := hs.components.extend harena
      values := fun t' r hr => typeAt?_extend harena (hs.values t' r hr)
      cycleBreaks := fun t' r hr => ⟨typeAt?_extend harena (hs.cycleBreaks t' r hr).1,
        (hs.cycleBreaks t' r hr).2⟩
      plainAmbients := hs.plainAmbients }

end Push

/-! ### The tables of types -/

section Tables

variable (s : Store) (n : Nat) (t : TypeName)

theorem value_grows : s.Grows (s.value n t).2 := by
  rw [value]
  split
  · exact .refl s
  · rename_i hnew
    exact (s.push_grows t _ _ _).trans { Grows.refl _ with values := keeps_cons hnew _ }

theorem lookup_value : (s.value n t).2.values.lookup t = some (s.value n t).1 := by
  rw [value]
  split
  · assumption
  · exact List.lookup_cons_self

theorem Sound.value {s : Store} (hs : s.Sound) : (s.value n t).2.Sound := by
  rw [Store.value]
  split
  · exact hs
  · rename_i hnew
    exact
      { hs.push t _ _ _ with
        values := by
          intro t' r hr
          rcases List.mem_cons.1 hr with heq | hr
          · cases heq
            exact s.push_typeAt? t _ _ _
          · exact (hs.push t _ _ _).values t' r hr
        plainAmbients := fun t' r hr hplain =>
          keeps_cons hnew _ t' r (hs.plainAmbients t' r hr hplain) }

theorem typedNull_grows : s.Grows (s.typedNull t).2 := by
  rw [typedNull]
  split
  · exact .refl s
  · rename_i hnew
    exact (s.push_grows t _ _ _).trans { Grows.refl _ with typedNulls := keeps_cons hnew _ }

theorem lookup_typedNull : (s.typedNull t).2.typedNulls.lookup t = some (s.typedNull t).1 := by
  rw [typedNull]
  split
  · assumption
  · exact List.lookup_cons_self

theorem Sound.typedNull {s : Store} (hs : s.Sound) : (s.typedNull t).2.Sound := by
  rw [Store.typedNull]
  split
  · exact hs
  · exact { hs.push t _ _ _ with
      typedNulls := fits_cons (hs.push t _ _ _).typedNulls t (s.push_has t _ _ _) }

/-- A shared object is kept; a new one is shared as one of its own type too. -/
theorem settleAmbient_grows (r : StandInRef) : s.Grows (s.settleAmbient t r).2 := by
  rw [settleAmbient]
  split
  · exact .refl s
  · rename_i hnew
    have hfirst : s.Grows { s with ambients := (t, r) :: s.ambients } :=
      { Grows.refl s with ambients := keeps_cons hnew r }
    dsimp only
    split
    · exact hfirst
    · split
      · exact hfirst
      · rename_i hconcrete
        exact hfirst.trans { Grows.refl _ with ambients := keeps_cons hconcrete r }

theorem lookup_settleAmbient (r : StandInRef) :
    (s.settleAmbient t r).2.ambients.lookup t = some (s.settleAmbient t r).1 := by
  rw [settleAmbient]
  split
  · assumption
  · have hfirst : ((t, r) :: s.ambients).lookup t = some r := List.lookup_cons_self
    dsimp only
    split
    · exact hfirst
    · split
      · exact hfirst
      · rename_i hconcrete
        exact keeps_cons hconcrete r t r hfirst

/-- The shared object of a type that is not plain may be of a plain one, if it is the value of it. -/
theorem Sound.settleAmbient {s : Store} {t : TypeName} {r : StandInRef} (hs : s.Sound)
    (hplain : t.isPlainValue = false) (hr : s.Holds r) : (s.settleAmbient t r).2.Sound := by
  have hinsert : ∀ (s' : Store) (t' : TypeName), s'.Sound → s'.Has r →
      (t'.isPlainValue = true → s'.values.lookup t' = some r) →
      Sound { s' with ambients := (t', r) :: s'.ambients } := by
    intro s' t' hs' hr' hvalue
    exact
      { hs' with
        ambients := fits_cons hs'.ambients t' hr'
        plainAmbients := by
          intro t'' r'' hmem hplain''
          rcases List.mem_cons.1 hmem with heq | hmem
          · cases heq
            exact hvalue hplain''
          · exact hs'.plainAmbients t'' r'' hmem hplain'' }
  have hfirst := hinsert s t hs hr.has fun h => by rw [hplain] at h; cases h
  rw [Store.settleAmbient]
  split
  · exact hs
  · dsimp only
    split
    · exact hfirst
    · rename_i concrete hconcrete
      split
      · exact hfirst
      · obtain ⟨t', ht', hvalue⟩ := hr
        have heq : concrete = t' := Option.some.inj (hconcrete.symm.trans ht')
        subst heq
        exact hinsert _ concrete hfirst (Has.of_typeAt? ht') hvalue

end Tables

end Store
end AppDriver
