import AppDriver.Config.Section
import AppDriver.Proofs.FiledRegistries
import AppDriver.Proofs.LabelHints
import AppDriver.Proofs.LabelledStores
import AppDriver.Proofs.LabelTexts
import Mathlib

/-! Labels as names of variables. Every label is an identifier, and none is one of the keywords that
labels are kept apart from. The language reserves six more words. A label can be one of these only
where it repeats a name of the app without a number: that of a component class or of an identifier,
or nothing at all after the `null` of a typed null. -/

namespace AppDriver

/-- The words that the language reserves: its keywords, `_` among them, and its literals. -/
def Java.reserved : List String :=
  ["abstract", "assert", "boolean", "break", "byte", "case", "catch", "char", "class", "const",
   "continue", "default", "do", "double", "else", "enum", "extends", "final", "finally", "float",
   "for", "goto", "if", "implements", "import", "instanceof", "int", "interface", "long", "native",
   "new", "package", "private", "protected", "public", "return", "short", "static", "strictfp",
   "super", "switch", "synchronized", "this", "throw", "throws", "transient", "try", "void",
   "volatile", "while", "_", "true", "false", "null"]

/-- Whether a text can name a variable: it is an identifier that the language does not reserve. -/
def Java.IsVariableName (text : String) : Prop :=
  isIdentifier text.toList = true ∧ text ∉ Java.reserved

namespace Label

/-- The reserved words that labels are not kept apart from. -/
def unguarded : List String := ["_", "assert", "false", "null", "strictfp", "true"]

theorem reserved_perm : Java.reserved.Perm (keywords ++ unguarded) := by decide +kernel

theorem mem_reserved {text : String} :
    text ∈ Java.reserved ↔ text ∈ keywords ∨ text ∈ unguarded := by
  rw [reserved_perm.mem_iff, List.mem_append]

/-! ### Identifiers -/

/-- A character of a label can stand in an identifier. -/
theorem start_or_digit {c : Char} (h : isLabelChar c = true) :
    (isIdentifierStart c || c.isDigit) = true := by
  simp only [isLabelChar, isIdentifierStart, Char.isAlphanum, Bool.or_eq_true] at h ⊢
  tauto

theorem isIdentifier_append {cs ds : List Char} (h : isIdentifier cs = true)
    (hds : ∀ c ∈ ds, isLabelChar c = true) : isIdentifier (cs ++ ds) = true := by
  cases cs with
  | nil => cases h
  | cons c cs =>
      have hmore := List.all_eq_true.2 fun d hd => start_or_digit (hds d hd)
      rw [isIdentifier] at h
      rw [List.cons_append, isIdentifier, List.all_append, hmore, Bool.and_true, h]

theorem withStart_isIdentifier {cs : List Char} (h : ∀ c ∈ cs, isLabelChar c = true) :
    isIdentifier (withStart cs) = true := by
  cases cs with
  | nil => decide
  | cons c cs =>
      rw [withStart]
      split
      · have hbar : isIdentifier ['_'] = true := by decide
        exact isIdentifier_append hbar h
      · rename_i hdigit
        have hstart := start_or_digit (h c List.mem_cons_self)
        rw [Bool.eq_false_iff.2 hdigit, Bool.or_false] at hstart
        have hfirst : isIdentifier [c] = true := by simp [isIdentifier, hstart]
        exact isIdentifier_append hfirst fun d hd => h d (List.mem_cons_of_mem c hd)

theorem base_isIdentifier (hint : String) : isIdentifier (base hint).toList = true := by
  have hstart := withStart_isIdentifier (isLabelChar_of_sanitize hint.toList)
  rw [base]
  split
  · rw [String.toList_append, String.toList_ofList]
    exact isIdentifier_append hstart (List.all_eq_true.1 (by decide))
  · rwa [String.toList_ofList]

theorem candidate_isIdentifier (hint : String) (n : Nat) :
    isIdentifier (candidate (base hint) n).toList = true := by
  obtain ⟨-, hchars⟩ := candidate_isLabel hint n
  cases n with
  | zero => exact base_isIdentifier hint
  | succ n =>
      rw [candidate, String.append_assoc, String.toList_append] at hchars ⊢
      exact isIdentifier_append (base_isIdentifier hint)
        fun c hc => hchars c (List.mem_append_right _ hc)

/-! ### Reserved words -/

/-- Among the reserved words only one has a bar in it. -/
theorem not_reserved_of_bar {text : String} (hbar : '_' ∈ text.toList) (htext : text ≠ "_") :
    text ∉ Java.reserved := by
  have hall : ∀ word ∈ Java.reserved, '_' ∈ word.toList → word = "_" := by decide +kernel
  exact fun hmem => htext (hall text hmem hbar)

/-- What stands before a bar makes another word of it. -/
theorem append_bar_not_reserved {text : String} (htext : text.toList ≠ []) (more : String) :
    text ++ "_" ++ more ∉ Java.reserved := by
  refine not_reserved_of_bar (by simp [String.toList_append]) fun heq => ?_
  have hlength := congrArg (fun s => s.toList.length) heq
  simp only [String.toList_append, List.length_append] at hlength
  have hpos := List.length_pos_iff.2 htext
  simp at hlength
  omega

/-- Keywords are kept apart by a bar. -/
theorem base_not_mem_keywords (hint : String) : base hint ∉ keywords := by
  have hne := (withStart_isLabel (isLabelChar_of_sanitize hint.toList)).1
  rw [base]
  split
  · intro hmem
    refine append_bar_not_reserved hne "" (mem_reserved.2 (.inl ?_))
    rwa [String.append_empty]
  · rename_i hother
    exact fun hmem => hother (List.contains_iff_mem.2 hmem)

/-- Only a label without a number can be reserved, and then by a word that is not kept apart. -/
theorem candidate_reserved {hint : String} {n : Nat}
    (h : candidate (base hint) n ∈ Java.reserved) :
    candidate (base hint) n = base hint ∧ base hint ∈ unguarded := by
  cases n with
  | zero => exact ⟨rfl, (mem_reserved.1 h).resolve_left (base_not_mem_keywords hint)⟩
  | succ n => exact (append_bar_not_reserved (base_isLabel hint).1 _ h).elim

/-- A number does not make a keyword either. -/
theorem candidate_not_mem_keywords (hint : String) (n : Nat) :
    candidate (base hint) n ∉ keywords := by
  intro hmem
  obtain ⟨heq, -⟩ := candidate_reserved (mem_reserved.2 (.inl hmem))
  exact base_not_mem_keywords hint (heq ▸ hmem)

/-! ### Hints -/

/-- The words with which hints begin, except where they begin with a name. -/
def hintWords : List String := ["ambient", "missing", "service_", "unresolved", "value", "view"]

/-- No reserved word begins as these hints do. -/
theorem base_not_unguarded {word hint : String} (hword : word ∈ hintWords)
    (hbegins : word.toList <+: hint.toList) : base hint ∉ unguarded := by
  have hopening : hintWords.all isOpening = true := by decide
  have hnone : ∀ word ∈ hintWords, ∀ text ∈ unguarded, ¬ word.toList <+: text.toList := by
    decide +kernel
  have hbase := base_opening (List.all_eq_true.1 hopening word hword) hbegins
  exact fun hmem => hnone word hword _ hmem hbase

theorem length_le_base (hint : String) : hint.toList.length ≤ (base hint).toList.length := by
  have hstart : hint.toList.length ≤ (withStart (sanitize hint.toList)).length := by
    rw [sanitize, ← List.length_map fun c => if isLabelChar c then c else '_']
    generalize hint.toList.map _ = cs
    cases cs with
    | nil => exact Nat.zero_le _
    | cons c cs =>
        rw [withStart]
        split <;> simp
  rw [base]
  split
  · rw [String.toList_append, List.length_append, String.toList_ofList]
    omega
  · rwa [String.toList_ofList]

/-- A typed null is reserved only if its type has no simple name. -/
theorem null_unguarded {name : String} (h : base ("null" ++ name) ∈ unguarded) : name = "" := by
  have hnull : ∀ text ∈ unguarded, "null".toList <+: text.toList → text.toList.length = 4 := by
    decide +kernel
  have hbegins : "null".toList <+: ("null" ++ name).toList := by
    rw [String.toList_append]
    exact List.prefix_append _ _
  have hopening : isOpening "null" = true := by decide
  have hlength := hnull _ h (base_opening hopening hbegins)
  have hle := length_le_base ("null" ++ name)
  rw [hlength, String.toList_append, List.length_append] at hle
  have hempty : name.toList.length = 0 := by
    have hfour : "null".toList.length = 4 := by decide
    omega
  exact String.toList_injective (List.length_eq_zero_iff.1 hempty)

/-! ### Names of getters -/

theorem upperShape_head (c : Char) : ∃ d ds, upperShape c = d :: ds ∧ d.isLower = false := by
  have htable : ∀ e ∈ upperIntoAscii, ∃ d ds, e.2 = d :: ds ∧ d.isLower = false := by
    have hheads : upperIntoAscii.all (fun e => e.2.head?.any (!·.isLower)) = true := by decide
    intro e he
    have hhead := List.all_eq_true.1 hheads e he
    cases hshape : e.2 with
    | nil => rw [hshape] at hhead; cases hhead
    | cons d ds => exact ⟨d, ds, rfl, by simpa [hshape] using hhead⟩
  rw [upperShape]
  split
  · exact ⟨_, _, rfl, c.isLower_toUpper_eq_false⟩
  · split
    · rename_i shape hshape
      exact htable _ (Workshop.mem_of_lookup hshape)
    · split
      · exact ⟨_, _, rfl, by decide⟩
      · split <;> exact ⟨_, _, rfl, by decide⟩

theorem isDigit_of_isIdentifierStart {c : Char} (h : isIdentifierStart c = true) :
    c.isDigit = false := by
  have hdigits : ∀ n < 58, 48 ≤ n → isIdentifierStart (Char.ofNat n) = false := by decide
  refine Bool.eq_false_iff.2 fun hdigit => ?_
  obtain ⟨hlow, hhigh⟩ := Char.isDigit_iff_toNat.1 hdigit
  have hnone := hdigits c.toNat (by simpa using Nat.lt_succ_of_le hhigh) (by simpa using hlow)
  rw [Char.ofNat_toNat, h] at hnone
  cases hnone

theorem withStart_append {cs : List Char} (hcs : isIdentifier cs = true) (ds : List Char) :
    withStart (cs ++ ds) = cs ++ ds := by
  cases cs with
  | nil => cases hcs
  | cons c cs =>
      rw [isIdentifier, Bool.and_eq_true] at hcs
      rw [List.cons_append, withStart, isDigit_of_isIdentifierStart hcs.1,
        if_neg Bool.false_ne_true]

theorem sanitize_append {cs : List Char} (hcs : ∀ c ∈ cs, isLabelChar c = true) (ds : List Char) :
    sanitize (cs ++ ds) = cs ++ sanitize ds := by
  rw [sanitize, List.map_append]
  refine congrArg (· ++ _) ((List.map_congr_left fun c hc => ?_).trans (List.map_id _))
  rw [if_pos (hcs c hc), id]

/-- The base of a hint that begins with a label begins with it too, and goes on as the hint does. -/
theorem base_append {parent : String} (hparent : isIdentifier parent.toList = true)
    (hchars : ∀ c ∈ parent.toList, isLabelChar c = true) (rest : String) :
    ∃ more, (base (parent ++ rest)).toList = parent.toList ++ (sanitize rest.toList ++ more) := by
  have htext : withStart (sanitize (parent ++ rest).toList) =
      parent.toList ++ sanitize rest.toList := by
    rw [String.toList_append, sanitize_append hchars, withStart_append hparent]
  rw [base, htext]
  split
  · exact ⟨['_'], by simp [String.toList_append]⟩
  · exact ⟨[], by simp⟩

/-- A label that is no keyword is its own base. -/
theorem base_of_label {text : String} (htext : isIdentifier text.toList = true)
    (hchars : ∀ c ∈ text.toList, isLabelChar c = true) (hother : text ∉ keywords) :
    base text = text := by
  have hsame := withStart_append htext []
  have hsanitize := sanitize_append hchars []
  simp only [List.append_nil, sanitize, List.map_nil] at hsame hsanitize
  rw [base, sanitize, hsanitize, hsame, String.ofList_toList,
    if_neg fun hmem => hother (List.contains_iff_mem.1 hmem)]

/-- A name that begins with an upper-case letter makes no reserved word behind another name. -/
theorem capitalized_unguarded {parent name : String} (hparent : isIdentifier parent.toList = true)
    (hchars : ∀ c ∈ parent.toList, isLabelChar c = true)
    (h : base (parent ++ capitalized name) ∈ unguarded) : capitalized name = "" := by
  have hlower : unguarded.all (·.toList.tail.all Char.isLower) = true := by decide +kernel
  cases hname : name.toList with
  | nil => rw [capitalized, hname]
  | cons c cs =>
      exfalso
      obtain ⟨d, ds, hshape, hd⟩ := upperShape_head c
      have hcapital : (capitalized name).toList = d :: (ds ++ cs) := by
        rw [capitalized, hname, String.toList_ofList, hshape, List.cons_append]
      obtain ⟨more, hbase⟩ := base_append hparent hchars (capitalized name)
      have hletters := List.all_eq_true.1 (List.all_eq_true.1 hlower _ h)
      rw [hbase, hcapital, sanitize, List.map_cons, List.cons_append] at hletters
      -- What stands for the first letter is a letter of the word, but not its first one.
      have hsmall := hletters (if isLabelChar d then d else '_') <| by
        cases hfirst : parent.toList with
        | nil => rw [hfirst] at hparent; cases hparent
        | cons p ps => exact List.mem_append_right ps List.mem_cons_self
      split at hsmall
      · rw [hd] at hsmall
        cases hsmall
      · cases hsmall

end Label
open Label (IsLabel base candidate unguarded)

namespace Registry

variable {r : Registry} {y : StandIn}

/-- The name after which a stand-in is called, where it is not called after what it is: the class of
a component, the name of an identifier, or a bare `null` for a type without a simple name. -/
def sourceName? (r : Registry) (y : StandIn) : Option String :=
  match y.origin with
  | .component _ => some (uncapitalized y.typeName.simpleName)
  | .identifier id => r.store.nameOf? id
  | .ambient => if y.typeName.simpleName = "" then some "null" else none
  | _ => none

theorem Reachable.isIdentifier (h : Reachable r) (hy : y ∈ r.standIns) :
    isIdentifier y.label.toList = true ∧ y.label ∉ Label.keywords := by
  obtain ⟨hint, n, -, hlabel⟩ := h.hinted y hy
  rw [hlabel]
  exact ⟨Label.candidate_isIdentifier hint n, Label.candidate_not_mem_keywords hint n⟩

/-- What a getter returns is not called as its parent is. -/
theorem Reachable.label_ne_parent (h : Reachable r) (hy : y ∈ r.standIns) {parent : StandInRef}
    {method : String} (horigin : y.origin = .derived parent method) : y.label ≠ r.label parent := by
  obtain ⟨i, hi⟩ := List.mem_iff_getElem?.1 hy
  obtain ⟨-, hearlier⟩ := h.lookup_of_derived (x := ⟨i⟩) hi horigin
  have hlast : r.store.Has ⟨i⟩ := Store.has_of_get? hi
  obtain ⟨p, hp, hlabel⟩ := exists_get? (x := parent) (hearlier.trans hlast)
  have hdistinct := List.nodup_iff_getElem?_ne_getElem?.1 h.labelled.distinct parent.index i
    hearlier (by rw [Store.labels, List.length_map]; exact hlast)
  intro heq
  apply hdistinct
  rw [Store.labels, List.getElem?_map, List.getElem?_map]
  rw [show r.store.arena[parent.index]? = some p from hp, show r.store.arena[i]? = some y from hi,
    Option.map_some, Option.map_some, heq, hlabel]

/-- A label that the language reserves is that of the name after which the stand-in is called. -/
theorem Reachable.reserved_label (h : Reachable r) (hy : y ∈ r.standIns)
    (hreserved : y.label ∈ Java.reserved) :
    ∃ name, r.sourceName? y = some name ∧ y.label = base name ∧ base name ∈ unguarded := by
  obtain ⟨hint, n, hhint, hlabel⟩ := h.hinted y hy
  obtain ⟨heq, hunguarded⟩ := Label.candidate_reserved (hlabel ▸ hreserved)
  have hbase : y.label = base hint := hlabel.trans heq
  have hword : ∀ {word name : String}, word ∈ Label.hintWords → hint = word ++ name → False := by
    rintro word name hmem rfl
    refine Label.base_not_unguarded hmem ?_ hunguarded
    rw [String.toList_append]
    exact List.prefix_append _ _
  generalize horigin : y.origin = origin at hhint
  cases hhint with
  | view id => exact (hword (by decide) rfl).elim
  | missing id => exact (hword (by decide) rfl).elim
  | unresolved => exact (hword (by decide) rfl).elim
  | ambient name => exact (hword (by decide) rfl).elim
  | service name => exact (hword (by decide) rfl).elim
  | value => exact (hword (by decide) rfl).elim
  | component kind => exact ⟨_, by rw [sourceName?, horigin], hbase, hunguarded⟩
  | named hname => exact ⟨_, by rw [sourceName?, horigin]; exact hname, hbase, hunguarded⟩
  | null =>
      have hempty := Label.null_unguarded hunguarded
      rw [hempty, String.append_empty] at hbase hunguarded
      exact ⟨"null", by rw [sourceName?, horigin]; exact if_pos hempty, hbase, hunguarded⟩
  | getter method hparent =>
      obtain ⟨p, hp, hcalled⟩ := exists_get? hparent
      have hmem : p ∈ r.standIns := List.mem_of_getElem? hp
      obtain ⟨hidentifier, hkeyword⟩ := h.isIdentifier hmem
      have hchars := (h.isLabel p hmem).2
      rw [← hcalled] at hidentifier hkeyword hchars
      -- Without a name of its own the hint is the label of the parent, which is taken.
      have hempty := Label.capitalized_unguarded hidentifier hchars hunguarded
      have hsame := Label.base_of_label hidentifier hchars hkeyword
      refine (h.label_ne_parent hy horigin ?_).elim
      rw [hbase]
      change base (r.label _ ++ capitalized (getterSubject method)) = r.label _
      rw [hempty, String.append_empty, hsame]

/-- **Labels as names of variables.** Every label is an identifier and none of the keywords that
labels are kept apart from. It can name a variable exactly unless it repeats, without a number, the
name after which its stand-in is called, and this name is one of `_`, `assert`, `false`, `null`,
`strictfp` and `true`. -/
theorem label_legal_iff (h : Reachable r) (hy : y ∈ r.standIns) :
    AppDriver.isIdentifier y.label.toList = true ∧ y.label ∉ Label.keywords ∧
      (Java.IsVariableName y.label ↔ ¬ ∃ name, r.sourceName? y = some name ∧
        y.label = base name ∧ base name ∈ unguarded) := by
  obtain ⟨hidentifier, hkeyword⟩ := h.isIdentifier hy
  refine ⟨hidentifier, hkeyword, ?_, fun hother => ⟨hidentifier, fun hreserved => ?_⟩⟩
  · rintro ⟨-, hfree⟩ ⟨name, -, hlabel, hword⟩
    exact hfree (Label.mem_reserved.2 (.inr (hlabel ▸ hword)))
  · exact hother (h.reserved_label hy hreserved)

/-- Two component classes with the simple name `True`. -/
def truthRegistry : Registry :=
  ((new {}).registerComponents
    [{ name := ⟨"app.True"⟩, kind := .activity }, { name := ⟨"lib.True"⟩, kind := .activity }]).2

theorem truthRegistry_reachable : Reachable truthRegistry :=
  .step (.registerComponents
    [{ name := ⟨"app.True"⟩, kind := .activity }, { name := ⟨"lib.True"⟩, kind := .activity }])
    (.new {} 1) rfl

/-- The instance of the first class is called `true`. -/
theorem truth_not_legal : Reachable truthRegistry ∧
    ∃ y ∈ truthRegistry.standIns, y.label = "true" ∧ ¬ Java.IsVariableName y.label := by
  refine ⟨truthRegistry_reachable, ⟨⟨0⟩, ⟨"app.True"⟩, .component .activity, .constructor [],
    "true"⟩, by decide +kernel, rfl, fun hlegal => hlegal.2 (by decide)⟩

/-- That of the second one has a number. -/
theorem second_truth_legal : Reachable truthRegistry ∧
    ∃ y ∈ truthRegistry.standIns, y.label = "true_2" ∧ Java.IsVariableName y.label := by
  have hmem : (⟨⟨1⟩, ⟨"lib.True"⟩, .component .activity, .constructor [], "true_2"⟩ : StandIn) ∈
      truthRegistry.standIns := by decide +kernel
  refine ⟨truthRegistry_reachable, _, hmem, rfl, ?_⟩
  refine (label_legal_iff truthRegistry_reachable hmem).2.2.2 ?_
  rintro ⟨name, hname, hlabel, -⟩
  obtain rfl : uncapitalized "True" = name := by
    rw [← Option.some.inj hname]
    decide +kernel
  exact absurd hlabel (by decide +kernel)

end Registry
end AppDriver
