import AppDriver.Document.Decode
import AppDriver.Document.Yaml.Printer
import AppDriver.Proofs.Threading
import Mathlib.Data.List.Nodup

/-!
Trees that are written and read again. In JSON every scalar comes back as it was. In YAML a number
and a text that needs no quotes come back unquoted, so that the reader has to find their meaning
again. Both are spellings of scalars, and what is proved of a record holds in every spelling: each
field that was written is found, and what stands in it means what it meant.
-/

namespace AppDriver
namespace Tree

mutual

/-- A tree with its scalars replaced. -/
def mapScalars (f : Scalar → Scalar) : Tree → Tree
  | .scalar s => .scalar (f s)
  | .list items => .list (mapItems f items)
  | .record fields => .record (mapFields f fields)

def mapItems (f : Scalar → Scalar) : List Tree → List Tree
  | [] => []
  | t :: ts => t.mapScalars f :: mapItems f ts

def mapFields (f : Scalar → Scalar) : List (String × Tree) → List (String × Tree)
  | [] => []
  | (k, t) :: ts => (k, t.mapScalars f) :: mapFields f ts

end

variable (f : Scalar → Scalar)

theorem mapItems_eq (ts : List Tree) : mapItems f ts = ts.map (mapScalars f) := by
  induction ts with
  | nil => rfl
  | cons t ts ih => rw [mapItems, ih, List.map_cons]

theorem mapFields_eq (fs : List (String × Tree)) :
    mapFields f fs = fs.map fun e => (e.1, e.2.mapScalars f) := by
  induction fs with
  | nil => rfl
  | cons e fs ih => rw [mapFields, ih, List.map_cons]

mutual

theorem mapScalars_id : ∀ t : Tree, t.mapScalars id = t
  | .scalar _ => rfl
  | .list items => by rw [mapScalars, mapItems_id items]
  | .record fields => by rw [mapScalars, mapFields_id fields]

theorem mapItems_id : ∀ ts : List Tree, mapItems id ts = ts
  | [] => rfl
  | t :: ts => by rw [mapItems, mapScalars_id t, mapItems_id ts]

theorem mapFields_id : ∀ fs : List (String × Tree), mapFields id fs = fs
  | [] => rfl
  | (k, t) :: fs => by rw [mapFields, mapScalars_id t, mapFields_id fs]

end

theorem typedItems_eq (ts : List Tree) : typedItems ts = ts.map typed := by
  induction ts with
  | nil => rfl
  | cons t ts ih => rw [typedItems, ih, List.map_cons]

theorem typedFields_eq (fs : List (String × Tree)) :
    typedFields fs = fs.map fun e => (e.1, e.2.typed) := by
  induction fs with
  | nil => rfl
  | cons e fs ih => rw [typedFields, ih, List.map_cons]

@[simp] theorem typed_mapScalars_list (ts : List Tree) :
    ((Tree.list ts).mapScalars f).typed = .list (ts.map fun t => (t.mapScalars f).typed) := by
  rw [mapScalars, typed, mapItems_eq, typedItems_eq, List.map_map]
  rfl

@[simp] theorem typed_mapScalars_record (fs : List (String × Tree)) :
    ((Tree.record fs).mapScalars f).typed =
      .record (fs.map fun e => (e.1, (e.2.mapScalars f).typed)) := by
  rw [mapScalars, typed, mapFields_eq, typedFields_eq, List.map_map]
  rfl

theorem areItemsReadable_eq (ts : List Tree) : areItemsReadable ts = ts.all isReadable := by
  induction ts with
  | nil => rfl
  | cons t ts ih => rw [areItemsReadable, ih, List.all_cons]

end Tree

/-! ### Spellings -/

/-- A way to spell the texts and the numbers of a document such that a reader takes each of them
for what it is, whether it expects a text or a number there or nothing in particular. -/
structure Spelling where
  spell : Scalar → Scalar
  asText : ∀ s, Tree.asText (.scalar (spell (.text s))) = some s
  isNull : ∀ s, Tree.isNull (.scalar (spell (.text s))) = false
  asNatural : ∀ {bits n}, bits ≤ 64 → n < Nat.pow 2 bits →
    Tree.asNatural bits (.scalar (spell (.natural n))) = some n
  typed_text : ∀ s, Tree.typedScalar (spell (.text s)) = .text s
  typed_natural : ∀ {n}, n < Nat.pow 2 64 → Tree.typedScalar (spell (.natural n)) = .natural n

/-- The spelling of JSON: every scalar comes back as it was. -/
def Spelling.json : Spelling where
  spell := id
  asText _ := rfl
  isNull _ := rfl
  asNatural _ hn := if_pos hn
  typed_text _ := rfl
  typed_natural _ := rfl

namespace Plain

/-- Digits are read as the number they are the digits of. -/
theorem digitsFrom_of_digits {cs : List Char} (hdigits : ∀ c ∈ cs, c.isDigit = true) (n : Nat) :
    digitsFrom 10 n cs = some (Nat.ofDigitChars 10 cs n) := by
  induction cs generalizing n with
  | nil => rfl
  | cons c cs ih =>
      have hc := hdigits c List.mem_cons_self
      have hvalue : c.toNat - 48 < 10 := by
        have := Char.isDigit_iff_toNat.1 hc
        simp at this
        omega
      have hdigit : digit? 10 c = some (c.toNat - 48) := by
        simp only [digit?, hc, if_true, if_pos hvalue]
      rw [digitsFrom, hdigit, Option.bind_some, ih fun c' hc' => hdigits c' (.tail _ hc'),
        Nat.ofDigitChars_cons]
      rfl

/-- A numeral starts with a digit, and with a zero only if it is nothing else. -/
theorem toDigits_cons {n : Nat} (hn : 0 < n) :
    ∃ c cs, Nat.toDigits 10 n = c :: cs ∧ c.isDigit = true ∧ c ≠ '0' := by
  induction n using Nat.strongRecOn with
  | _ n ih =>
      by_cases hsmall : n < 10
      · refine ⟨n.digitChar, [], Nat.toDigits_of_lt_base hsmall, ?_, ?_⟩
        · rw [Nat.isDigit_digitChar, decide_eq_true hsmall]
        · rw [Ne, Nat.digitChar_eq_zero]
          omega
      · obtain ⟨c, cs, heq, hc⟩ := ih (n / 10) (by omega) (by omega)
        exact ⟨c, cs ++ [(n % 10).digitChar],
          by rw [Nat.toDigits_of_base_le (by decide) (by omega), heq, List.cons_append], hc⟩

theorem magnitude?_cons {c : Char} {cs : List Char} (hc : c ≠ '0') :
    magnitude? (c :: cs) = (digitsFrom 10 0 (c :: cs)).filter (· < Nat.pow 2 128) := by
  unfold magnitude?
  split <;> rename_i heq
  · exact absurd (List.cons.inj heq).1 hc
  · exact absurd (List.cons.inj heq).1 hc
  · exact absurd (List.cons.inj heq).1 hc
  · have hleading : hasLeadingZero (c :: cs) = false := by
      unfold hasLeadingZero
      split <;> rename_i heq
      · exact absurd (List.cons.inj heq).1 hc
      · rfl
    rw [hleading]
    rfl

/-- A written number is read as that number. -/
theorem natural?_toString {n : Nat} (hn : n < Nat.pow 2 128) : natural? (toString n) = some n := by
  rcases Nat.eq_zero_or_pos n with rfl | hpos
  · decide +kernel
  obtain ⟨c, cs, heq, hdigit, hzero⟩ := toDigits_cons hpos
  have hdigits : ∀ c' ∈ c :: cs, c'.isDigit = true := fun c' hc' =>
    Nat.isDigit_of_mem_toDigits (b := 10) (by decide) (by decide) (heq ▸ hc')
  have hvalue : magnitude? (c :: cs) = some n := by
    rw [magnitude?_cons hzero, digitsFrom_of_digits hdigits, ← heq, Nat.ofDigitChars_ten_toDigits]
    exact Option.filter_eq_some_iff.2 ⟨rfl, decide_eq_true hn⟩
  rw [natural?, Nat.toString_eq_ofList_toDigits, String.toList_ofList, heq]
  split <;> rename_i hsign
  · rw [(List.cons.inj hsign).1] at hdigit
    cases hdigit
  · exact hvalue

/-- A number is none of the words that are no numbers. -/
theorem not_contains_of_natural {s : String} {n : Nat} {words : List String}
    (h : natural? s = some n) (hwords : ∀ w ∈ words, natural? w = none) :
    words.contains s = false := by
  rw [List.contains_eq_mem, decide_eq_false_iff_not]
  intro hs
  rw [hwords s hs] at h
  cases h

/-- Where nothing is expected, the text of a number of 64 bits is that number. -/
theorem typed_of_natural {s : String} {n : Nat} (h : natural? s = some n) (hn : n < Nat.pow 2 64) :
    typed s = .natural n := by
  have hnull : isNull s = false := not_contains_of_natural h (by decide +kernel)
  have hflag : flag? s = none := by
    rw [flag?, not_contains_of_natural h (by decide +kernel),
      not_contains_of_natural h (by decide +kernel)]
    rfl
  rw [typed, hnull, hflag, h]
  exact if_pos hn

/-- A text that is taken for nothing else is a text where nothing is expected. -/
theorem typed_of_not_isTyped {s : String} (h : isTyped s = false) : typed s = .text s := by
  have honly : ∀ s', typed s = .text s' → s' = s := by
    fun_cases typed s <;> simp_all
  unfold isTyped at h
  split at h
  · next s' hs' => rw [hs', honly s' hs']
  · cases h

theorem not_isNull_of_not_isTyped {s : String} (h : isTyped s = false) : isNull s = false := by
  have htyped := typed_of_not_isTyped h
  by_contra hnull
  rw [typed, if_pos (by simpa using hnull)] at htyped
  cases htyped

end Plain

/-- The scalar that is read where YAML has written one: a text keeps the quotes that it needs, and
everything else is unquoted. -/
def Yaml.restored : Scalar → Scalar
  | .text s | .plain s => if styleOf false s = .plain then .plain s else .text s
  | s => .plain (String.join (scalar s))

namespace Yaml

theorem restored_natural (n : Nat) : restored (.natural n) = .plain (toString n) := by
  simp only [restored, scalar, String.join_cons, String.join_nil, String.append_empty]

/-- A text that is written without quotes is taken for nothing else. -/
theorem not_isTyped_of_styleOf {s : String} (h : styleOf false s = .plain) :
    Plain.isTyped s = false := by
  by_contra htyped
  rw [Bool.not_eq_false] at htyped
  simp only [styleOf, htyped, Bool.true_or, if_true] at h
  split at h <;> split at h <;> simp_all

theorem restored_text (s : String) :
    restored (.text s) = .text s ∨
      restored (.text s) = .plain s ∧ Plain.isTyped s = false := by
  by_cases hstyle : styleOf false s = .plain
  · exact .inr ⟨if_pos hstyle, not_isTyped_of_styleOf hstyle⟩
  · exact .inl (if_neg hstyle)

end Yaml

/-- The spelling of YAML: without quotes where none are needed. -/
def Spelling.yaml : Spelling where
  spell := Yaml.restored
  asText s := by
    obtain h | ⟨h, -⟩ := Yaml.restored_text s <;> rw [h] <;> rfl
  isNull s := by
    obtain h | ⟨h, hs⟩ := Yaml.restored_text s <;> rw [h]
    · rfl
    · exact Plain.not_isNull_of_not_isTyped hs
  asNatural := by
    intro bits n hbits hn
    have hsmall : n < Nat.pow 2 128 :=
      Nat.lt_of_lt_of_le hn (Nat.pow_le_pow_right (by decide) (Nat.le_trans hbits (by decide)))
    rw [Yaml.restored_natural, Tree.asNatural, Plain.natural?_toString hsmall]
    exact Option.filter_eq_some_iff.2 ⟨rfl, decide_eq_true hn⟩
  typed_text s := by
    obtain h | ⟨h, hs⟩ := Yaml.restored_text s <;> rw [h]
    · rfl
    · exact Plain.typed_of_not_isTyped hs
  typed_natural := by
    intro n hn
    rw [Yaml.restored_natural]
    exact Plain.typed_of_natural (Plain.natural?_toString (Nat.lt_trans hn (by decide))) hn

/-! ### Written records -/

namespace Tree

variable {f : Scalar → Scalar} {known : List String} {fs : List (String × Tree)} {key : String}

theorem lookup_mapFields (key : String) (fs : List (String × Tree)) :
    (mapFields f fs).lookup key = (fs.lookup key).map (mapScalars f) := by
  induction fs with
  | nil => rfl
  | cons e fs ih =>
      rw [mapFields, List.lookup_cons, List.lookup_cons, ih]
      cases key == e.1 <;> rfl

theorem map_fst_mapFields (fs : List (String × Tree)) :
    (mapFields f fs).map Prod.fst = fs.map Prod.fst := by
  rw [mapFields_eq, List.map_map]
  rfl

/-- Whether the fields of a record have some of the known keys, each once and in their order. -/
def Lists (known : List String) (fs : List (String × Tree)) : Prop :=
  (fs.map Prod.fst).Sublist known

theorem Lists.nil : Lists [] [] := .slnil

theorem Lists.field {t : Tree} (h : Lists known fs) : Lists (key :: known) ((key, t) :: fs) :=
  h.cons_cons key

theorem Lists.optionalField {enc : α → Tree} {o : Option α} (h : Lists known fs) :
    Lists (key :: known) (optionalField key enc o ++ fs) := by
  cases o with
  | none => exact h.cons key
  | some a => exact h.cons_cons key

theorem Lists.admissible (h : Lists known fs) (hnodup : known.Nodup) (isClosed : Bool) :
    Fields.admissible known isClosed fs = true := by
  have hkeys : (fs.map Prod.fst).Nodup := h.nodup hnodup
  rw [Fields.admissible, Bool.and_eq_true]
  constructor
  · refine List.all_eq_true.2 fun k _ => decide_eq_true ?_
    have hcount := List.nodup_iff_count_le_one.1 hkeys k
    rwa [List.count, List.countP_map, List.countP_eq_length_filter] at hcount
  · rw [Bool.or_eq_true, List.all_eq_true]
    refine .inr fun e he => List.contains_iff_mem.2 (h.subset (List.mem_map_of_mem he))

/-- A written record is read with all its fields. -/
theorem of?_mapScalars (h : Lists known fs) (hnodup : known.Nodup) (isClosed : Bool) :
    Fields.of? known isClosed ((Tree.record fs).mapScalars f) = some (mapFields f fs) := by
  have hlists : Lists known (mapFields f fs) := by
    rw [Lists, map_fst_mapFields]
    exact h
  exact Option.filter_eq_some_iff.2 ⟨rfl, hlists.admissible hnodup isClosed⟩

theorem of?_record (h : Lists known fs) (hnodup : known.Nodup) (isClosed : Bool) :
    Fields.of? known isClosed (.record fs) = some fs := by
  have hread := of?_mapScalars (f := id) h hnodup isClosed
  rwa [mapScalars_id, mapFields_id] at hread

/-- A record that is written with its tag first is read as its tag and its other fields. -/
theorem tagged?_of_typed {t : Tree} {tag : String}
    (ht : t.typed = .record ((key, .text tag) :: fs)) (hread : areFieldsReadable fs = true)
    (hkey : ∀ e ∈ fs, e.1 ≠ key) : tagged? key t = some (tag, fs) := by
  have htag : fs.filter (·.1 == key) = [] := by
    simpa [List.filter_eq_nil_iff] using hkey
  have hothers : fs.filter (·.1 != key) = fs := by
    simpa [List.filter_eq_self] using hkey
  rw [tagged?, ht]
  simp [areFieldsReadable, isReadable, text, hread, htag, hothers, asText]

@[simp] theorem lookup_optionalField {enc : α → Tree} {o : Option α} (key k : String) :
    (optionalField k enc o).lookup key = if key == k then o.map enc else none := by
  cases o with
  | none => simp [optionalField]
  | some a =>
      rw [optionalField, List.lookup_cons]
      cases key == k <;> rfl

end Tree

namespace Spelling

variable (σ : Spelling) {enc : α → Tree} {dec : Decoder α} {fs : List (String × Tree)} {key : String}

@[simp] theorem required_mapFields :
    Fields.required (Tree.mapFields σ.spell fs) key dec =
      (fs.lookup key).bind fun t => dec (t.mapScalars σ.spell) := by
  rw [Fields.required, Tree.lookup_mapFields, Option.bind_map]
  rfl

@[simp] theorem withDefault_mapFields {default : α} :
    Fields.withDefault (Tree.mapFields σ.spell fs) key dec default =
      (fs.lookup key).elim (some default) fun t => dec (t.mapScalars σ.spell) := by
  rw [Fields.withDefault, Tree.lookup_mapFields]
  cases fs.lookup key <;> rfl

@[simp] theorem optional_mapFields :
    Fields.optional (Tree.mapFields σ.spell fs) key dec =
      (fs.lookup key).elim (some none) fun t => Tree.asOption dec (t.mapScalars σ.spell) :=
  σ.withDefault_mapFields

/-- What is written of a present value is read as it, and an absent one is left out. -/
theorem elim_asOption {o : Option α}
    (hnull : ∀ a ∈ o, ((enc a).mapScalars σ.spell).isNull = false)
    (h : ∀ a ∈ o, dec ((enc a).mapScalars σ.spell) = some a) :
    o.elim (some none) ((fun t => Tree.asOption dec (t.mapScalars σ.spell)) ∘ enc) = some o := by
  cases o with
  | none => rfl
  | some a =>
      rw [Option.elim_some, Function.comp_apply, Tree.asOption, hnull a rfl, h a rfl]
      rfl

theorem asList_map {as : List α} (h : ∀ a ∈ as, dec ((enc a).mapScalars σ.spell) = some a) :
    Tree.asList dec ((Tree.list (as.map enc)).mapScalars σ.spell) = some as := by
  rw [Tree.mapScalars, Tree.mapItems_eq, List.map_map]
  refine (List.mapM_map ..).trans ?_
  exact (mapM_eq_some_map h).trans (congrArg some (List.map_id as))

@[simp] theorem typed_mapScalars_text (s : String) :
    ((Tree.text s).mapScalars σ.spell).typed = .text s := congrArg Tree.scalar (σ.typed_text s)

theorem typed_mapScalars_natural {n : Nat} (h : n < Nat.pow 2 64) :
    ((Tree.natural n).mapScalars σ.spell).typed = .natural n :=
  congrArg Tree.scalar (σ.typed_natural h)

@[simp] theorem asText_text (s : String) :
    Tree.asText ((Tree.text s).mapScalars σ.spell) = some s := σ.asText s

@[simp] theorem asOption_text (o : Option String) :
    o.elim (some none)
      ((fun t => Tree.asOption Tree.asText (t.mapScalars σ.spell)) ∘ Tree.text) = some o :=
  σ.elim_asOption (fun s _ => σ.isNull s) fun s _ => σ.asText s

@[simp] theorem asList_texts (ss : List String) :
    Tree.asList Tree.asText ((Tree.texts ss).mapScalars σ.spell) = some ss :=
  σ.asList_map fun s _ => σ.asText s

end Spelling
end AppDriver
