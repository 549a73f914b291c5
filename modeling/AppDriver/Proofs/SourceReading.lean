import AppDriver.Proofs.LayoutDispatch

/-!
Reading a source text back. A line says by its indentation in which block it stands, by its end
whether it opens one, and as a lone bracket that it closes one. A text is read as the items that it
was laid out from if none of their lines contains a line break, and no line that opens no block ends
like one that does.
-/

namespace AppDriver.Java

/-! ### Parts of a line -/

/-- What stands in a text between a beginning and an end. -/
def between? (before after s : String) : Option String :=
  ((s.toList.dropPrefix? before.toList).bind (·.dropSuffix? after.toList)).map String.ofList

theorem between?_eq_some {before after s inner : String} :
    between? before after s = some inner ↔ s = before ++ inner ++ after := by
  simp only [between?, Option.map_eq_some_iff, Option.bind_eq_some_iff,
    List.dropPrefix?_eq_some_iff, List.dropSuffix?_eq_some_iff, beq_iff_eq]
  constructor
  · rintro ⟨cs, ⟨rest, ⟨_, hs, rfl⟩, _, rfl, rfl⟩, rfl⟩
    rw [← String.toList_inj, hs]
    simp
  · rintro rfl
    exact ⟨inner.toList, ⟨inner.toList ++ after.toList, ⟨_, by simp, rfl⟩, _, rfl, rfl⟩,
      String.ofList_toList⟩

theorem between?_append (before inner after : String) :
    between? before after (before ++ inner ++ after) = some inner :=
  between?_eq_some.2 rfl

/-- Whether a text is free of line breaks. -/
def OneLine (s : String) : Prop := '\n' ∉ s.toList

instance (s : String) : Decidable (OneLine s) := inferInstanceAs (Decidable ('\n' ∉ s.toList))

theorem oneLine_append {a b : String} : OneLine (a ++ b) ↔ OneLine a ∧ OneLine b := by
  simp [OneLine, not_or]

theorem OneLine.append {a b : String} (ha : OneLine a) (hb : OneLine b) : OneLine (a ++ b) :=
  oneLine_append.2 ⟨ha, hb⟩

theorem oneLine_join {ls : List String} (h : ∀ l ∈ ls, OneLine l) : OneLine (String.join ls) := by
  intro hmem
  rw [String.toList_join, List.mem_flatMap] at hmem
  obtain ⟨l, hl, hbreak⟩ := hmem
  exact h l hl hbreak

/-! ### Lines -/

/-- The lines of a text in which every line is ended by a line break. -/
def linesOf (source : String) : List String :=
  (source.toList.splitOn '\n').dropLast.map String.ofList

theorem linesOf_text {ls : List String} (h : ∀ l ∈ ls, OneLine l) :
    linesOf (Item.text ls) = ls := by
  have hsplit : (Item.text ls).toList.splitOn '\n' = ls.map String.toList ++ [[]] := by
    induction ls with
    | nil => rfl
    | cons l ls ih =>
        have hfirst : (Item.text (l :: ls)).toList = l.toList ++ '\n' :: (Item.text ls).toList := by
          simp [Item.text]
        have hline : ∀ c ∈ l.toList, (c == '\n') = false := fun c hc =>
          beq_false_of_ne fun heq => h l List.mem_cons_self (heq ▸ hc)
        rw [hfirst, List.splitOn,
          List.splitOnP_append_cons_of_forall_mem hline '\n' (beq_self_eq_true _),
          List.map_cons, List.cons_append]
        exact congrArg _ (ih fun l hl => h l (List.mem_cons_of_mem _ hl))
  rw [linesOf, hsplit, List.dropLast_concat, List.map_map]
  simp [Function.comp_def, String.ofList_toList]

/-! ### Items that can be read -/

namespace Item

mutual

/-- Whether the lines of an item are read as what they are. -/
def Legible : Item → Prop
  | .line t => OneLine t ∧ t.toList.getLast? ≠ some '\x7b'
  | .block head body => OneLine head ∧ AllLegible body

def AllLegible : List Item → Prop
  | [] => True
  | i :: is => i.Legible ∧ AllLegible is

end

theorem allLegible_iff {is : List Item} : AllLegible is ↔ ∀ i ∈ is, i.Legible := by
  induction is with
  | nil => simp [AllLegible]
  | cons i is ih => rw [AllLegible, ih, List.forall_mem_cons]

theorem oneLine_indentation (level : Nat) : OneLine (indentation level) :=
  oneLine_join fun l hl => by
    rw [List.eq_of_mem_replicate hl]
    decide

theorem oneLine_indented {level : Nat} {t : String} (h : OneLine t) :
    OneLine (indented level t) := by
  rw [indented]
  split
  · decide
  · exact (oneLine_indentation level).append h

mutual

theorem oneLine_lines (level : Nat) : ∀ i : Item, i.Legible → ∀ l ∈ i.lines level, OneLine l
  | .line t, h => List.forall_mem_singleton.2 (oneLine_indented h.1)
  | .block head body, h => by
      have hopened : OneLine (head ++ " \x7b") := h.1.append (by decide)
      rw [lines, List.forall_mem_append, List.forall_mem_cons, List.forall_mem_singleton]
      exact ⟨⟨oneLine_indented hopened, oneLine_bodyLines (level + 1) body h.2⟩,
        oneLine_indented (by decide)⟩

theorem oneLine_bodyLines (level : Nat) : ∀ is : List Item, AllLegible is →
    ∀ l ∈ bodyLines level is, OneLine l
  | [], _ => fun _ hl => (List.not_mem_nil hl).elim
  | i :: is, h => by
      rw [bodyLines, List.forall_mem_append]
      exact ⟨oneLine_lines level i h.1, oneLine_bodyLines level is h.2⟩

end

theorem indentation_succ (level : Nat) :
    indentation (level + 1) = indentation level ++ "    " := by
  rw [indentation, indentation, List.replicate_succ', ← String.toList_inj]
  simp

/-- In a block no line looks like the end of the block. -/
theorem indented_succ_ne (level : Nat) (t : String) :
    indented (level + 1) t ≠ indented level "\x7d" := by
  have hclose : indented level "\x7d" = indentation level ++ "\x7d" := rfl
  rw [hclose, indented]
  intro heq
  have hchars := congrArg String.toList heq
  split at hchars
  · simp at hchars
  · rw [indentation_succ, String.append_assoc, String.toList_append,
      String.toList_append (s := indentation level)] at hchars
    simpa using List.append_cancel_left hchars

end Item

/-! ### Reading items -/

/-- How far a text has been read: the open blocks from the innermost on, each with its head and the
items before it, and the items of the innermost. -/
structure Reading where
  outer : List (String × List Item)
  items : List Item

namespace Reading

/-- A line without the indentation of the open blocks. -/
def content? (r : Reading) (line : String) : Option String :=
  if line = "" then some "" else between? (Item.indentation r.outer.length) "" line

/-- Ends the innermost block if the line does. -/
def close? (r : Reading) (line : String) : Option Reading :=
  match r.outer with
  | [] => none
  | (head, before) :: outer =>
    if line = Item.indented outer.length "\x7d" then
      some ⟨outer, before ++ [.block head r.items]⟩
    else none

/-- Adds a line, which opens a block if it ends with a bracket. -/
def add (r : Reading) (content : String) : Reading :=
  match between? "" " \x7b" content with
  | some head => ⟨(head, r.items) :: r.outer, []⟩
  | none => ⟨r.outer, r.items ++ [.line content]⟩

def readLine (r : Reading) (line : String) : Option Reading :=
  (r.close? line).or ((r.content? line).map r.add)

theorem content?_indented (r : Reading) (t : String) :
    r.content? (Item.indented r.outer.length t) = some t := by
  rw [content?, Item.indented]
  by_cases hempty : t.isEmpty = true
  · rw [if_pos hempty, if_pos rfl, String.isEmpty_iff.1 hempty]
  · have hline : Item.indentation r.outer.length ++ t ≠ "" := fun hboth =>
      hempty (String.isEmpty_iff.2 (String.append_eq_empty_iff.1 hboth).2)
    rw [if_neg hempty, if_neg hline, between?_eq_some, String.append_empty]

theorem readLine_content (r : Reading) (t : String) :
    r.readLine (Item.indented r.outer.length t) = some (r.add t) := by
  have hopen : r.close? (Item.indented r.outer.length t) = none := by
    rw [close?]
    split
    · rfl
    · rename_i head before outer houter
      rw [houter]
      exact if_neg (Item.indented_succ_ne outer.length t)
  rw [readLine, hopen, content?_indented]
  rfl

theorem add_line (r : Reading) {t : String} (h : t.toList.getLast? ≠ some '\x7b') :
    r.add t = ⟨r.outer, r.items ++ [.line t]⟩ := by
  have hplain : between? "" " \x7b" t = none := by
    rw [Option.eq_none_iff_forall_ne_some]
    intro head hhead
    obtain rfl := between?_eq_some.1 hhead
    simp at h
  rw [add, hplain]

theorem add_head (r : Reading) (head : String) :
    r.add (head ++ " \x7b") = ⟨(head, r.items) :: r.outer, []⟩ := by
  have hopened : between? "" " \x7b" (head ++ " \x7b") = some head := by
    rw [between?_eq_some, String.empty_append]
  rw [add, hopened]

theorem readLine_close (head : String) (before items : List Item)
    (outer : List (String × List Item)) :
    readLine ⟨(head, before) :: outer, items⟩ (Item.indented outer.length "\x7d") =
      some ⟨outer, before ++ [.block head items]⟩ := by
  have hclose : close? ⟨(head, before) :: outer, items⟩ (Item.indented outer.length "\x7d") =
      some ⟨outer, before ++ [.block head items]⟩ := if_pos rfl
  rw [readLine, hclose]
  rfl

mutual

/-- The lines of an item are read as the item. The blocks that are open meanwhile are those around
it: a block inside puts itself in front of them and is taken off again at its end. -/
theorem read_lines (r : Reading) : ∀ i : Item, i.Legible →
    (i.lines r.outer.length).foldlM readLine r = some ⟨r.outer, r.items ++ [i]⟩
  | .line t, h => by
      rw [Item.lines, List.foldlM_cons, readLine_content, r.add_line h.2]
      rfl
  | .block head body, h => by
      have hbody := read_bodyLines ⟨(head, r.items) :: r.outer, []⟩ body h.2
      rw [List.length_cons] at hbody
      rw [Item.lines, List.cons_append, List.foldlM_cons, readLine_content, r.add_head,
        Option.bind_eq_bind, Option.bind_some, List.foldlM_append, hbody, Option.bind_eq_bind,
        Option.bind_some, List.foldlM_cons, List.nil_append, readLine_close]
      rfl

theorem read_bodyLines (r : Reading) : ∀ is : List Item, Item.AllLegible is →
    (Item.bodyLines r.outer.length is).foldlM readLine r = some ⟨r.outer, r.items ++ is⟩
  | [], _ => by
      rw [List.append_nil]
      rfl
  | i :: is, h => by
      have hrest := read_bodyLines ⟨r.outer, r.items ++ [i]⟩ is h.2
      rw [Item.bodyLines, List.foldlM_append, read_lines r i h.1, Option.bind_eq_bind,
        Option.bind_some, hrest, List.append_assoc, List.singleton_append]

end

end Reading

/-- The items of a text, if every block is closed. -/
def readItems? (source : String) : Option (List Item) :=
  ((linesOf source).foldlM Reading.readLine ⟨[], []⟩).bind fun r =>
    if r.outer.isEmpty then some r.items else none

/-- A text that was laid out from legible items is read as them. -/
theorem readItems?_render {is : List Item} (h : ∀ i ∈ is, i.Legible) :
    readItems? (Item.render is) = some is := by
  have hall : Item.AllLegible is := Item.allLegible_iff.2 h
  have hlines : linesOf (Item.render is) = Item.bodyLines 0 is :=
    linesOf_text (Item.oneLine_bodyLines 0 is hall)
  have hread : (Item.bodyLines 0 is).foldlM Reading.readLine ⟨[], []⟩ = some ⟨[], is⟩ :=
    Reading.read_bodyLines ⟨[], []⟩ is hall
  rw [readItems?, hlines, hread]
  rfl

example : readItems? "if (a) \x7b\n    b;\n\n    else \x7b\n    \x7d\n\x7d\nc;\n" =
    some [.block "if (a)" [.line "b;", .blank, .block "else" []], .line "c;"] := by
  rfl

end AppDriver.Java
