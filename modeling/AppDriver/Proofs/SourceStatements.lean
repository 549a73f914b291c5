import AppDriver.Java.Harness
import AppDriver.Proofs.SourceReading

/-!
What the lines of a class say. A declaration ends with the name that it declares, or with a literal
after it; a statement whose failure is ignored stands between its `try` and its `catch`; the loop
over calls is told by the heads of its two blocks. In a call the names of stand-ins are told from the
method between them by the first dot and the last bracket. The types and methods are taken as they
stand, whatever is in them.
-/

namespace AppDriver.Java

/-! ### Words -/

/-- The characters before the first of a kind and those after it. -/
def cutAt? (c : Char) (cs : List Char) : Option (List Char × List Char) :=
  match cs.dropWhile (· != c) with
  | [] => none
  | _ :: rest => some (cs.takeWhile (· != c), rest)

/-- What stands before and after the first place of a character. -/
def cutFirst? (c : Char) (s : String) : Option (String × String) :=
  (cutAt? c s.toList).map fun cut => (String.ofList cut.1, String.ofList cut.2)

/-- What stands before and after the last place of a character. -/
def cutLast? (c : Char) (s : String) : Option (String × String) :=
  (cutAt? c s.toList.reverse).map fun cut =>
    (String.ofList cut.2.reverse, String.ofList cut.1.reverse)

/-- The first word of a text and what follows it. -/
def firstWord? (s : String) : Option (String × String) := cutFirst? ' ' s

/-- The last word of a text, after what precedes it. -/
def lastWord? (s : String) : Option (String × String) := cutLast? ' ' s

/-- Whether a text is free of blanks. -/
def OneWord (s : String) : Prop := ' ' ∉ s.toList

instance (s : String) : Decidable (OneWord s) := inferInstanceAs (Decidable (' ' ∉ s.toList))

theorem OneWord.append {a b : String} (ha : OneWord a) (hb : OneWord b) : OneWord (a ++ b) := by
  rw [OneWord, String.toList_append, List.mem_append, not_or]
  exact ⟨ha, hb⟩

theorem cutAt?_append {c : Char} {before : List Char} (h : c ∉ before) (after : List Char) :
    cutAt? c (before ++ c :: after) = some (before, after) := by
  have hbefore : ∀ d ∈ before, (d != c) = true := fun d hd => bne_iff_ne.2 fun heq => h (heq ▸ hd)
  have hdrop : (c :: after).dropWhile (· != c) = c :: after :=
    List.dropWhile_cons_of_neg (by simp)
  have htake : (c :: after).takeWhile (· != c) = [] := List.takeWhile_cons_of_neg (by simp)
  rw [cutAt?, List.dropWhile_append_of_pos hbefore, List.takeWhile_append_of_pos hbefore, hdrop,
    htake, List.append_nil]

section Cut

variable {c : Char} {s before after : String} (hs : s.toList = before.toList ++ c :: after.toList)

include hs in
theorem cutFirst?_eq_some (h : c ∉ before.toList) : cutFirst? c s = some (before, after) := by
  rw [cutFirst?, hs, cutAt?_append h, Option.map_some, String.ofList_toList, String.ofList_toList]

include hs in
theorem cutLast?_eq_some (h : c ∉ after.toList) : cutLast? c s = some (before, after) := by
  have hreverse : s.toList.reverse = after.toList.reverse ++ c :: before.toList.reverse := by
    rw [hs, List.reverse_append, List.reverse_cons, List.append_assoc, List.singleton_append]
  rw [cutLast?, hreverse, cutAt?_append (mt List.mem_reverse.1 h), Option.map_some,
    List.reverse_reverse, List.reverse_reverse, String.ofList_toList, String.ofList_toList]

end Cut

theorem firstWord?_append {word : String} (h : OneWord word) (rest : String) :
    firstWord? (word ++ " " ++ rest) = some (word, rest) :=
  cutFirst?_eq_some (by simp) h

theorem lastWord?_append (before : String) {word : String} (h : OneWord word) :
    lastWord? (before ++ " " ++ word) = some (before, word) :=
  cutLast?_eq_some (by simp) h

/-! ### Lines -/

/-- A field: its type and its name. -/
def field? (line : String) : Option (String × String) :=
  (between? "public static " ";" line).bind lastWord?

/-- A local with a literal: its type and its name. -/
def local? (line : String) : Option (String × String) :=
  ((between? "" ";" line).bind lastWord?).bind fun (declared, _) =>
    (between? "" " =" declared).bind lastWord?

/-- A statement that stands alone and whose failure is ignored. -/
def attempted? (line : String) : Option String :=
  between? "try \x7b " " \x7d catch (Throwable __fault) \x7b\x7d" line

/-- A statement that assigns: the name and the expression, which is not empty. -/
def assigned? (statement : String) : Option (String × String) :=
  ((between? "" ";" statement).bind firstWord?).bind fun (name, rest) =>
    (between? "= " "" rest).bind fun init => if init = "" then none else some (name, init)

/-- A case of a switch over calls: its key and the call. -/
def case? (line : String) : Option (String × String) :=
  ((between? "case " " break;" line).bind firstWord?).bind fun (key, rest) =>
    (between? "" ":" key).bind fun key => (attempted? rest).map (key, ·)

variable {type name literal : String}

theorem field?_line (type : String) (hname : OneWord name) :
    field? ("public static " ++ type ++ " " ++ name ++ ";") = some (type, name) := by
  have hinner : between? "public static " ";" ("public static " ++ type ++ " " ++ name ++ ";") =
      some (type ++ " " ++ name) := by
    rw [between?_eq_some]
    simp only [String.append_assoc]
  rw [field?, hinner]
  exact lastWord?_append type hname

theorem local?_line (type : String) (hname : OneWord name) (hliteral : OneWord literal) :
    local? (type ++ " " ++ name ++ " = " ++ literal ++ ";") = some (type, name) := by
  have hinner : between? "" ";" (type ++ " " ++ name ++ " = " ++ literal ++ ";") =
      some (type ++ " " ++ name ++ " =" ++ " " ++ literal) := by
    rw [between?_eq_some, ← String.toList_inj]
    simp
  have hdeclared : between? "" " =" (type ++ " " ++ name ++ " =") = some (type ++ " " ++ name) := by
    rw [between?_eq_some, String.empty_append]
  rw [local?, hinner, Option.bind_some, lastWord?_append _ hliteral, Option.bind_some]
  dsimp only
  rw [hdeclared]
  exact lastWord?_append type hname

/-- What does not end with a semicolon declares no local. -/
theorem local?_eq_none {line : String} (h : line.toList.getLast? ≠ some ';') :
    local? line = none := by
  have hnone : between? "" ";" line = none := by
    rw [Option.eq_none_iff_forall_ne_some]
    intro inner hinner
    obtain rfl := between?_eq_some.1 hinner
    simp at h
  rw [local?, hnone]
  rfl

theorem attempted?_eq_some {line statement : String} :
    attempted? line = some statement ↔ line = Item.attempt statement := by
  have hignored : " \x7d catch (Throwable __fault) \x7b\x7d" = " \x7d " ++ Item.ignored := rfl
  rw [attempted?, between?_eq_some, Item.attempt, hignored]
  simp only [String.append_assoc]

theorem attempted?_attempt (statement : String) :
    attempted? (Item.attempt statement) = some statement :=
  attempted?_eq_some.2 rfl

theorem getLast?_attempt (statement : String) :
    (Item.attempt statement).toList.getLast? = some '\x7d' := by
  rw [Item.attempt, String.toList_append, List.getLast?_append]
  rfl

theorem assigned?_statement (hname : OneWord name) {init : String} (hne : init ≠ "") :
    assigned? (name ++ " = " ++ init ++ ";") = some (name, init) := by
  have hinner : between? "" ";" (name ++ " = " ++ init ++ ";") =
      some (name ++ " " ++ ("= " ++ init)) := by
    rw [between?_eq_some, ← String.toList_inj]
    simp
  have hinit : between? "= " "" ("= " ++ init) = some init := by
    rw [between?_eq_some, String.append_empty]
  rw [assigned?, hinner, Option.bind_some, firstWord?_append hname, Option.bind_some]
  dsimp only
  rw [hinit, Option.bind_some, if_neg hne]

theorem case?_line {key : String} (hkey : OneWord key) (statement : String) :
    case? ("case " ++ key ++ ": " ++ Item.attempt statement ++ " break;") =
      some (key, statement) := by
  have hinner : between? "case " " break;"
      ("case " ++ key ++ ": " ++ Item.attempt statement ++ " break;") =
      some (key ++ ":" ++ " " ++ Item.attempt statement) := by
    rw [between?_eq_some, ← String.toList_inj]
    simp
  have hcolon : between? "" ":" (key ++ ":") = some key := by
    rw [between?_eq_some, String.empty_append]
  rw [case?, hinner, Option.bind_some, firstWord?_append (hkey.append (by decide)),
    Option.bind_some]
  dsimp only
  rw [hcolon, Option.bind_some, attempted?_attempt]
  rfl

/-! ### Calls -/

/-- A call by its names: that of the receiver, the method, and those of the arguments. -/
structure NamedCall where
  receiver : String
  method : String
  args : List String
deriving DecidableEq, Repr

/-- The statement that makes a call. -/
def NamedCall.text (c : NamedCall) : String :=
  c.receiver ++ "." ++ c.method ++ "(" ++ ", ".intercalate c.args ++ ");"

/-- The names in a text that has a comma and a blank between any two of them. -/
def names? (s : String) : Option (List String) :=
  if s = "" then some [] else
    ((" " ++ s).toList.splitOn ',').mapM fun part => between? " " "" (String.ofList part)

/-- A statement that calls: the receiver ends at the first dot, and the arguments begin after the
last bracket. -/
def call? (statement : String) : Option NamedCall :=
  (between? "" ");" statement).bind fun inner =>
    (cutFirst? '.' inner).bind fun (receiver, rest) =>
      (cutLast? '(' rest).bind fun (method, args) => (names? args).map (⟨receiver, method, ·⟩)

/-- Joined texts hold no character that neither they nor the separator hold. -/
theorem not_mem_intercalate {c : Char} {separator : String} {ls : List String}
    (hseparator : c ∉ separator.toList) (h : ∀ l ∈ ls, c ∉ l.toList) :
    c ∉ (separator.intercalate ls).toList := by
  induction ls with
  | nil => simp
  | cons l ls ih =>
      obtain ⟨hl, hrest⟩ := List.forall_mem_cons.1 h
      cases ls with
      | nil => rwa [String.intercalate_singleton]
      | cons m ls =>
          rw [String.intercalate_cons_cons, String.toList_append, String.toList_append,
            List.mem_append, List.mem_append, not_or, not_or]
          exact ⟨⟨hl, hseparator⟩, ih hrest⟩

/-- Between separated parts, the blank of each separator can be taken to the part after it. -/
theorem blank_intercalate (part : List Char) (parts : List (List Char)) :
    ' ' :: [',', ' '].intercalate (part :: parts) =
      [','].intercalate ((part :: parts).map (' ' :: ·)) := by
  induction parts generalizing part with
  | nil => simp
  | cons next parts ih =>
      rw [List.map_cons, List.map_cons, List.intercalate_cons_cons, List.intercalate_cons_cons,
        ← List.map_cons, ← ih next]
      simp

theorem intercalate_cons_ne_empty (separator : String) {first : String} (h : first ≠ "")
    (ls : List String) : separator.intercalate (first :: ls) ≠ "" := by
  cases ls with
  | nil => rwa [String.intercalate_singleton]
  | cons next ls =>
      rw [String.intercalate_cons_cons, String.append_assoc]
      exact fun hempty => h (String.append_eq_empty_iff.1 hempty).1

theorem names?_intercalate {names : List String} (h : ∀ n ∈ names, n ≠ "" ∧ ',' ∉ n.toList) :
    names? (", ".intercalate names) = some names := by
  cases names with
  | nil => rfl
  | cons first names =>
      have hne := intercalate_cons_ne_empty ", " (h first List.mem_cons_self).1 names
      have hparts : (" " ++ ", ".intercalate (first :: names)).toList =
          [','].intercalate ((first :: names).map fun n => ' ' :: n.toList) := by
        have hblank := blank_intercalate first.toList (names.map String.toList)
        rw [← List.map_cons, List.map_map] at hblank
        rw [String.toList_append, String.toList_intercalate]
        exact hblank
      have hcommas : ∀ part ∈ (first :: names).map fun n => ' ' :: n.toList, ',' ∉ part :=
        List.forall_mem_map.2 fun n hn =>
          List.not_mem_cons_of_ne_of_not_mem (by decide) (h n hn).2
      have hsplit := List.splitOn_intercalate ',' hcommas (List.cons_ne_nil _ _)
      rw [names?, if_neg hne, hparts, hsplit, List.mapM_map, mapM_eq_some_map (g := id), List.map_id]
      intro n _
      rw [Function.comp_apply, between?_eq_some, ← String.toList_inj]
      simp

/-- A call is read off its statement, whatever the method is called, if no name holds what tells it
from the rest. -/
theorem call?_text (c : NamedCall) (hreceiver : '.' ∉ c.receiver.toList)
    (hargs : ∀ a ∈ c.args, a ≠ "" ∧ ',' ∉ a.toList ∧ '(' ∉ a.toList) :
    call? c.text = some c := by
  obtain ⟨receiver, method, args⟩ := c
  dsimp only at hreceiver hargs
  have hnames := names?_intercalate fun a ha => ⟨(hargs a ha).1, (hargs a ha).2.1⟩
  have hbracket : '(' ∉ (", ".intercalate args).toList :=
    not_mem_intercalate (by decide) fun a ha => (hargs a ha).2.2
  rw [NamedCall.text]
  dsimp only
  generalize ", ".intercalate args = listed at hnames hbracket ⊢
  have hinner : between? "" ");" (receiver ++ "." ++ method ++ "(" ++ listed ++ ");") =
      some (receiver ++ "." ++ (method ++ "(" ++ listed)) := by
    rw [between?_eq_some]
    simp only [String.empty_append, String.append_assoc]
  have hfirst : cutFirst? '.' (receiver ++ "." ++ (method ++ "(" ++ listed)) =
      some (receiver, method ++ "(" ++ listed) := cutFirst?_eq_some (by simp) hreceiver
  have hlast : cutLast? '(' (method ++ "(" ++ listed) = some (method, listed) :=
    cutLast?_eq_some (by simp) hbracket
  rw [call?, hinner, Option.bind_some, hfirst, Option.bind_some]
  dsimp only
  rw [hlast, Option.bind_some]
  dsimp only
  rw [hnames]
  rfl

example : call? "main.on(x).click(main, view_2);" =
    some ⟨"main", "on(x).click", ["main", "view_2"]⟩ := by rfl

/-! ### The loop over calls -/

/-- A loop over a choice of calls: how often it runs, among how many it chooses, and its cases. -/
structure CallLoop where
  bound : String
  choices : String
  cases : List (String × String)
deriving DecidableEq, Repr

/-- The cases of a switch, which end with the default that does nothing. -/
def cases? : List Item → Option (List (String × String))
  | [] | .block _ _ :: _ => none
  | .line t :: is =>
    match case? t with
    | some c => (cases? is).map (c :: ·)
    | none => if t = "default: break;" ∧ is.isEmpty then some [] else none

/-- A loop over a switch on the choice that the stubs class makes. -/
def loop? (stubs head : String) : List Item → Option CallLoop
  | [.block inner body] =>
    (between? "for (int __pass = 0; __pass < " "; __pass++)" head).bind fun bound =>
      (between? ("switch (" ++ stubs ++ ".nondet(") "))" inner).bind fun choices =>
        (cases? body).map (⟨bound, choices, ·⟩)
  | _ => none

theorem not_mem_toString {c : Char} (hc : c.isDigit = false) (n : Nat) :
    c ∉ (toString n).toList := by
  intro hmem
  rw [Nat.toString_eq_ofList_toDigits, String.toList_ofList] at hmem
  rw [Nat.isDigit_of_mem_toDigits (by decide) (by decide) hmem] at hc
  cases hc

theorem not_mem_toString_int {c : Char} (hc : c.isDigit = false) (hminus : c ≠ '-') (n : Int) :
    c ∉ (toString n).toList := by
  cases n with
  | ofNat n => exact not_mem_toString hc n
  | negSucc n =>
      change c ∉ ("-" ++ toString (n + 1)).toList
      simpa [hminus] using not_mem_toString hc (n + 1)

theorem cases?_calls (label : StandInRef → String) (steps : List (CallStep × Nat)) :
    cases? (steps.map (callCase label) ++ [.line "default: break;"]) =
      some (steps.map fun step => (toString step.2, callStatement label step.1)) := by
  induction steps with
  | nil => rfl
  | cons step steps ih =>
      rw [List.map_cons, List.cons_append, callCase, cases?,
        case?_line (not_mem_toString (by decide) step.2), ih]
      rfl

theorem loop?_calls (stubs : String) (label : StandInRef → String) (bound choices : Nat)
    (steps : List (CallStep × Nat)) :
    loop? stubs ("for (int __pass = 0; __pass < " ++ toString bound ++ "; __pass++)")
        [.block ("switch (" ++ stubs ++ ".nondet(" ++ toString choices ++ "))")
          (steps.map (callCase label) ++ [.line "default: break;"])] =
      some { bound := toString bound, choices := toString choices
             cases := steps.map fun step => (toString step.2, callStatement label step.1) } := by
  rw [loop?, between?_append, Option.bind_some, between?_append, Option.bind_some, cases?_calls]
  rfl

/-! ### Statements -/

/-- What stands in the body of a method. -/
inductive Statement where
  | remark (text : String)
  | declaration (type name : String)
  | attempt (statement : String)
  | repeated (loop : CallLoop)
deriving DecidableEq, Repr

namespace Statement

def declared? : Statement → Option (String × String)
  | .declaration type name => some (type, name)
  | _ => none

def attempted? : Statement → Option String
  | .attempt statement => some statement
  | _ => none

def repeated? : Statement → Option CallLoop
  | .repeated loop => some loop
  | _ => none

end Statement

/-- What an item in the body of a method says, if it is one of these. -/
def statement? (stubs : String) : Item → Option Statement
  | .line t =>
    match local? t, attempted? t with
    | some (type, name), _ => some (.declaration type name)
    | none, some statement => some (.attempt statement)
    | none, none => if t = "" ∨ (between? "// " "" t).isSome then some (.remark t) else none
  | .block head body => (loop? stubs head body).map .repeated

variable {stubs : String}

theorem statement?_declaration (type : String) (hname : OneWord name) (hliteral : OneWord literal) :
    statement? stubs (.line (type ++ " " ++ name ++ " = " ++ literal ++ ";")) =
      some (.declaration type name) := by
  rw [statement?, local?_line type hname hliteral]

theorem statement?_guarded (statement : String) :
    statement? stubs (Item.guarded statement) = some (.attempt statement) := by
  have hend : local? (Item.attempt statement) = none := by
    apply local?_eq_none
    rw [getLast?_attempt]
    decide
  rw [Item.guarded, statement?, hend, attempted?_attempt]

theorem statement?_blank : statement? stubs Item.blank = some (.remark "") := rfl

theorem statement?_remark {text : String} (h : text.toList.getLast? ∉ [some ';', some '\x7d']) :
    statement? stubs (.line ("// " ++ text)) = some (.remark ("// " ++ text)) := by
  have hlast : ("// " ++ text).toList.getLast? ∉ [some ';', some '\x7d'] := by
    rw [String.toList_append, List.getLast?_append]
    cases hlast : text.toList.getLast? with
    | none => decide
    | some c => rwa [Option.some_or, ← hlast]
  simp only [List.mem_cons, List.not_mem_nil, or_false, not_or] at hlast
  have hstatement : attempted? ("// " ++ text) = none := by
    rw [Option.eq_none_iff_forall_ne_some]
    intro inner hinner
    refine hlast.2 ?_
    rw [attempted?_eq_some.1 hinner]
    exact getLast?_attempt inner
  have hremark : between? "// " "" ("// " ++ text) = some text := by
    rw [between?_eq_some, String.append_empty]
  rw [statement?, local?_eq_none hlast.1, hstatement, hremark]
  exact if_pos (Or.inr rfl)

/-! ### Classes -/

/-- The body of the first block that has a head. -/
def blockOf? (head : String) : List Item → Option (List Item)
  | [] => none
  | .line _ :: is => blockOf? head is
  | .block h body :: is => if h = head then some body else blockOf? head is

theorem blockOf?_block (head : String) (body is : List Item) :
    blockOf? head (.block head body :: is) = some body := if_pos rfl

theorem blockOf?_lines_append (head : String) {is : List Item} (h : ∀ i ∈ is, ∃ t, i = .line t)
    (js : List Item) : blockOf? head (is ++ js) = blockOf? head js := by
  induction is with
  | nil => rfl
  | cons i is ih =>
      obtain ⟨⟨t, rfl⟩, hrest⟩ := List.forall_mem_cons.1 h
      exact ih hrest

/-- The members of a class in its source. -/
def members? (qualified source : String) : Option (List Item) :=
  (readItems? source).bind (blockOf? ("public class " ++ (splitClass qualified).2))

theorem members?_render {qualified : String} {members : List Item}
    (h : ∀ i ∈ classItems qualified members, i.Legible) :
    members? qualified (Item.render (classItems qualified members)) = some (.blank :: members) := by
  have hpackage : ∀ i ∈ packageItems qualified, ∃ t, i = .line t := by
    rw [packageItems]
    split
    · exact fun i hi => (List.not_mem_nil hi).elim
    · exact List.forall_mem_cons.2 ⟨⟨_, rfl⟩, List.forall_mem_singleton.2 ⟨_, rfl⟩⟩
  rw [members?, readItems?_render h, Option.bind_some, classItems, blockOf?_lines_append _ hpackage,
    blockOf?_block]

/-- The text of a line that is not blank. -/
def lineText? : Item → Option String
  | .line t => if t = "" then none else some t
  | .block _ _ => none

theorem lineText?_line {t : String} (h : t ≠ "") : lineText? (.line t) = some t := if_neg h

/-- The fields of a class in order, if each line among its members declares one. -/
def fields? (qualified source : String) : Option (List (String × String)) :=
  (members? qualified source).bind fun members => (members.filterMap lineText?).mapM field?

/-- An assignment that stands alone: the name and the expression. -/
def assignment? (i : Item) : Option (String × String) :=
  ((lineText? i).bind attempted?).bind assigned?

theorem assignment?_guarded (hname : OneWord name) {init : String} (hne : init ≠ "") :
    assignment? (Item.guarded (name ++ " = " ++ init ++ ";")) = some (name, init) := by
  have hline : ∀ statement, Item.attempt statement ≠ "" := by
    intro statement hempty
    have hlast := getLast?_attempt statement
    rw [hempty] at hlast
    cases hlast
  rw [assignment?, Item.guarded, lineText?_line (hline _), Option.bind_some, attempted?_attempt,
    Option.bind_some, assigned?_statement hname hne]

/-- The assignments of the static initializer of a class in order, if it holds nothing else. -/
def assignments? (qualified source : String) : Option (List (String × String)) :=
  ((members? qualified source).bind (blockOf? "static")).bind (·.mapM assignment?)

/-- What stands in the body of a method without parameters that returns nothing, if every item is
understood. -/
def statements? (qualified method stubs source : String) : Option (List Statement) :=
  ((members? qualified source).bind (blockOf? ("public static void " ++ method ++ "()"))).bind
    (·.mapM (statement? stubs))

end AppDriver.Java
