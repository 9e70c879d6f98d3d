import Sealing.Text.Blank

/-!
# The environment

What the variables of a process say of its settings. The name of a variable counts in lower case,
and of several spellings the last one. Most names are those of settings. A name may also be a path
into a setting, to a field behind a point or to a place in brackets, and then makes a table or a
list of that setting. The variables are taken one after the other, and each replaces what another
has made of the same setting.

Variables and settings are both kept in tables that are walked in an order which nobody promises.
It may change from one run to the next, but it depends on nothing except the names in the table.
-/

namespace Sealing

/-- Environment variables, in order. -/
abbrev Environment := List (String × String)

/-! ## Walks -/

/-- An order to walk tables in. It may be any, but the values in a table have no part in it. -/
structure Walk where
  arrange : List String → List String
  perm : ∀ names, (arrange names).Perm names

namespace Walk

/-- The order in which names were added. -/
def asAdded : Walk := ⟨id, fun _ => .refl _⟩

/-- Walks the table that is filled with some entries one after the other. Each name comes once, with
the value that it was given last. -/
def through {α : Type} (w : Walk) (entries : List (String × α)) : List (String × α) :=
  (w.arrange (entries.map (·.1)).eraseDups).filterMap fun name =>
    (entries.reverse.lookup name).map (name, ·)

end Walk

/-- The walks through the table of variables and through that of settings. -/
structure Walks where
  entries : Walk := .asAdded
  settings : Walk := .asAdded

namespace Environment

/-! ## Names -/

/-- A letter of a name in lower case. Besides A to Z, the Kelvin sign is a capital K. -/
def lowerLetter (c : Char) : Char := if c = '\u212A' then 'k' else Text.lowerAscii c

/-- A name in lower case. -/
def lowerName (name : String) : String := String.ofList (name.toList.map lowerLetter)

/-- Whether a character may stand in the name of a setting that a path leads into, or in that of a
field. -/
def isNameLetter (c : Char) : Bool :=
  ('a' ≤ c && c ≤ 'z') || ('A' ≤ c && c ≤ 'Z') || c.isDigit || c = ' ' || c = '_' || c = '-'

/-- A place in a path. -/
inductive Place where
  /-- A name has to follow: at the start, and behind a point. -/
  | nameless
  | name
  /-- Behind an opening bracket, and blanks. -/
  | bracket
  | minus
  /-- In the digits of an index, which come to this number so far. -/
  | index (negative : Bool) (n : Nat)
  /-- Behind an index, and blanks. -/
  | blank
  /-- Behind a closing bracket. -/
  | closed
deriving DecidableEq, Repr

namespace Place

/-- The place behind the first character of a step. -/
def step? : Char → Option Place
  | '.' => some nameless
  | '[' => some bracket
  | _ => none

/-- The place behind the first character that follows an index. -/
def close? (c : Char) : Option Place :=
  if c = ']' then some closed else if c = ' ' ∨ c = '\t' then some blank else none

/-- The place behind one more character, if a path may go on with it. -/
def next? : Place → Char → Option Place
  | nameless, c => if isNameLetter c then some name else none
  | name, c => if isNameLetter c then some name else step? c
  | bracket, c =>
    if c = ' ' ∨ c = '\t' then some bracket else if c = '-' then some minus
    else if c.isDigit then some (index false (c.toNat - '0'.toNat)) else none
  | minus, c => if c.isDigit then some (index true (c.toNat - '0'.toNat)) else none
  | index negative n, c =>
    if c.isDigit then some (index negative (n * 10 + (c.toNat - '0'.toNat)))
    -- an index has to fit into 64 bits with a sign
    else if n < Nat.pow 2 63 + negative.toNat then close? c else none
  | blank, c => close? c
  | closed, c => step? c

/-- Whether a path may end here. -/
def isEnd : Place → Bool
  | name | closed => true
  | _ => false

end Place

/-- Whether a name is a path: a name, and then fields behind points and indices in brackets. -/
def isPath (name : String) : Bool :=
  (name.toList.foldlM Place.next? .nameless).any Place.isEnd

/-! ## Settings -/

/-- What a setting is set to. -/
inductive Value where
  | text (text : String)
  /-- The setting has fields. -/
  | table
  /-- The setting has places. -/
  | list
deriving DecidableEq, Repr

/-- Settings, with what they are set to. -/
abbrev Table := List (String × Value)

/-- The setting that a variable belongs to, and what it makes of it. A path belongs to the setting
that it leads into, any other name is that of a setting as it stands. -/
def assign (name text : String) : String × Value :=
  let root := String.ofList (name.toList.takeWhile isNameLetter)
  match isPath name, name.toList.dropWhile isNameLetter with
  | true, '.' :: _ => (root, .table)
  | true, '[' :: _ => (root, .list)
  | _, _ => (name, .text text)

/-- The variables in the order of a walk, with their names in lower case. -/
def entries (env : Environment) (w : Walk) : List (String × String) :=
  w.through (env.map fun entry => (lowerName entry.1, entry.2))

/-- The settings that the variables come to, in the order of a walk. -/
def settings (env : Environment) (walks : Walks := {}) : Table :=
  walks.settings.through ((env.entries walks.entries).map fun entry => assign entry.1 entry.2)

/-- The value of a variable under its exact name. -/
def exactly? (env : Environment) (name : String) : Option String := env.lookup name

end Environment

end Sealing
