import Mathlib.Data.List.Forall2
import Mathlib.Data.List.Nodup
import Mathlib.Data.List.TakeWhile
import Sealing.Environment

/-!
# Walking tables

A walk shows each name of a table once, with the value that it was given last, so what is found
under a name does not depend on the walk. Tables that are filled with the same names are walked side
by side, whatever their values.
-/

namespace Sealing

variable {α β : Type} {name : String}

/-! ## Tables by name -/

/-- Walks through the settings that begin with the one that was added last. -/
def Walks.backwards : Walks := { settings := ⟨List.reverse, List.reverse_perm⟩ }

namespace Walk

/-- Every name is kept once. -/
private theorem nodup_eraseDupsBy_loop (names kept : List String) (h : kept.Nodup) :
    (List.eraseDupsBy.loop (· == ·) names kept).Nodup := by
  induction names generalizing kept with
  | nil => simpa only [List.eraseDupsBy.loop] using List.nodup_reverse.mpr h
  | cons name names ih =>
    unfold List.eraseDupsBy.loop
    split
    · exact ih kept h
    · next hnew =>
      refine ih _ (List.nodup_cons.mpr ⟨fun hmem => ?_, h⟩)
      exact List.any_eq_false.mp hnew name hmem (beq_self_eq_true name)

/-- In a table that shows each name once, an entry is what is found under its name. -/
theorem mem_iff_lookup {table : List (String × α)} (h : (table.map (·.1)).Nodup) {a : α} :
    (name, a) ∈ table ↔ table.lookup name = some a := by
  rw [List.lookup_eq_some_iff]
  constructor
  · intro hmem
    obtain ⟨front, rest, rfl⟩ := List.append_of_mem hmem
    refine ⟨front, rest, rfl, fun entry hentry => ?_⟩
    rw [List.map_append, List.map_cons, List.nodup_append] at h
    have hne := h.2.2 entry.1 (List.mem_map_of_mem hentry) name (by simp)
    exact bne_iff_ne.mpr hne.symm
  · rintro ⟨front, rest, rfl, -⟩
    simp

/-- What is found in a table that lists names with what a function has for them. -/
private theorem lookup_filterMap (names : List String) (f : String → Option α) :
    (names.filterMap fun n => (f n).map (n, ·)).lookup name =
      if name ∈ names then f name else none := by
  induction names with
  | nil => rfl
  | cons n names ih =>
    by_cases hname : name = n
    · subst hname
      cases hf : f name with
      | none => simp [hf, ih]
      | some a => simp [hf]
    · have hbeq : (name == n) = false := beq_false_of_ne hname
      cases hf : f n with
      | none => simp [hf, ih, hname]
      | some a => simp [hf, List.lookup_cons, ih, hname, hbeq]

variable (w : Walk) (entries : List (String × α))

/-- A walk shows under a name what was entered last. -/
@[simp] theorem lookup_through : (w.through entries).lookup name = entries.reverse.lookup name := by
  rw [through, lookup_filterMap]
  split
  · rfl
  · next hname =>
    rw [(w.perm _).mem_iff, List.mem_eraseDups] at hname
    refine (List.lookup_eq_none_iff.mpr fun entry hentry => bne_iff_ne.mpr ?_).symm
    rintro rfl
    exact hname (List.mem_map_of_mem (List.mem_reverse.mp hentry))

/-- A walk shows each name once. -/
theorem nodup_through : ((w.through entries).map (·.1)).Nodup := by
  rw [through, List.map_filterMap]
  have hnames := (w.perm _).nodup_iff.mpr
    (nodup_eraseDupsBy_loop (entries.map (·.1)) [] List.nodup_nil)
  refine hnames.filterMap fun n n' shown hn hn' => ?_
  rw [Option.map_map, Option.mem_def, Option.map_eq_some_iff] at hn hn'
  obtain ⟨_, -, rfl⟩ := hn
  obtain ⟨_, -, hsame⟩ := hn'
  exact hsame.symm

/-- An entry that a walk shows was entered, and no later one of its name. -/
theorem mem_through_iff {a : α} :
    (name, a) ∈ w.through entries ↔ entries.reverse.lookup name = some a := by
  rw [mem_iff_lookup (w.nodup_through entries), lookup_through]

end Walk

/-! ## Tables side by side -/

/-- Tables with the same names in the same order, and with related values under each name. -/
def Rows (R : String → α → β → Prop) : List (String × α) → List (String × β) → Prop :=
  List.Forall₂ fun entry entry' => entry.1 = entry'.1 ∧ R entry.1 entry.2 entry'.2

namespace Rows

variable {R : String → α → β → Prop} {entries : List (String × α)} {entries' : List (String × β)}

/-- The names are the same. -/
theorem names_eq (h : Rows R entries entries') : entries.map (·.1) = entries'.map (·.1) := by
  induction h with
  | nil => rfl
  | cons hentry _ ih => rw [List.map_cons, List.map_cons, hentry.1, ih]

/-- Something is found under a name in both or in neither, and then values that are related. -/
theorem lookup (h : Rows R entries entries') (name : String) :
    Option.Rel (R name) (entries.lookup name) (entries'.lookup name) := by
  induction h with
  | nil => exact .none
  | @cons entry entry' _ _ hentry _ ih =>
    obtain ⟨hsame, hvalue⟩ := hentry
    rw [List.lookup_cons, List.lookup_cons, ← hsame]
    cases hname : name == entry.1 with
    | true => exact .some (eq_of_beq hname ▸ hvalue)
    | false => exact ih

/-- Tables with the same names are walked in the same order. -/
theorem through (h : Rows R entries entries') (w : Walk) :
    Rows R (w.through entries) (w.through entries') := by
  have hfound : Rows R entries.reverse entries'.reverse := List.forall₂_reverse_iff.mpr h
  rw [Walk.through, Walk.through, ← h.names_eq]
  generalize w.arrange (entries.map (·.1)).eraseDups = names
  induction names with
  | nil => exact .nil
  | cons name names ih =>
    rw [List.filterMap_cons, List.filterMap_cons]
    have hname := hfound.lookup name
    generalize entries.reverse.lookup name = found at hname ⊢
    generalize entries'.reverse.lookup name = found' at hname ⊢
    cases hname with
    | none => exact ih
    | some hvalue => exact .cons ⟨rfl, hvalue⟩ ih

end Rows

/-! ## Variables and settings -/

namespace Environment

variable {env : Environment} {walks : Walks} {text : String} {value : Value}

/-- The text of a variable, by its name in lower case. Of several spellings the last one counts. -/
def latest? (env : Environment) (name : String) : Option String :=
  (env.map fun entry => (lowerName entry.1, entry.2)).reverse.lookup name

/-- The setting of a variable does not depend on its text. -/
theorem assign_fst_eq (name text text' : String) :
    (assign name text).1 = (assign name text').1 := by
  unfold assign
  split <;> rfl

/-- A name without points and brackets is that of a setting as it stands. -/
theorem assign_of_letters (h : name.toList.all isNameLetter = true) :
    assign name text = (name, .text text) := by
  have hrest : name.toList.dropWhile isNameLetter = [] :=
    List.dropWhile_eq_nil_iff.mpr (List.all_eq_true.mp h)
  unfold assign
  rw [hrest]
  cases isPath name <;> rfl

/-- A setting is set exactly if some variable belongs to it. -/
def Sets (env : Environment) (name : String) : Prop :=
  ∃ entry ∈ env, (assign (lowerName entry.1) entry.2).1 = name

/-- No variable is a path into a setting: all that belong to it have its name. -/
def Plainly (env : Environment) (name : String) : Prop :=
  ∀ entry ∈ env, (assign (lowerName entry.1) entry.2).1 = name → lowerName entry.1 = name

instance : Decidable (env.Plainly name) :=
  inferInstanceAs (Decidable (∀ entry ∈ env, _ → _))

/-- A variable that is walked has a spelling in the environment. -/
theorem exists_of_mem_entries {w : Walk} (h : (name, text) ∈ env.entries w) :
    ∃ entry ∈ env, lowerName entry.1 = name ∧ entry.2 = text := by
  have hlookup := (w.mem_through_iff _).mp h
  obtain ⟨front, rest, hsplit, -⟩ := List.lookup_eq_some_iff.mp hlookup
  have hmem : (name, text) ∈ env.map fun entry => (lowerName entry.1, entry.2) := by
    rw [← List.mem_reverse, hsplit]
    simp
  obtain ⟨entry, hentry, heq⟩ := List.mem_map.mp hmem
  exact ⟨entry, hentry, (Prod.mk.inj heq).1, (Prod.mk.inj heq).2⟩

/-- A variable in the environment is walked, under its name in lower case. -/
theorem exists_mem_entries {entry : String × String} (h : entry ∈ env) (w : Walk) :
    ∃ text, (lowerName entry.1, text) ∈ env.entries w := by
  have hsome : ((env.map fun entry => (lowerName entry.1, entry.2)).reverse.lookup
      (lowerName entry.1)).isSome := by
    rw [List.lookup_isSome_iff]
    exact ⟨(lowerName entry.1, entry.2), List.mem_reverse.mpr (List.mem_map_of_mem h), by simp⟩
  obtain ⟨text, htext⟩ := Option.isSome_iff_exists.mp hsome
  exact ⟨text, (w.mem_through_iff _).mpr htext⟩

/-- Whether a setting is set does not depend on the walks. -/
theorem isSome_lookup_settings_iff :
    ((env.settings walks).lookup name).isSome ↔ env.Sets name := by
  rw [settings, Walk.lookup_through, List.lookup_isSome_iff]
  constructor
  · rintro ⟨assigned, hassigned, hname⟩
    obtain ⟨⟨n, text⟩, hmem, rfl⟩ := List.mem_map.mp (List.mem_reverse.mp hassigned)
    obtain ⟨entry, hentry, rfl, rfl⟩ := exists_of_mem_entries hmem
    exact ⟨entry, hentry, (eq_of_beq hname).symm⟩
  · rintro ⟨entry, hentry, rfl⟩
    obtain ⟨text, hmem⟩ := exists_mem_entries hentry walks.entries
    refine ⟨_, List.mem_reverse.mpr (List.mem_map_of_mem hmem), ?_⟩
    rw [beq_iff_eq]
    exact assign_fst_eq _ _ _

/-- What is found under the name of a setting among variables none of which is a path into it. -/
private theorem lookup_map_assign (hname : ∀ text, assign name text = (name, .text text))
    {entries : List (String × String)}
    (h : ∀ entry ∈ entries, (assign entry.1 entry.2).1 = name → entry.1 = name) :
    (entries.map fun entry => assign entry.1 entry.2).lookup name =
      (entries.lookup name).map .text := by
  induction entries with
  | nil => rfl
  | cons entry entries ih =>
    obtain ⟨hentry, hentries⟩ := List.forall_mem_cons.mp h
    rw [List.map_cons, List.lookup_cons, List.lookup_cons, ih hentries]
    by_cases hsame : name = entry.1
    · rw [← hsame, hname, beq_self_eq_true]
      rfl
    · have hother : name ≠ (assign entry.1 entry.2).1 := fun heq => hsame (hentry heq.symm).symm
      rw [beq_false_of_ne hsame, beq_false_of_ne hother]

/-- A setting that no path leads into is the text of its variable, however tables are walked. -/
theorem lookup_settings_of_plainly (hname : ∀ text, assign name text = (name, .text text))
    (h : env.Plainly name) : (env.settings walks).lookup name = (env.latest? name).map .text := by
  have hentries : ∀ entry ∈ (env.entries walks.entries).reverse,
      (assign entry.1 entry.2).1 = name → entry.1 = name := by
    rintro ⟨n, text⟩ hmem hfst
    obtain ⟨entry, hentry, rfl, rfl⟩ := exists_of_mem_entries (List.mem_reverse.mp hmem)
    exact h entry hentry hfst
  have hreverse : (env.entries walks.entries).reverse.lookup name = env.latest? name := by
    apply Option.ext
    intro text
    have hnodup := walks.entries.nodup_through
      (env.map fun entry => (lowerName entry.1, entry.2))
    have hnodup' : ((env.entries walks.entries).reverse.map (·.1)).Nodup := by
      rw [List.map_reverse]
      exact List.nodup_reverse.mpr hnodup
    rw [← Walk.mem_iff_lookup hnodup', List.mem_reverse]
    exact walks.entries.mem_through_iff _
  rw [settings, Walk.lookup_through, ← List.map_reverse, lookup_map_assign hname hentries, hreverse]

end Environment

end Sealing
