import FixedWidth.Text.Bytes

/-!
# Tallies

How many scenarios of each group passed and failed. The groups stand in the strict order of their
names' bytes, and that order is part of the type: adding to a group finds its place or makes it, so
the same counts always give the same tallies, whatever the order in which they came
(`get?_add` says what adding does).

In the program: the matrix runner's `GroupTally` (`Tally`) and the map `groups` of a report. The map
is a tree there, and a list with its order in the type here; both give the entries in the order of
the names. Counts are machine words there and natural numbers here, which agree up to the greatest
word.
-/

namespace FixedWidth

/-- How many scenarios passed and how many failed. -/
structure Tally where
  passed : Nat := 0
  failed : Nat := 0
  deriving DecidableEq, Repr

instance : Add Tally := ⟨fun a b => ⟨a.passed + b.passed, a.failed + b.failed⟩⟩

namespace Tally

@[simp] theorem passed_add (a b : Tally) : (a + b).passed = a.passed + b.passed := rfl

@[simp] theorem failed_add (a b : Tally) : (a + b).failed = a.failed + b.failed := rfl

end Tally

/-- A group with its tally. -/
structure GroupTally where
  group : String
  tally : Tally
  deriving DecidableEq, Repr

/-- The tallies of all groups that have one. -/
structure Tallies where
  entries : List GroupTally
  sorted : entries.Pairwise (fun a b => Text.before a.group b.group)
  deriving DecidableEq

namespace Tallies

/-- No tallies. -/
def empty : Tallies := ⟨[], .nil⟩

instance : Inhabited Tallies := ⟨empty⟩

/-- Entries with a tally added to a group, in its place. -/
def addEntry (group : String) (tally : Tally) : List GroupTally → List GroupTally
  | [] => [⟨group, tally⟩]
  | entry :: rest =>
    if Text.before group entry.group then ⟨group, tally⟩ :: entry :: rest
    else if group = entry.group then ⟨group, entry.tally + tally⟩ :: rest
    else entry :: addEntry group tally rest

theorem group_of_mem_addEntry {group : String} {tally : Tally} {entries : List GroupTally}
    {e : GroupTally} (h : e ∈ addEntry group tally entries) :
    e.group = group ∨ e ∈ entries := by
  induction entries with
  | nil => simp_all [addEntry]
  | cons entry rest ih => grind [addEntry]

/-- Adding to a group keeps the order, by induction on the entries before its place. -/
theorem sorted_addEntry (group : String) (tally : Tally) {entries : List GroupTally}
    (h : entries.Pairwise (fun a b => Text.before a.group b.group)) :
    (addEntry group tally entries).Pairwise (fun a b => Text.before a.group b.group) := by
  induction entries with
  | nil => simp [addEntry]
  | cons entry rest ih =>
    obtain ⟨hfirst, hrest⟩ := List.pairwise_cons.1 h
    unfold addEntry
    split
    · next hlt =>
      refine List.pairwise_cons.2 ⟨fun e he => ?_, h⟩
      rcases List.mem_cons.1 he with rfl | he
      · exact hlt
      · exact Text.before_trans hlt (hfirst e he)
    · split
      · next heq => exact List.pairwise_cons.2 ⟨fun e he => heq ▸ hfirst e he, hrest⟩
      · next hnot hne =>
        refine List.pairwise_cons.2 ⟨fun e he => ?_, ih hrest⟩
        rcases group_of_mem_addEntry he with hg | he
        · exact hg ▸ Text.before_of_not_before hnot hne
        · exact hfirst e he

/-- The tallies with one more added to a group. -/
def add (tallies : Tallies) (group : String) (tally : Tally) : Tallies :=
  ⟨addEntry group tally tallies.entries, sorted_addEntry group tally tallies.sorted⟩

/-- The tallies of two runs together. -/
def merge (tallies other : Tallies) : Tallies :=
  other.entries.foldl (fun tallies entry => tallies.add entry.group entry.tally) tallies

/-- The tallies of a list of groups, where those of one group come together. -/
def ofList (entries : List GroupTally) : Tallies :=
  entries.foldl (fun tallies entry => tallies.add entry.group entry.tally) empty

/-- The tally of a group among entries. -/
def find? (group : String) (entries : List GroupTally) : Option Tally :=
  (entries.find? (·.group = group)).map GroupTally.tally

/-- The tally of a group, if it has one. -/
def get? (tallies : Tallies) (group : String) : Option Tally := find? group tallies.entries

/-- A name before all entries is none of them. -/
theorem find?_eq_none_of_before {group : String} {entries : List GroupTally}
    (h : ∀ e ∈ entries, Text.before group e.group) : find? group entries = none := by
  have hne : ∀ e ∈ entries, ¬ e.group = group := fun e he heq =>
    Text.before_irrefl group (heq ▸ h e he)
  simpa [find?] using hne

/-- Adding to a group changes its own tally, over entries in order. -/
theorem find?_addEntry (group : String) (tally : Tally) {entries : List GroupTally}
    (h : entries.Pairwise (fun a b => Text.before a.group b.group)) (other : String) :
    find? other (addEntry group tally entries) =
      if other = group then some (((find? group entries).getD {}) + tally)
      else find? other entries := by
  have zero_add : ({} : Tally) + tally = tally := by
    show (⟨0 + tally.passed, 0 + tally.failed⟩ : Tally) = tally
    simp
  induction entries with
  | nil => by_cases ho : other = group <;> simp [addEntry, find?, ho, zero_add, eq_comm]
  | cons entry rest ih =>
    obtain ⟨hfirst, hrest⟩ := List.pairwise_cons.1 h
    unfold addEntry
    split
    · next hlt =>
      have hnone : find? group (entry :: rest) = none := by
        refine find?_eq_none_of_before fun e he => ?_
        rcases List.mem_cons.1 he with rfl | he
        · exact hlt
        · exact Text.before_trans hlt (hfirst e he)
      by_cases ho : other = group
      · rw [if_pos ho, hnone, ho, Option.getD_none, zero_add]
        simp [find?]
      · simp [ho, find?, eq_comm]
    · split
      · next heq =>
        subst heq
        by_cases ho : other = entry.group
        · simp [ho, find?]
        · simp [ho, find?, eq_comm]
      · next hne =>
        have hcons : ∀ name rest', find? name (entry :: rest') =
            if entry.group = name then some entry.tally else find? name rest' := by
          intro name rest'
          by_cases hn : entry.group = name <;> simp [find?, hn]
        rw [hcons, hcons, hcons, ih hrest]
        grind

/-- Adding to a group changes its tally and no other. -/
theorem get?_add (tallies : Tallies) (group : String) (tally : Tally) (other : String) :
    (tallies.add group tally).get? other =
      if other = group then some (((tallies.get? group).getD {}) + tally)
      else tallies.get? other :=
  find?_addEntry group tally tallies.sorted other

end Tallies

end FixedWidth
