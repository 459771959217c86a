import StreamScript.Program.State

/-! # The tracker as one stack of entries

A tracker that was filled by openings and closings holds a bracket for every line, so it is given
by one list of entries, `Tracker.ofEntries`.  The operations act on the head of that list. -/

namespace StreamScript

namespace Tracker

variable {b : Bracket} {l : Nat} {entries : List (Bracket × Nat)}

/-- The tracker in which the entries are open, innermost first. -/
def ofEntries (entries : List (Bracket × Nat)) : Tracker :=
  ⟨entries.map Prod.fst, entries.map Prod.snd⟩

@[simp] theorem ofEntries_nil : ofEntries [] = empty := rfl

@[simp] theorem push_ofEntries : (ofEntries entries).push b l = ofEntries ((b, l) :: entries) := rfl

@[simp] theorem depth_ofEntries : (ofEntries entries).depth = entries.length := by
  simp [ofEntries, depth]

@[simp] theorem isEmpty_ofEntries : (ofEntries entries).isEmpty = entries.isEmpty := by
  cases entries <;> rfl

@[simp] theorem innermost_ofEntries : (ofEntries entries).innermost = entries.head? := by
  cases entries <;> rfl

/-- An entry is taken off under its own kind of bracket. -/
@[simp] theorem pop_ofEntries_cons :
    (ofEntries ((b, l) :: entries)).pop b = (some (b, l), ofEntries entries) := by
  rw [← push_ofEntries, pop_push]

theorem ofEntries_injective {more : List (Bracket × Nat)} (h : ofEntries entries = ofEntries more) :
    entries = more := by
  obtain ⟨hopeners, hlines⟩ := Tracker.mk.inj h
  rw [← List.zip_unzip entries, ← List.zip_unzip more, List.unzip_fst, List.unzip_fst,
    List.unzip_snd, List.unzip_snd, hopeners, hlines]

end Tracker

/-- The entries of open blocks, each on the line of its bracket. -/
def braceEntries (blocks : List Token) : List (Bracket × Nat) :=
  blocks.map fun t => (.brace, t.line)

@[simp] theorem braceEntries_nil : braceEntries [] = [] := rfl

@[simp] theorem braceEntries_cons (t : Token) (blocks : List Token) :
    braceEntries (t :: blocks) = (.brace, t.line) :: braceEntries blocks := rfl

@[simp] theorem length_braceEntries (blocks : List Token) :
    (braceEntries blocks).length = blocks.length := List.length_map _

end StreamScript
