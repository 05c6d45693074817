import Mathlib.Data.List.Sort
import Mathlib.Data.Char
import Mathlib.Data.List.Lex
import Mathlib.Tactic.Common

/-!
# Maps as lists sorted by their keys

A map whose iteration is in the order of its keys, as the list of its entries.
Inserting replaces the entry of the same key.  A map built by inserting
entries with distinct keys holds exactly those entries, whatever order they
were inserted in.
-/

namespace LibidBridge

namespace SortedMembers

variable {κ β : Type*} [LinearOrder κ]

/-- The map with one entry replaced or added. -/
def insert (key : κ) (value : β) (entries : List (κ × β)) : List (κ × β) :=
  List.orderedInsert (fun first second => first.1 ≤ second.1) (key, value)
    (entries.filter fun entry => entry.1 ≠ key)

/-- The map built by inserting entries one after another. -/
def ofEntries (entries : List (κ × β)) : List (κ × β) :=
  entries.foldl (fun members entry => insert entry.1 entry.2 members) []

/-- Every key occurs once, and the entries are in the order of their keys. -/
def Sorted (entries : List (κ × β)) : Prop :=
  entries.Pairwise fun first second => first.1 < second.1

theorem insert_perm (key : κ) (value : β) (entries : List (κ × β)) :
    (insert key value entries).Perm
      ((key, value) :: entries.filter fun entry => entry.1 ≠ key) :=
  List.perm_orderedInsert _ _ _

theorem insert_perm_of_fresh {key : κ} {entries : List (κ × β)} (value : β)
    (fresh : ∀ entry ∈ entries, entry.1 ≠ key) :
    (insert key value entries).Perm ((key, value) :: entries) := by
  have unfiltered : entries.filter (fun entry => entry.1 ≠ key) = entries :=
    List.filter_eq_self.mpr (by simpa using fresh)
  simpa only [unfiltered] using insert_perm key value entries

private theorem sorted_cons_orderedInsert {entry : κ × β} {entries : List (κ × β)}
    (sorted : Sorted entries) (fresh : ∀ other ∈ entries, other.1 ≠ entry.1) :
    Sorted (List.orderedInsert (fun first second => first.1 ≤ second.1) entry entries) := by
  induction entries with
  | nil => simp [Sorted]
  | cons head entries ih =>
      obtain ⟨below, tail⟩ := List.pairwise_cons.mp sorted
      rw [List.orderedInsert_cons]
      split_ifs with before
      · have strict : entry.1 < head.1 :=
          lt_of_le_of_ne before (Ne.symm (fresh head (by simp)))
        refine List.pairwise_cons.mpr ⟨fun other member => ?_, sorted⟩
        rcases List.mem_cons.mp member with rfl | later
        · exact strict
        · exact strict.trans (below other later)
      · refine List.pairwise_cons.mpr ⟨fun other member => ?_,
          ih tail fun other member => fresh other (by simp [member])⟩
        rcases (List.mem_orderedInsert _).mp member with rfl | later
        · exact lt_of_not_ge before
        · exact below other later

theorem sorted_insert {entries : List (κ × β)} (sorted : Sorted entries)
    (key : κ) (value : β) : Sorted (insert key value entries) := by
  apply sorted_cons_orderedInsert (List.Pairwise.filter _ sorted)
  intro other member
  simpa using (List.mem_filter.mp member).2

private theorem foldl_insert_spec (entries members : List (κ × β))
    (sorted : Sorted members)
    (distinct : ((members ++ entries).map Prod.fst).Nodup) :
    Sorted (entries.foldl (fun members entry => insert entry.1 entry.2 members) members) ∧
      (entries.foldl (fun members entry => insert entry.1 entry.2 members) members).Perm
        (members ++ entries) := by
  induction entries generalizing members with
  | nil => simpa using sorted
  | cons entry entries ih =>
      have fresh : ∀ other ∈ members, other.1 ≠ entry.1 := by
        intro other member same
        rw [List.map_append, List.nodup_append] at distinct
        exact distinct.2.2 other.1 (List.mem_map_of_mem member) entry.1 (by simp) same
      have inserted := insert_perm_of_fresh entry.2 fresh
      have moved : (insert entry.1 entry.2 members ++ entries).Perm
          (members ++ entry :: entries) :=
        (inserted.append_right entries).trans List.perm_middle.symm
      have distinctAfter :
          ((insert entry.1 entry.2 members ++ entries).map Prod.fst).Nodup :=
        (moved.map Prod.fst).nodup_iff.mpr distinct
      obtain ⟨sortedAll, permAll⟩ :=
        ih (insert entry.1 entry.2 members) (sorted_insert sorted _ _) distinctAfter
      exact ⟨sortedAll, permAll.trans moved⟩

theorem sorted_ofEntries {entries : List (κ × β)}
    (distinct : (entries.map Prod.fst).Nodup) : Sorted (ofEntries entries) :=
  (foldl_insert_spec entries [] List.Pairwise.nil (by simpa using distinct)).1

/-- Inserting entries with distinct keys loses none of them. -/
theorem ofEntries_perm {entries : List (κ × β)}
    (distinct : (entries.map Prod.fst).Nodup) : (ofEntries entries).Perm entries := by
  simpa [ofEntries] using
    (foldl_insert_spec entries [] List.Pairwise.nil (by simpa using distinct)).2

/-- A map does not remember the order its entries were inserted in. -/
theorem ofEntries_eq_of_perm {first second : List (κ × β)} (permuted : first.Perm second)
    (distinct : (first.map Prod.fst).Nodup) : ofEntries first = ofEntries second := by
  have distinctSecond : (second.map Prod.fst).Nodup :=
    (permuted.map Prod.fst).nodup_iff.mp distinct
  refine @List.Perm.eq_of_pairwise _ (fun a b : κ × β => a.1 < b.1) _ _ ?_
    (sorted_ofEntries distinct) (sorted_ofEntries distinctSecond) ?_
  · intro a b _ _ below above
    exact absurd (below.trans above) (lt_irrefl a.1)
  · exact (ofEntries_perm distinct).trans
      (permuted.trans (ofEntries_perm distinctSecond).symm)

end SortedMembers

end LibidBridge
