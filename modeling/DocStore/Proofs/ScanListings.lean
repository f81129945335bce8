import DocStore.Proofs.MatchCounts
import DocStore.Proofs.SortOrder

/-!
# What a scan lists

A scan takes the matches in the order of their keys, sorts them if that is asked, and cuts the
result. Main statement: there is exactly one way to list the matches so that their sort values are
in order and equal sort values follow the order of the keys, in both directions of the sort, and a
scan yields a slice of this list. The sort value of a document is the first value that the sort
field reaches; a missing one counts as null. No sort value may be a NaN, which has no place among
the numbers and would be taken for equal to every one of them.
-/

namespace DocStore

/-- Tests that agree on the items sort them alike. -/
theorem mergeSort_congr {α : Type} {test other : α → α → Bool} {items : List α}
    (agree : ∀ left ∈ items, ∀ right ∈ items, test left right = other left right) :
    items.mergeSort test = items.mergeSort other := by
  have same := @List.map_mergeSort α α test other id items agree
  rwa [List.map_id, List.map_id] at same

section Stability

variable {α : Type} (compared : α → α → Ordering) [Std.TransCmp compared]

/-- Of two items one is not above the other. -/
theorem isLE_or_isLE (left right : α) :
    ((compared left right).isLE || (compared right left).isLE) = true := by
  rw [@Std.OrientedCmp.eq_swap _ compared _ left right]
  cases compared right left <;> rfl

/-- A sort keeps the items that are equal to a given one as they stood. They are in order as they
stand, so they are a sublist of the sorted list, which holds no more of them. -/
theorem filter_mergeSort_of_eq (items : List α) (item : α) :
    (items.mergeSort fun left right => (compared left right).isLE).filter
        (fun other => compared item other == .eq) =
      items.filter fun other => compared item other == .eq := by
  have equal : (items.filter fun other => compared item other == .eq).Pairwise
      fun left right => (compared left right).isLE = true := by
    apply List.pairwise_of_forall_mem_list
    intro left leftEqual right rightEqual
    have leftSame := eq_of_beq (List.mem_filter.mp leftEqual).2
    have rightSame := eq_of_beq (List.mem_filter.mp rightEqual).2
    rw [Std.TransCmp.eq_trans (Std.OrientedCmp.eq_symm leftSame) rightSame]
    rfl
  have sublist := List.sublist_mergeSort (fun _ _ _ => Std.TransCmp.isLE_trans)
    (isLE_or_isLE compared) equal List.filter_sublist
  have kept := sublist.filter fun other => compared item other == .eq
  simp only [List.filter_filter, Bool.and_self] at kept
  exact (kept.eq_of_length ((List.mergeSort_perm items _).filter _).length_eq.symm).symm

/-- In a sorted list an item is below those behind it, or equal to them and related to them as it
was before the sort. -/
theorem pairwise_mergeSort_isLE {items : List α} {before : α → α → Prop}
    (stood : items.Pairwise before) :
    (items.mergeSort fun left right => (compared left right).isLE).Pairwise fun left right =>
      compared left right = .lt ∨ compared left right = .eq ∧ before left right := by
  apply List.pairwise_iff_forall_sublist.mpr
  intro left right stand
  have ordered : (compared left right).isLE = true := by
    have sorted := List.pairwise_mergeSort (fun _ _ _ => Std.TransCmp.isLE_trans)
      (isLE_or_isLE compared) items
    exact List.pairwise_iff_forall_sublist.mp sorted stand
  cases outcome : compared left right with
  | lt => exact Or.inl rfl
  | gt =>
      rw [outcome] at ordered
      cases ordered
  | eq =>
      have kept := stand.filter fun other => compared left other == .eq
      rw [filter_mergeSort_of_eq] at kept
      simp only [List.filter_cons, Std.ReflCmp.compare_self, outcome, beq_self_eq_true, if_true,
        List.filter_nil] at kept
      exact Or.inr ⟨rfl, List.pairwise_iff_forall_sublist.mp (stood.filter _) kept⟩

end Stability

namespace Shelf

/-- A binding is listed before another one: by its key if no sort is asked, otherwise by its sort
value, in the direction of the sort, and for equal sort values by its key. -/
def ListedBefore (sort : Option SortOrder) (left right : String × Document) : Prop :=
  match sort with
  | none => left.1 < right.1
  | some order =>
      let ordering := compareForSort (sortValue order.field left.2) (sortValue order.field right.2)
      (match order.direction with
        | .ascending => ordering = .lt
        | .descending => ordering = .gt) ∨
      ordering = .eq ∧ left.1 < right.1

/-- A list of the matches of a filter, each once, in the order that is asked. -/
structure Listing (shelf : Shelf) (filter : Filter) (sort : Option SortOrder)
    (listing : List (String × Document)) : Prop where
  rearranged : listing.Perm (shelf.bindings.filter fun binding => binding.2.matches filter)
  ordered : listing.Pairwise (ListedBefore sort)

/-- The bindings as a scan orders their documents. -/
def listed (sort : Option SortOrder) (bindings : List (String × Document)) :
    List (String × Document) :=
  match sort with
  | none => bindings
  | some order => bindings.mergeSort fun left right => inOrder order left.2 right.2

/-- Documents are sorted as their bindings are. -/
theorem map_listed (sort : Option SortOrder) (bindings : List (String × Document)) :
    (listed sort bindings).map (·.2) = sorted sort (bindings.map (·.2)) := by
  cases sort with
  | none => rfl
  | some order => exact List.map_mergeSort fun _ _ _ _ => rfl

/-- The comparison of the documents of two bindings. -/
def compareBindings (order : SortOrder) (left right : String × Document) : Ordering :=
  compareDocuments order left.2 right.2

/-- Bindings are compared by a total preorder, as their documents are. -/
instance (order : SortOrder) : Std.TransCmp (compareBindings order) where
  eq_swap {left right} := @Std.OrientedCmp.eq_swap _ (compareDocuments order) _ left.2 right.2
  isLE_trans {first second third} :=
    @Std.TransCmp.isLE_trans _ (compareDocuments order) _ first.2 second.2 third.2

/-- Without a NaN the order of a listing is that of the comparison of documents, with the keys to
settle ties. -/
theorem listedBefore_iff {order : SortOrder} {left right : String × Document}
    (leftProper : Sortable order left.2) (rightProper : Sortable order right.2) :
    ListedBefore (some order) left right ↔
      compareBindings order left right = .lt ∨
        compareBindings order left right = .eq ∧ left.1 < right.1 := by
  simp only [ListedBefore, compareBindings, compareDocuments,
    compareForSort_eq leftProper rightProper]
  generalize Value.compareKeys _ _ = keys
  cases order.direction <;> cases keys <;> simp

/-- No two bindings are listed before each other. -/
theorem ListedBefore.asymm {order : SortOrder} {left right : String × Document}
    (leftProper : Sortable order left.2) (rightProper : Sortable order right.2)
    (before : ListedBefore (some order) left right) :
    ¬ ListedBefore (some order) right left := by
  rw [listedBefore_iff leftProper rightProper] at before
  rw [listedBefore_iff rightProper leftProper,
    @Std.OrientedCmp.eq_swap _ (compareBindings order) _ right left]
  rcases before with below | ⟨same, below⟩
  · simp [below]
  · simp only [same, Ordering.swap_eq, reduceCtorEq, true_and, false_or]
    exact String.lt_asymm below

section Listing

variable {shelf : Shelf} {filter : Filter} {sort : Option SortOrder}

/-- What is listed among the matches is stored and matches. -/
theorem match_of_rearranged {listing : List (String × Document)}
    (rearranged : listing.Perm (shelf.bindings.filter fun binding => binding.2.matches filter))
    {binding : String × Document} (inside : binding ∈ listing) :
    shelf.find? binding.1 = some binding.2 ∧ binding.2.matches filter = true :=
  (mem_matching_iff shelf filter _ _).mp (rearranged.mem_iff.mp inside)

variable (proper : ∀ order, sort = some order → ∀ key document,
  shelf.find? key = some document → document.matches filter = true → Sortable order document)

include proper

/-- The bindings as a scan orders them are a listing of the matches: they are sorted by the
comparison of documents, and ties stand in the order of the keys. -/
theorem listing_listed :
    Listing shelf filter sort (listed sort (shelf.matching filter).bindings) := by
  have stood := (shelf.matching filter).ascending
  cases sort with
  | none => exact ⟨List.Perm.refl _, stood⟩
  | some order =>
      have sortable : ∀ binding ∈ (shelf.matching filter).bindings, Sortable order binding.2 := by
        intro binding inside
        obtain ⟨stored, accepted⟩ := match_of_rearranged (List.Perm.refl _) inside
        exact proper order rfl binding.1 binding.2 stored accepted
      have compared : listed (some order) (shelf.matching filter).bindings =
          (shelf.matching filter).bindings.mergeSort
            fun left right => (compareBindings order left right).isLE :=
        mergeSort_congr fun left leftListed right rightListed =>
          inOrder_eq_isLE (sortable left leftListed) (sortable right rightListed)
      have rearranged := List.mergeSort_perm (shelf.matching filter).bindings
        fun left right => inOrder order left.2 right.2
      refine ⟨rearranged, ?_⟩
      rw [compared]
      refine (pairwise_mergeSort_isLE (compareBindings order) stood).imp_of_mem ?_
      intro left right leftListed rightListed ordered
      exact (listedBefore_iff (sortable left (List.mem_mergeSort.mp leftListed))
        (sortable right (List.mem_mergeSort.mp rightListed))).mpr ordered

/-- Two listings of the same matches are equal, for no two bindings are listed before each other. -/
theorem Listing.unique {listing other : List (String × Document)}
    (first : Listing shelf filter sort listing) (second : Listing shelf filter sort other) :
    listing = other := by
  refine List.Perm.eq_of_pairwise ?_ first.ordered second.ordered
    (first.rearranged.trans second.rearranged.symm)
  intro left right leftListed rightListed before behind
  cases sort with
  | none => exact absurd behind (String.lt_asymm before)
  | some order =>
      obtain ⟨leftStored, leftAccepted⟩ := match_of_rearranged first.rearranged leftListed
      obtain ⟨rightStored, rightAccepted⟩ := match_of_rearranged second.rearranged rightListed
      exact absurd behind (before.asymm (proper order rfl _ _ leftStored leftAccepted)
        (proper order rfl _ _ rightStored rightAccepted))

end Listing

/-- A window drops what is skipped and then takes as many as the limit says, or all if it is absent
or zero. -/
theorem window_eq_slice (skip limit : Option Nat) (documents : List Document) :
    window skip limit documents =
      if limit.getD 0 = 0 then documents.drop (skip.getD 0)
      else (documents.drop (skip.getD 0)).take (limit.getD 0) := by
  rcases limit with - | - | bound <;> simp [window]

end Shelf

namespace Memory

/-- A scan yields a slice of the only listing of the matches in the order that is asked.

On every state of the store, for every filter and all options that do not sort by a NaN, there is
exactly one list of the matches with their keys, each match once, in which the sort values are in
order, ascending or descending as asked, and documents with equal sort values stand in ascending
order of their keys; without a sort all stand in ascending order of their keys. The scan drops as
many documents of the list as are to be skipped. Of the rest it yields as many as the limit allows,
and all of them if the limit is absent or zero. -/
theorem find_yields_slice_of_listing [KeySource] (memory : Memory) (name : String) (filter : Filter)
    (options : ScanOptions)
    (proper : ∀ order, options.sort = some order → ∀ key document,
      (memory.shelf name).find? key = some document → document.matches filter = true →
        Shelf.Sortable order document) :
    ∃ (listing : List (String × Document)) (found : List Document),
      Shelf.Listing (memory.shelf name) filter options.sort listing ∧
      (∀ other, Shelf.Listing (memory.shelf name) filter options.sort other → other = listing) ∧
      found = (if options.limit.getD 0 = 0 then (listing.map (·.2)).drop (options.skip.getD 0)
        else ((listing.map (·.2)).drop (options.skip.getD 0)).take (options.limit.getD 0)) ∧
      backend.find name filter options memory = (.ok (found.map .ok), memory) := by
  have exact := Shelf.listing_listed proper
  refine ⟨_, _, exact, fun other another => Shelf.Listing.unique proper another exact, rfl, ?_⟩
  rw [← Shelf.window_eq_slice, Shelf.map_listed]
  rfl

/-- From the highest value down: a text, which is skipped, and two ones of different width in the
order of their keys. Of the array the first of two values counts. -/
theorem find_yields_slice_of_listing_of_ties :
    ∃ memory, seeded [
        ("items", [("id", .string "a"), ("n", .array [
          .document [("k", .int32 1)], .document [("k", .int32 9)]])]),
        ("items", [("id", .string "b"), ("n", .document [("k", .int64 1)])]),
        ("items", [("id", .string "c"), ("n", .document [("k", .string "x")])])] = .ok memory ∧
      backend.find "items" Filter.everything
          { sort := some ⟨"n.k", .descending⟩, skip := some 1, limit := some 0 } memory =
        (.ok [
          .ok [("id", .string "a"), ("n", .array [
            .document [("k", .int32 1)], .document [("k", .int32 9)]])],
          .ok [("id", .string "b"), ("n", .document [("k", .int64 1)])]], memory) := by
  obtain ⟨memory, built⟩ : ∃ memory, seeded [
      ("items", [("id", .string "a"), ("n", .array [
        .document [("k", .int32 1)], .document [("k", .int32 9)]])]),
      ("items", [("id", .string "b"), ("n", .document [("k", .int64 1)])]),
      ("items", [("id", .string "c"), ("n", .document [("k", .string "x")])])] = .ok memory :=
    ⟨_, rfl⟩
  have stored : (memory.shelf "items").bindings = [
      ("a", [("id", .string "a"), ("n", .array [
        .document [("k", .int32 1)], .document [("k", .int32 9)]])]),
      ("b", [("id", .string "b"), ("n", .document [("k", .int64 1)])]),
      ("c", [("id", .string "c"), ("n", .document [("k", .string "x")])])] := by
    cases built
    rfl
  have proper : ∀ order, some (SortOrder.mk "n.k" .descending) = some order →
      ∀ key document, (memory.shelf "items").find? key = some document →
        document.matches Filter.everything = true → Shelf.Sortable order document := by
    rintro order asked key document found - ⟨number, value, -⟩
    cases asked
    have listed := (Table.mem_bindings_iff _ _ _).mpr found
    rw [stored] at listed
    simp only [List.mem_cons, Prod.mk.injEq, List.not_mem_nil, or_false] at listed
    rcases listed with ⟨-, rfl⟩ | ⟨-, rfl⟩ | ⟨-, rfl⟩ <;> cases value
  obtain ⟨listing, found, -, only, rfl, yielded⟩ := find_yields_slice_of_listing memory "items"
    Filter.everything { sort := some ⟨"n.k", .descending⟩, skip := some 1, limit := some 0 } proper
  refine ⟨memory, built, ?_⟩
  rw [yielded, ← only [
    ("c", [("id", .string "c"), ("n", .document [("k", .string "x")])]),
    ("a", [("id", .string "a"), ("n", .array [
      .document [("k", .int32 1)], .document [("k", .int32 9)]])]),
    ("b", [("id", .string "b"), ("n", .document [("k", .int64 1)])])]]
  · rfl
  · refine ⟨?_, ?_⟩
    · rw [stored]
      exact (List.perm_append_singleton _ [_, _]).symm
    · refine List.pairwise_cons.mpr ⟨?_, List.pairwise_pair.mpr ?_⟩
      · intro later inside
        rcases List.mem_cons.mp inside with rfl | inside
        · exact Or.inl rfl
        · rw [List.mem_singleton.mp inside]
          exact Or.inl rfl
      · exact Or.inr ⟨rfl, by decide⟩

end Memory

end DocStore
