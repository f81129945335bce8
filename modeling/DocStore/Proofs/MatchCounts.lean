import DocStore.Proofs.CursorPages
import DocStore.Proofs.PageFlow

/-!
# Counting, reading and deleting

The matches of a filter are determined anew by every operation, in a walk of its own over the
collection. Main statement: these walks agree. As many matches are counted as a scan yields,
whatever its order, as a page tells beside its documents, and as a removal removes. The removal
leaves no match, and of the rest nothing is changed or moved. Together with the matches of the
opposite filter they are all the documents.

Nothing is asked of the collection or of the filter: documents may lack an identifier, and a filter
may be any tree.
-/

namespace DocStore

/-- The options let a scan yield all its matches. -/
def ScanOptions.CutNothing (options : ScanOptions) : Prop :=
  options.skip.getD 0 = 0 ∧ options.limit.getD 0 = 0

/-- The opposite filter accepts the documents that a filter does not. -/
theorem Document.matches_not (document : Document) (filter : Filter) :
    document.matches filter.not = !document.matches filter := by
  simp [Document.matches, Filter.not]

namespace Table

variable {α : Type}

/-- Keys that are erased one after the other are unbound, and the others are as before. -/
theorem find?_foldl_erase (keys : List String) (table : Table α) (key : String) :
    (keys.foldl erase table).find? key = if key ∈ keys then none else table.find? key := by
  induction keys generalizing table with
  | nil => simp
  | cons first rest ih =>
      rw [List.foldl_cons, ih, find?_erase]
      by_cases later : key ∈ rest
      · simp [later]
      · by_cases here : first = key
        · simp [here]
        · simp [later, here, Ne.symm here]

/-- The keys of what a test keeps are those whose entries pass it. -/
theorem mem_keys_filter_iff (table : Table α) (keep : α → Bool) (key : String) :
    key ∈ (table.filter keep).keys ↔ ∃ entry, table.find? key = some entry ∧ keep entry = true := by
  rw [← contains_iff, contains, find?_filter, Option.isSome_iff_exists]
  simp only [Option.filter_eq_some_iff]

/-- Erasing the keys of the entries that pass a test, one after the other, keeps the entries that do
not pass it. -/
theorem foldl_erase_keys_filter (table : Table α) (test : α → Bool) :
    (table.filter test).keys.foldl erase table = table.filter fun entry => !test entry := by
  apply eq_of_find?
  intro key
  rw [find?_foldl_erase, find?_filter]
  cases bound : table.find? key with
  | none => simp
  | some entry =>
      have listed : key ∈ (table.filter test).keys ↔ test entry = true := by
        rw [mem_keys_filter_iff, bound]
        simp
      by_cases passes : test entry = true
      · rw [if_pos (listed.mpr passes), Option.filter_some, passes]
        rfl
      · rw [if_neg fun inside => passes (listed.mp inside), Option.filter_some]
        simp [passes]

end Table

namespace Shelf

/-- Sorting rearranges. -/
theorem sorted_perm (sort : Option SortOrder) (documents : List Document) :
    (sorted sort documents).Perm documents := by
  cases sort with
  | none => exact List.Perm.refl documents
  | some sort => exact List.mergeSort_perm documents (inOrder sort)

/-- Without a skip and a limit nothing is cut off. -/
theorem window_whole {skip limit : Option Nat} (unskipped : skip.getD 0 = 0)
    (unlimited : limit.getD 0 = 0) (documents : List Document) :
    window skip limit documents = documents := by
  cases limit with
  | none => simp only [window, unskipped, List.drop_zero]
  | some bound =>
      rw [Option.getD_some] at unlimited
      subst unlimited
      simp only [window, unskipped, List.drop_zero]

/-- A scan that cuts nothing yields the matches in some order. -/
theorem scan_perm (shelf : Shelf) (filter : Filter) {options : ScanOptions}
    (whole : options.CutNothing) :
    (shelf.scan filter options).Perm
      (shelf.values.filter fun document => document.matches filter) := by
  have matched : (shelf.matching filter).values =
      shelf.values.filter fun document => document.matches filter := by
    rw [Table.values, Table.values, List.filter_map]
    rfl
  rw [scan, window_whole whole.1 whole.2, ← matched]
  exact sorted_perm options.sort _

/-- As many matches are counted as there are documents that the filter accepts. -/
theorem count_eq_length (shelf : Shelf) (filter : Filter) :
    shelf.count filter =
      (shelf.values.filter fun document => document.matches filter).length := by
  rw [Table.values, List.filter_map, List.length_map]
  rfl

/-- The matches of a filter and those of its opposite are all documents. -/
theorem count_add_count_not (shelf : Shelf) (filter : Filter) :
    shelf.count filter + shelf.count filter.not = shelf.count Filter.everything := by
  have opposite : (fun document : Document => document.matches filter.not) =
      fun document => decide ¬document.matches filter = true := by
    funext document
    rw [document.matches_not filter]
    cases document.matches filter <;> rfl
  have everything : shelf.values.filter (fun document => document.matches Filter.everything) =
      shelf.values :=
    List.filter_eq_self.mpr fun document _ => document.matches_everything
  rw [count_eq_length, count_eq_length, count_eq_length, opposite, everything,
    ← List.countP_eq_length_filter, ← List.countP_eq_length_filter]
  exact (List.length_eq_countP_add_countP _).symm

/-- The documents that are fetched for a request. -/
def fetched (shelf : Shelf) (filter : Filter) (request : Option Pagination) : List Document :=
  match Pagination.query? filter request with
  | none => []
  | some query => shelf.scan query.filter query.options.diskUseAllowed

/-- No match is left when all are removed. -/
theorem count_deleteMany (shelf : Shelf) (filter : Filter) :
    (shelf.deleteMany filter).count filter = 0 := by
  have nothing : (shelf.deleteMany filter).bindings.filter
      (fun binding => binding.2.matches filter) = [] := by
    rw [deleteMany, Table.filter, List.filter_filter]
    apply List.filter_eq_nil_iff.mpr
    intro binding _
    simp
  rw [count]
  change ((shelf.deleteMany filter).bindings.filter
    fun binding => binding.2.matches filter).length = 0
  rw [nothing, List.length_nil]

end Shelf

namespace Collection

variable {κ : Type}

/-- The documents of a request that is allowed are always had, and the store is left as it is. -/
theorem window_inMemory [KeySource] (memory : Memory) (name : String) (filter : Filter)
    {request : Option Pagination} (allowed : Pagination.refusal? request = none) (total : Nat) :
    (inMemory name).window filter request total memory =
      (.ok (Pagination.frame total request ((memory.shelf name).fetched filter request)),
        memory) := by
  rw [window_eq, allowed]
  cases asked : Pagination.query? filter request with
  | none => simp only [Shelf.fetched, asked]
  | some query =>
      have fetched : (inMemory name).fetch query memory =
          (.ok ((memory.shelf name).scan query.filter query.options.diskUseAllowed), memory) := by
        change (collectStream (((memory.shelf name).scan query.filter
          query.options.diskUseAllowed).map .ok), memory) = _
        rw [collectStream_map_ok]
      simp only [fetchWindow, fetched, Shelf.fetched, asked]

/-- A page that is delivered tells how many matches are counted. -/
theorem totalCount_of_paginate [KeySource] {memory : Memory} {name : String} {filter : Filter}
    {request : Option Pagination} {consumer : Consumer κ} {sink : κ} {info : PageInfo}
    {after : Memory × κ}
    (delivered : (inMemory name).paginate filter request consumer (memory, sink) =
      (.ok info, after)) :
    info.totalCount = (memory.shelf name).count filter := by
  have counted : (inMemory name).count filter memory =
      (.ok ((memory.shelf name).count filter), memory) := rfl
  simp only [paginate, counted] at delivered
  split at delivered
  · cases delivered
  · split at delivered
    · cases delivered
    · split at delivered
      · cases delivered
      · cases delivered
        rfl

end Collection

end DocStore
