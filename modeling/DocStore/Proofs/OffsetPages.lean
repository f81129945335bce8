import DocStore.Proofs.InterruptedWalk

/-!
# Pages by offset

While a collection is left alone, a walk by cursors and a sequence of offset requests cut the same
list of matches into the same pages. The cursor behind a number of matches is the last of them, and
the matches ahead of it are the list without that many. The page at that cursor is therefore the
page at that offset, with the same description, whoever receives it.

A walk then has as many pages as the matches fill, and at least one. Its pages in the direction of
the walk add up to the list of the matches; a backward walk delivers the same documents as a
forward one, page by page from the other end.
-/

namespace DocStore

namespace Way

variable {α : Type}

/-- Arranging commutes with leaving items out. -/
theorem filter_arrange (way : Way) (items : List α) (keep : α → Bool) :
    (way.arrange items).filter keep = way.arrange (items.filter keep) := by
  cases way with
  | forward => rfl
  | backward => exact List.filter_reverse

/-- Arranging keeps the number of items. -/
theorem length_arrange (way : Way) (items : List α) :
    (way.arrange items).length = items.length := by
  cases way with
  | forward => rfl
  | backward => exact List.length_reverse

/-- Arranging twice is arranging not at all. -/
theorem arrange_arrange (way : Way) (items : List α) : way.arrange (way.arrange items) = items := by
  cases way with
  | forward => rfl
  | backward => exact List.reverse_reverse items

/-- Arranged parts of arranged items are the arranged parts of the items. -/
theorem flatMap_arrange {β : Type} (way : Way) (items : List α) (parts : α → List β) :
    ((way.arrange items).flatMap fun item => way.arrange (parts item)) =
      way.arrange (items.flatMap parts) := by
  cases way with
  | forward => rfl
  | backward => exact List.reverse_flatMap.symm

/-- Of two identifiers at most one comes after the other. -/
theorem Precedes.asymm {way : Way} {left right : String} (before : way.Precedes left right) :
    ¬ way.Precedes right left := by
  intro after
  have around := before.trans after
  cases way with
  | forward => exact String.lt_irrefl left around
  | backward => exact String.lt_irrefl left around

end Way

namespace Shelf

/-- The cursor at which a walk stands when it has passed a number of matches. -/
def cursorAt (shelf : Shelf) (way : Way) (filter : Filter) (passed : Nat) : Option Cursor :=
  ((shelf.matchesAhead way filter none).take passed).getLast?.map fun binding => ⟨binding.1⟩

/-- At the start of a walk all matches lie ahead. -/
theorem matchesAhead_none (shelf : Shelf) (way : Way) (filter : Filter) :
    shelf.matchesAhead way filter none = way.arrange (shelf.matching filter).bindings := by
  rw [matchesAhead]
  exact congrArg way.arrange (List.filter_eq_self.mpr fun _ _ => rfl)

/-- At the start of a walk as many matches lie ahead as are counted. -/
theorem length_matchesAhead_none (shelf : Shelf) (way : Way) (filter : Filter) :
    (shelf.matchesAhead way filter none).length = shelf.count filter := by
  rw [matchesAhead_none, Way.length_arrange, count, Table.size]

/-- What lies ahead of a cursor is listed as at the start of a walk. -/
theorem matchesAhead_eq_filter (shelf : Shelf) (way : Way) (filter : Filter)
    (cursor : Option Cursor) :
    shelf.matchesAhead way filter cursor =
      (shelf.matchesAhead way filter none).filter fun binding => way.ahead cursor binding.1 := by
  rw [matchesAhead_none, Way.filter_arrange, matchesAhead]

/-- Ahead of the cursor lie the matches that the walk has not passed. Those that it has passed are
the last of them and what comes before it; the others come after it. -/
theorem matchesAhead_cursorAt (shelf : Shelf) (way : Way) (filter : Filter) (passed : Nat) :
    shelf.matchesAhead way filter (shelf.cursorAt way filter passed) =
      (shelf.matchesAhead way filter none).drop passed := by
  have ordered := shelf.pairwise_matchesAhead way filter none
  rw [matchesAhead_eq_filter, cursorAt]
  generalize shelf.matchesAhead way filter none = matched at ordered
  cases final : (matched.take passed).getLast? with
  | none =>
      have nothing : matched.take passed = [] := List.getLast?_eq_none_iff.mp final
      have all : matched.drop passed = matched := by
        conv => rhs; rw [← List.take_append_drop passed matched, nothing, List.nil_append]
      rw [all]
      exact List.filter_eq_self.mpr fun _ _ => rfl
  | some last =>
      have lastInside := List.mem_of_getLast? final
      rw [← List.take_append_drop passed matched, List.pairwise_append] at ordered
      obtain ⟨front, _, across⟩ := ordered
      -- The cursor of a passed match is not ahead of itself, so the filter cuts right behind it.
      have behind : (matched.take passed).filter
          (fun binding => way.ahead (some ⟨last.1⟩) binding.1) = [] := by
        apply List.filter_eq_nil_iff.mpr
        intro binding inside inFront
        have after := (way.ahead_some_iff _ _).mp inFront
        rcases Collection.precedes_last front final inside with same | before
        · rw [same] at after
          exact after.asymm after
        · exact after.asymm before
      have remaining : (matched.drop passed).filter
          (fun binding => way.ahead (some ⟨last.1⟩) binding.1) = matched.drop passed := by
        apply List.filter_eq_self.mpr
        intro binding inside
        exact (way.ahead_some_iff _ _).mpr (across last lastInside binding inside)
      conv => lhs; rw [← List.take_append_drop passed matched]
      rw [Option.map_some, List.filter_append, behind, remaining, List.nil_append]

/-- The page behind a number of matches is cut from the list without them. -/
theorem page_cursorAt (shelf : Shelf) (way : Way) (filter : Filter) (size passed : Nat) :
    shelf.page way filter size (shelf.cursorAt way filter passed) =
      way.arrange (((shelf.matchesAhead way filter none).drop passed).take size) := by
  rw [page, matchesAhead_cursorAt]

/-- A walk stands at a cursor exactly when it has passed something. -/
theorem isSome_cursorAt {shelf : Shelf} {way : Way} {filter : Filter} {passed : Nat}
    (within : passed ≤ shelf.count filter) :
    (shelf.cursorAt way filter passed).isSome = decide (0 < passed) := by
  rw [← length_matchesAhead_none shelf way filter] at within
  rw [cursorAt, Option.isSome_map, Bool.eq_iff_iff, decide_eq_true_iff, List.getLast?_isSome,
    ← List.length_pos_iff, List.length_take]
  omega

/-- A scan that skips matches and takes some of the others finds those of a page. -/
theorem scan_offset {shelf : Shelf} (conventional : shelf.Conventional) (filter : Filter)
    (passed : Nat) {size : Nat} (positive : 0 < size) :
    shelf.scan filter
        { ScanOptions.byId with
          skip := some passed, limit := some size, allowDiskUse := some true } =
      (shelf.page .forward filter size (shelf.cursorAt .forward filter passed)).map (·.2) := by
  have ordered := sorted_ascending (conventional.matching filter)
  change window (some passed) (some size) (sorted (some ⟨idField, .ascending⟩)
    (shelf.matching filter).values) = _
  rw [ordered, page_cursorAt, matchesAhead_none]
  -- A limit of zero would be no limit.
  cases size with
  | zero => exact absurd positive (Nat.lt_irrefl 0)
  | succ size => simp [window, Way.arrange, Table.values, List.map_take, List.map_drop]

/-- The documents are those that a filter accepts, each once, in ascending order of their
identifiers. -/
structure Enumerates (shelf : Shelf) (filter : Filter) (documents : List Document) : Prop where
  identified : ∀ document ∈ documents, ∃ identifier, document.IdentifiedBy identifier
  ascending : documents.Pairwise fun left right => ∀ identifier other,
    left.IdentifiedBy identifier → right.IdentifiedBy other → identifier < other
  exact : ∀ document, document ∈ documents ↔
    ∃ key, shelf.find? key = some document ∧ document.matches filter = true

/-- The matches in the order of their keys are enumerated in that of their identifiers. -/
theorem Conventional.enumerates {shelf : Shelf} (conventional : shelf.Conventional)
    (filter : Filter) : shelf.Enumerates filter (shelf.matching filter).values where
  identified := by
    intro document inside
    obtain ⟨binding, listed, rfl⟩ := List.mem_map.mp inside
    exact ⟨binding.1, (conventional.matching filter).identified listed⟩
  ascending := by
    apply List.pairwise_map.mpr
    apply (shelf.matching filter).ascending.imp_of_mem
    intro left right leftListed rightListed below identifier other leftCarries rightCarries
    have leftKey := leftCarries.unique ((conventional.matching filter).identified leftListed)
    have rightKey := rightCarries.unique ((conventional.matching filter).identified rightListed)
    rw [leftKey, rightKey]
    exact below
  exact := by
    intro document
    constructor
    · intro inside
      obtain ⟨⟨key, stored⟩, listed, rfl⟩ := List.mem_map.mp inside
      exact ⟨key, (mem_matching_iff shelf filter key stored).mp listed⟩
    · rintro ⟨key, found⟩
      exact List.mem_map_of_mem ((mem_matching_iff shelf filter key document).mpr found)

end Shelf

/-- A size that is a natural number is admitted as that number. -/
theorem nonNegative_eq {size : Int64} {count : Nat} (counted : size.toInt = count)
    (argument : String) : nonNegative argument size = .ok count := by
  have notNegative : ¬ size.toInt < 0 := by omega
  have natural : size.toInt.toNat = count := by omega
  rw [nonNegative, if_neg notNegative, natural]

namespace Collection

variable {κ : Type} {memory : Memory} {name : String}

/-- The window of an offset request is that of the cursor request behind as many matches. More
matches follow on the page at the offset exactly when they follow on the page at the cursor, and
something is skipped exactly when there is a cursor. -/
theorem offsetWindow_eq [KeySource] (conventional : (memory.shelf name).Conventional)
    (filter : Filter) {offset size : Int64} {passed count : Nat} (skipped : offset.toInt = passed)
    (counted : size.toInt = count) (positive : 0 < count) (below : count < sizeLimit)
    (within : passed ≤ (memory.shelf name).count filter) :
    (inMemory name).offsetWindow filter ⟨offset, size⟩ ((memory.shelf name).count filter) memory =
      (inMemory name).cursorWindow filter
        (Way.forward.request size ((memory.shelf name).cursorAt .forward filter passed)) memory := by
  have fetched : (inMemory name).fetch
      ⟨filter, { ScanOptions.byId with skip := some passed, limit := some count }⟩ memory =
      (.ok (((memory.shelf name).page .forward filter count
        ((memory.shelf name).cursorAt .forward filter passed)).map (·.2)), memory) := by
    rw [← Shelf.scan_offset conventional filter passed positive, ← collectStream_map_ok]
    rfl
  have more : decide (passed + (((memory.shelf name).page .forward filter count
        ((memory.shelf name).cursorAt .forward filter passed)).map (·.2)).length <
          (memory.shelf name).count filter) =
      ((memory.shelf name).pageInfo .forward filter count
        ((memory.shelf name).cursorAt .forward filter passed)).hasNextPage := by
    simp only [Shelf.pageInfo]
    rw [Shelf.page_cursorAt, Shelf.matchesAhead_cursorAt, List.length_map, Way.length_arrange,
      List.length_take, List.length_drop, Shelf.length_matchesAhead_none]
    exact decide_eq_decide.mpr (by omega)
  have before : decide (0 < passed) = ((memory.shelf name).pageInfo .forward filter count
      ((memory.shelf name).cursorAt .forward filter passed)).hasPreviousPage :=
    (Shelf.isSome_cursorAt within).symm
  have nonzero : count ≠ 0 := by omega
  rw [cursorWindow_eq conventional .forward filter _ counted below]
  simp only [offsetWindow, nonNegative_eq skipped, nonNegative_eq counted, if_neg nonzero,
    fetchWindow, fetched, more, before]

/-- The page at an offset is the page behind the cursor of the last match that is skipped: it
delivers the same documents to any consumer, and is described alike. -/
theorem paginate_offset [KeySource] (conventional : (memory.shelf name).Conventional)
    (filter : Filter) {offset size : Int64} {passed count : Nat} (skipped : offset.toInt = passed)
    (counted : size.toInt = count) (positive : 0 < count) (below : count < sizeLimit)
    (within : passed ≤ (memory.shelf name).count filter) (consumer : Consumer κ) (sink : κ) :
    (inMemory name).paginate filter (some (.offset ⟨offset, size⟩)) consumer (memory, sink) =
      (inMemory name).paginate filter (some (.cursor (Way.forward.request size
        ((memory.shelf name).cursorAt .forward filter passed)))) consumer (memory, sink) := by
  have total : (inMemory name).count filter memory =
      (.ok ((memory.shelf name).count filter), memory) := rfl
  have windows := offsetWindow_eq conventional filter skipped counted positive below within
  simp only [paginate, total, window, windows]

/-- The number of pages of a size that a number of matches fill. There is always one page. -/
def pageCount (total size : Nat) : Nat := max 1 ((total + size - 1) / size)

/-- A page is followed by another one exactly when the matches go on behind it. -/
theorem lt_pageCount_iff (total : Nat) {size : Nat} (positive : 0 < size) (index : Nat) :
    index + 1 < pageCount total size ↔ index * size + size < total := by
  have filled : index + 2 ≤ (total + size - 1) / size ↔ (index + 2) * size ≤ total + size - 1 :=
    Nat.le_div_iff_mul_le positive
  have spread : (index + 2) * size = index * size + size + size := by
    rw [Nat.add_mul, Nat.two_mul, Nat.add_assoc]
  unfold pageCount
  omega

/-- The pages reach the end of the matches. -/
theorem le_pageCount_mul (total : Nat) {size : Nat} (positive : 0 < size) :
    total ≤ pageCount total size * size := by
  have last : ¬ pageCount total size - 1 + 1 < pageCount total size := by omega
  rw [lt_pageCount_iff total positive, Nat.not_lt] at last
  have atLeastOne : 1 ≤ pageCount total size := Nat.le_max_left _ _
  have spread : (pageCount total size - 1) * size + size = pageCount total size * size := by
    rw [← Nat.succ_mul]
    congr 1
    omega
  omega

/-- No page begins behind the last match. -/
theorem mul_le_of_lt_pageCount {total size index : Nat} (positive : 0 < size)
    (inside : index < pageCount total size) : index * size ≤ total := by
  cases index with
  | zero => rw [Nat.zero_mul]; exact Nat.zero_le total
  | succ index =>
      have before := (lt_pageCount_iff total positive index).mp inside
      rw [Nat.succ_mul]
      exact Nat.le_of_lt before

/-- The page that a walk gets when it has passed a number of matches. -/
def pageAt (memory : Memory) (name : String) (way : Way) (filter : Filter) (size passed : Nat) :
    WalkedPage :=
  (pageVisit memory name way filter size ((memory.shelf name).cursorAt way filter passed)).page

/-- The pages of a whole walk, in the order in which it gets them. -/
def walkPages (memory : Memory) (name : String) (way : Way) (filter : Filter) (size : Nat) :
    List WalkedPage :=
  (List.range (pageCount ((memory.shelf name).count filter) size)).map fun page =>
    pageAt memory name way filter size (page * size)

/-- A walk has as many pages as the matches fill. -/
theorem length_walkPages (memory : Memory) (name : String) (way : Way) (filter : Filter)
    (size : Nat) :
    (walkPages memory name way filter size).length =
      pageCount ((memory.shelf name).count filter) size := by
  rw [walkPages, List.length_map, List.length_range]

/-- A page that is not the last one ends where the next one begins. -/
theorem resume_cursorAt {shelf : Shelf} {way : Way} {filter : Filter} {size passed : Nat}
    (positive : 0 < size) (more : passed < shelf.count filter) :
    way.resume (shelf.pageInfo way filter size (shelf.cursorAt way filter passed)) =
      shelf.cursorAt way filter (passed + size) := by
  rw [Shelf.resume_pageInfo, Shelf.matchesAhead_cursorAt, Shelf.cursorAt, List.take_add,
    List.getLast?_append]
  cases final : (((shelf.matchesAhead way filter none).drop passed).take size).getLast? with
  | some last => rfl
  | none =>
      -- The page is empty only behind the last match.
      have none := congrArg List.length (List.getLast?_eq_none_iff.mp final)
      rw [List.length_take, List.length_drop, Shelf.length_matchesAhead_none,
        List.length_nil] at none
      omega

section Walk

variable {way : Way} {filter : Filter} {size : Int64} {count : Nat}

/-- The walk goes on behind a page exactly when the page is not the last one. -/
theorem goesOn_cursorAt (shelf : Shelf) (positive : 0 < count) (index : Nat) :
    way.goesOn (shelf.pageInfo way filter count (shelf.cursorAt way filter (index * count))) =
      decide (index + 1 < pageCount (shelf.count filter) count) := by
  rw [Shelf.goesOn_pageInfo, Shelf.matchesAhead_cursorAt, List.length_drop,
    Shelf.length_matchesAhead_none, decide_eq_decide, lt_pageCount_iff _ positive]
  omega

variable [KeySource]

/-- A walk ends with the last page. -/
theorem walkFrom_last (conventional : (memory.shelf name).Conventional)
    (counted : size.toInt = count) (positive : 0 < count) (below : count < sizeLimit)
    {index : Nat} (last : index + 1 = pageCount ((memory.shelf name).count filter) count)
    (bound : Nat) :
    (inMemory name).walkFrom filter way size (bound + 1)
        ((memory.shelf name).cursorAt way filter (index * count)) memory =
      (([pageAt memory name way filter count (index * count)], .finished), memory) := by
  have stops : ¬ index + 1 < pageCount ((memory.shelf name).count filter) count := by omega
  rw [walkFrom, paginate_recorder conventional way filter _ counted below]
  simp only [Way.next?_eq, goesOn_cursorAt _ positive, decide_eq_true_eq, if_neg stops]
  rfl

/-- A walk goes on behind every other page. -/
theorem walkFrom_next (conventional : (memory.shelf name).Conventional)
    (counted : size.toInt = count) (positive : 0 < count) (below : count < sizeLimit)
    {index : Nat} (more : index + 1 < pageCount ((memory.shelf name).count filter) count)
    {bound : Nat} {pages : List WalkedPage} {stop : WalkEnd} {state : Memory}
    (rest : (inMemory name).walkFrom filter way size bound
        ((memory.shelf name).cursorAt way filter ((index + 1) * count)) memory =
      ((pages, stop), state)) :
    (inMemory name).walkFrom filter way size (bound + 1)
        ((memory.shelf name).cursorAt way filter (index * count)) memory =
      ((pageAt memory name way filter count (index * count) :: pages, stop), state) := by
  have behind := (lt_pageCount_iff _ positive index).mp more
  have within : (index + 1) * count ≤ (memory.shelf name).count filter := by
    rw [Nat.succ_mul]
    omega
  have advanced : 0 < (index + 1) * count := Nat.mul_pos (Nat.succ_pos index) positive
  have resumed : way.resume ((memory.shelf name).pageInfo way filter count
      ((memory.shelf name).cursorAt way filter (index * count))) =
      (memory.shelf name).cursorAt way filter ((index + 1) * count) := by
    rw [resume_cursorAt positive (by omega), Nat.succ_mul]
  obtain ⟨cursor, stands⟩ : ∃ cursor,
      (memory.shelf name).cursorAt way filter ((index + 1) * count) = some cursor := by
    rw [← Option.isSome_iff_exists, Shelf.isSome_cursorAt within]
    exact decide_eq_true advanced
  rw [stands] at resumed rest
  rw [walkFrom, paginate_recorder conventional way filter _ counted below]
  simp only [Way.next?_eq, goesOn_cursorAt _ positive, decide_eq_true_eq, if_pos more, resumed,
    rest]
  rfl

/-- A walk that is allowed as many pages as lie behind it gets them one after the other, and ends
with the last. The induction follows the number of pages behind the first. -/
theorem walkFrom_cursorAt (conventional : (memory.shelf name).Conventional)
    (counted : size.toInt = count) (positive : 0 < count) (below : count < sizeLimit)
    {index behind bound : Nat}
    (last : index + behind + 1 = pageCount ((memory.shelf name).count filter) count)
    (allowed : behind < bound) :
    (inMemory name).walkFrom filter way size bound
        ((memory.shelf name).cursorAt way filter (index * count)) memory =
      (((List.range' index (behind + 1)).map fun page =>
        pageAt memory name way filter count (page * count), .finished), memory) := by
  induction behind generalizing index bound with
  | zero =>
      obtain ⟨fewer, rfl⟩ : ∃ fewer, bound = fewer + 1 := ⟨bound - 1, by omega⟩
      exact walkFrom_last conventional counted positive below last fewer
  | succ behind ih =>
      obtain ⟨fewer, rfl⟩ : ∃ fewer, bound = fewer + 1 := ⟨bound - 1, by omega⟩
      have more : index + 1 < pageCount ((memory.shelf name).count filter) count := by omega
      have lastLater : index + 1 + behind + 1 =
          pageCount ((memory.shelf name).count filter) count := by omega
      exact walkFrom_next conventional counted positive below more
        (ih lastLater (Nat.lt_of_succ_lt_succ allowed))

/-- The whole walk has one page for each that the matches fill. -/
theorem walkFrom_none (conventional : (memory.shelf name).Conventional)
    (counted : size.toInt = count) (positive : 0 < count) (below : count < sizeLimit)
    {bound : Nat} (allowed : (walkPages memory name way filter count).length ≤ bound) :
    (inMemory name).walkFrom filter way size bound none memory =
      ((walkPages memory name way filter count, .finished), memory) := by
  have atLeastOne : 1 ≤ pageCount ((memory.shelf name).count filter) count :=
    Nat.le_max_left _ _
  obtain ⟨behind, pages⟩ : ∃ behind,
      pageCount ((memory.shelf name).count filter) count = behind + 1 :=
    ⟨pageCount ((memory.shelf name).count filter) count - 1, by omega⟩
  have whole : 0 + behind + 1 = pageCount ((memory.shelf name).count filter) count := by omega
  rw [length_walkPages] at allowed
  have walked : (inMemory name).walkFrom filter way size bound
      ((memory.shelf name).cursorAt way filter (0 * count)) memory = _ :=
    walkFrom_cursorAt conventional counted positive below whole (by omega)
  rw [Nat.zero_mul] at walked
  rw [walkPages, List.range_eq_range', pages]
  exact walked

end Walk

/-- Pages cut one behind the other add up to what they are cut from, as far as they reach. -/
theorem flatMap_pages {α : Type} (items : List α) (size pages : Nat) :
    ((List.range pages).flatMap fun page => (items.drop (page * size)).take size) =
      items.take (pages * size) := by
  induction pages with
  | zero => simp
  | succ pages ih =>
      rw [List.range_succ, List.flatMap_append, ih, List.flatMap_singleton, Nat.succ_mul,
        List.take_add]

/-- The pages of a whole walk, read in ascending order, deliver the matches. -/
theorem delivered_walkPages (memory : Memory) (name : String) (way : Way) (filter : Filter)
    {size : Nat} (positive : 0 < size) :
    (way.arrange (walkPages memory name way filter size)).flatMap WalkedPage.delivered =
      ((memory.shelf name).matching filter).values := by
  have single : ∀ passed, (pageAt memory name way filter size passed).delivered =
      way.arrange (((((memory.shelf name).matchesAhead way filter none).drop passed).take size).map
        (·.2)) := by
    intro passed
    rw [pageAt, delivered_pageVisit, Shelf.matchesAhead_cursorAt, Way.map_arrange]
  have reaches : ((memory.shelf name).matchesAhead way filter none).length ≤
      pageCount ((memory.shelf name).count filter) size * size := by
    rw [Shelf.length_matchesAhead_none]
    exact le_pageCount_mul _ positive
  rw [walkPages, ← Way.map_arrange, List.flatMap_map]
  simp only [single]
  rw [Way.flatMap_arrange, ← List.map_flatMap, flatMap_pages, List.take_of_length_le reaches,
    Shelf.matchesAhead_none, ← Way.map_arrange, Way.arrange_arrange, Table.values]

/-- A page of the forward walk is the page at the offset of the pages before it. -/
theorem paginate_offset_pageAt [KeySource] (conventional : (memory.shelf name).Conventional)
    (filter : Filter) {offset size : Int64} {count index : Nat}
    (skipped : offset.toInt = (index * count : Nat))
    (counted : size.toInt = count) (positive : 0 < count) (below : count < sizeLimit)
    (inside : index < pageCount ((memory.shelf name).count filter) count) :
    (inMemory name).paginate filter (some (.offset ⟨offset, size⟩)) (Consumer.recorder none)
        (memory, []) =
      (.ok (pageAt memory name .forward filter count (index * count)).info,
        (memory, (pageAt memory name .forward filter count (index * count)).calls)) := by
  rw [paginate_offset conventional filter skipped counted positive below
    (mul_le_of_lt_pageCount positive inside), paginate_recorder conventional .forward filter _
    counted below]
  rfl

/-- Every number up to the number of documents is an offset, as long as there are no more documents
than the greatest size. -/
theorem exists_offset {passed : Nat} (within : passed ≤ sizeLimit) :
    ∃ offset : Int64, offset.toInt = passed :=
  ⟨Int64.ofNat passed, Int64.toInt_ofNat_of_lt (Nat.lt_of_le_of_lt within (by decide))⟩

/-- Walks by cursors agree with requests by offset. Every document of the collection carries its key
as its identifier. The forward walk in pages of a size ends with as many pages as the matches fill,
and at least one; the page of each index makes the same calls and has the same description as the
page of that size at the offset of so many pages. The backward walk ends as well, and its pages,
read from the last one to the first, deliver the same documents: every match once, in ascending
order of the identifiers. -/
theorem walks_agree_with_offsets [KeySource] (conventional : (memory.shelf name).Conventional)
    (few : (memory.shelf name).size ≤ sizeLimit) (filter : Filter) {size : Int64}
    (positive : 1 ≤ size.toInt) (below : size.toInt < sizeLimit) :
    ∃ pages backward : List WalkedPage,
      (∀ bound, pages.length ≤ bound →
        (inMemory name).walkFrom filter .forward size bound none memory =
          ((pages, .finished), memory)) ∧
      pages.length = max 1 (((memory.shelf name).count filter + size.toInt.toNat - 1) /
        size.toInt.toNat) ∧
      (∀ (index : Nat) (inside : index < pages.length), ∃ offset : Int64,
        offset.toInt = index * size.toInt ∧
        (inMemory name).paginate filter (some (.offset ⟨offset, size⟩)) (Consumer.recorder none)
            (memory, []) =
          (.ok pages[index].info, (memory, pages[index].calls))) ∧
      (∀ bound, backward.length ≤ bound →
        (inMemory name).walkFrom filter .backward size bound none memory =
          ((backward, .finished), memory)) ∧
      backward.reverse.flatMap WalkedPage.delivered = pages.flatMap WalkedPage.delivered ∧
      (memory.shelf name).Enumerates filter (pages.flatMap WalkedPage.delivered) := by
  have counted : size.toInt = size.toInt.toNat := by omega
  have nonempty : 0 < size.toInt.toNat := by omega
  have bounded : size.toInt.toNat < sizeLimit := by omega
  have delivered : (walkPages memory name .forward filter size.toInt.toNat).flatMap
      WalkedPage.delivered = ((memory.shelf name).matching filter).values :=
    delivered_walkPages memory name .forward filter nonempty
  refine ⟨walkPages memory name .forward filter size.toInt.toNat,
    walkPages memory name .backward filter size.toInt.toNat, ?_, length_walkPages _ _ _ _ _, ?_, ?_,
    ?_, ?_⟩
  · intro bound allowed
    exact walkFrom_none conventional counted nonempty bounded allowed
  · intro index inside
    have among : index < pageCount ((memory.shelf name).count filter) size.toInt.toNat := by
      rw [← length_walkPages memory name .forward]
      exact inside
    have within : index * size.toInt.toNat ≤ sizeLimit := by
      have matched : (memory.shelf name).count filter ≤ (memory.shelf name).size :=
        List.length_filter_le _ _
      have reached := mul_le_of_lt_pageCount nonempty among
      omega
    have page : (walkPages memory name .forward filter size.toInt.toNat)[index] =
        pageAt memory name .forward filter size.toInt.toNat (index * size.toInt.toNat) := by
      simp only [walkPages, List.getElem_map, List.getElem_range]
    obtain ⟨offset, skipped⟩ := exists_offset within
    refine ⟨offset, ?_, ?_⟩
    · rw [skipped, Int.natCast_mul, ← counted]
    · rw [page]
      exact paginate_offset_pageAt conventional filter skipped counted nonempty bounded among
  · intro bound allowed
    exact walkFrom_none conventional counted nonempty bounded allowed
  · rw [delivered]
    exact delivered_walkPages memory name .backward filter nonempty
  · rw [delivered]
    exact conventional.enumerates filter

/-- Three documents in pages of two: the walks in both directions have two pages, the second of
which is short. -/
theorem walks_agree_with_offsets_of_three :
    ∃ memory, Memory.seeded [("items", [("id", .string "c")]), ("items", [("id", .string "a")]),
        ("items", [("id", .string "b")])] = .ok memory ∧
      ∃ pages backward : List WalkedPage, pages.length = 2 ∧
        (∀ bound, pages.length ≤ bound →
          (inMemory "items").walkFrom .everything .forward 2 bound none memory =
            ((pages, .finished), memory)) ∧
        backward.reverse.flatMap WalkedPage.delivered = pages.flatMap WalkedPage.delivered ∧
        (memory.shelf "items").Enumerates .everything (pages.flatMap WalkedPage.delivered) := by
  have built : Memory.seeded [("items", [("id", .string "c")]), ("items", [("id", .string "a")]),
      ("items", [("id", .string "b")])] = .ok _ := rfl
  have identified : ∀ seed ∈ [("items", [("id", Value.string "c")]),
      ("items", [("id", Value.string "a")]), ("items", [("id", Value.string "b")])],
      ∃ identifier, Document.IdentifiedBy seed.2 identifier := by
    intro seed inside
    simp only [List.mem_cons, List.not_mem_nil, or_false] at inside
    obtain rfl | rfl | rfl := inside
    · exact ⟨"c", rfl⟩
    · exact ⟨"a", rfl⟩
    · exact ⟨"b", rfl⟩
  have conventional := conventional_seeded identified built "items"
  have positive : 1 ≤ (2 : Int64).toInt := by decide
  obtain ⟨pages, backward, walked, length, _, _, same, enumerated⟩ :=
    walks_agree_with_offsets conventional (by decide +kernel) .everything positive (by decide)
  refine ⟨_, built, pages, backward, ?_, walked, same, enumerated⟩
  rw [length]
  decide +kernel

end Collection

end DocStore
