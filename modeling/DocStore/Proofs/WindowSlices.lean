import DocStore.Proofs.MatchCounts
import DocStore.Proofs.OffsetPages

/-!
# Windows as slices of the matches

Under the convention the matches of a filter have one order, that of their identifiers. Main
statement: the page of each kind of request is a slice of this list, delivered in its order to any
consumer that takes it, with the cursors of its two ends. A request by cursor takes from the matches
on one side of the cursor those nearest to it, whether or not the cursor names a document; a request
by position drops and takes. Sizes may be absent, zero, or as great as a size can be: the lookahead
is clamped at the greatest size, and no collection has more documents than that.
-/

namespace DocStore

section Slices

variable {α β : Type}

/-- The first items of a list, as many as the size says; without a size all of them. -/
def leading : Option Nat → List α → List α
  | some size, items => items.take size
  | none, items => items

/-- The last items of a list, as many as the size says; without a size all of them. -/
def trailing : Option Nat → List α → List α
  | some size, items => items.drop (items.length - size)
  | none, items => items

/-- Rewriting commutes with taking the first items. -/
theorem map_leading (size : Option Nat) (items : List α) (rewrite : α → β) :
    (leading size items).map rewrite = leading size (items.map rewrite) := by
  cases size with
  | none => rfl
  | some size => exact List.map_take

/-- The first items are among the items. -/
theorem mem_of_mem_leading {size : Option Nat} {items : List α} {item : α}
    (inside : item ∈ leading size items) : item ∈ items := by
  cases size with
  | none => exact inside
  | some size => exact List.mem_of_mem_take inside

/-- The last items are among the items. -/
theorem mem_of_mem_trailing {size : Option Nat} {items : List α} {item : α}
    (inside : item ∈ trailing size items) : item ∈ items := by
  cases size with
  | none => exact inside
  | some size => exact List.mem_of_mem_drop inside

/-- The last items are the first from behind. -/
theorem reverse_leading_reverse (size : Option Nat) (items : List α) :
    (leading size items.reverse).reverse = trailing size items := by
  cases size with
  | none => exact List.reverse_reverse items
  | some size => rw [leading, trailing, List.take_reverse, List.reverse_reverse]

/-- As many items are last as are first. -/
theorem length_trailing (size : Option Nat) (items : List α) :
    (trailing size items).length = (leading size items.reverse).length := by
  rw [← reverse_leading_reverse, List.length_reverse]

end Slices

/-- A size that is absent or not negative is not refused. -/
theorem bind_negative?_eq_none {size : Option Int64}
    (natural : ∀ given ∈ size, 0 ≤ given.toInt) (argument : String) :
    size.bind (negative? argument) = none := by
  cases size with
  | none => rfl
  | some given => exact (negative?_eq_none_iff argument given).mpr (natural given rfl)

namespace Shelf

/-- Documents that are fetched up to the lookahead of a size are trimmed to the size, and some are
cut off exactly when there are more. Of no more documents than the greatest size none is missed
where the lookahead is clamped. -/
theorem trimmed_window (size : Option Nat) {documents : List Document}
    (few : documents.length ≤ sizeLimit) :
    trimmed size (window none (size.map lookahead) documents) =
      (leading size documents, decide ((leading size documents).length < documents.length)) := by
  cases size with
  | none => simp [trimmed, window, leading]
  | some size =>
      have positive : 0 < lookahead size := by
        unfold lookahead sizeLimit
        omega
      have cut : decide ((documents.take size).length < documents.length) =
          decide (size < documents.length) := by
        rw [List.length_take]
        exact decide_eq_decide.mpr (by omega)
      rw [Option.map_some, window_limit positive, leading, cut]
      by_cases below : size < sizeLimit
      · exact trimmed_lookahead below documents
      · -- The lookahead is no further than the size here, but the documents end before it.
        have clamped : lookahead size = sizeLimit := by
          unfold lookahead
          omega
        have whole : ¬ size < documents.length := by omega
        rw [clamped, List.take_of_length_le few, trimmed, if_neg whole, decide_eq_false whole,
          List.take_of_length_le (by omega)]

/-- There are no more matches ahead of a cursor than documents. -/
theorem length_matchesAhead_le (shelf : Shelf) (way : Way) (filter : Filter)
    (cursor : Option Cursor) : (shelf.matchesAhead way filter cursor).length ≤ shelf.size := by
  have ahead : (shelf.matchesAhead way filter cursor).length ≤
      (shelf.matching filter).bindings.length := by
    rw [matchesAhead, Way.length_arrange]
    exact List.length_filter_le _ _
  have matched : (shelf.matching filter).bindings.length ≤ shelf.size := List.length_filter_le _ _
  omega

section Fetched

variable {shelf : Shelf} (conventional : shelf.Conventional) (filter : Filter)

include conventional

/-- A scan by identifier yields the matches in the order of their keys, cut as it says. -/
theorem scan_byId (skip limit : Option Nat) :
    shelf.scan filter
        { ScanOptions.byId with skip := skip, limit := limit, allowDiskUse := some true } =
      window skip limit ((shelf.matching filter).bindings.map (·.2)) := by
  have ordered := sorted_ascending (conventional.matching filter)
  change window skip limit (sorted (some ⟨idField, .ascending⟩) (shelf.matching filter).values) = _
  rw [ordered]
  rfl

/-- A forward window is fetched from the matches behind its cursor. -/
theorem fetched_forward (first : Option Int64) (after : Option Cursor) :
    shelf.fetched filter (some (.cursor { first := first, after := after })) =
      window none ((first.map magnitude).map lookahead)
        ((shelf.matchesAhead .forward filter after).map (·.2)) := by
  have found := bindings_matching_query conventional .forward filter 0 after
  have ordered := sorted_ascending (conventional.matching (forwardQuery filter none after).filter)
  change window none ((first.map magnitude).map lookahead) (sorted (some ⟨idField, .ascending⟩)
    (shelf.matching (forwardQuery filter none after).filter).values) = _
  rw [ordered]
  exact congrArg (fun bindings => window none _ (List.map (·.2) bindings)) found

/-- A backward window is fetched from the matches before its cursor, the last of them first. -/
theorem fetched_backward {last : Option Int64} {before : Option Cursor}
    (back : (last.isSome || before.isSome) = true) :
    shelf.fetched filter (some (.cursor { last := last, before := before })) =
      window none ((last.map magnitude).map lookahead)
        ((shelf.matchesAhead .backward filter before).map (·.2)) := by
  have found := bindings_matching_query conventional .backward filter 0 before
  have matched := conventional.matching (backwardQuery filter none before).filter
  have ordered := sorted_descending matched
  have asked : Pagination.query? filter (some (.cursor { last := last, before := before })) =
      some (backwardQuery filter (last.map magnitude) before) := if_pos back
  simp only [fetched, asked]
  change window none ((last.map magnitude).map lookahead) (sorted (some ⟨idField, .descending⟩)
    (shelf.matching (backwardQuery filter none before).filter).values) = _
  rw [ordered, matchesAhead, Way.arrange, List.map_reverse]
  exact congrArg (fun bindings => window none _ (List.map (·.2) bindings).reverse) found

end Fetched

end Shelf

namespace Pagination

/-- A forward request is allowed when its size is not negative. -/
theorem refusal?_forward {first : Option Int64} (natural : ∀ size ∈ first, 0 ≤ size.toInt)
    (after : Option Cursor) :
    refusal? (some (.cursor { first := first, after := after })) = none := by
  have ahead : ({ first := first, after := after } : CursorRequest).looksBack = false := rfl
  simp only [refusal?, ahead, Bool.and_false]
  exact bind_negative?_eq_none natural "first"

/-- A backward request is allowed when its size is not negative. -/
theorem refusal?_backward {last : Option Int64} (natural : ∀ size ∈ last, 0 ≤ size.toInt)
    (before : Option Cursor) :
    refusal? (some (.cursor { last := last, before := before })) = none := by
  have back : ({ last := last, before := before } : CursorRequest).looksForward = false := rfl
  simp only [refusal?, back, Bool.false_and, bind_negative?_eq_none natural "last"]
  exact ite_self none

/-- An offset request is allowed when its numbers are not negative. -/
theorem refusal?_offset {offset limit : Int64} (offsetNatural : 0 ≤ offset.toInt)
    (limitNatural : 0 ≤ limit.toInt) : refusal? (some (.offset ⟨offset, limit⟩)) = none := by
  rw [refusal?, (negative?_eq_none_iff "offset" offset).mpr offsetNatural,
    (negative?_eq_none_iff "limit" limit).mpr limitNatural]
  rfl

section Frames

variable {shelf : Shelf} (conventional : shelf.Conventional) (filter : Filter) (total : Nat)

include conventional

/-- Without a request the window is the list of the matches. -/
theorem frame_everything :
    frame total none (shelf.fetched filter none) =
      ⟨(shelf.matching filter).bindings.map (·.2), false, false⟩ := by
  have found : shelf.fetched filter none = (shelf.matching filter).bindings.map (·.2) :=
    Shelf.scan_byId conventional filter none none
  rw [frame, found]

/-- The window of an offset request drops matches and takes of the others. -/
theorem frame_offset (offset limit : Int64) :
    let page := ((shelf.matching filter).bindings.drop (magnitude offset)).take (magnitude limit)
    frame total (some (.offset ⟨offset, limit⟩))
        (shelf.fetched filter (some (.offset ⟨offset, limit⟩))) =
      ⟨page.map (·.2), decide (magnitude offset + page.length < total),
        decide (0 < magnitude offset)⟩ := by
  intro page
  have found : shelf.fetched filter (some (.offset ⟨offset, limit⟩)) = page.map (·.2) := by
    simp only [page, Shelf.fetched, query?]
    by_cases zero : magnitude limit = 0
    · simp [zero]
    · obtain ⟨size, positive⟩ := Nat.exists_eq_succ_of_ne_zero zero
      rw [if_neg zero]
      change shelf.scan filter { ScanOptions.byId with
        skip := some (magnitude offset), limit := some (magnitude limit),
        allowDiskUse := some true } = _
      rw [Shelf.scan_byId conventional, positive]
      simp [Shelf.window, List.map_take, List.map_drop]
  rw [frame, found, List.length_map]

section Cursors

variable (few : shelf.size ≤ sizeLimit)

include few

/-- The window of a forward request takes the first matches behind its cursor. -/
theorem frame_forward (first : Option Int64) (after : Option Cursor) :
    let beside := (shelf.matching filter).bindings.filter fun binding =>
      Way.forward.ahead after binding.1
    let page := leading (first.map magnitude) beside
    frame total (some (.cursor { first := first, after := after }))
        (shelf.fetched filter (some (.cursor { first := first, after := after }))) =
      ⟨page.map (·.2), decide (page.length < beside.length), after.isSome⟩ := by
  intro beside page
  have short : (beside.map (·.2)).length ≤ sizeLimit := by
    rw [List.length_map]
    exact Nat.le_trans (shelf.length_matchesAhead_le .forward filter after) few
  rw [Shelf.fetched_forward conventional]
  change forwardWindow (first.map magnitude) after (Shelf.window none _ (beside.map (·.2))) = _
  rw [forwardWindow, Shelf.trimmed_window _ short, ← map_leading, List.length_map, List.length_map]

/-- The window of a backward request takes the last matches before its cursor. -/
theorem frame_backward {last : Option Int64} {before : Option Cursor}
    (back : (last.isSome || before.isSome) = true) :
    let beside := (shelf.matching filter).bindings.filter fun binding =>
      Way.backward.ahead before binding.1
    let page := trailing (last.map magnitude) beside
    frame total (some (.cursor { last := last, before := before }))
        (shelf.fetched filter (some (.cursor { last := last, before := before }))) =
      ⟨page.map (·.2), before.isSome, decide (page.length < beside.length)⟩ := by
  intro beside page
  have reversed : shelf.matchesAhead .backward filter before = beside.reverse := rfl
  have short : (beside.reverse.map (·.2)).length ≤ sizeLimit := by
    rw [List.length_map, ← reversed]
    exact Nat.le_trans (shelf.length_matchesAhead_le _ _ _) few
  rw [Shelf.fetched_backward conventional filter back, reversed]
  have framed : frame total (some (.cursor { last := last, before := before })) =
      backwardWindow (last.map magnitude) before := by
    funext documents
    exact if_pos back
  rw [framed, backwardWindow, Shelf.trimmed_window _ short]
  simp only [← map_leading, ← List.map_reverse, reverse_leading_reverse, List.length_map,
    ← length_trailing, List.length_reverse, page]

end Cursors

end Frames

end Pagination

namespace Consumer

variable {κ : Type}

/-- The consumer answers every call with success. -/
def Accepting (consumer : Consumer κ) : Prop :=
  ∀ received state, (consumer.receive received state).1 = .ok ()

/-- The state of a consumer after several calls. -/
def afterCalls (consumer : Consumer κ) (calls : List (Option Document)) (sink : κ) : κ :=
  calls.foldl (fun state received => (consumer.receive received state).2) sink

/-- A consumer that accepts everything is called with every document in turn and then once more, for
the end. -/
theorem deliver_of_accepting {consumer : Consumer κ} (accepting : consumer.Accepting)
    (documents : List Document) (sink : κ) :
    consumer.deliver documents sink =
      (.ok (), consumer.afterCalls (documents.map some ++ [none]) sink) := by
  have answered : ∀ received state, consumer.receive received state =
      (.ok (), (consumer.receive received state).2) :=
    fun received state => Prod.ext (accepting received state) rfl
  induction documents generalizing sink with
  | nil =>
      change consumer.finish sink = _
      rw [finish, answered none sink]
      rfl
  | cons document rest ih =>
      have fed : consumer.feed document sink =
          (.ok true, (consumer.receive (some document) sink).2) := by
        rw [feed, answered (some document) sink]
      change consumer.drain (.ok document :: rest.map .ok) sink = _
      rw [drain, fed]
      exact ih _

end Consumer

namespace Collection

variable {memory : Memory} {name : String}

/-- A request delivers a page: a consumer that accepts everything receives the documents of the page
in their order and then the end, and is told how many matches there are, the identifiers at the two
ends of the page, if there is anything on it, and what lies on its sides. The store is left as it
is. -/
def Delivers [KeySource] (memory : Memory) (name : String) (filter : Filter)
    (request : Option Pagination) (total : Nat) (page : List (String × Document))
    (hasNext hasPrevious : Bool) : Prop :=
  ∀ (κ : Type) (consumer : Consumer κ) (sink : κ), consumer.Accepting →
    (inMemory name).paginate filter request consumer (memory, sink) =
      (.ok
        { totalCount := total
          startCursor := page.head?.map fun binding => ⟨binding.1⟩
          endCursor := page.getLast?.map fun binding => ⟨binding.1⟩
          hasNextPage := hasNext
          hasPreviousPage := hasPrevious },
        (memory, consumer.afterCalls (page.map (fun binding => some binding.2) ++ [none]) sink))

/-- A request that is allowed delivers the page that its window frames. -/
theorem delivers_of_frame [KeySource] {filter : Filter} {request : Option Pagination}
    (allowed : Pagination.refusal? request = none) {page : List (String × Document)}
    (identified : ∀ binding ∈ page, binding.2.IdentifiedBy binding.1) {hasNext hasPrevious : Bool}
    (framed : Pagination.frame ((memory.shelf name).count filter) request
      ((memory.shelf name).fetched filter request) = ⟨page.map (·.2), hasNext, hasPrevious⟩) :
    Delivers memory name filter request ((memory.shelf name).count filter) page hasNext
      hasPrevious := by
  intro κ consumer sink accepting
  have counted : (inMemory name).count filter memory =
      (.ok ((memory.shelf name).count filter), memory) := rfl
  have had := window_inMemory memory name filter allowed ((memory.shelf name).count filter)
  have boundary := boundaryCursors_eq identified
  have taken := consumer.deliver_of_accepting accepting (page.map (·.2)) sink
  rw [framed] at had
  simp only [paginate, counted, had, boundary, taken, List.map_map]
  rfl

section Requests

variable [KeySource] (conventional : (memory.shelf name).Conventional)
  (few : (memory.shelf name).size ≤ sizeLimit) (filter : Filter)

include conventional few

/-- A forward request delivers the first of the matches behind its cursor. -/
theorem delivers_forward {first : Option Int64} (natural : ∀ size ∈ first, 0 ≤ size.toInt)
    (after : Option Cursor) :
    let beside := ((memory.shelf name).matching filter).bindings.filter fun binding =>
      Way.forward.ahead after binding.1
    let page := leading (first.map magnitude) beside
    Delivers memory name filter (some (.cursor { first := first, after := after }))
      ((memory.shelf name).count filter) page (decide (page.length < beside.length))
      after.isSome := by
  intro beside page
  refine delivers_of_frame (Pagination.refusal?_forward natural after) ?_
    (Pagination.frame_forward conventional filter _ few first after)
  intro binding inside
  have listed := (List.mem_filter.mp (mem_of_mem_leading inside)).1
  exact (conventional.matching filter).identified listed

/-- A backward request delivers the last of the matches before its cursor. Without a size and a
cursor it is the forward request without them. -/
theorem delivers_backward {last : Option Int64} (natural : ∀ size ∈ last, 0 ≤ size.toInt)
    (before : Option Cursor) :
    let beside := ((memory.shelf name).matching filter).bindings.filter fun binding =>
      Way.backward.ahead before binding.1
    let page := trailing (last.map magnitude) beside
    Delivers memory name filter (some (.cursor { last := last, before := before }))
      ((memory.shelf name).count filter) page before.isSome
      (decide (page.length < beside.length)) := by
  intro beside page
  by_cases back : (last.isSome || before.isSome) = true
  · refine delivers_of_frame (Pagination.refusal?_backward natural before) ?_
      (Pagination.frame_backward conventional filter _ few back)
    intro binding inside
    have listed := (List.mem_filter.mp (mem_of_mem_trailing inside)).1
    exact (conventional.matching filter).identified listed
  · -- The request has no argument, so it looks forward, at the same matches.
    simp only [Bool.or_eq_true, not_or, Option.not_isSome_iff_eq_none] at back
    obtain ⟨rfl, rfl⟩ := back
    have uncut : decide (beside.length < beside.length) = false :=
      decide_eq_false (Nat.lt_irrefl _)
    have forward := delivers_forward conventional few filter natural none
    change Delivers memory name filter _ _ beside (decide (beside.length < beside.length)) false
      at forward
    change Delivers memory name filter _ _ beside false (decide (beside.length < beside.length))
    rw [uncut] at forward ⊢
    exact forward

end Requests

/-- Under the convention the matches of a filter are a list in strictly ascending order of their
identifiers, and every request with sizes that are not negative delivers a slice of it.

Without a request it is the whole list. A forward request delivers the first of the matches behind
its cursor, and a backward request the last of those before its cursor, still ascending: as many as
the size says, all of them without a size. Matches lie beyond the end of such a page exactly when
some were cut off there; on the side of the cursor they are said to lie exactly when there is a
cursor. An offset request delivers what is left when it drops matches and takes of the others. -/
theorem windows_are_slices [KeySource] (conventional : (memory.shelf name).Conventional)
    (few : (memory.shelf name).size ≤ sizeLimit) (filter : Filter) :
    let matched := ((memory.shelf name).matching filter).bindings
    matched.Pairwise (fun left right => left.1 < right.1) ∧
    (∀ binding ∈ matched, binding.2.IdentifiedBy binding.1) ∧
    (∀ identifier document, (identifier, document) ∈ matched ↔
      (memory.shelf name).find? identifier = some document ∧ document.matches filter = true) ∧
    Delivers memory name filter none matched.length matched false false ∧
    (∀ (first : Option Int64) (after : Option Cursor), (∀ size ∈ first, 0 ≤ size.toInt) →
      let beside := matched.filter fun binding => Way.forward.ahead after binding.1
      let page := leading (first.map magnitude) beside
      Delivers memory name filter (some (.cursor { first := first, after := after }))
        matched.length page (decide (page.length < beside.length)) after.isSome) ∧
    (∀ (last : Option Int64) (before : Option Cursor), (∀ size ∈ last, 0 ≤ size.toInt) →
      let beside := matched.filter fun binding => Way.backward.ahead before binding.1
      let page := trailing (last.map magnitude) beside
      Delivers memory name filter (some (.cursor { last := last, before := before }))
        matched.length page before.isSome (decide (page.length < beside.length))) ∧
    ∀ offset limit : Int64, 0 ≤ offset.toInt → 0 ≤ limit.toInt →
      let page := (matched.drop (magnitude offset)).take (magnitude limit)
      Delivers memory name filter (some (.offset ⟨offset, limit⟩)) matched.length page
        (decide (magnitude offset + page.length < matched.length))
        (decide (0 < magnitude offset)) := by
  intro matched
  have identified : ∀ binding ∈ matched, binding.2.IdentifiedBy binding.1 :=
    fun _ listed => (conventional.matching filter).identified listed
  refine ⟨((memory.shelf name).matching filter).ascending, identified,
    (memory.shelf name).mem_matching_iff filter, ?_, ?_, ?_, ?_⟩
  · exact delivers_of_frame rfl identified (Pagination.frame_everything conventional filter _)
  · intro first after natural
    exact delivers_forward conventional few filter natural after
  · intro last before natural
    exact delivers_backward conventional few filter natural before
  · intro offset limit offsetNatural limitNatural
    refine delivers_of_frame (Pagination.refusal?_offset offsetNatural limitNatural) ?_
      (Pagination.frame_offset conventional filter _ offset limit)
    intro binding inside
    exact identified binding (List.mem_of_mem_drop (List.mem_of_mem_take inside))

/-- Three documents, a backward page of one before a cursor that names none of them, and the page
behind two of them whose size is as great as a size can be. -/
theorem windows_are_slices_of_three :
    ∃ memory, Memory.seeded [("items", [("id", .string "c")]), ("items", [("id", .string "a")]),
        ("items", [("id", .string "b")])] = .ok memory ∧
      (inMemory "items").paginate .everything
          (some (.cursor { last := some 1, before := some ⟨"bb"⟩ })) (Consumer.recorder none)
          (memory, []) =
        (.ok ⟨3, some ⟨"b"⟩, some ⟨"b"⟩, true, true⟩,
          (memory, [some [("id", .string "b")], none])) ∧
      (inMemory "items").paginate .everything (some (.offset ⟨2, 9223372036854775807⟩))
          (Consumer.recorder none) (memory, []) =
        (.ok ⟨3, some ⟨"c"⟩, some ⟨"c"⟩, false, true⟩,
          (memory, [some [("id", .string "c")], none])) := by
  have built : Memory.seeded [("items", [("id", .string "c")]), ("items", [("id", .string "a")]),
      ("items", [("id", .string "b")])] = .ok _ := rfl
  have conventional := conventional_of_identifiers built ["c", "a", "b"] rfl "items"
  have accepting : (Consumer.recorder none).Accepting := fun _ _ => rfl
  obtain ⟨_, _, _, _, _, backward, byPosition⟩ :=
    windows_are_slices conventional (by decide +kernel) .everything
  have page := backward (some 1) (some ⟨"bb"⟩) (fun size given => by cases given; decide) _
    (Consumer.recorder none) [] accepting
  have rest := byPosition 2 9223372036854775807 (by decide) (by decide) _
    (Consumer.recorder none) [] accepting
  exact ⟨_, built, page, rest⟩

end Collection

end DocStore
