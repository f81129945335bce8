import DocStore.Proofs.OffsetPages

/-!
# One page on and one page back

A cursor need not name a document, yet where it stands is always behind a number of matches. A page
that is not the last one ends there as well, and the page behind it begins with the next match. The
walk the other way that starts from this match has passed everything from it on, so that the first
matches it meets are those of the page, from its end. Main statement: going one page on and one page
back delivers the page again, in both directions and for every cursor.
-/

namespace DocStore

namespace Way

/-- The way back. -/
def opposite : Way → Way
  | .forward => .backward
  | .backward => .forward

/-- The way back meets the items from the other end. -/
theorem arrange_opposite {α : Type} (way : Way) (items : List α) :
    way.opposite.arrange items = (way.arrange items).reverse := by
  cases way with
  | forward => rfl
  | backward => exact (List.reverse_reverse items).symm

/-- Arranging commutes with turning a list round. -/
theorem arrange_reverse {α : Type} (way : Way) (items : List α) :
    way.arrange items.reverse = (way.arrange items).reverse := by
  cases way <;> rfl

end Way

/-- Of a list in some order, a test that is passed from some item on keeps what is left behind a
number of items. -/
theorem exists_filter_eq_drop {α : Type} {before : α → α → Prop} {items : List α}
    (ordered : items.Pairwise before) {test : α → Bool}
    (lasting : ∀ item later, test item = true → before item later → test later = true) :
    ∃ passed, passed ≤ items.length ∧ items.filter test = items.drop passed := by
  induction items with
  | nil => exact ⟨0, Nat.le_refl 0, rfl⟩
  | cons item rest ih =>
      obtain ⟨after, restOrdered⟩ := List.pairwise_cons.mp ordered
      by_cases passes : test item = true
      · have allPass : ∀ kept ∈ item :: rest, test kept = true := by
          rintro kept inside
          rcases List.mem_cons.mp inside with rfl | later
          · exact passes
          · exact lasting item kept passes (after kept later)
        exact ⟨0, Nat.zero_le _, List.filter_eq_self.mpr allPass⟩
      · obtain ⟨passed, within, kept⟩ := ih restOrdered
        refine ⟨passed + 1, Nat.succ_le_succ within, ?_⟩
        rw [List.filter_cons_of_neg passes, kept, List.drop_succ_cons]

namespace Shelf

variable (shelf : Shelf) (way : Way) (filter : Filter)

/-- Every cursor stands behind a number of matches, whether or not it names a document. -/
theorem exists_matchesAhead_eq_drop (cursor : Option Cursor) :
    ∃ passed, passed ≤ shelf.count filter ∧
      shelf.matchesAhead way filter cursor =
        (shelf.matchesAhead way filter none).drop passed := by
  have lasting : ∀ left right : String × Document, way.ahead cursor left.1 = true →
      way.Precedes left.1 right.1 → way.ahead cursor right.1 = true :=
    fun _ _ inFront after => Way.ahead_of_precedes inFront after
  obtain ⟨passed, within, kept⟩ :=
    exists_filter_eq_drop (shelf.pairwise_matchesAhead way filter none) lasting
  rw [length_matchesAhead_none] at within
  exact ⟨passed, within, by rw [matchesAhead_eq_filter, kept]⟩

/-- The way back begins at the other end. -/
theorem matchesAhead_opposite_none :
    shelf.matchesAhead way.opposite filter none =
      (shelf.matchesAhead way filter none).reverse := by
  rw [matchesAhead_none, matchesAhead_none, Way.arrange_opposite]

/-- The walk back that has passed all but a number of matches stands at the match behind them. -/
theorem cursorAt_opposite {passed : Nat} (within : passed ≤ shelf.count filter) :
    shelf.cursorAt way.opposite filter (shelf.count filter - passed) =
      ((shelf.matchesAhead way filter none).drop passed).head?.map fun binding => ⟨binding.1⟩ := by
  rw [← length_matchesAhead_none shelf way] at within ⊢
  rw [cursorAt, matchesAhead_opposite_none, List.take_reverse, List.getLast?_reverse,
    Nat.sub_sub_self within]

/-- The way back turns at the match that a page meets first. -/
theorem resume_opposite_pageInfo (size : Nat) (cursor : Option Cursor) :
    way.opposite.resume (shelf.pageInfo way filter size cursor) =
      ((shelf.matchesAhead way filter cursor).take size).head?.map fun binding =>
        ⟨binding.1⟩ := by
  cases way with
  | forward => rfl
  | backward => simp [Way.opposite, Way.resume, pageInfo, page, Way.arrange]

/-- The page on the way back from behind a page is that page: the matches that the walk back meets
first are those that the walk there met last. -/
theorem page_opposite_cursorAt {size passed : Nat} (within : passed + size ≤ shelf.count filter) :
    shelf.page way.opposite filter size
        (shelf.cursorAt way.opposite filter (shelf.count filter - (passed + size))) =
      shelf.page way filter size (shelf.cursorAt way filter passed) := by
  rw [page_cursorAt, page_cursorAt, matchesAhead_opposite_none, Way.arrange_opposite]
  rw [← length_matchesAhead_none shelf way] at within ⊢
  generalize shelf.matchesAhead way filter none = matched at within ⊢
  have behind : (matched.reverse.drop (matched.length - (passed + size))) =
      (matched.take (passed + size)).reverse := by
    rw [List.drop_reverse, Nat.sub_sub_self within]
  have length : (matched.take (passed + size)).length - size = passed := by
    rw [List.length_take]
    omega
  rw [behind, List.take_reverse, length, List.drop_take, Nat.add_sub_cancel_left,
    Way.arrange_reverse, List.reverse_reverse]

/-- Behind a page that is not the last one there is a page, and on the way back from its first match
the page is met again. -/
theorem page_opposite {size : Nat} (positive : 0 < size) {cursor : Option Cursor}
    (more : way.goesOn (shelf.pageInfo way filter size cursor) = true) :
    let stop := way.resume (shelf.pageInfo way filter size cursor)
    let start := way.opposite.resume (shelf.pageInfo way filter size stop)
    stop.isSome ∧ start.isSome ∧
      shelf.page way.opposite filter size start = shelf.page way filter size cursor := by
  intro stop start
  obtain ⟨passed, within, ahead⟩ := shelf.exists_matchesAhead_eq_drop way filter cursor
  rw [goesOn_pageInfo, decide_eq_true_iff, ahead, List.length_drop,
    length_matchesAhead_none] at more
  have position : shelf.matchesAhead way filter cursor =
      shelf.matchesAhead way filter (shelf.cursorAt way filter passed) := by
    rw [matchesAhead_cursorAt, ahead]
  have stops : stop = shelf.cursorAt way filter (passed + size) := by
    rw [← Collection.resume_cursorAt positive (by omega : passed < shelf.count filter)]
    simp only [stop, resume_pageInfo, position]
  have starts : start =
      shelf.cursorAt way.opposite filter (shelf.count filter - (passed + size)) := by
    rw [cursorAt_opposite shelf way filter (by omega)]
    simp only [start, resume_opposite_pageInfo, stops, matchesAhead_cursorAt]
    rw [List.head?_take, if_neg (Nat.ne_of_gt positive)]
  refine ⟨?_, ?_, ?_⟩
  · rw [stops, isSome_cursorAt (by omega)]
    exact decide_eq_true (by omega)
  · rw [starts, isSome_cursorAt (Nat.sub_le _ _)]
    exact decide_eq_true (by omega)
  · rw [starts, page_opposite_cursorAt shelf way filter (by omega)]
    simp only [page, position]

end Shelf

namespace Collection

variable {memory : Memory} {name : String}

/-- One page on and one page back is the page. Every document of the collection carries its key as
its identifier; the size is positive and below the greatest, and the cursor is any text or absent.

The page at the cursor is had. If it says that more lies ahead, it has a cursor where it ends. The
page at that cursor is had as well, and has a cursor where it begins. The page of the size on the
way back from there makes the same calls as the first one and has the same cursors. Any consumer at
all is left alike by the two, and they answer alike but for what they say of their sides. -/
theorem page_before_next_is_page [KeySource] (conventional : (memory.shelf name).Conventional)
    (filter : Filter) {size : Int64} (positive : 1 ≤ size.toInt) (below : size.toInt < sizeLimit)
    (way : Way) (cursor : Option Cursor) :
    ∃ (page : PageInfo) (calls : List (Option Document)),
      (inMemory name).paginate filter (some (.cursor (way.request size cursor)))
          (Consumer.recorder none) (memory, []) = (.ok page, (memory, calls)) ∧
      (way.goesOn page = true →
        ∃ (stop start : Cursor) (next back : PageInfo) (others : List (Option Document)),
          way.resume page = some stop ∧
          (inMemory name).paginate filter (some (.cursor (way.request size (some stop))))
              (Consumer.recorder none) (memory, []) = (.ok next, (memory, others)) ∧
          way.opposite.resume next = some start ∧
          (inMemory name).paginate filter
              (some (.cursor (way.opposite.request size (some start))))
              (Consumer.recorder none) (memory, []) = (.ok back, (memory, calls)) ∧
          back.startCursor = page.startCursor ∧ back.endCursor = page.endCursor ∧
          ∀ (κ : Type) (consumer : Consumer κ) (sink : κ),
            ∃ (answer : Except StoreError Unit) (filled : κ),
              (inMemory name).paginate filter (some (.cursor (way.request size cursor))) consumer
                  (memory, sink) = (answer.map fun _ => page, (memory, filled)) ∧
              (inMemory name).paginate filter
                  (some (.cursor (way.opposite.request size (some start)))) consumer
                  (memory, sink) = (answer.map fun _ => back, (memory, filled))) := by
  have counted : size.toInt = size.toInt.toNat := by omega
  have bounded : size.toInt.toNat < sizeLimit := by omega
  have nonempty : 0 < size.toInt.toNat := by omega
  refine ⟨_, _, paginate_recorder conventional way filter cursor counted bounded, ?_⟩
  intro more
  obtain ⟨stops, starts, same⟩ := (memory.shelf name).page_opposite way filter nonempty more
  obtain ⟨stop, ended⟩ := Option.isSome_iff_exists.mp stops
  obtain ⟨start, begun⟩ := Option.isSome_iff_exists.mp starts
  have returned := paginate_recorder conventional way.opposite filter (some start) counted bounded
  rw [begun] at same
  rw [ended] at begun
  rw [same] at returned
  refine ⟨stop, start, _, _, _, ended,
    paginate_recorder conventional way filter (some stop) counted bounded, begun, returned, ?_, ?_,
    ?_⟩
  · simp only [Shelf.pageInfo, same]
  · simp only [Shelf.pageInfo, same]
  · intro κ consumer sink
    rw [paginate_cursor conventional way.opposite filter _ counted bounded,
      paginate_cursor conventional way filter _ counted bounded, same]
    cases consumer.deliver _ sink with
    | mk answer filled => exact ⟨answer, filled, by cases answer <;> rfl, by cases answer <;> rfl⟩

/-- Three documents in pages of one. Behind a text between the first two stands the second; behind
it the third, and from there the way back leads to the second. -/
theorem page_before_next_is_page_of_three :
    ∃ memory, Memory.seeded [("items", [("id", .string "c")]), ("items", [("id", .string "a")]),
        ("items", [("id", .string "b")])] = .ok memory ∧
      ∃ page back : PageInfo, page.hasNextPage = true ∧
        (inMemory "items").paginate .everything (some (.cursor (.forward 1 (some ⟨"aa"⟩))))
            (Consumer.recorder none) (memory, []) =
          (.ok page, (memory, [some [("id", .string "b")], none])) ∧
        (inMemory "items").paginate .everything (some (.cursor (.backward 1 (some ⟨"c"⟩))))
            (Consumer.recorder none) (memory, []) =
          (.ok back, (memory, [some [("id", .string "b")], none])) ∧
        back.startCursor = page.startCursor ∧ back.endCursor = page.endCursor := by
  have built : Memory.seeded [("items", [("id", .string "c")]), ("items", [("id", .string "a")]),
      ("items", [("id", .string "b")])] = .ok _ := rfl
  have conventional := conventional_of_identifiers built ["c", "a", "b"] rfl "items"
  have one : (1 : Int64).toInt = (1 : Nat) := rfl
  have first := paginate_recorder conventional .forward .everything (some ⟨"aa"⟩) one (by decide)
  have second := paginate_recorder conventional .forward .everything (some ⟨"b"⟩) one (by decide)
  obtain ⟨page, calls, had, turned⟩ :=
    page_before_next_is_page conventional .everything (by decide : 1 ≤ (1 : Int64).toInt)
      (by decide) .forward (some ⟨"aa"⟩)
  cases had.symm.trans first
  obtain ⟨stop, start, next, back, others, ended, hadNext, begun, hadBack, starts, ends, -⟩ :=
    turned rfl
  cases ended
  cases hadNext.symm.trans second
  cases begun
  exact ⟨_, built, _, back, rfl, had, hadBack, starts, ends⟩

end Collection

end DocStore
