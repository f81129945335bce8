import DocStore.Proofs.CursorPages

/-!
# Walks amid writes

Between two page requests of a walk the collection may change in any way that keeps the
convention. The walk still delivers every identifier at most once and in order, because each page
lies strictly ahead of the last document of the page before it. It misses no document that is there
for every one of its requests: the page that reaches past its identifier has to contain it.
-/

namespace DocStore

/-- The documents that a page delivers. -/
def WalkedPage.delivered (page : WalkedPage) : List Document :=
  page.calls.filterMap fun received => received

/-- A page whose consumer took documents and the end delivers those documents. -/
theorem delivered_documents (documents : List Document) (info : PageInfo) :
    WalkedPage.delivered ⟨documents.map some ++ [none], info⟩ = documents := by
  induction documents with
  | nil => rfl
  | cons document documents ih => exact congrArg (document :: ·) ih

/-- A page request of a walk: the state that it meets, and the page that it gets. -/
structure Visit (σ : Type) where
  state : σ
  page : WalkedPage

/-- The document of an identifier is stored and matches when the page is requested. -/
def Visit.Offers (visit : Visit Memory) (name : String) (filter : Filter) (identifier : String) :
    Prop :=
  ∃ document, (visit.state.shelf name).find? identifier = some document ∧
    document.matches filter = true

namespace Collection

variable {σ : Type}

/-- Walks from a cursor for as long as the pages say that more lies ahead. Between two page
requests one round of operations is carried out; without another round the walk is cut short. -/
def walkAmid (collection : Collection σ) (filter : Filter) (way : Way) (size : Int64)
    (rounds : List (List (String × Operation))) (cursor : Option Cursor) (state : σ) :
    List (Visit σ) × WalkEnd :=
  match collection.paginate filter (some (.cursor (way.request size cursor)))
      (Consumer.recorder none) (state, []) with
  | (.error error, _) => ([], .failed error)
  | (.ok info, (next, calls)) =>
      if way.goesOn info then
        match rounds with
        | [] => ([⟨state, calls, info⟩], .bounded)
        | writes :: later =>
            match walkAmid collection filter way size later (way.resume info)
                (Operation.performAll collection.backend writes next) with
            | (visits, stop) => (⟨state, calls, info⟩ :: visits, stop)
      else ([⟨state, calls, info⟩], .finished)

end Collection

namespace Way

/-- What lies ahead of a cursor comes after it. -/
theorem ahead_some_iff (way : Way) (text identifier : String) :
    way.ahead (some ⟨text⟩) identifier = true ↔ way.Precedes text identifier := by
  cases way <;> simp [ahead, Precedes]

/-- The order of a walk is transitive. -/
theorem Precedes.trans {way : Way} {first second third : String}
    (before : way.Precedes first second) (after : way.Precedes second third) : way.Precedes first third := by
  cases way with
  | forward => exact String.lt_trans before after
  | backward => exact String.lt_trans after before

/-- What comes after an identifier that lies ahead of a cursor lies ahead of the cursor. -/
theorem ahead_of_precedes {way : Way} {cursor : Option Cursor} {identifier later : String}
    (inFront : way.ahead cursor identifier = true) (after : way.Precedes identifier later) :
    way.ahead cursor later = true := by
  cases cursor with
  | none => rfl
  | some cursor =>
      rw [ahead_some_iff] at inFront ⊢
      exact inFront.trans after

/-- Arranged ascending texts are listed in the order of the walk. -/
theorem pairwise_arrange {α : Type} {items : List α} {key : α → String}
    (ascending : items.Pairwise fun left right => key left < key right) (way : Way) :
    (way.arrange items).Pairwise fun left right => way.Precedes (key left) (key right) := by
  cases way with
  | forward => exact ascending
  | backward => exact List.pairwise_reverse.mpr ascending

/-- Texts in the order of a walk are ascending when they are arranged. -/
theorem ascending_arrange {way : Way} {texts : List String} (walked : texts.Pairwise way.Precedes) :
    (way.arrange texts).Pairwise (· < ·) := by
  cases way with
  | forward => exact walked
  | backward => exact List.pairwise_reverse.mpr walked

end Way

namespace Shelf

/-- The matches ahead of a cursor are listed in the order of the walk. -/
theorem pairwise_matchesAhead (shelf : Shelf) (way : Way) (filter : Filter)
    (cursor : Option Cursor) :
    (shelf.matchesAhead way filter cursor).Pairwise fun left right =>
      way.Precedes left.1 right.1 :=
  Way.pairwise_arrange ((shelf.matching filter).ascending.filter _) way

/-- The matches ahead of a cursor are the stored documents that match and lie ahead of it. -/
theorem mem_matchesAhead_iff (shelf : Shelf) (way : Way) (filter : Filter)
    (cursor : Option Cursor) (identifier : String) (document : Document) :
    (identifier, document) ∈ shelf.matchesAhead way filter cursor ↔
      shelf.find? identifier = some document ∧ document.matches filter = true ∧
        way.ahead cursor identifier = true := by
  rw [matchesAhead, Way.mem_arrange_iff, List.mem_filter, Table.mem_bindings_iff, matching,
    Table.find?_filter, Option.filter_eq_some_iff, and_assoc]

/-- A page says that the walk goes on exactly when more matches lie ahead than it delivers. -/
theorem goesOn_pageInfo (shelf : Shelf) (way : Way) (filter : Filter) (size : Nat)
    (cursor : Option Cursor) :
    way.goesOn (shelf.pageInfo way filter size cursor) =
      decide (size < (shelf.matchesAhead way filter cursor).length) := by
  cases way <;> rfl

/-- The walk resumes at the last match that a page delivers. -/
theorem resume_pageInfo (shelf : Shelf) (way : Way) (filter : Filter) (size : Nat)
    (cursor : Option Cursor) :
    way.resume (shelf.pageInfo way filter size cursor) =
      ((shelf.matchesAhead way filter cursor).take size).getLast?.map fun binding =>
        ⟨binding.1⟩ := by
  cases way with
  | forward => rfl
  | backward => simp [Way.resume, pageInfo, page, Way.arrange]

end Shelf

/-- A recording consumer that does not fail takes all documents and the end. -/
theorem Consumer.deliver_recorder (documents : List Document) (calls : List (Option Document)) :
    (Consumer.recorder none).deliver documents calls =
      (.ok (), calls ++ documents.map some ++ [none]) := by
  induction documents generalizing calls with
  | nil => simp [deliver, drain, finish, recorder, answerAt]
  | cons document documents ih =>
      have fed : (recorder none).deliver (document :: documents) calls =
          (recorder none).deliver documents (calls ++ [some document]) := rfl
      rw [fed, ih]
      simp

namespace Collection

variable {memory : Memory} {name : String}

/-- A page request of a walk in memory always gets its page, and leaves the store as it is. -/
theorem paginate_recorder [KeySource] (conventional : (memory.shelf name).Conventional) (way : Way)
    (filter : Filter) (cursor : Option Cursor) {size : Int64} {count : Nat}
    (counted : size.toInt = count) (below : count < sizeLimit) :
    (inMemory name).paginate filter (some (.cursor (way.request size cursor)))
        (Consumer.recorder none) (memory, []) =
      (.ok ((memory.shelf name).pageInfo way filter count cursor), (memory,
        (((memory.shelf name).page way filter count cursor).map (·.2)).map some ++ [none])) := by
  rw [paginate_cursor conventional way filter cursor counted below, Consumer.deliver_recorder]
  rfl

/-- What the visits of a walk show, given the matches that each of them delivers in the order of
the walk. -/
structure Covers (name : String) (way : Way) (filter : Filter) (cursor : Option Cursor)
    (visits : List (Visit Memory)) (stop : WalkEnd)
    (passed : List (List (String × Document))) : Prop where
  /-- Each page delivers its matches in ascending order. -/
  delivered : visits.map (·.page.delivered) =
    passed.map fun bindings => (way.arrange bindings).map (·.2)
  /-- Every match carries its key, and lies ahead of where the walk began. -/
  inFront : ∀ binding ∈ passed.flatten,
    binding.2.IdentifiedBy binding.1 ∧ way.ahead cursor binding.1 = true
  /-- The matches of all pages are met in the order of the walk. -/
  ordered : passed.flatten.Pairwise fun left right => way.Precedes left.1 right.1
  /-- Every request is answered. -/
  answered : ∀ error, stop ≠ .failed error
  /-- A finished walk has met what lay ahead of its beginning at every request. -/
  complete : stop = .finished → ∀ identifier, way.ahead cursor identifier = true →
    (∀ visit ∈ visits, visit.Offers name filter identifier) →
    identifier ∈ passed.flatten.map (·.1)

/-- The visit of a page request: the page delivers its bindings and then the end. -/
def pageVisit (memory : Memory) (name : String) (way : Way) (filter : Filter) (size : Nat)
    (cursor : Option Cursor) : Visit Memory where
  state := memory
  page :=
    { calls := (((memory.shelf name).page way filter size cursor).map (·.2)).map some ++ [none]
      info := (memory.shelf name).pageInfo way filter size cursor }

/-- A page delivers the matches that it takes from those ahead, in ascending order. -/
theorem delivered_pageVisit (memory : Memory) (name : String) (way : Way) (filter : Filter)
    (size : Nat) (cursor : Option Cursor) :
    (pageVisit memory name way filter size cursor).page.delivered =
      (way.arrange (((memory.shelf name).matchesAhead way filter cursor).take size)).map
        (·.2) := by
  simp only [pageVisit, Shelf.page, delivered_documents]

/-- A single page covers what lies ahead of its cursor, if it is only said to finish the walk when
no more lies ahead than it delivers. -/
theorem covers_page (conventional : (memory.shelf name).Conventional) (way : Way)
    (filter : Filter) (size : Nat) (cursor : Option Cursor) {stop : WalkEnd}
    (answered : ∀ error, stop ≠ .failed error)
    (enough : stop = .finished →
      ((memory.shelf name).matchesAhead way filter cursor).length ≤ size) :
    Covers name way filter cursor [pageVisit memory name way filter size cursor] stop
      [((memory.shelf name).matchesAhead way filter cursor).take size] where
  delivered := by simp [delivered_pageVisit]
  inFront := by
    intro binding inside
    rw [List.flatten_singleton] at inside
    have listed := List.mem_of_mem_take inside
    obtain ⟨stored, _, inFront⟩ := (Shelf.mem_matchesAhead_iff _ _ _ _ _ _).mp listed
    exact ⟨conventional _ _ stored, inFront⟩
  ordered := by
    rw [List.flatten_singleton]
    exact (Shelf.pairwise_matchesAhead _ way filter cursor).sublist (List.take_sublist _ _)
  answered := answered
  complete := by
    intro finished identifier inFront offered
    obtain ⟨document, stored, matched⟩ := offered _ (List.mem_singleton_self _)
    have listed : (identifier, document) ∈
        (memory.shelf name).matchesAhead way filter cursor :=
      (Shelf.mem_matchesAhead_iff _ _ _ _ _ _).mpr ⟨stored, matched, inFront⟩
    rw [List.flatten_singleton, List.take_of_length_le (enough finished)]
    exact List.mem_map_of_mem listed

/-- In a list in the order of a walk, the last binding comes after the others. -/
theorem precedes_last {way : Way} {bindings : List (String × Document)}
    (ordered : bindings.Pairwise fun left right => way.Precedes left.1 right.1)
    {last : String × Document} (final : bindings.getLast? = some last)
    {binding : String × Document} (inside : binding ∈ bindings) :
    binding = last ∨ way.Precedes binding.1 last.1 := by
  obtain ⟨front, rfl⟩ := List.getLast?_eq_some_iff.mp final
  rcases List.mem_append.mp inside with before | here
  · exact .inr ((List.pairwise_append.mp ordered).2.2 binding before last
      (List.mem_singleton_self last))
  · exact .inl (List.mem_singleton.mp here)

/-- A page in front of a walk that resumes at its last document. What the page leaves out lies
ahead of that document, so the rest of the walk covers it. -/
theorem covers_cons {way : Way} {filter : Filter} {size : Nat} {cursor : Option Cursor}
    (conventional : (memory.shelf name).Conventional) {last : String × Document}
    (final : (((memory.shelf name).matchesAhead way filter cursor).take size).getLast? =
      some last)
    {visits : List (Visit Memory)} {stop : WalkEnd} {passed : List (List (String × Document))}
    (rest : Covers name way filter (some ⟨last.1⟩) visits stop passed) :
    Covers name way filter cursor (pageVisit memory name way filter size cursor :: visits) stop
      (((memory.shelf name).matchesAhead way filter cursor).take size :: passed) := by
  have single : Covers name way filter cursor [pageVisit memory name way filter size cursor]
      .bounded [((memory.shelf name).matchesAhead way filter cursor).take size] :=
    covers_page conventional way filter size cursor (fun _ same => nomatch same)
      (fun same => nomatch same)
  have pageInFront := single.inFront
  have pageOrdered := single.ordered
  rw [List.flatten_singleton] at pageInFront pageOrdered
  have lastInFront : way.ahead cursor last.1 = true :=
    (pageInFront last (List.mem_of_getLast? final)).2
  have afterLast : ∀ binding ∈ passed.flatten, way.Precedes last.1 binding.1 := by
    intro binding inside
    exact (way.ahead_some_iff _ _).mp (rest.inFront binding inside).2
  constructor
  · rw [List.map_cons, List.map_cons, delivered_pageVisit, rest.delivered]
  · intro binding inside
    rcases List.mem_append.mp inside with here | later
    · exact pageInFront binding here
    · exact ⟨(rest.inFront binding later).1,
        Way.ahead_of_precedes lastInFront (afterLast binding later)⟩
  · refine List.pairwise_append.mpr ⟨pageOrdered, rest.ordered, ?_⟩
    intro left here right later
    rcases precedes_last pageOrdered final here with same | before
    · exact same ▸ afterLast right later
    · exact before.trans (afterLast right later)
  · exact rest.answered
  · intro finished identifier inFront offered
    rw [List.flatten_cons, List.map_append, List.mem_append]
    obtain ⟨document, stored, matched⟩ := offered _ List.mem_cons_self
    have listed : (identifier, document) ∈
        (memory.shelf name).matchesAhead way filter cursor :=
      (Shelf.mem_matchesAhead_iff _ _ _ _ _ _).mpr ⟨stored, matched, inFront⟩
    have whole := Shelf.pairwise_matchesAhead (memory.shelf name) way filter cursor
    rw [← List.take_append_drop size ((memory.shelf name).matchesAhead way filter cursor)]
      at listed whole
    rcases List.mem_append.mp listed with here | left
    · exact .inl (List.mem_map_of_mem here)
    · have skipped : way.Precedes last.1 identifier :=
        (List.pairwise_append.mp whole).2.2 last (List.mem_of_getLast? final) _ left
      exact .inr (rest.complete finished identifier ((way.ahead_some_iff _ _).mpr skipped)
        fun visit inside => offered visit (List.mem_cons_of_mem _ inside))

/-- A page that says that the walk goes on has a last document, at which it resumes. -/
theorem resume_of_goesOn {shelf : Shelf} {way : Way} {filter : Filter} {size : Nat}
    {cursor : Option Cursor} (positive : 0 < size)
    (more : size < (shelf.matchesAhead way filter cursor).length) :
    ∃ last, ((shelf.matchesAhead way filter cursor).take size).getLast? = some last ∧
      way.resume (shelf.pageInfo way filter size cursor) = some ⟨last.1⟩ := by
  rw [Shelf.resume_pageInfo]
  cases final : ((shelf.matchesAhead way filter cursor).take size).getLast? with
  | some last => exact ⟨last, rfl, rfl⟩
  | none =>
      have none := congrArg List.length (List.getLast?_eq_none_iff.mp final)
      rw [List.length_take, List.length_nil] at none
      omega

section Walk

variable [KeySource] {way : Way} {filter : Filter} {size : Int64} {count : Nat}

/-- A walk ends with a page that leaves nothing ahead, whatever was still to be written. -/
theorem walkAmid_last (counted : size.toInt = count) (below : count < sizeLimit)
    (conventional : (memory.shelf name).Conventional) {cursor : Option Cursor}
    (enough : ((memory.shelf name).matchesAhead way filter cursor).length ≤ count)
    (rounds : List (List (String × Operation))) :
    (inMemory name).walkAmid filter way size rounds cursor memory =
      ([pageVisit memory name way filter count cursor], .finished) := by
  have stops : ¬ count < ((memory.shelf name).matchesAhead way filter cursor).length :=
    Nat.not_lt.mpr enough
  unfold walkAmid
  rw [paginate_recorder conventional way filter cursor counted below]
  simp only [Shelf.goesOn_pageInfo, decide_eq_true_eq, if_neg stops]
  rfl

/-- A walk that would go on is cut short when no round is left. -/
theorem walkAmid_short (counted : size.toInt = count) (below : count < sizeLimit)
    (conventional : (memory.shelf name).Conventional) {cursor : Option Cursor}
    (more : count < ((memory.shelf name).matchesAhead way filter cursor).length) :
    (inMemory name).walkAmid filter way size [] cursor memory =
      ([pageVisit memory name way filter count cursor], .bounded) := by
  unfold walkAmid
  rw [paginate_recorder conventional way filter cursor counted below]
  simp only [Shelf.goesOn_pageInfo, decide_eq_true_eq, if_pos more]
  rfl

/-- A walk goes on at the last document of its page, after a round of writes. -/
theorem walkAmid_next (counted : size.toInt = count) (below : count < sizeLimit)
    (conventional : (memory.shelf name).Conventional) {cursor : Option Cursor}
    (more : count < ((memory.shelf name).matchesAhead way filter cursor).length)
    {last : String × Document}
    (resumed : way.resume ((memory.shelf name).pageInfo way filter count cursor) =
      some ⟨last.1⟩)
    (writes : List (String × Operation)) (later : List (List (String × Operation))) :
    (inMemory name).walkAmid filter way size (writes :: later) cursor memory =
      (pageVisit memory name way filter count cursor ::
          ((inMemory name).walkAmid filter way size later (some ⟨last.1⟩)
            (Operation.performAll Memory.backend writes memory)).1,
        ((inMemory name).walkAmid filter way size later (some ⟨last.1⟩)
          (Operation.performAll Memory.backend writes memory)).2) := by
  conv => lhs; unfold walkAmid
  rw [paginate_recorder conventional way filter cursor counted below]
  simp only [Shelf.goesOn_pageInfo, decide_eq_true_eq, if_pos more, resumed]
  rfl

/-- A walk amid writes that keep the convention covers what it passes, from wherever it begins.
The induction follows the rounds of writes, and so the pages: the last page covers what lies ahead
of its cursor, and every other stands in front of the walk that resumes behind it. -/
theorem covers_walkAmid (counted : size.toInt = count) (positive : 0 < count)
    (below : count < sizeLimit) {rounds : List (List (String × Operation))}
    (identified : ∀ round ∈ rounds, ∀ operation ∈ round, operation.2.Conventional)
    (conventional : (memory.shelf name).Conventional) (cursor : Option Cursor) :
    ∃ passed, Covers name way filter cursor
      ((inMemory name).walkAmid filter way size rounds cursor memory).1
      ((inMemory name).walkAmid filter way size rounds cursor memory).2 passed := by
  induction rounds generalizing memory cursor with
  | nil =>
      rcases Nat.lt_or_ge count ((memory.shelf name).matchesAhead way filter cursor).length with
        more | enough
      · rw [walkAmid_short counted below conventional more]
        exact ⟨_, covers_page conventional way filter count cursor (fun _ same => nomatch same)
          (fun same => nomatch same)⟩
      · rw [walkAmid_last counted below conventional enough]
        exact ⟨_, covers_page conventional way filter count cursor (fun _ same => nomatch same)
          (fun _ => enough)⟩
  | cons writes later ih =>
      rcases Nat.lt_or_ge count ((memory.shelf name).matchesAhead way filter cursor).length with
        more | enough
      · obtain ⟨last, final, resumed⟩ := resume_of_goesOn positive more
        have changed : ((Operation.performAll Memory.backend writes memory).shelf
            name).Conventional :=
          Operation.conventional_performAll conventional (identified _ List.mem_cons_self)
        have identifiedLater : ∀ round ∈ later, ∀ operation ∈ round, operation.2.Conventional :=
          fun round inside => identified round (List.mem_cons_of_mem _ inside)
        obtain ⟨passed, rest⟩ := ih identifiedLater changed (some ⟨last.1⟩)
        rw [walkAmid_next counted below conventional more resumed]
        exact ⟨_, covers_cons conventional final rest⟩
      · rw [walkAmid_last counted below conventional enough]
        exact ⟨_, covers_page conventional way filter count cursor (fun _ same => nomatch same)
          (fun _ => enough)⟩

end Walk

/-- The documents that a walk delivers, arranged in ascending order, are those it passes. -/
theorem Covers.arranged {way : Way} {filter : Filter} {cursor : Option Cursor}
    {visits : List (Visit Memory)} {stop : WalkEnd} {passed : List (List (String × Document))}
    (covers : Covers name way filter cursor visits stop passed) :
    (way.arrange visits).flatMap (·.page.delivered) = (way.arrange passed.flatten).map (·.2) := by
  rw [List.flatMap_def, Way.map_arrange, covers.delivered]
  cases way with
  | forward => simp [Way.arrange, List.map_flatten]
  | backward => simp [Way.arrange, List.map_flatten, List.reverse_flatten, Function.comp_def]

/-- Pages of a collection in memory are stable under writes. Every document of the collection
carries its key as its identifier, and between any two page requests of a walk any operations are
carried out that store identified documents whole. Every request is answered, the identifiers of
the delivered documents are strictly ascending, and a walk that finishes has delivered each
identifier exactly once whose document was stored and matched at every request. The pages of a
backward walk are to be read in the opposite order. -/
theorem walk_stable_under_writes [KeySource] (conventional : (memory.shelf name).Conventional)
    (way : Way) (filter : Filter) {size : Int64} (positive : 1 ≤ size.toInt)
    (below : size.toInt < sizeLimit) {rounds : List (List (String × Operation))}
    (identified : ∀ round ∈ rounds, ∀ operation ∈ round, operation.2.Conventional) :
    ∃ (visits : List (Visit Memory)) (stop : WalkEnd) (identifiers : List String),
      (inMemory name).walkAmid filter way size rounds none memory = (visits, stop) ∧
      (∀ error, stop ≠ .failed error) ∧
      ((way.arrange visits).flatMap (·.page.delivered)).map
          (fun document => Document.field? document idField) =
        identifiers.map (fun identifier => some (.string identifier)) ∧
      identifiers.Pairwise (· < ·) ∧
      (stop = .finished → ∀ identifier,
        (∀ visit ∈ visits, visit.Offers name filter identifier) →
        identifiers.count identifier = 1) := by
  have counted : size.toInt = size.toInt.toNat := by omega
  have nonempty : 0 < size.toInt.toNat := by omega
  have bounded : size.toInt.toNat < sizeLimit := by omega
  obtain ⟨passed, covers⟩ : ∃ passed, Covers name way filter none
      ((inMemory name).walkAmid filter way size rounds none memory).1
      ((inMemory name).walkAmid filter way size rounds none memory).2 passed :=
    covers_walkAmid counted nonempty bounded identified conventional none
  have ascending : (way.arrange (passed.flatten.map (·.1))).Pairwise (· < ·) :=
    Way.ascending_arrange (List.pairwise_map.mpr covers.ordered)
  refine ⟨_, _, way.arrange (passed.flatten.map (·.1)), rfl, covers.answered, ?_, ascending, ?_⟩
  · rw [covers.arranged, ← Way.map_arrange, List.map_map, List.map_map]
    apply List.map_congr_left
    intro binding inside
    exact (covers.inFront binding ((way.mem_arrange_iff _ binding).mp inside)).1
  · intro finished identifier offered
    have met := covers.complete finished identifier rfl offered
    have once : (way.arrange (passed.flatten.map (·.1))).Nodup := by
      apply ascending.imp
      intro left right lower same
      exact String.lt_irrefl right (same ▸ lower)
    rw [once.count, if_pos ((way.mem_arrange_iff _ identifier).mpr met)]

/-- A backward walk in pages of one document, while a document is added behind it and the one
ahead of it is saved again. -/
theorem walk_stable_under_saves :
    ∃ memory, Memory.seeded [("items", [("id", .string "a")]), ("items", [("id", .string "b")])] =
        .ok memory ∧
      ∃ (visits : List (Visit Memory)) (stop : WalkEnd) (identifiers : List String),
        (inMemory "items").walkAmid .everything .backward 1
            [[("items", .saveOne "c" [("id", .string "c")]),
              ("items", .saveOne "a" [("id", .string "a")])]] none memory = (visits, stop) ∧
          identifiers.Pairwise (· < ·) ∧
          (stop = .finished → ∀ identifier,
            (∀ visit ∈ visits, visit.Offers "items" .everything identifier) →
            identifiers.count identifier = 1) := by
  have built : Memory.seeded [("items", [("id", .string "a")]), ("items", [("id", .string "b")])] =
      .ok _ := rfl
  have seedsIdentified : ∀ seed ∈ [("items", [("id", Value.string "a")]),
      ("items", [("id", Value.string "b")])],
      ∃ identifier, Document.IdentifiedBy seed.2 identifier := by
    intro seed inside
    simp only [List.mem_cons, List.not_mem_nil, or_false] at inside
    obtain rfl | rfl := inside
    · exact ⟨"a", rfl⟩
    · exact ⟨"b", rfl⟩
  have writesIdentified : ∀ round ∈ [[("items", Operation.saveOne "c" [("id", .string "c")]),
      ("items", Operation.saveOne "a" [("id", .string "a")])]],
      ∀ operation ∈ round, operation.2.Conventional := by
    intro round inside operation among document stored
    obtain rfl := List.mem_singleton.mp inside
    simp only [List.mem_cons, List.not_mem_nil, or_false] at among
    obtain rfl | rfl := among
    · exact ⟨"c", by rw [List.mem_singleton.mp stored]; rfl⟩
    · exact ⟨"a", by rw [List.mem_singleton.mp stored]; rfl⟩
  have positive : 1 ≤ (1 : Int64).toInt := by decide
  have start := conventional_seeded seedsIdentified built "items"
  obtain ⟨visits, stop, identifiers, walked, _, _, ascending, complete⟩ :=
    walk_stable_under_writes start .backward .everything positive (by decide) writesIdentified
  exact ⟨_, built, visits, stop, identifiers, walked, ascending, complete⟩

end Collection

end DocStore
